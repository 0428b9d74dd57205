import MetaFed.Text.LetterCase

/-!
Characters that are equal regardless of letter case: those with one lower case, and those whose
lower cases share an upper case (Unicode 14).
-/

namespace MetaFed.Text

/-- Lower-case characters with the other ones of the same upper case. -/
def lowerTwins : List (Nat × List Nat) := [
  (105, [305]), (115, [383]), (181, [956]), (305, [105]), (383, [115]), (837, [953, 8126]),
  (912, [8147]), (944, [8163]), (946, [976]), (949, [1013]), (952, [977]), (953, [837, 8126]),
  (954, [1008]), (956, [181]), (960, [982]), (961, [1009]), (962, [963]), (963, [962]),
  (966, [981]), (976, [946]), (977, [952]), (981, [966]), (982, [960]), (1008, [954]),
  (1009, [961]), (1013, [949]), (1074, [7296]), (1076, [7297]), (1086, [7298]), (1089, [7299]),
  (1090, [7300, 7301]), (1098, [7302]), (1123, [7303]), (7296, [1074]), (7297, [1076]),
  (7298, [1086]), (7299, [1089]), (7300, [1090, 7301]), (7301, [1090, 7300]), (7302, [1098]),
  (7303, [1123]), (7304, [42571]), (7777, [7835]), (7835, [7777]), (8126, [837, 953]),
  (8147, [912]), (8163, [944]), (42571, [7304]), (64261, [64262]), (64262, [64261])]

def lowerOne (c : Char) : Char :=
  (lowerChar c).headD c

/-- Code points apart from `n` itself whose lower case is `n`. -/
def raised (n : Nat) : List Nat :=
  let spanned := lowerSpans.filterMap fun (first, count, step, shift) =>
    let m := (n - shift).toNat
    if first ≤ m ∧ m < first + count * step ∧ (m - first) % step = 0 then some m else none
  spanned ++ (lowerExpansions.filter fun e => e.2.head? == some n).map (·.1)

def caseVariants (c : Char) : List Char :=
  let n := (lowerOne c).toNat
  let lowers := n :: ((lowerTwins.find? (·.1 == n)).map (·.2)).getD []
  (lowers ++ lowers.flatMap raised).map Char.ofNat

def asciiCaseVariants (c : Char) : List Char :=
  [c, c.toLower, c.toUpper]

end MetaFed.Text
