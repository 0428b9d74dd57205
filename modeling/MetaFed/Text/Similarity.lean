import MetaFed.Sorted

/-!
How alike two texts are, and which known names a mistyped one may stand for. Likeness is twice
the number of matched characters over both lengths; characters are matched by taking the longest
common block, earliest first, and then matching what lies left and right of it. In a goal of two
hundred characters or more, characters that fill over a hundredth of it start no block.
-/

namespace MetaFed.Text.Similarity

/-- A common block: where it starts in either text, and its length. -/
structure Block where
  left : Nat
  right : Nat
  size : Nat
  deriving DecidableEq, Repr

/-- Characters of a long goal that are too frequent to start a block. -/
def isPopular (goal : List Char) (c : Char) : Bool :=
  200 ≤ goal.length && goal.length / 100 + 1 < goal.count c

/-- Lengths of the common runs that end at one character of the left text and at each
character of the right one, from those that end one character before. -/
def runsAt (popular : Char → Bool) (c : Char) (b : List Char) (before : List Nat) : List Nat :=
  (b.zip (0 :: before)).map fun (d, n) => if c = d ∧ popular c = false then n + 1 else 0

/-- The best block after the runs that end at left index `i`; a longer run replaces it. -/
def better (i : Nat) (runs : List Nat) (best : Block) : Block :=
  runs.zipIdx.foldl (fun acc (k, j) =>
    if acc.size < k then ⟨i + 1 - k, j + 1 - k, k⟩ else acc) best

/-- The longest block without popular characters, from left index `i` on. -/
def longestFrom (popular : Char → Bool) (b : List Char) :
    Nat → List Nat → Block → List Char → Block
  | _, _, best, [] => best
  | i, runs, best, c :: r =>
    let runs' := runsAt popular c b runs
    longestFrom popular b (i + 1) runs' (better i runs' best) r

def commonStart : List Char → List Char → Nat
  | a :: as, b :: bs => if a = b then commonStart as bs + 1 else 0
  | _, _ => 0

/-- A block made as long as the texts allow, first to the left and then to the right. -/
def widened (a b : List Char) (m : Block) : Block :=
  let l := commonStart (a.take m.left).reverse (b.take m.right).reverse
  let r := commonStart (a.drop (m.left + m.size)) (b.drop (m.right + m.size))
  ⟨m.left - l, m.right - l, m.size + l + r⟩

def longest (popular : Char → Bool) (a b : List Char) : Block :=
  widened a b (longestFrom popular b 0 (b.map fun _ => 0) ⟨0, 0, 0⟩ a)

def matched (popular : Char → Bool) (a b : List Char) : Nat :=
  match longest popular a b with
  | ⟨i, j, k⟩ =>
    if _h : 0 < k ∧ i + k ≤ a.length then
      k + matched popular (a.take i) (b.take j) + matched popular (a.drop (i + k)) (b.drop (j + k))
    else 0
termination_by a.length
decreasing_by
  · simp only [List.length_take]; omega
  · simp only [List.length_drop]; omega

/-- Likeness of a known name to a goal, as the fraction `(numerator, denominator)`. -/
def likeness (goal known : List Char) : Nat × Nat :=
  let total := known.length + goal.length
  if total = 0 then (1, 1) else (2 * matched (isPopular goal) known goal, total)

/-- Known names by likeness, then by code points, greatest first. -/
def precedes (x y : (Nat × Nat) × String) : Bool :=
  let l := x.1.1 * y.1.2
  let r := y.1.1 * x.1.2
  r < l || (l == r && y.2 ≤ x.2)

/-- The three known names most like the goal, of those that are like it by three fifths. -/
def suggestions (goal : String) (known : List String) : List String :=
  let scored := known.map fun k => (likeness goal.toList k.toList, k)
  let close := scored.filter fun s => 3 * s.1.2 ≤ 5 * s.1.1
  ((sortBy precedes close).take 3).map Prod.snd

end MetaFed.Text.Similarity
