import MetaFed.Assoc
import MetaFed.Regex.CharSet

/-!
Regular expressions and whether one matches a whole text. An expression relates a place in a text
to the places where a match that starts there may end, in the order in which they are to be tried.
The order matters where only the first end counts, as in an atomic group.
-/

namespace MetaFed

inductive Regex.Anchor where
  | textStart
  | lineStart
  /-- The end, or the line feed that ends the text. -/
  | lastLineEnd
  | lineEnd
  | textEnd
  | wordEdge (ascii wanted : Bool)
  deriving DecidableEq, Repr

inductive Regex where
  | empty
  | set (s : CharSet)
  | anchor (a : Regex.Anchor)
  | seq (a b : Regex)
  | alt (a b : Regex)
  /-- As many times as possible within bounds, or as few. -/
  | rep (low : Nat) (high : Option Nat) (reluctant : Bool) (a : Regex)
  /-- A part whose text is kept under a number. -/
  | group (i : Nat) (a : Regex)
  /-- The text of a group once more; its width is known if every text of the group has it. -/
  | again (i : Nat) (foldCase ascii : Bool) (width : Option Nat)
  /-- One expression where a group has a text, another where it has none. -/
  | choose (i : Nat) (a b : Regex)
  /-- The first match only. -/
  | atomic (a : Regex)
  /-- A place where a match starts, or where none does. -/
  | ahead (wanted : Bool) (a : Regex)
  /-- A place where a match of some width ends, or where none does. -/
  | behind (wanted : Bool) (width : Nat) (a : Regex)
  deriving Repr

namespace Regex

/-- A place in a text: the characters before it, nearest first, those after it, and the texts of
the groups that were matched on the way. -/
structure Place where
  before : List Char
  after : List Char
  groups : Assoc Nat (List Char) := []
  deriving DecidableEq, Repr

namespace Place

def start (s : List Char) : Place := { before := [], after := s }

def forward (p : Place) (n : Nat) : Place :=
  { p with before := (p.after.take n).reverse ++ p.before, after := p.after.drop n }

def back (p : Place) (n : Nat) : Place :=
  { p with before := p.before.drop n, after := (p.before.take n).reverse ++ p.after }

def textTo (p q : Place) : List Char :=
  p.after.take (p.after.length - q.after.length)

def keep (i : Nat) (p q : Place) : Place :=
  { q with groups := Assoc.put i (p.textTo q) q.groups }

end Place

/-- The condition holds at a place. No place in an empty text is at or off the edge of a word. -/
def Anchor.holds (p : Place) : Anchor → Bool
  | .textStart => p.before.isEmpty
  | .lineStart => p.before.isEmpty || p.before.head? == some '\n'
  | .lastLineEnd => p.after.isEmpty || p.after == ['\n']
  | .lineEnd => p.after.isEmpty || p.after.head? == some '\n'
  | .textEnd => p.after.isEmpty
  | .wordEdge ascii wanted =>
    let l := p.before.head?.any (CharSet.isWord ascii)
    let r := p.after.head?.any (CharSet.isWord ascii)
    !(p.before.isEmpty && p.after.isEmpty) && (l != r) == wanted

def steps (step : Place → List Place) : Nat → List Place → List Place
  | 0, ps => ps
  | n + 1, ps => steps step n (ps.flatMap step).eraseDups

def withMember {α : Type} [BEq α] (xs : List α) (x : α) : List α :=
  if xs.contains x then xs else xs ++ [x]

/-- Visits what at most `n` further steps reach, most steps first or fewest first. A place is kept
under a mark and not visited twice under one mark: the number of steps that are left, if it counts,
and otherwise one for all numbers. A step that takes up no text is the last one. -/
def visit (counted reluctant : Bool) (step : Place → List Place) :
    Nat → List (Nat × Place) → Place → List (Nat × Place)
  | 0, seen, p => withMember seen (0, p)
  | n + 1, seen, p =>
    let mark := if counted then n + 1 else 1
    if seen.contains (mark, p) then seen
    else
      let further := fun seen q =>
        if q.after.length < p.after.length then visit counted reluctant step n seen q
        else withMember seen (0, q)
      if reluctant then (step p).foldl further (seen ++ [(mark, p)])
      else (step p).foldl further seen ++ [(mark, p)]

/-- Where steps lead from a place, at most so many of them as are given. More steps than
characters are left, and one, lead nowhere else. -/
def stepsUpTo (reluctant : Bool) (step : Place → List Place) (most : Option Nat) (p : Place) :
    List Place :=
  let n := p.after.length + 1
  ((visit most.isSome reluctant step ((most.map (min n)).getD n) [] p).map (·.2)).eraseDups

/-- A place passes if a match from it was found as wanted; its groups are kept. -/
def look (wanted : Bool) (found : List Place) (p : Place) : List Place :=
  match found with
  | [] => if wanted then [] else [p]
  | q :: _ => if wanted then [{ p with groups := q.groups }] else []

/-- Where a match that starts at a place may end. -/
def ends : Regex → Place → List Place
  | .empty, p => [p]
  | .set s, p =>
    match p.after with
    | [] => []
    | c :: r => if s.has c then [{ p with before := c :: p.before, after := r }] else []
  | .anchor a, p => if a.holds p then [p] else []
  | .seq a b, p => ((a.ends p).flatMap b.ends).eraseDups
  | .alt a b, p => (a.ends p ++ b.ends p).eraseDups
  | .rep low high reluctant a, p =>
    ((steps a.ends (min low (p.after.length + 1)) [p]).flatMap
      (stepsUpTo reluctant a.ends (high.map (· - low)))).eraseDups
  | .group i a, p => (a.ends p).map (p.keep i)
  | .again i foldCase ascii _, p =>
    match Assoc.find? i p.groups with
    | none => []
    | some t =>
      let u := p.after.take t.length
      let same := (List.zip u t).all fun (c, d) => CharSet.alike foldCase ascii c d
      if u.length = t.length ∧ same then [p.forward t.length] else []
  | .choose i a b, p => if Assoc.has i p.groups then a.ends p else b.ends p
  | .atomic a, p => (a.ends p).take 1
  | .ahead wanted a, p => look wanted (a.ends p) p
  | .behind wanted n a, p =>
    look wanted (if n ≤ p.before.length then a.ends (p.back n) else []) p

def matchesAll (r : Regex) (s : List Char) : Bool :=
  (r.ends (Place.start s)).any fun p => p.after.isEmpty

def sameWidth? : Option Nat → Option Nat → Option Nat
  | some m, some n => if m = n then some m else none
  | _, _ => none

/-- The number of characters of every match, if all matches have one number. -/
def width? : Regex → Option Nat
  | .empty => some 0
  | .set _ => some 1
  | .anchor _ => some 0
  | .seq a b => do some ((← a.width?) + (← b.width?))
  | .alt a b => sameWidth? a.width? b.width?
  | .rep low high _ a =>
    if a.width? = some 0 ∨ high = some 0 then some 0
    else if high = some low then a.width?.map (· * low)
    else none
  | .group _ a => a.width?
  | .again _ _ _ width => width
  | .choose _ a b => sameWidth? a.width? b.width?
  | .atomic a => a.width?
  | .ahead .. => some 0
  | .behind .. => some 0

/-- The expression without the groups whose texts nothing asks for. -/
def keepOnly (used : List Nat) : Regex → Regex
  | .seq a b => .seq (a.keepOnly used) (b.keepOnly used)
  | .alt a b => .alt (a.keepOnly used) (b.keepOnly used)
  | .rep low high reluctant a => .rep low high reluctant (a.keepOnly used)
  | .group i a => if used.contains i then .group i (a.keepOnly used) else a.keepOnly used
  | .choose i a b => .choose i (a.keepOnly used) (b.keepOnly used)
  | .atomic a => .atomic (a.keepOnly used)
  | .ahead wanted a => .ahead wanted (a.keepOnly used)
  | .behind wanted n a => .behind wanted n (a.keepOnly used)
  | r => r

end Regex

end MetaFed
