import MetaFed.Regex

/-!
Reading escapes and character sets in expressions.
-/

namespace MetaFed.Regex

/-- What an escape stands for. A code point may lie outside the characters. -/
inductive Escaped where
  | point (n : Nat)
  | part (p : CharSet.Part)
  | anchor (a : Anchor)
  deriving Repr

def digitBelow? (base : Nat) (c : Char) : Option Nat :=
  let v :=
    if '0' ≤ c ∧ c ≤ '9' then c.toNat - 48
    else if 'a' ≤ c ∧ c ≤ 'f' then c.toNat - 87
    else if 'A' ≤ c ∧ c ≤ 'F' then c.toNat - 55
    else 16
  if v < base then some v else none

/-- A number written with exactly `n` digits of a base. -/
def exactly? (base : Nat) : Nat → Nat → List Char → Option (Nat × List Char)
  | 0, acc, cs => some (acc, cs)
  | n + 1, acc, c :: cs => do exactly? base n (acc * base + (← digitBelow? base c)) cs
  | _ + 1, _, [] => none

/-- A number written with at most `n` digits of a base. -/
def atMost (base : Nat) : Nat → Nat → List Char → Nat × List Char
  | 0, acc, cs => (acc, cs)
  | n + 1, acc, c :: cs =>
    match digitBelow? base c with
    | some d => atMost base n (acc * base + d) cs
    | none => (acc, c :: cs)
  | _ + 1, acc, [] => (acc, [])

/-- A character escape of one letter, inside and outside sets. -/
def letterEscape? : Char → Option Char
  | 'a' => some '\x07'
  | 'f' => some '\x0c'
  | 'n' => some '\n'
  | 'r' => some '\r'
  | 't' => some '\t'
  | 'v' => some '\x0b'
  | _ => none

def classEscape? : Char → Option CharSet.Part
  | 'd' => some (.decimal true)
  | 'D' => some (.decimal false)
  | 's' => some (.blank true)
  | 'S' => some (.blank false)
  | 'w' => some (.word true)
  | 'W' => some (.word false)
  | _ => none

def anchorEscape? (ascii : Bool) : Char → Option Anchor
  | 'A' => some .textStart
  | 'Z' => some .textEnd
  | 'b' => some (.wordEdge ascii true)
  | 'B' => some (.wordEdge ascii false)
  | _ => none

/-- The code point of an escape that any place admits, after its backslash. -/
def point? : List Char → Option (Nat × List Char)
  | 'x' :: r => exactly? 16 2 0 r
  | 'u' :: r => exactly? 16 4 0 r
  | 'U' :: r => do
    let (n, r) ← exactly? 16 8 0 r
    if n < 0x110000 then some (n, r) else none
  | c :: r =>
    match letterEscape? c with
    | some d => some (d.toNat, r)
    | none => if c.isAlphanum then none else some (c.toNat, r)
  | [] => none

/-- An escape outside sets after its backslash, unless it starts with a digit above zero. -/
def escape? (ascii : Bool) : List Char → Option (Escaped × List Char)
  | [] => none
  | c :: r =>
    match classEscape? c, anchorEscape? ascii c with
    | some p, _ => some (.part p, r)
    | none, some a => some (.anchor a, r)
    | none, none =>
      if c = '0' then
        let (n, r) := atMost 8 2 0 r
        some (.point n, r)
      else (point? (c :: r)).map fun (n, r) => (.point n, r)

/-- An octal number of at most three digits that fits into eight bits. -/
def octal? (cs : List Char) : Option (Nat × List Char) :=
  let (n, r) := atMost 8 3 0 cs
  if n ≤ 0o377 then some (n, r) else none

def setEscape? : List Char → Option ((Nat ⊕ CharSet.Part) × List Char)
  | [] => none
  | c :: r =>
    match classEscape? c with
    | some p => some (.inr p, r)
    | none =>
      if c = 'b' then some (.inl 8, r)
      else
        let point := if (digitBelow? 8 c).isSome then octal? (c :: r) else point? (c :: r)
        point.map fun (n, r) => (.inl n, r)

/-- One member of a set: a code point or a class. -/
def setMember? : List Char → Option ((Nat ⊕ CharSet.Part) × List Char)
  | [] => none
  | '\\' :: r => setEscape? r
  | c :: r => some (.inl c.toNat, r)

def partOf : Nat ⊕ CharSet.Part → CharSet.Part
  | .inl n => .range n n
  | .inr p => p

/-- The members of a set up to its bracket; a bracket that comes first is a member. -/
def setBody? : Nat → List CharSet.Part → List Char → Option (List CharSet.Part × List Char)
  | 0, _, _ => none
  | n + 1, acc, cs =>
    if cs.head? = some ']' ∧ acc ≠ [] then some (acc, cs.tail)
    else do
      let (m, r) ← setMember? cs
      match r with
      | '-' :: ']' :: r => some (.range 45 45 :: partOf m :: acc, r)
      | '-' :: r =>
        let (m', r) ← setMember? r
        match m, m' with
        | .inl low, .inl high =>
          if low ≤ high then setBody? n (.range low high :: acc) r else none
        | _, _ => none
      | r => setBody? n (partOf m :: acc) r

/-- Whether a set is a complement, and its parts, after its opening bracket. -/
def set? (cs : List Char) : Option (Bool × List CharSet.Part × List Char) := do
  let negated := cs.head? = some '^'
  let cs := if negated then cs.tail else cs
  let (parts, r) ← setBody? (cs.length + 1) [] cs
  some (negated, parts, r)

end MetaFed.Regex
