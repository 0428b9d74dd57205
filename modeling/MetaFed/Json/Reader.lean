import MetaFed.Value

/-!
Reading JSON text. A number without fraction and exponent is whole and may have any size; any
other one is a floating-point number. Of two entries of an object with one key the later value
counts, in the place of the first.
-/

namespace MetaFed.Json

def skipBlank (cs : List Char) : List Char :=
  cs.dropWhile fun c => c == ' ' || c == '\t' || c == '\n' || c == '\r'

def hexDigit? (c : Char) : Option Nat :=
  if '0' ≤ c ∧ c ≤ '9' then some (c.toNat - 48)
  else if 'a' ≤ c ∧ c ≤ 'f' then some (c.toNat - 87)
  else if 'A' ≤ c ∧ c ≤ 'F' then some (c.toNat - 55)
  else none

def unit? (a b c d : Char) : Option Nat := do
  let a ← hexDigit? a
  let b ← hexDigit? b
  let c ← hexDigit? c
  let d ← hexDigit? d
  some (((a * 16 + b) * 16 + c) * 16 + d)

def simpleEscape? : Char → Option Char
  | '"' => some '"'
  | '\\' => some '\\'
  | '/' => some '/'
  | 'b' => some '\x08'
  | 'f' => some '\x0c'
  | 'n' => some '\n'
  | 'r' => some '\r'
  | 't' => some '\t'
  | _ => none

/-- The rest of a string after its opening quote. The high half of a pair of code units waits in
`high` for the low one. -/
def stringBody (acc : List Char) (high : Option Nat) :
    List Char → Option (String × List Char)
  | [] => none
  | '"' :: r => if high.isNone then some (String.ofList acc.reverse, r) else none
  | '\\' :: 'u' :: a :: b :: c :: d :: r =>
    match unit? a b c d, high with
    | some u, none =>
      if 0xD800 ≤ u ∧ u < 0xDC00 then stringBody acc (some u) r
      else if 0xDC00 ≤ u ∧ u < 0xE000 then none
      else stringBody (Char.ofNat u :: acc) none r
    | some u, some h =>
      if 0xDC00 ≤ u ∧ u < 0xE000 then
        stringBody (Char.ofNat (0x10000 + (h - 0xD800) * 1024 + (u - 0xDC00)) :: acc) none r
      else none
    | none, _ => none
  | '\\' :: e :: r =>
    match simpleEscape? e, high with
    | some c, none => stringBody (c :: acc) none r
    | _, _ => none
  | c :: r => if c.toNat < 32 ∨ high.isSome then none else stringBody (c :: acc) none r

def digits (cs : List Char) : List Char × List Char :=
  (cs.takeWhile Char.isDigit, cs.dropWhile Char.isDigit)

def natOf (ds : List Char) : Nat :=
  ds.foldl (fun acc c => acc * 10 + (c.toNat - 48)) 0

/-- Fraction digits after a point; none where there is no point. -/
def fraction? : List Char → Option (Option (List Char) × List Char)
  | '.' :: cs =>
    let (ds, r) := digits cs
    if ds.isEmpty then none else some (some ds, r)
  | cs => some (none, cs)

/-- An exponent; none where there is no mark of one. -/
def exponent? : List Char → Option (Option Int × List Char)
  | c :: cs =>
    if c = 'e' ∨ c = 'E' then
      let negative := cs.head? = some '-'
      let cs := if negative ∨ cs.head? = some '+' then cs.tail else cs
      let (ds, r) := digits cs
      if ds.isEmpty then none else some (some (if negative then -natOf ds else natOf ds), r)
    else some (none, c :: cs)
  | [] => some (none, [])

def number? (cs : List Char) : Option (Value × List Char) := do
  let negative := cs.head? = some '-'
  let cs := if negative then cs.tail else cs
  let (whole, cs) := digits cs
  if whole.isEmpty ∨ (whole.head? = some '0' ∧ whole.length > 1) then none
  else
    let (frac, cs) ← fraction? cs
    let (exp, cs) ← exponent? cs
    match frac, exp with
    | none, none => some (.int (if negative then -natOf whole else natOf whole), cs)
    | _, _ =>
      let ds := frac.getD []
      let value := Binary64.ofDecimal negative (natOf (whole ++ ds)) (exp.getD 0 - ds.length)
      some (.real value, cs)

def word? (w : String) (v : Value) (cs : List Char) : Option (Value × List Char) :=
  if w.toList.isPrefixOf cs then some (v, cs.drop w.length) else none

mutual

/-- One value, nested less than `depth` deep. -/
def valueWithin? : Nat → List Char → Option (Value × List Char)
  | 0, _ => none
  | depth + 1, cs =>
    match skipBlank cs with
    | '"' :: r => (stringBody [] none r).map fun (s, r) => (.text s, r)
    | '[' :: r =>
      match skipBlank r with
      | ']' :: r => some (.list [], r)
      | r => itemsWithin? depth [] r
    | '\x7b' :: r =>
      match skipBlank r with
      | '\x7d' :: r => some (.dict [], r)
      | r => entriesWithin? depth [] r
    | 't' :: r => word? "true" (.bool true) ('t' :: r)
    | 'f' :: r => word? "false" (.bool false) ('f' :: r)
    | 'n' :: r => word? "null" .null ('n' :: r)
    | r => number? r

def itemsWithin? : Nat → List Value → List Char → Option (Value × List Char)
  | 0, _, _ => none
  | depth + 1, acc, cs => do
    let (v, r) ← valueWithin? depth cs
    match skipBlank r with
    | ',' :: r => itemsWithin? depth (v :: acc) r
    | ']' :: r => some (.list (v :: acc).reverse, r)
    | _ => none

def entriesWithin? : Nat → List (String × Value) → List Char → Option (Value × List Char)
  | 0, _, _ => none
  | depth + 1, acc, cs =>
    match skipBlank cs with
    | '"' :: r => do
      let (k, r) ← stringBody [] none r
      match skipBlank r with
      | ':' :: r =>
        let (v, r) ← valueWithin? depth r
        match skipBlank r with
        | ',' :: r => entriesWithin? depth ((k, v) :: acc) r
        | '\x7d' :: r => some (.dict (Assoc.ofList ((k, v) :: acc).reverse), r)
        | _ => none
      | _ => none
    | _ => none

end

/-- Reads a text that holds one JSON value and nothing else. -/
def read? (s : String) : Option Value := do
  let cs := s.toList
  let (v, r) ← valueWithin? (cs.length + 1) cs
  if (skipBlank r).isEmpty then some v else none

end MetaFed.Json
