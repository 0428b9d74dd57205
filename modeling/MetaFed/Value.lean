import MetaFed.Assoc
import MetaFed.Moment
import MetaFed.Number.Binary64

/-!
Property values. The catalog does not fix the type of a property, so a value says itself what it
is: a scalar, a list, a dictionary with its entries in insertion order, a point in time, or a
reference to another record. Equality goes by meaning: truth values count as 0 and 1, whole and
floating-point numbers are compared exactly, and the order of a dictionary's entries is ignored.
-/

namespace MetaFed

/-- A pointer to a catalog record, with the record's name where the catalog embeds it. -/
structure Reference where
  id : String
  type : String
  name : Option String := none
  deriving DecidableEq, Repr, Inhabited

inductive Value where
  | null
  | bool (b : Bool)
  | int (i : Int)
  | real (x : Binary64)
  | text (s : String)
  | list (xs : List Value)
  | dict (entries : List (String × Value))
  | moment (t : Moment)
  | reference (r : Reference)
  deriving Repr, Inhabited

namespace Value

/-- The whole number a truth value or whole number stands for. -/
def whole? : Value → Option Int
  | .bool b => some (if b then 1 else 0)
  | .int i => some i
  | _ => none

/-- Order of two numbers by value; truth values are numbers. -/
def compareNumbers? (a b : Value) : Option Ordering :=
  match a.whole?, b.whole?, a, b with
  | some i, some j, _, _ => some (Ord.compare i j)
  | some i, none, _, .real y => some (Binary64.compareInt i y)
  | none, some j, .real x, _ => some (Binary64.compareInt j x).swap
  | none, none, .real x, .real y => some (Binary64.compare x y)
  | _, _, _, _ => none

mutual

/-- Equality by meaning; values of different kinds differ. -/
def same : Value → Value → Bool
  | .null, .null => true
  | .text s, .text t => s == t
  | .list xs, .list ys => sameItems xs ys
  | .dict es, .dict fs => es.length == fs.length && sameEntries es fs
  | .moment s, .moment t => s.same t
  | .reference r, .reference s => r == s
  | a, b => compareNumbers? a b == some .eq

def sameItems : List Value → List Value → Bool
  | [], [] => true
  | x :: xs, y :: ys => same x y && sameItems xs ys
  | _, _ => false

/-- Every entry has an equal partner under its key. -/
def sameEntries : List (String × Value) → List (String × Value) → Bool
  | [], _ => true
  | (k, v) :: es, fs =>
    match Assoc.find? k fs with
    | some w => same v w && sameEntries es fs
    | none => false

end

def isNull : Value → Bool
  | .null => true
  | _ => false

theorem null_same (v : Value) : null.same v = v.isNull := by
  cases v <;> simp [same, isNull, compareNumbers?, whole?]

theorem text_same_text (s t : String) : (text s).same (text t) = (s == t) := by
  simp only [same]

theorem same_text_of_not_text {v : Value} (hv : ∀ s, v ≠ .text s) (t : String) :
    v.same (.text t) = false := by
  cases v with
  | text s => exact absurd rfl (hv s)
  | _ => simp [same, compareNumbers?, whole?]

/-- Null, false, zero, and whatever is empty do not count as present. -/
def isTruthy : Value → Bool
  | .null => false
  | .bool b => b
  | .int i => i != 0
  | .real x => !x.isZero
  | .text s => s != ""
  | .list xs => !xs.isEmpty
  | .dict es => !es.isEmpty
  | .moment _ => true
  | .reference _ => true

def isAmong (v : Value) (xs : List Value) : Bool :=
  xs.any (same v)

mutual

/-- Order of two values, where they have one: numbers, texts, lists and points in time of one
kind. -/
def compare? : Value → Value → Option Ordering
  | .text s, .text t => some (Ord.compare s t)
  | .list xs, .list ys => compareItems? xs ys
  | .moment s, .moment t => s.compare? t
  | a, b => compareNumbers? a b

/-- Lists are ordered by the first pair of members that are not equal, then by length. -/
def compareItems? : List Value → List Value → Option Ordering
  | [], [] => some .eq
  | [], _ :: _ => some .lt
  | _ :: _, [] => some .gt
  | x :: xs, y :: ys => if same x y then compareItems? xs ys else compare? x y

end

end Value

def Value.ofText? : Option String → Value
  | some s => .text s
  | none => .null

def Value.texts (ss : List String) : Value :=
  .list (ss.map .text)

end MetaFed
