import MetaFed.Failure

/-!
Messages as values. A message is a dictionary with named fields; a field that is left out is null.
Here are the ways to read a field and the words of closed vocabularies.
-/

namespace MetaFed.Wire

def field (v : Value) (name : String) : Value :=
  match v with
  | .dict es => (Assoc.find? name es).getD .null
  | _ => .null

/-- The message has a field, be it null. -/
def hasField (v : Value) (name : String) : Bool :=
  match v with
  | .dict es => Assoc.has name es
  | _ => false

def text? : Value → Option String
  | .text s => some s
  | _ => none

def textOr (default : String) (v : Value) : String := (text? v).getD default

def textAt (v : Value) (name : String) : String := textOr "" (field v name)

def optTextAt (v : Value) (name : String) : Option String := text? (field v name)

def textAtOr (v : Value) (name default : String) : String :=
  if hasField v name then textAt v name else default

/-- Members of a list; anything else has none. -/
def items : Value → List Value
  | .list vs => vs
  | _ => []

def itemsAt (v : Value) (name : String) : List Value := items (field v name)

def textsOf (v : Value) : List String := (items v).filterMap text?

def textsAt (v : Value) (name : String) : List String := textsOf (field v name)

def entriesAt (v : Value) (name : String) : Assoc String Value :=
  match field v name with
  | .dict es => es
  | _ => []

def flagOr (default : Bool) (v : Value) : Bool :=
  match v with
  | .null => default
  | w => w.isTruthy

def flagAt (v : Value) (name : String) : Bool := flagOr false (field v name)

/-- A whole number field, zero if it is left out; what is not a number has no order. -/
def intAt (v : Value) (name : String) : Attempt Int :=
  match field v name with
  | .null => .ok 0
  | w =>
    match w.whole? with
    | some n => .ok n
    | none => stop .incomparable

def natAt (v : Value) (name : String) : Nat :=
  ((field v name).whole?.map Int.toNat).getD 0

def word {α : Type} (vocabulary : String) (find : String → Option α) (w : String) : Attempt α :=
  match find w with
  | some x => .ok x
  | none => stop (.unknownWord w vocabulary)

def wordOf {α : Type} [DecidableEq α] (words : Assoc String α) (x : α) : String :=
  ((List.find? (fun p => p.2 = x) words).map Prod.fst).getD ""

def textLists (v : Value) : Assoc String (List String) :=
  match v with
  | .dict es => es.map fun (k, w) => (k, textsOf w)
  | _ => []

def optional {α : Type} (out : α → Value) : Option α → Value
  | some x => out x
  | none => .null

def list {α : Type} (out : α → Value) (xs : List α) : Value := .list (xs.map out)

def iso : Option Moment → Value := optional fun t => .text t.iso

mutual

/-- How deep lists and dictionaries are nested. -/
def depth : Value → Nat
  | .list vs => depthOfItems vs + 1
  | .dict es => depthOfEntries es + 1
  | _ => 0

def depthOfItems : List Value → Nat
  | [] => 0
  | v :: vs => max (depth v) (depthOfItems vs)

def depthOfEntries : List (String × Value) → Nat
  | [] => 0
  | (_, v) :: es => max (depth v) (depthOfEntries es)

end

end MetaFed.Wire
