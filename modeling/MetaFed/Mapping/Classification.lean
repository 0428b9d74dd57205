import MetaFed.Mapping.Property

/-!
How classifications are read off a record: from a property that is filled in, or from one that has
a certain value.
-/

namespace MetaFed

/-- How a record shows that a classification applies. -/
inductive Signal where
  | present
  | equals
  deriving DecidableEq, Repr

/-- A classification and the catalog properties it is read from. -/
structure ClassificationMapping where
  name : String
  backend : String
  signal : Signal := .present
  value : Value := .null
  properties : List SimpleProperty := []
  deriving Repr

namespace ClassificationMapping

def backendFor (c : ClassificationMapping) (abstract : String) : Option String :=
  (c.properties.find? fun p => p.abstract == abstract).map SimpleProperty.backend

def projected (c : ClassificationMapping) : List String :=
  c.backend :: c.properties.map SimpleProperty.backend

def applies (c : ClassificationMapping) (r : Record) : Bool :=
  let v := r.value c.backend
  match c.signal with
  | .equals => v.same c.value
  | .present => !(v.isAmong [.null, .text "", .list []])

def values (c : ClassificationMapping) (r : Record) : Attempt (Assoc String Value) :=
  r.mapped c.properties [] none

end ClassificationMapping

end MetaFed
