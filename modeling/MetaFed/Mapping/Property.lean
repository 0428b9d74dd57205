import MetaFed.QualifiedName
import MetaFed.Record

/-!
How abstract properties get their values from a record. A simple property is copied from one
catalog property. A complex one is computed: the qualified name, a constant, or the name of the
record that a reference points to. A property without value is left out.
-/

namespace MetaFed

structure SimpleProperty where
  backend : String
  abstract : String
  required : Bool := false
  deriving DecidableEq, Repr

inductive ComplexKind where
  | qualifiedName
  | literal
  | referenceName
  deriving DecidableEq, Repr

/-- An abstract property computed from a record. -/
structure ComplexProperty where
  abstract : String
  kind : ComplexKind
  backend : Option String := none
  literal : Value := .null
  deriving Repr

def qualifiedNameProperty : String := "qualifiedName"

namespace ComplexProperty

def qualifiedName : ComplexProperty := ⟨qualifiedNameProperty, .qualifiedName, none, .null⟩

/-- The catalog path that reaches the property's values, where there is one. -/
def searchPath (p : ComplexProperty) : Option String :=
  match p.kind, p.backend with
  | .referenceName, some b => if b = "" then none else some (b ++ "." ++ Record.nameProperty)
  | _, _ => none

end ComplexProperty

namespace Record

/-- The qualified name of a record under an asset type and a synthetic prefix; none where the
record has no name. -/
def qualifiedName (r : Record) (assetType : Option String) (mark : Option String) :
    Option String :=
  let name := r.value nameProperty
  if name.isTruthy then
    let t := (assetType.filter (· ≠ "")).getD r.type
    some (QualifiedName.format t (r.contextNames ++ [name.asText]) mark)
  else none

/-- The names of references: none, a text, or a list of texts. -/
def namesValue (refs : List Reference) : Value :=
  match (refs.filterMap Reference.name).filter (· ≠ "") with
  | [] => .null
  | [n] => .text n
  | ns => .texts ns

def complexValue (r : Record) (p : ComplexProperty) (mark : Option String) : Attempt Value :=
  match p.kind with
  | .qualifiedName => .ok (.ofText? (r.qualifiedName none mark))
  | .literal => .ok p.literal
  | .referenceName =>
    match p.backend with
    | none => .ok .null
    | some b => (r.references b).map namesValue

/-- Values after those of the simple properties; a required one without value is a fault. -/
def putSimple (r : Record) : List SimpleProperty → Assoc String Value → Attempt (Assoc String Value)
  | [], vs => .ok vs
  | p :: ps, vs =>
    let v := r.value p.backend
    if v.isNull then
      if p.required then stop (.missingValue p.backend) else putSimple r ps vs
    else putSimple r ps (Assoc.put p.abstract v vs)

/-- Values after those of the complex properties; a record without name has no qualified name,
which is a fault. -/
def putComplex (r : Record) (mark : Option String) :
    List ComplexProperty → Assoc String Value → Attempt (Assoc String Value)
  | [], vs => .ok vs
  | p :: ps, vs => do
    let v ← r.complexValue p mark
    if v.isNull then
      if p.kind = .qualifiedName then stop (.missingValue p.abstract) else putComplex r mark ps vs
    else putComplex r mark ps (Assoc.put p.abstract v vs)

def mapped (r : Record) (simple : List SimpleProperty) (complex : List ComplexProperty)
    (mark : Option String) : Attempt (Assoc String Value) := do
  putComplex r mark complex (← putSimple r simple [])

end Record

end MetaFed
