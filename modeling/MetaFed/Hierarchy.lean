import MetaFed.Failure

/-!
Abstract types and their single inheritance. A hierarchy is accepted if its names are distinct,
every supertype is defined and no type is its own ancestor. The way from a type to its ancestors
leaves a definition behind with every step, so it ends on any list of definitions.
-/

namespace MetaFed

inductive TypeCategory where
  | entity
  | relationship
  | classification
  deriving DecidableEq, Repr

/-- An abstract type; `attributes` are those it declares itself. -/
structure TypeDef where
  name : String
  category : TypeCategory := .entity
  supertype : Option String := none
  attributes : List String := []
  description : String := ""
  endTypes : Option (String × String) := none
  validEntityTypes : List String := []
  deriving DecidableEq, Repr

namespace TypeDef

def find? (defs : List TypeDef) (name : String) : Option TypeDef :=
  List.find? (fun t => t.name == name) defs

def without (defs : List TypeDef) (name : String) : List TypeDef :=
  defs.filter fun t => t.name != name

theorem length_without_lt {defs : List TypeDef} {name : String} {t : TypeDef}
    (h : find? defs name = some t) : (without defs name).length < defs.length := by
  have hmem := List.mem_of_find?_eq_some h
  have hname := List.find?_some h
  refine Nat.lt_of_le_of_ne (List.length_filter_le ..) fun e => ?_
  have := List.length_filter_eq_length_iff.1 e t hmem
  simp_all

/-- Ancestors of a name, nearest first. -/
def ancestors (defs : List TypeDef) (name : String) : List String :=
  match _h : find? defs name with
  | none => []
  | some t =>
    match t.supertype with
    | none => []
    | some s => s :: ancestors (without defs name) s
termination_by defs.length
decreasing_by exact length_without_lt (by assumption)

end TypeDef

/-- A list of definitions that form a hierarchy. -/
structure Hierarchy where
  defs : List TypeDef
  deriving Repr

namespace Hierarchy

def dangling? (defs : List TypeDef) : Option (String × String) :=
  defs.findSome? fun t =>
    match t.supertype with
    | some s => if (TypeDef.find? defs s).isSome then none else some (t.name, s)
    | none => none

/-- The first name whose way up meets a type twice. -/
def cyclic? (defs : List TypeDef) : Option String :=
  (defs.map TypeDef.name).find? fun n => ¬ (n :: TypeDef.ancestors defs n).Nodup

def fault? (defs : List TypeDef) : Option Misconfiguration :=
  match firstRepeated? [] (defs.map TypeDef.name), dangling? defs, cyclic? defs with
  | some n, _, _ => some (.duplicateType n)
  | none, some (n, s), _ => some (.unknownSupertype n s)
  | none, none, some n => some (.cycle n)
  | none, none, none => none

def build (defs : List TypeDef) : Attempt Hierarchy :=
  match fault? defs with
  | some m => refuse (.configuration m)
  | none => .ok ⟨defs⟩

def find? (h : Hierarchy) (name : String) : Option TypeDef :=
  TypeDef.find? h.defs name

def has (h : Hierarchy) (name : String) : Bool :=
  (h.find? name).isSome

def names (h : Hierarchy) : List String :=
  h.defs.map TypeDef.name

def ofCategory (h : Hierarchy) (c : TypeCategory) : List TypeDef :=
  h.defs.filter fun t => t.category = c

def supertypes (h : Hierarchy) (name : String) : List String :=
  TypeDef.ancestors h.defs name

/-- A name is the candidate or one of its descendants. -/
def isTypeOf (h : Hierarchy) (name candidate : String) : Bool :=
  if name = candidate then h.has name else (h.supertypes name).contains candidate

def subtypes (h : Hierarchy) (name : String) : List String :=
  h.names.filter fun n => n ≠ name ∧ h.isTypeOf n name

/-- Attributes after those of one more definition; a name is listed once. -/
def addAttributes (seen : List String) (t : TypeDef) : List String :=
  t.attributes.foldl (fun acc a => if a ∈ acc then acc else acc ++ [a]) seen

/-- Attributes a type declares or inherits, those of the root first. -/
def allAttributes (h : Hierarchy) (name : String) : List String :=
  (name :: h.supertypes name).reverse.foldl (fun seen n =>
    match h.find? n with
    | some t => addAttributes seen t
    | none => seen) []

end Hierarchy

end MetaFed
