import MetaFed.Collection

/-!
What a collection says about abstract types: their definitions, and how far mappings provide their
attributes.
-/

namespace MetaFed

/-- How far a type is provided. -/
structure TypeCoverage where
  type : String
  supported : Bool
  unmapped : List String := []
  deriving DecidableEq, Repr

namespace Collection

variable (c : Collection)

def typeDef (name : String) : Attempt TypeDef :=
  match c.table.hierarchy.find? name with
  | some t => .ok t
  | none => refuse (.unmapped name c.table.hierarchy.names)

/-- The attributes that mappings of a type provide; none if it has no mapping. -/
def mappedAttributes? (t : TypeDef) : Option (List String) :=
  match t.category with
  | .entity =>
    ((c.table.forAbstract t.name).filter fun m => !m.isSentinel).map
      EntityMapping.abstractProperties
  | .relationship =>
    match c.table.relationships.filter fun r => r.type == t.name with
    | [] => none
    | rs => some (rs.flatMap fun r => r.properties.map SimpleProperty.abstract)
  | .classification =>
    match c.table.classificationsFor t.name with
    | [] => none
    | cs => some (cs.flatMap fun k => k.properties.map SimpleProperty.abstract)

def coverage (name : String) : Attempt TypeCoverage := do
  let t ← c.typeDef name
  let attributes := c.table.hierarchy.allAttributes name
  match c.mappedAttributes? t with
  | none => .ok ⟨name, false, attributes⟩
  | some mapped =>
    if c.table.unsupported.contains name then .ok ⟨name, false, attributes⟩
    else .ok ⟨name, true, attributes.filter fun a => !mapped.contains a⟩

end Collection

end MetaFed
