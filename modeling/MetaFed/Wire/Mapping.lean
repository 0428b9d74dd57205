import MetaFed.Mapping.Document
import MetaFed.Mapping.Standard
import MetaFed.Wire

/-!
Types and mappings as messages. A table is given as a document, or as the standard mappings over
some types.
-/

namespace MetaFed

open Wire

namespace TypeCategory

def words : Assoc String TypeCategory :=
  [("entity", .entity), ("relationship", .relationship), ("classification", .classification)]

def read (w : String) : Attempt TypeCategory :=
  Wire.word "TypeDefCategory" (fun w => Assoc.find? w words) w

end TypeCategory

namespace TypeDef

/-- Reads a type; it is an entity type if nothing else is said. -/
def read (v : Value) : Attempt TypeDef := do
  .ok { name := textAt v "name",
        category := ← TypeCategory.read (textOr "entity" (field v "category")),
        supertype := optTextAt v "supertype", attributes := textsAt v "attributes",
        description := textAt v "description", endTypes := ends (textsAt v "end_types"),
        validEntityTypes := textsAt v "valid_entity_types" }
where
  ends : List String → Option (String × String)
    | [a, b] => some (a, b)
    | _ => none

def toValue (t : TypeDef) : Value :=
  .dict [("name", .text t.name), ("category", .text (wordOf TypeCategory.words t.category)),
    ("supertype", .ofText? t.supertype), ("attributes", .texts t.attributes),
    ("description", .text t.description),
    ("end_types", optional (fun (a, b) => .texts [a, b]) t.endTypes),
    ("valid_entity_types", .texts t.validEntityTypes)]

end TypeDef

/-- Reads a hierarchy; the standard one is meant if none is given. -/
def Hierarchy.read (v : Value) : Attempt Hierarchy :=
  if v.isNull then .ok Hierarchy.standard
  else do Hierarchy.build (← (items v).mapM TypeDef.read)

/-- Reads a table; the standard one is meant if none is given. -/
def MappingTable.read (v : Value) : Attempt MappingTable :=
  if v.isNull then .ok MappingTable.standard
  else do
    let h ← Hierarchy.read (field v "typedefs")
    let base := Hierarchy.Standard.baseType
    match field v "json", hasField v "config" with
    | .text t, _ => MappingTable.ofJson h base t
    | _, true => MappingTable.ofDocument h base (field v "config")
    | _, false =>
      let unsupported :=
        if hasField v "unsupported_types" then textsAt v "unsupported_types"
        else Standard.unsupported
      MappingTable.build h Standard.mappings (textOr base (field v "base_type")) unsupported

def SimpleProperty.toValue (p : SimpleProperty) : Value :=
  .dict [("backend_property", .text p.backend), ("abstract_property", .text p.abstract),
    ("required", .bool p.required)]

def ComplexProperty.toValue (p : ComplexProperty) : Value :=
  .dict [("abstract_property", .text p.abstract),
    ("kind", .text (wordOf ComplexKind.words p.kind)),
    ("backend_property", .ofText? p.backend), ("literal", p.literal)]

def ComplexProperty.read (v : Value) : Attempt ComplexProperty := do
  let kind ←
    word "ComplexPropertyKind" (fun w => Assoc.find? w ComplexKind.words) (textAt v "kind")
  .ok ⟨textAt v "abstract", kind, optTextAt v "backend", field v "literal"⟩

def ClassificationMapping.toValue (c : ClassificationMapping) : Value :=
  .dict [("name", .text c.name), ("signal", .text (wordOf Signal.words c.signal)),
    ("value", c.value), ("projected", .texts c.projected)]

def End.words : Assoc String End := [("one", .one), ("two", .two)]

def EndMapping.toValue (e : EndMapping) : Value :=
  .dict [("asset_type", .text e.assetType), ("prefix", .ofText? e.mark),
    ("navigation_property", .ofText? e.navigation), ("link_property", .ofText? e.link)]

namespace RelationshipMapping

def toValue (m : RelationshipMapping) : Value :=
  .dict [("relationship_type", .text m.type), ("kind", .text (wordOf RelationshipKind.words m.kind)),
    ("proxy_one", m.one.toValue), ("proxy_two", m.two.toValue),
    ("relationship_level_type", .ofText? m.levelType),
    ("properties", list SimpleProperty.toValue m.properties)]

def read (v : Value) : Attempt RelationshipMapping :=
  match v with
  | .dict es =>
    match keyedOfValue? (.dict (Assoc.put "key" (.text "") es)) with
    | some (_, m) => m.checked
    | none => stop .illFormed
  | _ => stop .illFormed

end RelationshipMapping

def EntityMapping.toValue (m : EntityMapping) : Value :=
  .dict [("asset_type", .text m.assetType), ("prefix", .ofText? m.mark),
    ("is_sentinel", .bool m.isSentinel), ("identity_head", .text m.identityHead),
    ("has_qualified_name", .bool m.hasQualifiedName), ("searchable", .bool m.searchable),
    ("abstract_properties", .texts m.abstractProperties),
    ("projected_properties", .texts m.projected),
    ("context_properties", optional .texts m.contextPaths),
    ("type_conditions", list NativeCondition.toValue m.typeConditions),
    ("search_paths", list (fun p => .ofText? p.searchPath) m.complex),
    ("classifications", list ClassificationMapping.toValue m.classifications),
    ("relationships", .texts (m.relationships.map RelationshipMapping.type))]

end MetaFed
