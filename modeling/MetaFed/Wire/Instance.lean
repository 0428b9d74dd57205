import MetaFed.Link
import MetaFed.Wire

/-!
Records, links and instances as messages. In the properties of a record that is read, a dictionary
under `$reference` stands for a reference.
-/

namespace MetaFed

open Wire

mutual

def Value.withReferences : Value → Attempt Value
  | .dict [("$reference", .dict es)] => do .ok (.reference (← Reference.ofFields es))
  | .dict [("$reference", _)] => stop .illFormed
  | .dict es => do .ok (.dict (← Value.entriesWithReferences es))
  | .list vs => do .ok (.list (← Value.itemsWithReferences vs))
  | v => .ok v

def Value.itemsWithReferences : List Value → Attempt (List Value)
  | [] => .ok []
  | v :: vs => do
    let w ← v.withReferences
    .ok (w :: (← Value.itemsWithReferences vs))

def Value.entriesWithReferences : List (String × Value) → Attempt (List (String × Value))
  | [] => .ok []
  | (k, v) :: es => do
    let w ← v.withReferences
    .ok ((k, w) :: (← Value.entriesWithReferences es))

end

namespace Record

def read (v : Value) : Attempt Record := do
  match v with
  | .dict es =>
    match Assoc.find? "properties" es with
    | some ps => ofFields (Assoc.put "properties" (← ps.withReferences) es)
    | none => ofFields es
  | v => ofValue v

def toValue (r : Record) : Value :=
  .dict [("_id", .text r.id), ("_type", .text r.type), ("_name", .ofText? r.ref.name),
    ("properties", .dict r.properties), ("_context", .texts r.contextNames),
    ("created_on", iso r.createdOn), ("modified_on", iso r.modifiedOn)]

end Record

def Classification.toValue (c : Classification) : Value :=
  .dict [("name", .text c.name), ("properties", .dict c.properties)]

def EntityProxy.toValue (p : EntityProxy) : Value :=
  .dict [("guid", .text p.guid), ("type_name", .text p.type),
    ("metadata_collection_id", .text p.home), ("qualified_name", .ofText? p.qualifiedName)]

def Entity.toValue (e : Entity) : Value :=
  .dict [("guid", .text e.guid), ("type_name", .text e.type),
    ("metadata_collection_id", .text e.home), ("properties", .dict e.properties),
    ("classifications", list Classification.toValue e.classifications),
    ("created_on", iso e.createdOn), ("created_by", .ofText? e.createdBy),
    ("modified_on", iso e.modifiedOn), ("modified_by", .ofText? e.modifiedBy)]

def Relationship.toValue (r : Relationship) : Value :=
  .dict [("guid", .text r.guid), ("type_name", .text r.type),
    ("metadata_collection_id", .text r.home), ("end_one", r.one.toValue),
    ("end_two", r.two.toValue), ("properties", .dict r.properties)]

def Neighborhood.toValue (n : Neighborhood) : Value :=
  .dict [("entities", list Entity.toValue n.entities),
    ("relationships", list Relationship.toValue n.relationships)]

def Link.toValue (home : String) (l : Link) : Attempt Value := do
  let guid ← (← l.identity home).guid
  .ok (.dict [("type", .text l.mapping.type), ("one", .reference l.one), ("two", .reference l.two),
    ("level", optional .reference l.level), ("properties", .dict l.properties),
    ("guid", .text guid)])

def RecordRef.toValue (r : RecordRef) : Value :=
  .dict [("asset_type", .text r.assetType), ("record_id", .text r.recordId),
    ("prefix", .ofText? r.mark)]

def RecordRef.read (v : Value) : Attempt RecordRef :=
  RecordRef.of (textAt v "asset_type") (textAt v "record_id") (optTextAt v "prefix")

end MetaFed
