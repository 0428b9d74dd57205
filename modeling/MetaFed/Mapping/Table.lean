import MetaFed.Hierarchy
import MetaFed.Mapping.Entity
import MetaFed.Sorted

/-!
The table of all entity mappings. It is accepted if every mapping is of a known entity type, no
entity type and no pair of asset type and synthetic prefix is mapped twice, all classifications
and relationships are known types, and both ends of every relationship are mapped. Sentinels hold
a place in the table but have no records.
-/

namespace MetaFed

/-- Entity mappings in the order they were given, over a hierarchy. -/
structure MappingTable where
  hierarchy : Hierarchy
  mappings : List EntityMapping
  baseType : String
  unsupported : List String
  deriving Repr

namespace MappingTable

/-- The mappings that have records. -/
def backed (ms : List EntityMapping) : List EntityMapping :=
  ms.filter fun m => !m.isSentinel

def owner? (ms : List EntityMapping) (assetType : String) (mark : Option String) :
    Option EntityMapping :=
  (backed ms).find? fun m => m.assetType == assetType && m.mark == mark

/-- The relationship mappings of some entity mappings, each once. -/
def relationshipsOf (ms : List EntityMapping) : List RelationshipMapping :=
  firsts ((backed ms).flatMap EntityMapping.relationships)

/-- What is wrong with one more mapping after those before it, if anything is. -/
def mappingFault? (h : Hierarchy) (before : List EntityMapping) (m : EntityMapping) :
    Option Misconfiguration :=
  if ¬ (h.find? m.abstractType).any (fun t => t.category = .entity) then
    some (.unknownEntityType m.abstractType)
  else if before.any fun n => n.abstractType == m.abstractType then
    some (.repeatedType m.abstractType)
  else
    match m.classifications.find? (fun c => !h.has c.name),
        m.relationships.find? (fun r => !h.has r.type) with
    | some c, _ => some (.unknownClassification m.abstractType c.name)
    | none, some r => some (.unknownRelationship m.abstractType r.type)
    | none, none =>
      if m.isSentinel then none
      else
        (owner? before m.assetType m.mark).map fun n =>
          .sharedIdentity m.abstractType n.abstractType m.identityHead

def mappingsFault? (h : Hierarchy) :
    List EntityMapping → List EntityMapping → Option Misconfiguration
  | _, [] => none
  | before, m :: ms =>
    match mappingFault? h before m with
    | some f => some f
    | none => mappingsFault? h (before ++ [m]) ms

def endFault? (ms : List EntityMapping) (r : RelationshipMapping) (e : EndMapping) :
    Option Misconfiguration :=
  if (owner? ms e.assetType e.mark).isSome then none
  else some (.unmappedEnd r.type e.assetType e.mark)

def fault? (h : Hierarchy) (ms : List EntityMapping) (baseType : String) :
    Option Misconfiguration :=
  match mappingsFault? h [] ms with
  | some f => some f
  | none =>
    if h.has baseType then
      (relationshipsOf ms).findSome? fun r => endFault? ms r r.one <|> endFault? ms r r.two
    else some (.unknownBaseType baseType)

def build (h : Hierarchy) (ms : List EntityMapping) (baseType : String)
    (unsupported : List String) : Attempt MappingTable :=
  match fault? h ms baseType with
  | some f => refuse (.configuration f)
  | none => .ok ⟨h, ms, baseType, unsupported⟩

variable (t : MappingTable)

def forAbstract (name : String) : Option EntityMapping :=
  t.mappings.find? fun m => m.abstractType == name

/-- The mappings of an asset type, one for each synthetic prefix. -/
def forAsset (assetType : String) : List EntityMapping :=
  (backed t.mappings).filter fun m => m.assetType == assetType

/-- The mapping that owns the records of an asset type under a synthetic prefix. -/
def forIdentity (assetType : String) (mark : Option String) : Option EntityMapping :=
  owner? t.mappings assetType (mark.filter (· ≠ ""))

def forMark (mark : String) : List EntityMapping :=
  (backed t.mappings).filter fun m => m.mark == some mark

def relationships : List RelationshipMapping :=
  relationshipsOf t.mappings

def abstractTypes : List String :=
  t.mappings.map EntityMapping.abstractType

def checkType (name : String) : Attempt Unit :=
  if ¬ t.hierarchy.has name then refuse (.unmapped name t.hierarchy.names)
  else if name ∈ t.unsupported then
    refuse (.typeNotSupported name "deliberately not implemented")
  else .ok ()

def checkTypes : List String → Attempt Unit
  | [] => .ok ()
  | n :: ns => do
    t.checkType n
    checkTypes ns

def checkClassification (name : String) : Attempt Unit :=
  if (t.hierarchy.find? name).any fun d => d.category = .classification then .ok ()
  else
    refuse (.unmapped name ((t.hierarchy.ofCategory .classification).map TypeDef.name))

/-- A mapping can be searched, and is within the types asked for where there are any. -/
def isEligible (m : EntityMapping) (within : List String) : Bool :=
  !m.isSentinel && m.searchable && m.abstractType != t.baseType &&
    (within.isEmpty || within.any fun n => t.hierarchy.isTypeOf m.abstractType n)

/-- The mappings of a type and its descendants: its own first, the others in table order. -/
def subtree (name : String) : List EntityMapping :=
  (t.forAbstract name).toList ++
    t.mappings.filter fun m => m.abstractType ≠ name ∧ t.hierarchy.isTypeOf m.abstractType name

def expand (type : Option String) (within : List String) : Attempt (List EntityMapping) := do
  t.checkTypes within
  match type with
  | none => .ok (t.mappings.filter fun m => t.isEligible m within)
  | some name =>
    t.checkType name
    let ms := t.subtree name
    let found := ms.filter fun m => t.isEligible m within
    if (backed ms).isEmpty then refuse (.unmapped name t.abstractTypes)
    else if found.isEmpty ∧ ¬ (backed ms).any EntityMapping.searchable then
      refuse (.typeNotSupported name "no searchable mapping")
    else .ok found

/-- The mapping that owns the records of an asset type; a refusal where there is none. -/
def require (assetType : String) (mark : Option String) : Attempt EntityMapping :=
  match t.forIdentity assetType mark with
  | some m => .ok m
  | none =>
    let name := match mark with
      | none => assetType
      | some p => p ++ "_" ++ assetType
    .error (.refused (Refusal.of (.unmapped name [])
      [("asset_type", .text assetType), ("prefix", .ofText? mark)]))

def relationshipTypes : List String :=
  sortBy (· ≤ ·) (firsts (t.relationships.map RelationshipMapping.type))

/-- The mappings of a relationship type and its descendants, or all of them. -/
def relationshipsFor (type : Option String) : Attempt (List RelationshipMapping) := do
  match type with
  | none => .ok t.relationships
  | some name =>
    t.checkType name
    let rs := t.relationships.filter fun r => t.hierarchy.isTypeOf r.type name
    if rs.isEmpty then refuse (.unmapped name t.relationshipTypes) else .ok rs

/-- The mappings of a relationship type between two asset types, in either direction. -/
def relationshipsBetween (type a b : String) : List RelationshipMapping :=
  t.relationships.filter fun r => r.type == type && r.connects a b

def classificationsFor (name : String) : List ClassificationMapping :=
  (t.mappings.flatMap EntityMapping.classifications).filter fun c => c.name == name

end MappingTable

end MetaFed
