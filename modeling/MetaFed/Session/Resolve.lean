import MetaFed.Session.Links

/-!
Resolving relationship identifiers. Relationships are not stored: the records at both ends, or the
one that stands for the relationship, are fetched, their links derived again, and the link with the
identity asked for is taken. The flag of the identity decides between links that are otherwise
the same.
-/

namespace MetaFed

namespace Scope

variable (c : Scope)

def decodeRelationship (guid : String) : Attempt RelationshipId :=
  match RelationshipId.decode guid (some c.home) with
  | .ok id => .ok id
  | .error r =>
    .error (.refused { Refusal.of (.relationshipNotKnown guid) [("reason", .text r.reason)] with
      because := some (r.cause guid) })

def endRecord (guid : String) (ref : RecordRef) (properties : List String) : Session Record := do
  match ← c.backend.lookUp ref.recordId properties with
  | some r => if r.type = ref.assetType then pure r else throw missing
  | none => throw missing
where
  missing : Failure :=
    .refused (Refusal.of (.relationshipNotKnown guid) [("missing_record", .text ref.recordId)])

def notMapped (type a b : String) : Failure :=
  .refused (Refusal.of (.unmapped type c.table.relationshipTypes)
    [("asset_type_a", .text a), ("asset_type_b", .text b)])

/-- The mappings of a relationship type for which records of an asset type stand. -/
def levelMappings (type assetType : String) : List RelationshipMapping :=
  c.table.relationships.filter fun m => m.type == type && m.levelType == some assetType

def linksOfLevel (guid : String) (id : RelationshipId) (ms : List RelationshipMapping) :
    Session (List Link) := do
  let r ← c.endRecord guid id.one (ms.flatMap RelationshipMapping.levelProperties)
  Session.ofAttempt do .ok (← ms.mapM fun m => m.links r none).flatten

def ownerOfOne (m : RelationshipMapping) : Option EntityMapping :=
  c.table.forIdentity m.one.assetType m.one.mark

/-- Properties that the owners of records of an asset type at end one read. -/
def propertiesFor (assetType : String) (ms : List RelationshipMapping) : List String :=
  firsts ((ms.filter (·.one.assetType = assetType)).flatMap fun m =>
    ((c.ownerOfOne m).map EntityMapping.projected).getD [])

/-- The links of those of two records that can play end one. -/
def linksOfPair (a b : Record) (m : RelationshipMapping) : Session (List Link) := do
  match c.ownerOfOne m with
  | none => pure []
  | some owner =>
    let ls ← ([a, b].filter (·.type = m.one.assetType)).mapM fun r =>
      c.linksOf owner r (some m.type)
    pure ls.flatten

def linksOfEnds (guid : String) (id : RelationshipId) : Session (List Link) := do
  let (a, b) := (id.one.assetType, id.two.assetType)
  let ms := (c.table.relationshipsBetween id.type a b).filter fun m => !m.isLevel
  let ra ← c.endRecord guid id.one (c.propertiesFor a ms)
  let rb ← c.endRecord guid id.two (c.propertiesFor b ms)
  -- Only now is it told that there is no mapping: a missing record is told first.
  if ms.isEmpty then throw (c.notMapped id.type ra.type rb.type)
  let ls ← ms.mapM (c.linksOfPair ra rb)
  pure (ls.flatten.filter fun l => l.involves ra.id)

def firstRelationship : List Link → Attempt (Option Relationship)
  | [] => .ok none
  | l :: ls => do
    match ← l.relationship? c.home c.table with
    | some r => .ok (some r)
    | none => firstRelationship ls

def identified (ls : List Link) : Attempt (List (RelationshipId × Link)) :=
  ls.mapM fun l => do .ok (← l.identity c.home, l)

/-- The links with an identity, or else those that differ from it in the flag only. -/
def select (id : RelationshipId) (ls : List (RelationshipId × Link)) : List Link :=
  let exact := ls.filter (·.1 = id)
  let found := if exact.isEmpty then ls.filter fun p => p.1.sameRelationship id else exact
  found.map Prod.snd

/-- The links among which the one with an identity is sought. -/
def derived (guid : String) (id : RelationshipId) : Session (List Link) :=
  let ms := c.levelMappings id.type id.one.assetType
  -- The flag of the identity is not asked for here; `select` prefers the links that have it.
  if id.one = id.two ∧ ms ≠ [] then c.linksOfLevel guid id ms else c.linksOfEnds guid id

def resolve (guid : String) : Session Relationship := do
  let id ← Session.ofAttempt (c.decodeRelationship guid)
  let ls ← c.derived guid id
  let candidates ← Session.ofAttempt (c.identified ls)
  match ← Session.ofAttempt (c.firstRelationship (select id candidates)) with
  | some r => pure r
  | none => throw (.refused (Refusal.of (.relationshipNotKnown guid) []))

end Scope

end MetaFed
