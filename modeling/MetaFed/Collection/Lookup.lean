import MetaFed.Collection
import MetaFed.Session.Resolve

/-!
Looking entities and relationships up by their identifiers, and listing what an entity is linked
to. An identifier that is not one of this collection is not known, and the refusal says why.
-/

namespace MetaFed

namespace Collection

variable (c : Collection) {σ : Type} [Provider σ] (s : σ)

def entityNotKnown (guid : String) (reason : Option String) : Failure :=
  .refused (Refusal.of (.entityNotKnown guid)
    (match reason with | some r => [("reason", .text r)] | none => []))

def decodeEntity (guid : String) : Attempt EntityId :=
  match EntityId.decode guid (some c.home) with
  | .ok id => .ok id
  | .error r =>
    .error (.refused { Refusal.of (.entityNotKnown guid) [("reason", .text r.reason)] with
      because := some (r.cause guid) })

def owner (guid : String) (id : EntityId) : Attempt EntityMapping :=
  if id.assetType = c.settings.defaultAssetType then
    .error (.refused (Refusal.of
      (.typeNotSupported id.assetType "the backend's default type has no abstract counterpart")
      [("guid", .text guid)]))
  else c.table.require id.assetType id.mark

/-- The record of an entity, and the mapping that owns it. -/
def entityRecord (guid : String) : Session (EntityMapping × Record) := do
  let id ← Session.ofAttempt (c.decodeEntity guid)
  let m ← Session.ofAttempt (c.owner guid id)
  match ← (c.scope s).backend.lookUp id.recordId m.projected with
  -- Ids are unique across asset types, so a record of another type is not the one meant.
  | some r => if r.type = id.assetType then pure (m, r) else throw (entityNotKnown guid none)
  | none => throw (entityNotKnown guid none)

def entity (guid : String) : Session Entity := do
  let (m, r) ← c.entityRecord s guid
  match ← Session.ofAttempt (Entity.ofRecord? c.home m r) with
  | some e => pure e
  | none => throw (entityNotKnown guid (some "cannot be mapped"))

def isEntityNotKnown : Cause → Bool
  | .entityNotKnown _ => true
  | _ => false

def isRelationshipNotKnown : Cause → Bool
  | .relationshipNotKnown _ => true
  | _ => false

def knownEntity (guid : String) : Session (Option Entity) :=
  ifKnown isEntityNotKnown (c.entity s guid)

def relationship (guid : String) : Session Relationship :=
  (c.scope s).resolve guid

def knownRelationship (guid : String) : Session (Option Relationship) :=
  ifKnown isRelationshipNotKnown (c.relationship s guid)

def relationshipsOf (guid : String) (type : Option String) : Session (List Relationship) := do
  -- An unknown type is refused before the entity is looked up.
  if type.isSome then let _ ← Session.ofAttempt (c.table.relationshipsFor type)
  let (m, r) ← c.entityRecord s guid
  (c.scope s).relationshipsOf m r type

/-- The sort value of a relationship: the text of a property, the absent one last. -/
def sequenceKey (property : String) (r : Relationship) : Bool × String :=
  match (Assoc.find? property r.properties).getD .null with
  | .null => (true, "")
  | v => (false, v.asText)

def keyLE (a b : Bool × String) : Bool :=
  if a.1 = b.1 then a.2 ≤ b.2 else b.1

def sequenced (w : Window) (rs : List Relationship) : List Relationship :=
  match w.order, w.property with
  | some .guid, _ => sortBy (fun a b => a.guid ≤ b.guid) rs
  | _, none => rs
  | some .propertyDescending, some p =>
    sortBy (fun a b => keyLE (sequenceKey p b) (sequenceKey p a)) rs
  | _, some p => sortBy (fun a b => keyLE (sequenceKey p a) (sequenceKey p b)) rs

def relationshipPage (guid : String) (type : Option String) (w : Window) (historical : Bool) :
    Session (List Relationship) := do
  checkPresent historical
  let rs ← c.relationshipsOf s guid type
  pure (page w.start w.pageSize (sequenced w rs))

end Collection

/-- Filters on the surroundings of an entity; an empty filter lets everything pass. -/
structure NeighborFilter where
  entityTypes : List String := []
  relationshipTypes : List String := []
  classifications : List String := []
  deriving Repr

namespace NeighborFilter

/-- One of the types is the type itself or one of its ancestors. -/
def admits (h : Hierarchy) (types : List String) (type : String) : Bool :=
  types.isEmpty || types.any fun t => h.isTypeOf type t

def admitsEntity (f : NeighborFilter) (e : Entity) : Bool :=
  f.classifications.isEmpty || f.classifications.any fun n => (e.classification n).isSome

end NeighborFilter

namespace Collection

variable (c : Collection) {σ : Type} [Provider σ] (s : σ)

/-- The other end of a relationship that passes the filters on types. -/
def neighbor? (f : NeighborFilter) (guid : String) (r : Relationship) : Option EntityProxy :=
  if NeighborFilter.admits c.table.hierarchy f.relationshipTypes r.type then
    (r.otherEnd guid).filter fun n =>
      NeighborFilter.admits c.table.hierarchy f.entityTypes n.type
  else none

/-- An entity among those found, or else looked up; none if it is not known. -/
def neighborEntity (found : List Entity) (guid : String) : Session (Option Entity) :=
  match found.find? fun e => e.guid == guid with
  | some e => pure (some e)
  | none => c.knownEntity s guid

/-- Surroundings with one more entity, once, and the relationship that leads to it. -/
def withNeighbor (g : Neighborhood) (e : Entity) (r : Relationship) : Neighborhood :=
  ⟨if g.entities.any fun x => x.guid == e.guid then g.entities else g.entities ++ [e],
    g.relationships ++ [r]⟩

def explore (f : NeighborFilter) (guid : String) :
    Neighborhood → List Relationship → Session Neighborhood
  | g, [] => pure g
  | g, r :: rs =>
    match c.neighbor? f guid r with
    | none => explore f guid g rs
    | some n => do
      match ← c.neighborEntity s g.entities n.guid with
      | none => explore f guid g rs
      | some e =>
        -- An entity that is filtered out was looked up all the same.
        explore f guid (if f.admitsEntity e then withNeighbor g e r else g) rs

/-- The entities next to one, and the relationships that lead to them. Only a distance of one
step is supported. -/
def neighborhood (guid : String) (f : NeighborFilter) (historical : Bool) (level : Value) :
    Session Neighborhood := do
  checkPresent historical
  if !level.same (.int 1) then throw (Failure.ofCause (.functionNotSupported (.distance level)))
  Session.ofAttempt (c.table.checkTypes (f.entityTypes ++ f.relationshipTypes))
  let rs ← c.relationshipsOf s guid none
  c.explore s f guid {} rs

end Collection

end MetaFed
