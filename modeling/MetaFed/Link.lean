import MetaFed.Guid.Relationship
import MetaFed.Instance
import MetaFed.Mapping.Table

/-!
Links that a record yields under a relationship mapping. A link names the records at its two ends,
and the record that stands for it where there is one. It becomes a relationship if mappings own
the records at both ends.
-/

namespace MetaFed

structure Link where
  mapping : RelationshipMapping
  one : Reference
  two : Reference
  level : Option Reference := none
  properties : Assoc String Value := []
  deriving Repr

namespace Link

def oneRef (l : Link) : Attempt RecordRef :=
  RecordRef.of l.one.type l.one.id l.mapping.one.mark

def twoRef (l : Link) : Attempt RecordRef :=
  RecordRef.of l.two.type l.two.id l.mapping.two.mark

def involves (l : Link) (recordId : String) : Bool :=
  l.one.id == recordId || l.two.id == recordId

def identity (l : Link) (home : String) : Attempt RelationshipId := do
  match l.level with
  | some r =>
    -- The record stands at both ends of the identity, whatever the link joins.
    let ref ← RecordRef.of r.type r.id none
    .ok (.of home l.mapping.type ref ref true)
  | none =>
    let a ← l.oneRef
    let b ← l.twoRef
    .ok (.of home l.mapping.type a b false)

/-- The relationship of a link; none if an end has no mapping. -/
def relationship? (l : Link) (home : String) (t : MappingTable) :
    Attempt (Option Relationship) := do
  -- The asset types in the references decide on the owners, not those of the mapping.
  let a ← l.oneRef
  let b ← l.twoRef
  match t.forIdentity l.one.type a.mark, t.forIdentity l.two.type b.mark with
  | some m, some n =>
    let id ← l.identity home
    .ok (some { guid := ← id.guid, type := l.mapping.type, home,
                one := ← EntityProxy.ofReference home m l.one,
                two := ← EntityProxy.ofReference home n l.two,
                properties := l.properties })
  | _, _ => .ok none

def relationships (home : String) (t : MappingTable) (ls : List Link) :
    Attempt (List Relationship) := do
  .ok ((← ls.mapM fun l => l.relationship? home t).filterMap id)

end Link

namespace RelationshipMapping

def selfLinks (m : RelationshipMapping) (r : Record) : List Link :=
  if r.type = m.one.assetType then [{ mapping := m, one := r.ref, two := r.ref }] else []

/-- The link that a record stands for; of several ends the first counts. -/
def levelLinks (m : RelationshipMapping) (r : Record) : Attempt (List Link) := do
  if some r.type ≠ m.levelType then .ok []
  else
    let ones ← r.references m.one.navigationName
    let twos ← r.references m.two.navigationName
    match ones, twos with
    | one :: _, two :: _ =>
      let properties ← r.mapped m.properties [] none
      .ok [{ mapping := m, one, two, level := some r.ref, properties }]
    | _, _ => .ok []

def linksFromOne (m : RelationshipMapping) (r : Record) : Attempt (List Link) := do
  if r.type ≠ m.one.assetType then .ok []
  else
    let refs ← r.references m.one.navigationName
    .ok ((refs.filter (·.type = m.two.assetType)).map fun x =>
      { mapping := m, one := r.ref, two := x })

def linksFromTwo (m : RelationshipMapping) (r : Record) : Attempt (List Link) := do
  if r.type ≠ m.two.assetType ∨ ¬ isGiven m.two.navigation then .ok []
  else
    let refs ← r.references m.two.navigationName
    .ok ((refs.filter (·.type = m.one.assetType)).map fun x =>
      { mapping := m, one := x, two := r.ref })

/-- The links that a record yields, at one end or at every end it can play. -/
def links (m : RelationshipMapping) (r : Record) (e : Option End) : Attempt (List Link) :=
  match m.kind, e with
  | .self, _ => .ok (m.selfLinks r)
  | .level, _ => m.levelLinks r
  | .reference, some .one => m.linksFromOne r
  | .reference, some .two => m.linksFromTwo r
  | .reference, none => do .ok ((← m.linksFromOne r) ++ (← m.linksFromTwo r))

end RelationshipMapping

end MetaFed
