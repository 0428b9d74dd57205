import MetaFed.Session.Run

/-!
The links of a record under the mapping of the entity it stands for. They are read off the record,
off the records that stand for relationships, or, where only the other end refers to it, off the
records that a search finds.
-/

namespace MetaFed

namespace Scope

variable (c : Scope)

def atEnd (e : End) (l : Link) : Reference :=
  match e with
  | .one => l.one
  | .two => l.two

/-- The links of the records that stand for relationships; records that do not exist are passed
over. -/
def levelLinks (m : RelationshipMapping) (recordId : String) (e : End) :
    List Reference → Session (List Link)
  | [] => pure []
  | x :: xs => do
    let found ← match ← c.backend.lookUp x.id m.levelProperties with
      | none => pure []
      | some r => Session.ofAttempt (m.links r none)
    let rest ← levelLinks m recordId e xs
    pure (found.filter (fun l => (atEnd e l).id == recordId) ++ rest)

/-- The search for the records that refer to a record at end two. -/
def reverseSearch (m : RelationshipMapping) (recordId : String) : NativeSearch :=
  let navigation := m.one.navigationName
  { types := [m.one.assetType],
    conditions :=
      { members := [.compare (navigation ++ "." ++ Record.idProperty) .eq (.text recordId)] },
    properties := [Record.nameProperty, navigation],
    sorts := [.byId],
    relationshipMapping := some m }

def reverseLinks (m : RelationshipMapping) (recordId : String) : Session (List Link) := do
  let hits ← c.backend.runSearch (reverseSearch m recordId)
  let ls ← Session.ofAttempt (collect (fun r => m.links r (some .one)) none hits)
  pure (ls.filter fun l => l.two.id == recordId)

def linksAt (m : RelationshipMapping) (r : Record) (e : End) : Session (List Link) := do
  match m.kind with
  | .self => Session.ofAttempt (m.links r none)
  | .level =>
    let refs ← Session.ofAttempt (r.references ((m.atEnd e).link.getD ""))
    c.levelLinks m r.id e refs
  | .reference =>
    if e = .one ∨ isGiven (m.atEnd e).navigation then Session.ofAttempt (m.links r (some e))
    else c.reverseLinks m r.id

/-- The relationship mappings and ends that the entity of a record takes part in; a type restricts
them to its descendants. -/
def partsOf (m : EntityMapping) (r : Record) (type : Option String) :
    List (RelationshipMapping × End) :=
  (m.relationships.filter fun k => type.all fun t => c.table.hierarchy.isTypeOf k.type t).flatMap
    fun k => (k.endsFor r.type m.mark).map fun e => (k, e)

def linksOf (m : EntityMapping) (r : Record) (type : Option String) : Session (List Link) := do
  let ls ← (c.partsOf m r type).mapM fun (k, e) => c.linksAt k r e
  pure ls.flatten

/-- Relationships with different identifiers, each at its first place. -/
def distinct (rs : List Relationship) : List Relationship :=
  rs.foldl (fun seen r => if seen.any (·.guid == r.guid) then seen else seen ++ [r]) []

def relationshipsOf (m : EntityMapping) (r : Record) (type : Option String) :
    Session (List Relationship) := do
  let ls ← c.linksOf m r type
  let rs ← Session.ofAttempt (Link.relationships c.home c.table ls)
  pure (distinct rs)

end Scope

end MetaFed
