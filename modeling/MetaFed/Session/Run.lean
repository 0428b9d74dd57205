import MetaFed.Link
import MetaFed.Plan
import MetaFed.Request.Matching
import MetaFed.Session

/-!
Running search plans. The searches of a plan run one after another, and their results are read off
the hits in order. The plan's window applies to all results together: once it is filled, no more
hits are read and no more searches run.
-/

namespace MetaFed

/-- What the operations of one collection share: the backend, the mapping table and the home
collection of all identifiers. -/
structure Scope where
  backend : Backend
  table : MappingTable
  home : String

namespace Scope

variable {α : Type} (c : Scope)

/-- Results read off hits in order, until there is room for no more; no bound on the room means
that all hits are read. -/
def collect (read : Record → Attempt (List α)) : Option Nat → List Record → Attempt (List α)
  | _, [] => .ok []
  | room, r :: rs => do
    let xs ← read r
    let left := room.map fun n => n - xs.length
    if left = some 0 then .ok xs else do .ok (xs ++ (← collect read left rs))

/-- Results of searches in order, until there is room for no more; a search whose hits cannot be
read does not run. -/
def collectAll (read : NativeSearch → Option (Record → Attempt (List α))) :
    Option Nat → List NativeSearch → Session (List α)
  | _, [] => pure []
  | room, s :: ss =>
    if room = some 0 then pure []
    else
      match read s with
      | none => collectAll read room ss
      | some f => do
        let hits ← c.backend.runSearch s
        let xs ← Session.ofAttempt (collect f room hits)
        let rest ← collectAll read (room.map fun n => n - xs.length) ss
        pure (xs ++ rest)

def room (p : SearchPlan) : Option Nat :=
  if p.pageSize = 0 then none else some (p.skip + p.pageSize)

def run (read : NativeSearch → Option (Record → Attempt (List α))) (p : SearchPlan) :
    Session (List α) := do
  let xs ← c.collectAll read (room p) p.searches
  pure (page p.skip p.pageSize xs)

/-- The entity of a record, if it can be made and satisfies what is left to be checked. -/
def readEntity (m : EntityMapping) (residual : Option PropertyGroup) (r : Record) :
    Attempt (List Entity) := do
  match ← Entity.ofRecord? c.home m r with
  | none => .ok []
  | some e =>
    match residual with
    | none => .ok [e]
    | some g => do .ok (if ← g.matches e.properties then [e] else [])

/-- The relationships of a record; references are followed from end one. -/
def readRelationships (m : RelationshipMapping) (r : Record) : Attempt (List Relationship) := do
  -- Where references make the links, a search goes to the records at end one.
  let e := match m.kind with
    | .reference => some End.one
    | _ => none
  Link.relationships c.home c.table (← m.links r e)

def runEntities (p : SearchPlan) : Session (List Entity) :=
  c.run (fun s => s.mapping.map fun m => c.readEntity m s.residual) p

def runRelationships (p : SearchPlan) : Session (List Relationship) :=
  c.run (fun s => s.relationshipMapping.map c.readRelationships) p

end Scope

end MetaFed
