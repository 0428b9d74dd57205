import MetaFed.Collection
import MetaFed.Plan.Entities
import MetaFed.Plan.Relationships

/-!
Searching for entities and relationships: a request is planned and the plan is run. A free-text
search for a qualified name is a search for that name.
-/

namespace MetaFed

namespace Collection

variable (c : Collection) {σ : Type} [Provider σ] (s : σ)

def findEntities (request : EntitySearch) : Session (List Entity) := do
  let p ← Session.ofAttempt (c.planner.planEntities request none)
  (c.scope s).runEntities p

def findClassified (name : String) (properties : Option PropertyGroup) (request : EntitySearch) :
    Session (List Entity) := do
  Session.ofAttempt (c.table.checkClassification name)
  c.findEntities s { request with classifications := some ⟨[⟨name, properties⟩], .all⟩ }

def reportedFor (b : Backend) : List String → Session StringProperties
  | [] => pure []
  | t :: ts => do
    let names ← b.askStringProperties t
    pure ((t, names) :: (← reportedFor b ts))

/-- The entities of a request with a text property that matches a pattern. -/
def findByText (value : String) (request : EntitySearch) : Session (List Entity) := do
  checkPresent request.historical
  match ← Session.ofAttempt (c.planner.rerouted? value) with
  | some g => c.findEntities s { request with properties := some g }
  | none =>
    let ms ← Session.ofAttempt (c.planner.candidates request)
    let b := (c.scope s).backend
    let reported ← reportedFor b (firsts (ms.map EntityMapping.assetType))
    let version ← if ms.isEmpty then pure none else do pure (some (← b.askVersion))
    let p ← Session.ofAttempt (c.planner.planText request value reported version none)
    (c.scope s).runEntities p

def findRelationships (request : RelationshipSearch) : Session (List Relationship) := do
  let p ← Session.ofAttempt (c.planner.planRelationships request none)
  (c.scope s).runRelationships p

def findRelationshipsByText (type : Option String) (value : String) (w : Window)
    (historical : Bool) : Session (List Relationship) := do
  checkPresent historical
  let ts ← Session.ofAttempt (c.planner.levelAssetTypes type none)
  let reported ← reportedFor (c.scope s).backend ts
  let p ← Session.ofAttempt (c.planner.planRelationshipText type value reported w none)
  (c.scope s).runRelationships p

end Collection

end MetaFed
