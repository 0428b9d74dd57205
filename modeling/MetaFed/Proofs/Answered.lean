import MetaFed.Proofs.Found
import MetaFed.Proofs.Outcomes

/-!
Every operation is answered, and a record that lacks a property that its entity has to have costs a
search no more than its own entity: the answer is the one without this hit. Records that stand for
relationships are not passed over in this way.
-/

namespace MetaFed

open Session

/-- The hit has an entity, or is not read as one. -/
def NativeSearch.keeps (n : NativeSearch) (home : String) (r : Record) : Bool :=
  match n.mapping with
  | none => true
  | some m =>
    match Entity.ofRecord? home m r with
    | .ok none => false
    | _ => true

/-- The backend without the hits of its searches that lack a property that their entities have to
have. -/
def Backend.pruned (b : Backend) (home : String) : Backend :=
  { b with search := fun n => (b.search n).map fun hits => hits.filter (n.keeps home) }

namespace Backend

variable (b : Backend) (home : String)

theorem reporting_pruned : (b.pruned home).reporting = b.reporting.pruned home := by
  have hsearch : (b.pruned home).reporting.search = (b.reporting.pruned home).search := by
    funext n
    simp only [reporting, pruned]
    cases b.search n <;> rfl
  exact congrArg (fun search => { b.reporting with search }) hsearch

theorem runSearch_pruned (n : NativeSearch) : (b.pruned home).runSearch n =
    b.runSearch n >>= fun hits => pure (hits.filter (n.keeps home)) := by
  have hsearch : ofAttempt ((b.pruned home).search n) =
      ofAttempt (b.search n) >>= fun hits => pure (hits.filter (n.keeps home)) := by
    simp only [pruned]
    cases b.search n <;> rfl
  have henter : (b.pruned home).enter .search = b.enter .search := rfl
  simp only [runSearch, henter, hsearch, bind_assoc]

theorem reportedFor_pruned (ts : List String) :
    Collection.reportedFor (b.pruned home) ts = Collection.reportedFor b ts := by
  induction ts with
  | nil => rfl
  | cons t ts ih =>
      rw [Collection.reportedFor, Collection.reportedFor, ih]
      rfl

end Backend

namespace Scope

variable {c : Scope} {α : Type}

/-- Leaving out hits without results changes nothing, whatever room there is. -/
theorem collect_kept {read : Record → Attempt (List α)} {kept : Record → Bool} {rs : List Record}
    (h : ∀ r ∈ rs, kept r = false → read r = .ok []) {room : Option Nat} (h0 : room ≠ some 0) :
    collect read room (rs.filter kept) = collect read room rs := by
  induction rs generalizing room with
  | nil => rfl
  | cons r rs ih =>
      have ih {room : Option Nat} (h0 : room ≠ some 0) :=
        ih (fun r' hr' => h r' (List.mem_cons_of_mem r hr')) h0
      rw [List.filter_cons]
      split
      · simp only [collect]
        refine congrArg (read r >>= ·) (funext fun xs => ?_)
        split
        · rfl
        · rename_i hroom
          rw [ih hroom]
      · rename_i hkept
        -- A hit without results takes no room; with no room left the loop ends even before it.
        have hleft : room.map (fun n => n - ([] : List α).length) = room := by
          cases room <;> rfl
        rw [collect, h r List.mem_cons_self (by simpa using hkept)]
        simp only [Attempt.ok_bind, hleft, if_neg h0, ih h0, List.nil_append]
        cases collect read room rs <;> rfl

theorem readEntity_of_not_keeps {n : NativeSearch} {m : EntityMapping} {r : Record}
    (hm : n.mapping = some m) (h : n.keeps c.home r = false) (residual : Option PropertyGroup) :
    c.readEntity m residual r = .ok [] := by
  rw [NativeSearch.keeps, hm] at h
  simp only at h
  split at h
  · rename_i hnone
    rw [readEntity, hnone]
    rfl
  · cases h

theorem collectAll_pruned (room : Option Nat) (ns : List NativeSearch) :
    (c.withBackend (c.backend.pruned c.home)).collectAll c.entityReader room ns =
      c.collectAll c.entityReader room ns := by
  induction ns generalizing room with
  | nil => rfl
  | cons n ns ih =>
      rw [collectAll, collectAll]
      split
      · rfl
      · rename_i hroom
        cases hm : n.mapping with
        | none =>
            simp only [entityReader, hm, Option.map_none]
            exact ih room
        | some m =>
            have hcollect (hits : List Record) :
                collect (c.readEntity m n.residual) room (hits.filter (n.keeps c.home)) =
                  collect (c.readEntity m n.residual) room hits :=
              collect_kept (fun r _ hkept => readEntity_of_not_keeps hm hkept n.residual) hroom
            have hrun : (c.withBackend (c.backend.pruned c.home)).backend.runSearch n =
                c.backend.runSearch n >>= fun hits => pure (hits.filter (n.keeps c.home)) :=
              c.backend.runSearch_pruned c.home n
            simp only [entityReader, hm, Option.map_some, hrun, bind_assoc, pure_bind, hcollect]
            simp only [ih]

theorem runEntities_pruned (p : SearchPlan) :
    (c.withBackend (c.backend.pruned c.home)).runEntities p = c.runEntities p :=
  congrArg (· >>= fun xs => pure (page p.skip p.pageSize xs))
    (collectAll_pruned (room p) p.searches)

end Scope

/-- The operation answers the entities that a search finds. -/
def Operation.searchesEntities {α : Type} : Operation α → Bool
  | .findEntities _ => true
  | .findByProperty _ => true
  | .findClassified .. => true
  | .findByText .. => true
  | _ => false

namespace Collection

variable {c : Collection} {α σ σ' : Type} [Provider σ] [Provider σ'] {s : σ} {s' : σ'}

theorem findEntities_pruned
    (h : (c.scope s').backend = (c.scope s).backend.pruned c.home) (q : EntitySearch) :
    c.findEntities s' q = c.findEntities s q := by
  have hscope : c.scope s' = (c.scope s).withBackend ((c.scope s).backend.pruned c.home) :=
    congrArg (c.scope s).withBackend h
  rw [findEntities, findEntities, hscope]
  exact congrArg (Session.ofAttempt (c.planner.planEntities q none) >>= ·)
    (funext Scope.runEntities_pruned)

theorem answer_pruned (h : (c.scope s').backend = (c.scope s).backend.pruned c.home)
    {o : Operation α} (ho : o.searchesEntities = true) : c.answer s' o = c.answer s o := by
  have hscope : c.scope s' = (c.scope s).withBackend ((c.scope s).backend.pruned c.home) :=
    congrArg (c.scope s).withBackend h
  have hwork : c.work s' o = c.work s o := by
    cases o with
    | findEntities q => exact findEntities_pruned h q
    | findByProperty q => exact findEntities_pruned h q
    | findClassified name properties q =>
        simp only [work, findClassified, findEntities_pruned h]
    | findByText value q =>
        have hrun : (c.scope s').runEntities = (c.scope s).runEntities := by
          rw [hscope]
          exact funext Scope.runEntities_pruned
        have hversion : ((c.scope s).backend.pruned c.home).askVersion =
            (c.scope s).backend.askVersion := rfl
        simp only [work, findByText, findEntities_pruned h, hrun, h, Backend.reportedFor_pruned,
          hversion]
    | _ => cases ho
  rw [answer, answer, hwork]

/-- Every operation on a service that is fast enough and never fails has an outcome, if the
relationships that it may derive have a type, and the records that stand for them have the properties
that they need. To a search for entities it makes no difference whether its hits include records
that lack a property that their entities have to have. -/
theorem answered {s : Service} (hh : c.home ≠ "") (hw : s.catalog.WellFormed)
    (hlimit : s.Meets c.settings.timeout) (hnone : s.failures = [])
    (hv : ∀ k ∈ c.table.relationships, k.fault? = none) (o : Operation α)
    (hlinks : o.readsLinks = true →
      ∀ k ∈ c.table.relationships, k.type ≠ "" ∧ s.catalog.Readable k) :
    (∃ x, (c.answer s o).1 = .ok x) ∧
      (o.searchesEntities = true →
        c.answer (s.backend.pruned c.home) o = c.answer s o) := by
  have hworking : (c.scope s).backend.Working s.catalog := Service.working_bounded hlimit hnone
  have hpruned : (c.scope (s.backend.pruned c.home)).backend =
      (c.scope s).backend.pruned c.home := by
    have hbounded : (c.scope s).backend = s.backend.reporting :=
      Service.bounded_eq_reporting hlimit
    rw [hbounded, ← Backend.reporting_pruned]
    rfl
  refine ⟨tells_run (tells_work hworking hw hh o fun hreads k hk => ?_) o.name,
    answer_pruned hpruned⟩
  exact ⟨hv k hk, (hlinks hreads k hk).1, (hlinks hreads k hk).2⟩

end Collection

namespace Sample

open MappingTable.Standard

theorem closed_assetService : assetService.catalog.Closed :=
  Catalog.closed_of_properties keyed_assetService (by decide)

theorem meets_of_prompt {s : Service} (h : s.delay = .int 0) :
    s.Meets collection.settings.timeout := by
  rintro t ht
  cases ht
  rw [Service.isSlower, h]
  decide +kernel

theorem readable_linkedService : ∀ k ∈ MappingTable.standard.relationships,
    k.type ≠ "" ∧ linkedService.catalog.Readable k := by
  have hread : ∀ k ∈ MappingTable.standard.relationships, k.type ≠ "" ∧
      ∀ r ∈ linkedService.catalog.records.values, (k.levelLinks r).toOption.isSome = true := by
    decide +kernel
  refine fun k hk => ⟨(hread k hk).1, fun _ r hr => ?_⟩
  have hsome := (hread k hk).2 r hr
  cases h : k.levelLinks r with
  | ok ls => exact ⟨ls, rfl⟩
  | error f =>
      rw [h] at hsome
      cases hsome

/-- All relationships of the column are derived, and the host without a name is passed over. -/
theorem links_and_assets_answered :
    (∃ x, (collection.answer linkedService (.findRelationships {})).1 = .ok x) ∧
    collection.answer (assetService.backend.pruned collection.home) (.findEntities assetRequest) =
      collection.answer assetService (.findEntities assetRequest) ∧
    guidsOf (collection.answer assetService (.findEntities assetRequest)).1 =
      some ["e:home-1::host:host-2", "e:home-1::database:database-1"] ∧
    assetService.catalog.records.keys = ["host-1", "host-2", "database-1"] := by
  have hv : ∀ k ∈ collection.table.relationships, k.fault? = none := fun k hk =>
    RelationshipMapping.fault?_of_checked (MappingTable.checked_relationships k hk)
  have hlinks := (Collection.answered (c := collection) (s := linkedService) (by decide)
    closed_linkedService.wellFormed (meets_of_prompt rfl) rfl hv (.findRelationships {})
    fun _ => readable_linkedService).1
  have hassets := (Collection.answered (c := collection) (s := assetService) (by decide)
    closed_assetService.wellFormed (meets_of_prompt rfl) rfl hv (.findEntities assetRequest)
    fun h => nomatch h).2 rfl
  exact ⟨hlinks, hassets, by decide +kernel, by decide +kernel⟩

def faultOf {α : Type} : Attempt α → Option Fault
  | .error (.fault f) => some f
  | _ => none

theorem eq_of_faultOf {α : Type} {a : Attempt α} {f : Fault} (h : faultOf a = some f) :
    a = .error (.fault f) := by
  match a with
  | .error (.fault g) => rw [Option.some.inj h]
  | .error (.refused _) => cases h
  | .ok _ => cases h

/-- Data classes that are detected with a status. -/
def assessedClasses : RelationshipMapping :=
  { detectedClasses with properties := [⟨"status", "status", true⟩] }

def assessedTable : MappingTable :=
  ⟨Hierarchy.standard,
    [{ column with relationships := [assessedClasses] },
      { dataClass with relationships := [assessedClasses] }],
    Hierarchy.Standard.baseType, unsupported⟩

def assessedCollection : Collection := ⟨{ home := "home-1" }, assessedTable⟩

theorem accepted_assessedTable : assessedTable.Accepted :=
  MappingTable.accepted_of_faultless MappingTable.hierarchy_standard (by decide +kernel)
    (by decide +kernel)

/-- A detection without status ends every operation that comes upon it. -/
theorem detection_not_answered : assessedTable.Accepted ∧
    (∀ k ∈ assessedTable.relationships, k.fault? = none ∧ k.type ≠ "") ∧
    linkedService.catalog.Closed ∧ linkedService.Meets assessedCollection.settings.timeout ∧
    linkedService.failures = [] ∧
    (assessedCollection.answer linkedService (.findRelationships {})).1 =
      .error (.fault (.missingValue "status")) ∧
    (assessedCollection.answer linkedService (.relationships columnGuid none {} false)).1 =
      .error (.fault (.missingValue "status")) := by
  have hsound : ∀ k ∈ assessedTable.relationships, k.fault?.isNone = true ∧ k.type ≠ "" := by
    decide +kernel
  have hfound : faultOf (assessedCollection.answer linkedService (.findRelationships {})).1 =
      some (.missingValue "status") := by decide +kernel
  have hlisted : faultOf (assessedCollection.answer linkedService
      (.relationships columnGuid none {} false)).1 = some (.missingValue "status") := by
    decide +kernel
  exact ⟨accepted_assessedTable,
    fun k hk => ⟨Option.isNone_iff_eq_none.1 (hsound k hk).1, (hsound k hk).2⟩,
    closed_linkedService, meets_of_prompt rfl, rfl, eq_of_faultOf hfound, eq_of_faultOf hlisted⟩

end Sample

end MetaFed
