import MetaFed.Collection.Search
import MetaFed.Proofs.Catalog
import MetaFed.Proofs.Entities

/-!
What a search for entities answers: a window on the entities of the searches that were planned.
-/

namespace MetaFed

def EntitySearch.withPage (q : EntitySearch) (start size : Nat) : EntitySearch :=
  { q with window := { q.window with start, pageSize := size } }

namespace Collection

variable {α : Type} {c : Collection} {s : Service} {st : SessionState} {xs : List Entity}

theorem run_eq_value {operation : String} {work : Session α} {a : α} :
    (c.run operation work).1 = .ok (.value a) ↔ (Session.runFrom {} work).1 = .ok a := by
  rw [run]
  rcases Session.runFrom {} work with ⟨r, s⟩
  cases r with
  | ok b => simp [Outcome.ofAttempt]
  | error f =>
      cases f with
      | fault f => simp [Outcome.ofAttempt]
      | refused r =>
          simp only [Outcome.ofAttempt]
          split <;> simp

/-- The entities in the window of a plan. -/
def windowOf (c : Collection) (s : Service) (p : SearchPlan) : Attempt (List Entity) :=
  (c.scope s).gather (c.scope s).entityReader (Scope.room p) p.searches >>= fun xs =>
    .ok (page p.skip p.pageSize xs)

theorem runEntities_eq_ok {p : SearchPlan} :
    (Session.runFrom st ((c.scope s).runEntities p)).1 = .ok xs ↔ c.windowOf s p = .ok xs := by
  rw [Scope.runEntities, (c.scope s).yields_run]
  exact Iff.rfl

theorem findEntities_eq_ok {q : EntitySearch} :
    (Session.runFrom st (c.findEntities s q)).1 = .ok xs ↔
      ∃ p, c.planner.planEntities q none = .ok p ∧ c.windowOf s p = .ok xs := by
  have h : (c.findEntities s q).Yields
      (c.planner.planEntities q none >>= fun p => c.windowOf s p) :=
    (Session.yields_ofAttempt _).bind fun p _ => (c.scope s).yields_run _ p
  rw [h, Attempt.bind_eq_ok]

theorem windowOf_of_entitiesOf {p : SearchPlan} (h : (c.scope s).entitiesOf p.searches = .ok xs) :
    c.windowOf s p = .ok (page p.skip p.pageSize xs) :=
  runEntities_eq_ok.1 (Scope.yields_run_of_gather h {})

theorem entitiesOf_of_windowOf {ns : List NativeSearch}
    (h : c.windowOf s ⟨ns, 0, 0⟩ = .ok xs) : (c.scope s).entitiesOf ns = .ok xs := by
  obtain ⟨ys, hy, h⟩ := Attempt.bind_eq_ok.1 h
  cases h
  exact hy

theorem searches_withPage {q : EntitySearch} (start size : Nat) (operation : Option String) :
    c.planner.searches (q.withPage start size) operation = c.planner.searches q operation := rfl

theorem planEntities_withPage {q : EntitySearch} {ns : List NativeSearch}
    (h : c.planner.searches q none = .ok ns) (start size : Nat) :
    c.planner.planEntities (q.withPage start size) none =
      .ok (Planner.planOf ns (q.withPage start size).window) := by
  rw [Planner.planEntities_eq, searches_withPage, h]
  rfl

theorem entitiesOf_of_findEntities (ht : c.table.Accepted) {q : EntitySearch}
    (h : (Session.runFrom st (c.findEntities s (q.withPage 0 0))).1 = .ok xs) :
    ∃ ns, c.planner.searches q none = .ok ns ∧
      c.planner.planEntities (q.withPage 0 0) none = .ok ⟨ns, 0, 0⟩ ∧
      (c.scope s).entitiesOf ns = .ok xs := by
  obtain ⟨p, hplan, hw⟩ := findEntities_eq_ok.1 h
  obtain ⟨ns, hns, hp⟩ := Attempt.bind_eq_ok.1 ((Planner.planEntities_eq none).symm.trans hplan)
  obtain ⟨ms, hu, _⟩ := Planner.searches_unpaged (p := c.planner) ht hns
  rw [Planner.planOf_unpaged hu rfl rfl] at hp
  cases hp
  exact ⟨ns, hns, hplan, entitiesOf_of_windowOf hw⟩

/-- The entities a request finds under one mapping. -/
def entitiesFor (c : Collection) (s : Service) (q : EntitySearch) (m : EntityMapping) :
    Attempt (List Entity) :=
  c.planner.entitySearch q m >>= fun n => (c.scope s).entitiesOf n.toList

theorem mapM_entitiesFor {q : EntitySearch} {ms : List EntityMapping}
    {os : List (Option NativeSearch)} (hos : ms.mapM (c.planner.entitySearch q) = .ok os)
    (h : (c.scope s).entitiesOf (os.filterMap id) = .ok xs) :
    ∃ xss, ms.mapM (c.entitiesFor s q) = .ok xss ∧ xs = xss.flatten := by
  rw [Attempt.mapM_eq_ok] at hos
  induction hos generalizing xs with
  | nil =>
      cases h
      exact ⟨[], rfl, rfl⟩
  | @cons m n ms os hn _ ih =>
      have hsplit : (n :: os).filterMap id = n.toList ++ os.filterMap id := by
        cases n <;> rfl
      rw [hsplit] at h
      obtain ⟨us, vs, hu, hv, rfl⟩ := Scope.gather_none_append.1 h
      obtain ⟨xss, hx, rfl⟩ := ih hv
      refine ⟨us :: xss, ?_, rfl⟩
      have hm : c.entitiesFor s q m = .ok us := by
        rw [entitiesFor, hn, Attempt.ok_bind]
        exact hu
      simp only [List.mapM_cons, hm, hx, Attempt.ok_bind, Attempt.pure_eq_ok]

/-- Without a window, a search answers what it finds under each of its mappings. -/
theorem mapM_of_findEntities (ht : c.table.Accepted) {q : EntitySearch}
    (h : (Session.runFrom st (c.findEntities s (q.withPage 0 0))).1 = .ok xs) :
    ∃ ms xss, c.planner.candidates q = .ok ms ∧ ms.mapM (c.entitiesFor s q) = .ok xss ∧
      xs = xss.flatten := by
  obtain ⟨ns, hns, _, hall⟩ := entitiesOf_of_findEntities ht h
  obtain ⟨ms, os, hms, hos, rfl⟩ := Planner.searches_eq_ok hns
  obtain ⟨xss, hx, hflat⟩ := mapM_entitiesFor hos hall
  exact ⟨ms, xss, hms, hx, hflat⟩

theorem entitiesOf_of_mapM {f : EntityMapping → Attempt (Option NativeSearch)}
    {ms : List EntityMapping} {xss : List (List Entity)}
    (h : (ms.mapM fun m => f m >>= fun n => (c.scope s).entitiesOf n.toList) = .ok xss) :
    ∃ os, ms.mapM f = .ok os ∧ (c.scope s).entitiesOf (os.filterMap id) = .ok xss.flatten := by
  rw [Attempt.mapM_eq_ok] at h
  induction h with
  | nil => exact ⟨[], rfl, rfl⟩
  | @cons m us ms xss hm _ ih =>
      obtain ⟨os, hos, hrest⟩ := ih
      obtain ⟨n, hn, hu⟩ := Attempt.bind_eq_ok.1 hm
      have hsplit : (n :: os).filterMap id = n.toList ++ os.filterMap id := by
        cases n <;> rfl
      refine ⟨n :: os, by simp only [List.mapM_cons, hn, hos, Attempt.ok_bind, Attempt.pure_eq_ok], ?_⟩
      rw [hsplit]
      exact Scope.gather_none_append.2 ⟨us, xss.flatten, hu, hrest, rfl⟩

/-- What can be found under each of its mappings, a search without a window answers. -/
theorem findEntities_of_mapM (ht : c.table.Accepted) {q : EntitySearch} {ms : List EntityMapping}
    {xss : List (List Entity)} (hcheck : Planner.checkRequest q.historical q.properties = .ok ())
    (hms : c.planner.candidates q = .ok ms) (h : ms.mapM (c.entitiesFor s q) = .ok xss) :
    (Session.runFrom st (c.findEntities s (q.withPage 0 0))).1 = .ok xss.flatten := by
  obtain ⟨os, hos, hall⟩ := entitiesOf_of_mapM h
  have hns : c.planner.searches q none = .ok (os.filterMap id) := by
    rw [Planner.searches, hcheck, hms]
    simp only [Attempt.within, Attempt.ok_bind, hos]
  obtain ⟨ms', hu, _⟩ := Planner.searches_unpaged (p := c.planner) ht hns
  rw [findEntities_eq_ok, planEntities_withPage hns, Planner.planOf_unpaged hu rfl rfl]
  refine ⟨_, rfl, ?_⟩
  rw [windowOf_of_entitiesOf hall]
  rfl

/-- The operations that search for entities. -/
inductive FindsEntities (c : Collection) (s : Service) : Session (List Entity) → Prop
  | byCondition (q : EntitySearch) : FindsEntities c s (c.findEntities s q)
  | byClassification (name : String) (properties : Option PropertyGroup) (q : EntitySearch) :
      FindsEntities c s (c.findClassified s name properties q)
  | byText (value : String) (q : EntitySearch) : FindsEntities c s (c.findByText s value q)

theorem sound_of_findEntities (ht : c.table.Accepted) {q : EntitySearch}
    (h : (Session.runFrom st (c.findEntities s q)).1 = .ok xs) :
    ∃ p, c.planner.Sound p ∧ c.windowOf s p = .ok xs := by
  obtain ⟨p, hp, hw⟩ := findEntities_eq_ok.1 h
  exact ⟨p, Planner.planEntities_sound ht hp, hw⟩

theorem sound_of_findByText (ht : c.table.Accepted) {value : String} {q : EntitySearch}
    (h : (Session.runFrom st (c.findByText s value q)).1 = .ok xs) :
    ∃ p, c.planner.Sound p ∧ c.windowOf s p = .ok xs := by
  obtain ⟨_, _, _, h⟩ := Session.runFrom_bind_eq_ok.1 h
  obtain ⟨g, _, _, h⟩ := Session.runFrom_bind_eq_ok.1 h
  cases g with
  | some g => exact sound_of_findEntities ht h
  | none =>
      obtain ⟨ms, _, _, h⟩ := Session.runFrom_bind_eq_ok.1 h
      obtain ⟨reported, _, _, h⟩ := Session.runFrom_bind_eq_ok.1 h
      have hplan (st : SessionState) (version : Option String)
          (h : (Session.runFrom st (Session.ofAttempt
            (c.planner.planText q value reported version none) >>= fun p =>
              (c.scope s).runEntities p)).1 = .ok xs) :
          ∃ p, c.planner.Sound p ∧ c.windowOf s p = .ok xs := by
        obtain ⟨p, _, hp, h⟩ := Session.runFrom_bind_eq_ok.1 h
        rw [Session.runFrom_ofAttempt] at hp
        exact ⟨p, Planner.planText_sound ht (congrArg Prod.fst hp), runEntities_eq_ok.1 h⟩
      simp only at h
      split at h
      · obtain ⟨_, _, _, h⟩ := Session.runFrom_bind_eq_ok.1 h
        exact hplan _ _ h
      · obtain ⟨_, _, _, h⟩ := Session.runFrom_bind_eq_ok.1 h
        obtain ⟨_, _, _, h⟩ := Session.runFrom_bind_eq_ok.1 h
        exact hplan _ _ h

/-- What a search for entities answers is in the window of a sound plan. -/
theorem FindsEntities.sound (ht : c.table.Accepted) {work : Session (List Entity)}
    (hw : c.FindsEntities s work) (h : (Session.runFrom st work).1 = .ok xs) :
    ∃ p, c.planner.Sound p ∧ c.windowOf s p = .ok xs := by
  cases hw with
  | byCondition q => exact sound_of_findEntities ht h
  | byClassification name properties q =>
      obtain ⟨_, _, _, h⟩ := Session.runFrom_bind_eq_ok.1 h
      exact sound_of_findEntities ht h
  | byText value q => exact sound_of_findByText ht h

end Collection

namespace Sample

/-- A host that no entity can be made of. -/
def namelessHost : Record := { ref := ⟨"host-1", "host", none⟩ }

def host : Record := { ref := ⟨"host-2", "host", some "alpha"⟩ }

def database : Record := { ref := ⟨"database-1", "database", some "sales"⟩, context := [host.ref] }

def assetService : Service :=
  { catalog := ((({} : Catalog).put namelessHost).put host).put database }

def collection : Collection := ⟨{ home := "home-1" }, MappingTable.standard⟩

def assetRequest : EntitySearch := { type := some "Asset" }

def guidsOf : Attempt (Outcome (List Entity)) → Option (List String)
  | .ok (.value es) => some (es.map Entity.guid)
  | _ => none

theorem exists_of_guidsOf {a : Attempt (Outcome (List Entity))} {guids : List String}
    (h : guidsOf a = some guids) : ∃ es, a = .ok (.value es) ∧ es.map Entity.guid = guids := by
  match a with
  | .ok (.value es) => exact ⟨es, rfl, Option.some.inj h⟩
  | .ok (.failure _) => cases h
  | .error _ => cases h

end Sample

end MetaFed
