import MetaFed.Proofs.Tracked

/-!
Calls that fail. The first of them ends the operation with a refusal that names the call and the
operation. Up to it the operation does what it does without failures, and after it there are no
more calls.
-/

namespace MetaFed

/-- A fault that does not end the program. -/
def Fault.Ordinary : Fault → Prop
  | .external kind _ => kind ∉ Backend.fatalKinds
  | _ => True

namespace Backend

def failing (b : Backend) (faults : Endpoint → Option Fault) : Backend :=
  { b with
    outage := fun e =>
      match faults e with
      | some x => some ⟨.fault x, true⟩
      | none => b.outage e }

variable {b : Backend} {faults : Endpoint → Option Fault}

theorem report_of_ordinary {x : Fault} (hx : x.Ordinary) (e : Endpoint) :
    report e (.fault x) = Failure.ofCause (.backend e.name (some x)) := by
  cases x with
  | external kind m =>
      have hkind : fatalKinds.contains kind = false := by
        rw [← Bool.not_eq_true, List.contains_iff_mem]
        exact hx
      simp only [report, hkind, Bool.false_eq_true, if_false]
  | _ => rfl

theorem follows_failing (hf : ∀ e x, faults e = some x → x.Ordinary) :
    b.reporting.Follows ⟨fun _ => True, faults⟩ (b.failing faults).reporting where
  served := by
    intro e he
    simp only at he
    simp only [reporting, failing, he]
  failing := by
    intro e x hx
    simp only at hx
    simp only [reporting, failing, hx, Option.map_some, report_of_ordinary (hf e x hx)]
  search := (Follows.refl (fun _ => True) b.reporting).search
  record := (Follows.refl (fun _ => True) b.reporting).record
  stringProperties := rfl
  version := rfl

end Backend

namespace Service

variable {s : Service} {limit : Option Value}

/-- The faults that the failing calls of a service end with. -/
def faults (s : Service) (e : Endpoint) : Option Fault :=
  match s.failure? e with
  | some ⟨.fault x, _⟩ => some x
  | _ => none

/-- A bound on calls is met: there is time to begin them, and they take no longer. -/
def Meets (s : Service) (limit : Option Value) : Prop :=
  ∀ t, limit = some t → t.compare? (.int 0) = some .gt ∧ s.isSlower t = false

theorem outageWithin_of_meets {t : Value} (h : s.Meets (some t)) :
    s.outageWithin t = s.failure? := by
  obtain ⟨hpositive, hfast⟩ := h t rfl
  funext e
  simp [outageWithin, hpositive, hfast]

theorem bounded_eq_reporting (hlimit : s.Meets limit) :
    s.bounded limit = s.backend.reporting := by
  cases limit with
  | none => rfl
  | some t => rw [bounded, outageWithin_of_meets hlimit]; rfl

theorem bounded_eq_failing (hlimit : s.Meets limit)
    (hf : ∀ e o, s.failure? e = some o → ∃ x, o = ⟨.fault x, true⟩) :
    s.bounded limit = ({ s with failures := [] }.backend.failing s.faults).reporting := by
  have houtage : s.failure? = ({ s with failures := [] }.backend.failing s.faults).outage := by
    funext e
    simp only [Backend.failing, faults]
    cases ho : s.failure? e with
    | none => rfl
    | some o =>
        obtain ⟨x, rfl⟩ := hf e o ho
        rfl
  rw [bounded_eq_reporting hlimit]
  exact congrArg (fun outage => { s.backend with outage }.reporting) houtage

end Service

theorem Outcome.ofAttempt_backend {α : Type} (operation home call : String) (f : Option Fault) :
    ∃ r : Refusal, ofAttempt (α := α) operation home (refuse (.backend call f)) = .ok (.failure r) ∧
      r.cause = .backend call f ∧ r.operation = some operation ∧
      Assoc.find? "transport_operation" r.params = some (.text call) :=
  ⟨_, rfl, rfl, rfl, rfl⟩

namespace Collection

variable {c : Collection} {α : Type}

/-- If an operation begins a call that fails, its outcome is the refusal of this call, and this is
its last call; if it begins none, it does what it does without failures. -/
theorem answer_failing (ht : c.table.Accepted) (b : Backend) {faults : Endpoint → Option Fault}
    (hf : ∀ e x, faults e = some x → x.Ordinary) (o : Operation α) :
    (∀ e x, .called e ∈ (c.answer (b.failing faults) o).2 → faults e = some x →
      ∃ r es, c.answer (b.failing faults) o = (.ok (.failure r), es ++ [.called e]) ∧
        r.cause = .backend e.name (some x) ∧ r.operation = some o.name ∧
        Assoc.find? "transport_operation" r.params = some (.text e.name) ∧
        ∀ e', .called e' ∈ es → faults e' = none) ∧
    ((∀ e, .called e ∈ (c.answer (b.failing faults) o).2 → faults e = none) →
      c.answer (b.failing faults) o = c.answer b o) := by
  have hfollows : (c.scope b).backend.Follows ⟨fun _ => True, faults⟩
      (c.scope (b.failing faults)).backend := Backend.follows_failing hf
  rcases answer_cases hfollows (MappingTable.asks_of_shared fun _ => trivial) ht o with
    ⟨heq, hq⟩ | ⟨e, x, es, hx, hq, heq⟩
  · refine ⟨fun e x he hx => ?_, fun _ => heq⟩
    have hnone := hq e he
    simp only at hnone
    rw [hnone] at hx
    cases hx
  · -- The call that failed is the only one in the log, and the last.
    simp only at hx hq
    obtain ⟨r, hr, hcause, hoperation, hparam⟩ :=
      Outcome.ofAttempt_backend (α := α) o.name c.home e.name (some x)
    rw [heq, hr]
    constructor
    · intro e' x' he' hx'
      rcases List.mem_append.1 he' with he' | he'
      · have hnone := hq e' he'
        simp only at hnone
        rw [hnone] at hx'
        cases hx'
      · obtain rfl : e' = e := by
          simpa using he'
        obtain rfl : x = x' := Option.some.inj (hx.symm.trans hx')
        exact ⟨r, es, rfl, hcause, hoperation, hparam, hq⟩
    · intro hnone
      have hx' := hnone e (List.mem_append_right _ List.mem_cons_self)
      rw [hx] at hx'
      cases hx'

/-- A service that is fast enough answers as a backend some of whose calls always fail. -/
theorem answer_eq_failing (ht : c.table.Accepted) {s : Service}
    (hlimit : s.Meets c.settings.timeout)
    (hf : ∀ e o, s.failure? e = some o → ∃ x, o = ⟨.fault x, true⟩) (o : Operation α) :
    c.answer s o = c.answer ({ s with failures := [] }.backend.failing s.faults) o := by
  have hbackend : (c.scope s).backend =
      (c.scope ({ s with failures := [] }.backend.failing s.faults)).backend :=
    Service.bounded_eq_failing hlimit hf
  exact answer_congr ht hbackend o

end Collection

namespace Sample

def callsOf (es : List Event) : List Endpoint :=
  es.filterMap fun
    | .called e => some e
    | _ => none

theorem mem_callsOf {e : Endpoint} {es : List Event} : e ∈ callsOf es ↔ .called e ∈ es := by
  rw [callsOf, List.mem_filterMap]
  constructor
  · rintro ⟨⟨⟩, hmem, ⟨⟩⟩
    exact hmem
  · exact fun hmem => ⟨_, hmem, rfl⟩

/-- Searches fail, and nothing else does. -/
def searchDown : Endpoint → Option Fault
  | .search => some (.external "RuntimeError" (some "connection reset"))
  | _ => none

theorem ordinary_searchDown : ∀ e x, searchDown e = some x → x.Ordinary := by
  rintro (_ | _) x ⟨⟩
  unfold Fault.Ordinary
  decide

/-- Listing the relationships of the column needs no search, finding relationships does. -/
theorem searchDown_answered : (∀ e x, searchDown e = some x → x.Ordinary) ∧
    (∃ r es, collection.answer (linkedService.backend.failing searchDown) (.findRelationships {}) =
      (.ok (.failure r), es ++ [.called .search]) ∧
        r.cause = .backend "search" (searchDown .search)) ∧
    collection.answer (linkedService.backend.failing searchDown)
        (.relationships columnGuid none {} false) =
      collection.answer linkedService.backend (.relationships columnGuid none {} false) := by
  have hreached : .search ∈ callsOf
      (collection.answer (linkedService.backend.failing searchDown) (.findRelationships {})).2 := by
    decide +kernel
  have hquiet : ∀ e ∈ callsOf (collection.answer (linkedService.backend.failing searchDown)
      (.relationships columnGuid none {} false)).2, searchDown e = none := by
    decide +kernel
  obtain ⟨r, es, hanswer, hcause, _⟩ := (Collection.answer_failing (c := collection)
    MappingTable.accepted_standard linkedService.backend ordinary_searchDown
    (.findRelationships {})).1 .search _ (mem_callsOf.1 hreached) rfl
  refine ⟨ordinary_searchDown, ⟨r, es, hanswer, hcause⟩, ?_⟩
  exact (Collection.answer_failing (c := collection) MappingTable.accepted_standard
    linkedService.backend ordinary_searchDown (.relationships columnGuid none {} false)).2
    fun e he => hquiet e (mem_callsOf.2 he)

end Sample

end MetaFed
