import MetaFed.Proofs.Agreement

/-!
Histories of look-ups in one session. Calls may fail in between, a record is fetched again when more
of it is wanted, and that there is no such record is remembered. Whatever came before, a look-up
that ends well answers as the catalog itself would, and the backend is asked only for what no
earlier fetch was asked for.
-/

namespace MetaFed

open Session

/-- A look-up of a record of a catalog, at a backend that notices the calls it does not serve. -/
structure Inquiry (cat : Catalog) where
  backend : Backend
  id : String
  wanted : List String
  serves : backend.record = cat.fetch
  notices : ∀ o ∈ backend.outage .record, o.noticed = true

/-- Number of calls for a record in the log. -/
def SessionState.recordCalls (s : SessionState) : Nat :=
  s.events.countP fun
    | .called .record => true
    | _ => false

/-- A look-up and the state that it begins in. -/
structure Turn (cat : Catalog) where
  inquiry : Inquiry cat
  start : SessionState

/-- Fetched with more properties or fewer, a record is the same in those of both. -/
theorem Catalog.fetch_agrees {cat : Catalog} {id : String} {wanted ps : List String} {r : Record}
    (hps : wanted ⊆ ps) (hr : cat.fetch id ps = some r) :
    ∃ d, cat.fetch id wanted = some d ∧ r.AgreesOn (· ∈ wanted) d := by
  obtain ⟨whole, hfind, rfl⟩ := Option.map_eq_some_iff.1 hr
  have hmore := (whole.agreesOn_project ps).mono fun p (hp : p ∈ wanted) => hps hp
  exact ⟨whole.project wanted, by rw [fetch, hfind, Option.map_some],
    hmore.trans (whole.agreesOn_project wanted).symm⟩

namespace Turn

variable {cat : Catalog} {t : Turn cat} {past later : List (Turn cat)} {id : String}

def run (t : Turn cat) : Attempt (Option Record) × SessionState :=
  runFrom t.start (t.inquiry.backend.lookUp t.inquiry.id t.inquiry.wanted)

def result (t : Turn cat) : Attempt (Option Record) := t.run.1

def after (t : Turn cat) : SessionState := t.run.2

def kept? (t : Turn cat) : Option CacheEntry :=
  t.start.cache.answer? t.inquiry.id t.inquiry.wanted

def Asks (t : Turn cat) : Prop := t.start.recordCalls < t.after.recordCalls

/-- The look-up calls the backend for a record and is served. -/
def Fetches (t : Turn cat) (id : String) : Prop :=
  t.inquiry.id = id ∧ t.Asks ∧ ∃ o, t.result = .ok o

/-- Either the record is kept, or it is fetched with more properties, or the call fails. -/
theorem run_cases (t : Turn cat) :
    (∃ e, t.kept? = some e ∧ t.run = (.ok e.record, { t.start with cache := t.start.cache.hit })) ∨
    (t.kept? = none ∧ t.inquiry.backend.outage .record = none ∧
      t.run = (.ok (cat.fetch t.inquiry.id
          (t.start.cache.projection t.inquiry.id t.inquiry.wanted)),
        t.inquiry.backend.fetchedState t.start t.inquiry.id t.inquiry.wanted)) ∨
    ∃ o, t.kept? = none ∧ t.inquiry.backend.outage .record = some o ∧
      t.run = (.error o.failure, ⟨t.start.events ++ [.called .record], t.start.cache.miss⟩) := by
  cases hk : t.kept? with
  | some e => exact .inl ⟨e, rfl, Backend.runFrom_lookUp_of_kept hk⟩
  | none =>
      cases ho : t.inquiry.backend.outage .record with
      | none =>
          have hrun := Backend.runFrom_lookUp_of_fetched hk ho
          rw [t.inquiry.serves] at hrun
          exact .inr (.inl ⟨rfl, rfl, hrun⟩)
      | some o =>
          have hrun := Backend.runFrom_lookUp_of_outage hk ho
          rw [if_pos (t.inquiry.notices o ho)] at hrun
          exact .inr (.inr ⟨o, rfl, rfl, hrun⟩)

theorem asks_iff : t.Asks ↔ t.kept? = none := by
  rw [Asks, after]
  rcases t.run_cases with ⟨e, hk, hrun⟩ | ⟨hk, _, hrun⟩ | ⟨o, hk, _, hrun⟩
  · simp [hk, hrun, SessionState.recordCalls]
  · simp [hk, hrun, SessionState.recordCalls, Backend.fetchedState]
  · simp [hk, hrun, SessionState.recordCalls]

/-- What is kept after some look-ups is what they fetched. -/
structure Remembers (past : List (Turn cat)) (s : SessionState) : Prop where
  faithful : s.Faithful cat
  unknown : ∀ id, Assoc.find? id s.cache.entries = none ↔ ∀ u ∈ past, ¬u.Fetches id
  covered : ∀ id e, Assoc.find? id s.cache.entries = some e → ∀ p,
    p ∈ e.properties ↔ ∃ u ∈ past, u.Fetches id ∧ p ∈ u.inquiry.wanted

theorem remembers_nil : Remembers ([] : List (Turn cat)) {} where
  faithful := SessionState.faithful_empty cat
  unknown _ := by simp [Assoc.find?]
  covered _ _ h := by cases h

theorem Remembers.of_entries_eq (h : Remembers past t.start) (hn : ∀ id, ¬t.Fetches id)
    (he : t.after.cache.entries = t.start.cache.entries) : Remembers (past ++ [t]) t.after := by
  refine ⟨?_, fun id => ?_, fun id e hf p => ?_⟩
  · rw [SessionState.Faithful, he]
    exact h.faithful
  · rw [he]
    simp [h.unknown id, or_imp, forall_and, hn id]
  · rw [he] at hf
    simp [h.covered id e hf p, or_and_right, exists_or, hn id]

theorem Remembers.mem_properties (h : Remembers past t.start) (id p : String) :
    p ∈ ((Assoc.find? id t.start.cache.entries).map CacheEntry.properties).getD [] ↔
      ∃ u ∈ past, u.Fetches id ∧ p ∈ u.inquiry.wanted := by
  cases hk : Assoc.find? id t.start.cache.entries with
  | none =>
      refine iff_of_false List.not_mem_nil ?_
      rintro ⟨u, hu, hfu, _⟩
      exact (h.unknown id).1 hk u hu hfu
  | some e => exact h.covered id e hk p

theorem Remembers.of_fetch (h : Remembers past t.start) (hf : t.Fetches t.inquiry.id)
    (ha : t.after = t.inquiry.backend.fetchedState t.start t.inquiry.id t.inquiry.wanted) :
    Remembers (past ++ [t]) t.after := by
  have hmiss : t.start.cache.miss.entries = t.start.cache.entries := rfl
  have hkept := Backend.faithful_keep h.faithful hmiss t.inquiry.id
    (t.start.cache.projection t.inquiry.id t.inquiry.wanted)
  rw [ha, Backend.fetchedState, t.inquiry.serves]
  refine ⟨hkept _, fun id => ?_, fun id e he p => ?_⟩
  · by_cases hid : t.inquiry.id = id
    · subst hid
      simpa [ObjectCache.keep] using .inr hf
    · have hother : ¬t.Fetches id := fun hf => hid hf.1
      simp [ObjectCache.keep, Assoc.find?_put_of_ne hid, hmiss, h.unknown id, or_imp, forall_and,
        hother]
  · by_cases hid : t.inquiry.id = id
    · subst hid
      rw [ObjectCache.keep, Assoc.find?_put_self] at he
      cases he
      rw [ObjectCache.projection, mem_firsts, List.mem_append, h.mem_properties]
      simp [or_and_right, exists_or, hf]
    · have hother : ¬t.Fetches id := fun hf => hid hf.1
      rw [ObjectCache.keep, Assoc.find?_put_of_ne hid, hmiss] at he
      simp [h.covered id e he p, or_and_right, exists_or, hother]

theorem Remembers.step (h : Remembers past t.start) : Remembers (past ++ [t]) t.after := by
  rcases t.run_cases with ⟨e, hk, hrun⟩ | ⟨hk, _, hrun⟩ | ⟨o, _, _, hrun⟩
  · refine h.of_entries_eq ?_ (by rw [after, hrun]; rfl)
    rintro id ⟨_, hasks, _⟩
    rw [asks_iff.1 hasks] at hk
    cases hk
  · exact h.of_fetch ⟨rfl, asks_iff.2 hk, _, congrArg Prod.fst hrun⟩ (congrArg Prod.snd hrun)
  · refine h.of_entries_eq ?_ (by rw [after, hrun]; rfl)
    rintro id ⟨_, _, _, hok⟩
    rw [result, hrun] at hok
    cases hok

theorem looked (t : Turn cat) : t.after.cache.hits + t.after.cache.misses =
    t.start.cache.hits + t.start.cache.misses + 1 := by
  rcases t.run_cases with ⟨e, _, hrun⟩ | ⟨_, _, hrun⟩ | ⟨o, _, _, hrun⟩
  · simp only [after, hrun, ObjectCache.hit]
    omega
  · simp only [after, hrun, Backend.fetchedState, ObjectCache.keep, ObjectCache.miss]
    omega
  · simp only [after, hrun, ObjectCache.miss]
    omega

theorem missed (h : t.start.cache.misses = t.start.recordCalls) :
    t.after.cache.misses = t.after.recordCalls := by
  rw [after]
  rcases t.run_cases with ⟨e, _, hrun⟩ | ⟨_, _, hrun⟩ | ⟨o, _, _, hrun⟩
  · rw [hrun]
    exact h
  · simp [hrun, Backend.fetchedState, ObjectCache.keep, ObjectCache.miss,
      SessionState.recordCalls, h]
  · simp [hrun, ObjectCache.miss, SessionState.recordCalls, h]

/-- The answer of a look-up after others. -/
structure Transparent (past : List (Turn cat)) (t : Turn cat) : Prop where
  missing : ∀ o, t.result = .ok o → (o = none ↔ cat.find? t.inquiry.id = none)
  agrees : ∀ r, t.result = .ok (some r) → ∃ d, cat.fetch t.inquiry.id t.inquiry.wanted = some d ∧
    r.AgreesOn (· ∈ t.inquiry.wanted) d
  answered : (∃ o, t.result = .ok o) ↔ (t.Asks → t.inquiry.backend.outage .record = none)
  asks : t.Asks ↔ (∀ u ∈ past, ¬u.Fetches t.inquiry.id) ∨
    (cat.find? t.inquiry.id).isSome = true ∧ ∃ p ∈ t.inquiry.wanted,
      ∀ u ∈ past, u.Fetches t.inquiry.id → p ∉ u.inquiry.wanted
  unchanged : ∀ f, t.result = .error f → t.after.cache.entries = t.start.cache.entries

theorem Remembers.exists_fetch (h : Remembers past t.start) {o : Option Record}
    (ho : t.result = .ok o) : ∃ ps, t.inquiry.wanted ⊆ ps ∧ o = cat.fetch t.inquiry.id ps := by
  rw [result] at ho
  rcases t.run_cases with ⟨e, hk, hrun⟩ | ⟨_, _, hrun⟩ | ⟨_, _, _, hrun⟩
  · rw [hrun] at ho
    cases ho
    exact Backend.record_of_answer? h.faithful hk
  · rw [hrun] at ho
    cases ho
    refine ⟨_, fun p hp => ?_, rfl⟩
    rw [ObjectCache.projection, mem_firsts]
    exact List.mem_append_right _ hp
  · rw [hrun] at ho
    cases ho

theorem Remembers.asks (h : Remembers past t.start) :
    t.Asks ↔ (∀ u ∈ past, ¬u.Fetches t.inquiry.id) ∨
      (cat.find? t.inquiry.id).isSome = true ∧ ∃ p ∈ t.inquiry.wanted,
        ∀ u ∈ past, u.Fetches t.inquiry.id → p ∉ u.inquiry.wanted := by
  rw [asks_iff, kept?, ObjectCache.answer?]
  cases hk : Assoc.find? t.inquiry.id t.start.cache.entries with
  | none => exact iff_of_true rfl (.inl ((h.unknown t.inquiry.id).1 hk))
  | some e =>
      have hfetched : ¬∀ u ∈ past, ¬u.Fetches t.inquiry.id := by
        rw [← h.unknown, hk]
        exact Option.some_ne_none e
      have hexists : e.record.isSome = (cat.find? t.inquiry.id).isSome := by
        rw [h.faithful t.inquiry.id e hk, Catalog.fetch, Option.isSome_map]
      rw [or_iff_right hfetched, ← hexists]
      have hcovers : e.covers t.inquiry.wanted = false ↔ e.record.isSome = true ∧
          ∃ p ∈ t.inquiry.wanted, ∀ u ∈ past, u.Fetches t.inquiry.id → p ∉ u.inquiry.wanted := by
        simp [CacheEntry.covers, h.covered t.inquiry.id e hk]
      rw [← hcovers]
      cases hc : e.covers t.inquiry.wanted <;> simp [Option.filter, hc]

theorem Remembers.transparent (h : Remembers past t.start) : Transparent past t where
  missing o ho := by
    obtain ⟨ps, _, rfl⟩ := h.exists_fetch ho
    rw [Catalog.fetch, Option.map_eq_none_iff]
  agrees r hr := by
    obtain ⟨ps, hps, ho⟩ := h.exists_fetch hr
    exact Catalog.fetch_agrees hps ho.symm
  answered := by
    rw [asks_iff, result]
    rcases t.run_cases with ⟨e, hk, hrun⟩ | ⟨hk, ho, hrun⟩ | ⟨o, hk, ho, hrun⟩
    · simp [hrun, hk]
    · simp [hrun, ho]
    · simp [hrun, hk, ho]
  asks := h.asks
  unchanged f hf := by
    rw [result] at hf
    rw [after]
    rcases t.run_cases with ⟨_, _, hrun⟩ | ⟨_, _, hrun⟩ | ⟨_, _, _, hrun⟩
    · rw [hrun] at hf
      cases hf
    · rw [hrun] at hf
      cases hf
    · rw [hrun]
      rfl

end Turn

variable {cat : Catalog}

/-- The turns that some look-ups take one after another. -/
def turns (s : SessionState) : List (Inquiry cat) → List (Turn cat)
  | [] => []
  | q :: qs => ⟨q, s⟩ :: turns (Turn.mk q s).after qs

def stateAfter (s : SessionState) : List (Inquiry cat) → SessionState
  | [] => s
  | q :: qs => stateAfter (Turn.mk q s).after qs

theorem remembers_of_turns {s : SessionState} {qs : List (Inquiry cat)}
    {before past later : List (Turn cat)} {t : Turn cat} (h : Turn.Remembers before s)
    (ht : turns s qs = past ++ t :: later) : Turn.Remembers (before ++ past) t.start := by
  induction qs generalizing s before past with
  | nil => simp [turns] at ht
  | cons q qs ih =>
      rw [turns] at ht
      cases past with
      | nil =>
          obtain ⟨rfl, _⟩ := List.cons.inj ht
          simpa using h
      | cons u past =>
          obtain ⟨rfl, hrest⟩ := List.cons.inj ht
          rw [List.append_cons]
          exact ih h.step hrest

theorem looked_stateAfter (s : SessionState) (qs : List (Inquiry cat)) :
    (stateAfter s qs).cache.hits + (stateAfter s qs).cache.misses =
      s.cache.hits + s.cache.misses + qs.length := by
  induction qs generalizing s with
  | nil => rfl
  | cons q qs ih =>
      have hlooked := (Turn.mk q s).looked
      rw [stateAfter, ih, hlooked, List.length_cons]
      exact Nat.add_right_comm _ 1 qs.length

theorem missed_stateAfter {s : SessionState} (hs : s.cache.misses = s.recordCalls)
    (qs : List (Inquiry cat)) :
    (stateAfter s qs).cache.misses = (stateAfter s qs).recordCalls := by
  induction qs generalizing s with
  | nil => exact hs
  | cons q qs ih => exact ih (Turn.missed (t := ⟨q, s⟩) hs)

/-- However look-ups follow one another and whichever calls fail, what was fetched shows in no
answer, and every miss is a call. -/
theorem lookUps_transparent (qs : List (Inquiry cat)) :
    (∀ past t later, turns {} qs = past ++ t :: later → Turn.Transparent past t) ∧
      (stateAfter {} qs).cache.hits + (stateAfter {} qs).cache.misses = qs.length ∧
      (stateAfter {} qs).cache.misses = (stateAfter {} qs).recordCalls := by
  refine ⟨fun past t later ht => ?_, ?_, missed_stateAfter rfl qs⟩
  · have hpast := remembers_of_turns Turn.remembers_nil ht
    rw [List.nil_append] at hpast
    exact hpast.transparent
  · simpa using looked_stateAfter {} qs

/-- A look-up at a service that lasts as it is. -/
def Service.inquiry (s : Service) (id : String) (wanted : List String) : Inquiry s.catalog where
  backend := s.backend
  id := id
  wanted := wanted
  serves := rfl
  notices o ho := by
    obtain ⟨f, _, rfl⟩ := Option.map_eq_some_iff.1 ho
    rfl

namespace Sample

def glossary : Service :=
  { catalog := ({} : Catalog).put
      { ref := ⟨"term-1", "term", some "Margin"⟩
        properties := [("status", .text "DRAFT"), ("usage", .text "finance")] } }

/-- The glossary while it loses its connection. -/
def lostGlossary : Service :=
  { glossary with failures := [("get_record_by_id", .fault (.external "ConnectionError" none))] }

/-- The third look-up and the last one need no call. -/
def glossaryInquiries : List (Inquiry glossary.catalog) :=
  [glossary.inquiry "term-1" ["status"], lostGlossary.inquiry "term-1" ["usage"],
    glossary.inquiry "term-1" ["status"], glossary.inquiry "term-1" ["usage", "status"],
    glossary.inquiry "term-2" [], glossary.inquiry "term-2" ["status"]]

theorem glossaryInquiries_transparent :
    (stateAfter {} glossaryInquiries).cache.hits = 2 ∧
      (stateAfter {} glossaryInquiries).cache.misses = 4 ∧
      ∃ past t later, turns {} glossaryInquiries = past ++ t :: later ∧ past.length = 3 ∧
        t.Asks ∧ Turn.Transparent past t := by
  have hturns : turns {} glossaryInquiries = (turns {} glossaryInquiries).take 3 ++
      (turns {} glossaryInquiries).get ⟨3, by decide⟩ :: (turns {} glossaryInquiries).drop 4 := rfl
  refine ⟨by decide, by decide, _, _, _, hturns, rfl, ?_, (lookUps_transparent _).1 _ _ _ hturns⟩
  rw [Turn.Asks]
  decide

end Sample

end MetaFed
