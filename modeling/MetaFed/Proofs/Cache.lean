import MetaFed.Proofs.Lookup

/-!
What was fetched in a session is what the catalog has, so a look-up that needs no fetch answers as
one that does. Parts of a session whose results do not depend on what was fetched before end in the
same way in every state.
-/

namespace MetaFed

/-- Every record that was fetched is the one of the catalog, with the properties noted. -/
def SessionState.Faithful (cat : Catalog) (s : SessionState) : Prop :=
  ∀ id e, Assoc.find? id s.cache.entries = some e → e.record = cat.fetch id e.properties

theorem SessionState.faithful_empty (cat : Catalog) : SessionState.Faithful cat {} := by
  intro id e h
  cases h

namespace Session

variable {α β γ : Type} {cat : Catalog} {m : Session α} {a : α} {r : Attempt α}

/-- A part of a session ends like this in every state in which the fetched records are those of
the catalog, and leaves such a state behind. -/
def Answers (cat : Catalog) (m : Session α) (r : Attempt α) : Prop :=
  ∀ s, s.Faithful cat → ∃ s', s'.Faithful cat ∧ runFrom s m = (r, s')

theorem answers_pure (a : α) : Answers cat (pure a) (.ok a) := fun s hs => ⟨s, hs, rfl⟩

theorem answers_ofAttempt (r : Attempt α) : Answers cat (ofAttempt r) r :=
  fun s hs => ⟨s, hs, runFrom_ofAttempt s r⟩

theorem Answers.bind {f : α → Session β} {g : α → Attempt β} (hm : Answers cat m r)
    (hf : ∀ a, r = .ok a → Answers cat (f a) (g a)) : Answers cat (m >>= f) (r >>= g) := by
  intro s hs
  obtain ⟨s', hs', hrun⟩ := hm s hs
  rw [runFrom_bind, hrun]
  cases r with
  | error e => exact ⟨s', hs', rfl⟩
  | ok a => exact hf a rfl s' hs'

theorem Answers.bind_ok {f : α → Session β} {r : Attempt β} (hm : Answers cat m (.ok a))
    (hf : Answers cat (f a) r) : Answers cat (m >>= f) r :=
  hm.bind (g := fun _ => r) fun _ h => Except.ok.inj h ▸ hf

theorem Answers.mapM_of_forall₂ {δ : Type} {f : γ → Session α} {g : δ → Attempt α} {xs : List γ}
    {ys : List δ} (h : List.Forall₂ (fun x y => Answers cat (f x) (g y)) xs ys) :
    Answers cat (xs.mapM f) (ys.mapM g) := by
  induction h with
  | nil => exact answers_pure []
  | cons hx _ ih =>
      rw [List.mapM_cons, List.mapM_cons]
      refine hx.bind fun z _ => ih.bind fun zs _ => ?_
      exact answers_pure (z :: zs)

theorem Answers.mapM {f : γ → Session α} {g : γ → Attempt α} {xs : List γ}
    (h : ∀ x ∈ xs, Answers cat (f x) (g x)) : Answers cat (xs.mapM f) (xs.mapM g) :=
  mapM_of_forall₂ (List.forall₂_same.2 h)

theorem runFrom_ofAttempt_bind_eq_ok {s s' : SessionState} {f : α → Session β} {b : β} :
    runFrom s (ofAttempt r >>= f) = (.ok b, s') ↔ ∃ a, r = .ok a ∧ runFrom s (f a) = (.ok b, s') := by
  rw [runFrom_bind, runFrom_ofAttempt]
  cases r <;> simp

section Gives

variable {P : α → Prop} {Q : β → Prop}

/-- A part of a session ends well, with a result like this, in every state in which the fetched
records are those of the catalog, and leaves such a state behind. -/
def Gives (cat : Catalog) (m : Session α) (P : α → Prop) : Prop :=
  ∀ s, s.Faithful cat → ∃ a s', P a ∧ s'.Faithful cat ∧ runFrom s m = (.ok a, s')

theorem gives_pure (h : P a) : Gives cat (pure a) P := fun s hs => ⟨a, s, h, hs, rfl⟩

theorem gives_ofAttempt (hr : r = .ok a) (h : P a) : Gives cat (ofAttempt r) P := by
  subst hr
  exact gives_pure h

theorem Answers.gives (hm : Answers cat m (.ok a)) (h : P a) : Gives cat m P := by
  intro s hs
  obtain ⟨s', hs', hrun⟩ := hm s hs
  exact ⟨a, s', h, hs', hrun⟩

theorem Gives.imp {P' : α → Prop} (hm : Gives cat m P) (h : ∀ a, P a → P' a) : Gives cat m P' := by
  intro s hs
  obtain ⟨a, s', ha, hs', hrun⟩ := hm s hs
  exact ⟨a, s', h a ha, hs', hrun⟩

theorem Gives.bind {f : α → Session β} (hm : Gives cat m P) (hf : ∀ a, P a → Gives cat (f a) Q) :
    Gives cat (m >>= f) Q := by
  intro s hs
  obtain ⟨a, s', ha, hs', hrun⟩ := hm s hs
  rw [runFrom_bind_ok hrun]
  exact hf a ha s' hs'

theorem Gives.bind_answers {f : α → Session β} {r : Attempt β} (hm : Gives cat m P)
    (hf : ∀ a, P a → Answers cat (f a) r) : Answers cat (m >>= f) r := by
  intro s hs
  obtain ⟨a, s', ha, hs', hrun⟩ := hm s hs
  rw [runFrom_bind_ok hrun]
  exact hf a ha s' hs'

theorem Gives.exists_run (h : Gives cat m P) : ∃ a, P a ∧ (runFrom {} m).1 = .ok a := by
  obtain ⟨a, s', ha, _, hrun⟩ := h {} (SessionState.faithful_empty cat)
  exact ⟨a, ha, congrArg Prod.fst hrun⟩

end Gives

theorem answers_note (e : Event) : Answers cat (note e) (.ok ()) :=
  fun s hs => ⟨{ s with events := s.events ++ [e] }, hs, rfl⟩

end Session

namespace Backend

open Session

variable {α : Type} {b : Backend} {cat : Catalog} {id : String} {wanted : List String}

theorem answers_enter (e : Endpoint) : Answers cat (b.enter e) (b.entry e) := by
  intro s hs
  rw [enter, entry]
  cases b.outage e with
  | none => exact ⟨{ s with events := s.events ++ [.called e] }, hs, rfl⟩
  | some o =>
      simp only
      cases o.noticed with
      | false => exact ⟨s, hs, rfl⟩
      | true => exact ⟨{ s with events := s.events ++ [.called e] }, hs, rfl⟩

theorem answers_runSearch (n : NativeSearch) : Answers cat (b.runSearch n) (b.answer n) := by
  refine (answers_enter .search).bind fun _ _ => ?_
  exact (answers_note _).bind_ok (answers_ofAttempt _)

theorem faithful_keep {c : ObjectCache} {s : SessionState} (hs : s.Faithful cat)
    (hc : c.entries = s.cache.entries) (id : String) (ps : List String) (events : List Event) :
    SessionState.Faithful cat { events, cache := c.keep id ⟨cat.fetch id ps, ps⟩ } := by
  intro id' e h
  by_cases hid : id = id'
  · subst hid
    rw [ObjectCache.keep, Assoc.find?_put_self] at h
    cases h
    rfl
  · rw [ObjectCache.keep, Assoc.find?_put_of_ne hid, hc] at h
    exact hs id' e h

theorem record_of_answer? {s : SessionState} (hs : s.Faithful cat) {e : CacheEntry}
    (h : s.cache.answer? id wanted = some e) : ∃ ps, wanted ⊆ ps ∧ e.record = cat.fetch id ps := by
  obtain ⟨hfind, hcovers⟩ := Option.filter_eq_some_iff.1 h
  have hrecord := hs id e hfind
  simp only [CacheEntry.covers, Bool.or_eq_true, Option.isNone_iff_eq_none, List.all_eq_true] at hcovers
  -- That a record is missing answers for all properties.
  rcases hcovers with hnone | hall
  · refine ⟨wanted, List.Subset.refl wanted, ?_⟩
    rw [hnone, eq_comm, Catalog.fetch, Option.map_eq_none_iff] at hrecord
    rw [hnone, Catalog.fetch, hrecord, Option.map_none]
  · exact ⟨e.properties, fun p hp => List.contains_iff_mem.1 (hall p hp), hrecord⟩

/-- What is kept of a record answers without a call. -/
theorem runFrom_lookUp_of_kept {s : SessionState} {e : CacheEntry}
    (h : s.cache.answer? id wanted = some e) :
    runFrom s (b.lookUp id wanted) = (.ok e.record, { s with cache := s.cache.hit }) := by
  rw [lookUp, runFrom_bind_ok (show runFrom s get = (.ok s, s) from rfl)]
  simp only [h]
  rfl

/-- The state after a record was fetched, with what was asked for before and now. -/
def fetchedState (b : Backend) (s : SessionState) (id : String) (wanted : List String) :
    SessionState where
  events := s.events ++ [.called .record] ++ [.fetched id]
  cache := s.cache.miss.keep id
    ⟨b.record id (s.cache.projection id wanted), s.cache.projection id wanted⟩

theorem runFrom_lookUp_of_fetched {s : SessionState} (h : s.cache.answer? id wanted = none)
    (ho : b.outage .record = none) : runFrom s (b.lookUp id wanted) =
      (.ok (b.record id (s.cache.projection id wanted)), b.fetchedState s id wanted) := by
  rw [lookUp, runFrom_bind_ok (show runFrom s get = (.ok s, s) from rfl)]
  simp only [h]
  rw [fetch, enter, ho]
  rfl

theorem runFrom_lookUp_of_outage {s : SessionState} {o : Outage}
    (h : s.cache.answer? id wanted = none) (ho : b.outage .record = some o) :
    runFrom s (b.lookUp id wanted) = (.error o.failure,
      ⟨if o.noticed then s.events ++ [.called .record] else s.events, s.cache.miss⟩) := by
  rw [lookUp, runFrom_bind_ok (show runFrom s get = (.ok s, s) from rfl)]
  simp only [h]
  rw [fetch, enter, ho]
  cases hn : o.noticed with
  | false => simp only [hn]; rfl
  | true => simp only [hn]; rfl

/-- A look-up gives the record of the catalog with at least the properties asked for, whatever was
fetched before. -/
theorem exists_runFrom_lookUp (ho : b.outage .record = none) (hb : b.record = cat.fetch)
    {s : SessionState} (hs : s.Faithful cat) (id : String) (wanted : List String) :
    ∃ ps s', wanted ⊆ ps ∧ s'.Faithful cat ∧
      runFrom s (b.lookUp id wanted) = (.ok (cat.fetch id ps), s') := by
  cases ha : s.cache.answer? id wanted with
  | some e =>
      obtain ⟨ps, hps, hrecord⟩ := record_of_answer? hs ha
      exact ⟨ps, { s with cache := s.cache.hit }, hps, hs, hrecord ▸ runFrom_lookUp_of_kept ha⟩
  | none =>
      have hsub : wanted ⊆ s.cache.projection id wanted := fun p hp => by
        rw [ObjectCache.projection, mem_firsts]
        exact List.mem_append_right _ hp
      have hrun := runFrom_lookUp_of_fetched ha ho
      rw [fetchedState, hb] at hrun
      have hmiss : s.cache.miss.entries = s.cache.entries := rfl
      exact ⟨_, _, hsub, faithful_keep hs hmiss id _ _, hrun⟩

theorem gives_lookUp (ho : b.outage .record = none) (hb : b.record = cat.fetch) (id : String)
    (wanted : List String) : Gives cat (b.lookUp id wanted) fun o =>
      ∃ ps, wanted ⊆ ps ∧ o = cat.fetch id ps := by
  intro s hs
  obtain ⟨ps, s', hps, hs', hrun⟩ := exists_runFrom_lookUp ho hb hs id wanted
  exact ⟨_, s', ⟨ps, hps, rfl⟩, hs', hrun⟩

theorem answers_lookUp_bind (ho : b.outage .record = none) (hb : b.record = cat.fetch)
    {f : Option Record → Session α} {r : Attempt α}
    (hf : ∀ ps, wanted ⊆ ps → Answers cat (f (cat.fetch id ps)) r) :
    Answers cat (b.lookUp id wanted >>= f) r := by
  refine (gives_lookUp ho hb id wanted).bind_answers ?_
  rintro _ ⟨ps, hps, rfl⟩
  exact hf ps hps

theorem outage_eq_none_of_lookUp {s : SessionState} {o : Option Record}
    (hs : s.cache.entries = []) (h : (runFrom s (b.lookUp id wanted)).1 = .ok o) :
    b.outage .record = none := by
  have ha : s.cache.answer? id wanted = none := by
    rw [ObjectCache.answer?, hs]
    rfl
  cases ho : b.outage .record with
  | none => rfl
  | some o =>
      rw [runFrom_lookUp_of_outage ha ho] at h
      cases h

end Backend

end MetaFed
