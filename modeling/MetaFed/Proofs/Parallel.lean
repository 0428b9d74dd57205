import MetaFed.Proofs.Agreement
import MetaFed.Proofs.Operation

/-!
Two runs of a session on two backends. The second backend may keep back properties that it was not
asked for, and some of its calls may fail. Side by side the runs do the same, until a call of the
second one fails.
-/

namespace MetaFed

/-- How two backends may differ: their records agree in the properties that are asked for and in
those that are shared, and some calls of the second one fail. -/
structure Divergence where
  shared : String → Prop
  faults : Endpoint → Option Fault

namespace Divergence

variable (d : Divergence) {α β γ δ : Type}

/-- A record as both backends give it when they are asked for some properties. -/
def Same (wanted : List String) (r r' : Record) : Prop :=
  r.AgreesOn (fun p => p ∈ wanted ∨ d.shared p) r'

/-- A log without failing calls. -/
def Quiet (es : List Event) : Prop :=
  ∀ e, .called e ∈ es → d.faults e = none

structure SameEntry (e e' : CacheEntry) : Prop where
  properties : e'.properties = e.properties
  record : Option.Rel (d.Same e.properties) e.record e'.record

def SameCache (k k' : ObjectCache) : Prop :=
  ∀ id, Option.Rel d.SameEntry (Assoc.find? id k.entries) (Assoc.find? id k'.entries)

/-- The states of two runs that have done the same so far, without failing calls. -/
structure Parallel (s s' : SessionState) : Prop where
  events : s'.events = s.events
  quiet : d.Quiet s.events
  cache : d.SameCache s.cache s'.cache

/-- A run that its last call broke off, since this call failed. -/
def Broken (p : Attempt α × SessionState) : Prop :=
  ∃ e x es, d.faults e = some x ∧ d.Quiet es ∧ p.2.events = es ++ [.called e] ∧
    p.1 = .error (Failure.ofCause (.backend e.name (some x)))

/-- Run from parallel states, two parts of sessions end alike in parallel states, or else a failing
call breaks off the second one. -/
def Tracks (R : α → β → Prop) (m : Session α) (m' : Session β) : Prop :=
  ∀ s s', d.Parallel s s' →
    (Attempt.Alike Eq R (Session.runFrom s m).1 (Session.runFrom s' m').1 ∧
      d.Parallel (Session.runFrom s m).2 (Session.runFrom s' m').2) ∨
    d.Broken (Session.runFrom s' m')

variable {d}

theorem Same.mono {ws ws' : List String} {r r' : Record} (h : d.Same ws r r') (hsub : ws' ⊆ ws) :
    d.Same ws' r r' :=
  Record.AgreesOn.mono h fun _ hp => hp.imp_left fun hp => hsub hp

theorem parallel_empty : d.Parallel {} {} := by
  refine ⟨rfl, ?_, fun _ => .none⟩
  rintro e ⟨⟩

section

open Session

variable {R : α → β → Prop} {S : γ → δ → Prop} {m : Session α} {m' : Session β}

theorem tracks_pure {a : α} {b : β} (h : R a b) : d.Tracks R (pure a) (pure b) :=
  fun _ _ hs => .inl ⟨.ok h, hs⟩

theorem tracks_throw (f : Failure) : d.Tracks R (throw f) (throw f) :=
  fun _ _ hs => .inl ⟨.error rfl, hs⟩

theorem tracks_ofAttempt {a : Attempt α} {b : Attempt β} (h : Attempt.Alike Eq R a b) :
    d.Tracks R (ofAttempt a) (ofAttempt b) := by
  intro s s' hs
  rw [runFrom_ofAttempt, runFrom_ofAttempt]
  exact .inl ⟨h, hs⟩

theorem tracks_same (a : Attempt α) : d.Tracks Eq (ofAttempt a) (ofAttempt a) :=
  tracks_ofAttempt (.refl a)

theorem Tracks.mono {R' : α → β → Prop} (h : d.Tracks R m m') (hR : ∀ a b, R a b → R' a b) :
    d.Tracks R' m m' := by
  intro s s' hs
  rcases hrun : runFrom s m with ⟨a, s₁⟩
  rcases hrun' : runFrom s' m' with ⟨b, s₁'⟩
  have h := h s s' hs
  rw [hrun, hrun'] at h
  exact h.imp_left fun ⟨hend, hstate⟩ => ⟨hend.mono hR, hstate⟩

theorem Tracks.bind {f : α → Session γ} {f' : β → Session δ} (hm : d.Tracks R m m')
    (hf : ∀ a b, R a b → d.Tracks S (f a) (f' b)) : d.Tracks S (m >>= f) (m' >>= f') := by
  intro s s' hs
  have hm := hm s s' hs
  rw [runFrom_bind, runFrom_bind]
  rcases hrun : runFrom s m with ⟨a, s₁⟩
  rcases hrun' : runFrom s' m' with ⟨b, s₁'⟩
  rw [hrun, hrun'] at hm
  rcases hm with ⟨hend, hstate⟩ | hbroken
  · cases hend with
    | ok hab => exact hf _ _ hab s₁ s₁' hstate
    | error he => exact .inl ⟨.error he, hstate⟩
  · -- What follows a part that was broken off does not run.
    obtain ⟨e, x, es, hx, hq, hevents, rfl⟩ := hbroken
    exact .inr ⟨e, x, es, hx, hq, hevents, rfl⟩

theorem Tracks.bind_eq {m m' : Session α} {f : α → Session γ} {f' : α → Session δ}
    (hm : d.Tracks Eq m m') (hf : ∀ a, d.Tracks S (f a) (f' a)) :
    d.Tracks S (m >>= f) (m' >>= f') :=
  hm.bind fun a _ h => h ▸ hf a

theorem tracks_ofAttempt_bind {a : Attempt α} {f : α → Session γ} {f' : α → Session δ}
    (h : ∀ x, a = .ok x → d.Tracks S (f x) (f' x)) :
    d.Tracks S (ofAttempt a >>= f) (ofAttempt a >>= f') := by
  cases a with
  | ok x => exact h x rfl
  | error e => exact tracks_throw e

theorem Tracks.mapM {f : α → Session γ} {f' : β → Session δ} {xs : List α} {ys : List β}
    (h : List.Forall₂ (fun x y => d.Tracks S (f x) (f' y)) xs ys) :
    d.Tracks (List.Forall₂ S) (xs.mapM f) (ys.mapM f') := by
  induction h with
  | nil => exact tracks_pure .nil
  | cons hx _ ih =>
      rw [List.mapM_cons, List.mapM_cons]
      exact hx.bind fun _ _ hz => ih.bind fun _ _ hzs => tracks_pure (.cons hz hzs)

theorem Tracks.mapM_eq {f f' : α → Session γ} {xs : List α}
    (h : ∀ x ∈ xs, d.Tracks Eq (f x) (f' x)) : d.Tracks Eq (xs.mapM f) (xs.mapM f') :=
  (Tracks.mapM (List.forall₂_same.2 h)).mono fun _ _ => List.forall₂_eq_eq_eq ▸ id

/-- Some refusals stand for no result, but not that a call failed. -/
theorem tracks_ifKnown {m m' : Session α} {missing : Cause → Bool}
    (hmissing : ∀ o x, missing (.backend o x) = false) (h : d.Tracks Eq m m') :
    d.Tracks Eq (Collection.ifKnown missing m) (Collection.ifKnown missing m') := by
  intro s s' hs
  have h := h s s' hs
  rw [Collection.runFrom_ifKnown, Collection.runFrom_ifKnown]
  rcases hrun : runFrom s m with ⟨a, s₁⟩
  rcases hrun' : runFrom s' m' with ⟨b, s₁'⟩
  rw [hrun, hrun'] at h
  rcases h with ⟨hend, hstate⟩ | hbroken
  · refine .inl ?_
    cases hend with
    | ok hab =>
        cases hab
        exact ⟨.ok rfl, hstate⟩
    | @error f _ he =>
        cases he
        cases f with
        | fault x => exact ⟨.error rfl, hstate⟩
        | refused r =>
            refine ⟨?_, hstate⟩
            simp only
            split
            · exact .ok rfl
            · exact .error rfl
  -- The cause of a failing call is never taken for something that is not known.
  · obtain ⟨e, x, es, hx, hq, hevents, rfl⟩ := hbroken
    refine .inr ⟨e, x, es, hx, hq, hevents, ?_⟩
    have hcause : missing (Cause.backend e.name (some x)) = false := hmissing _ _
    simp only [Failure.ofCause, Refusal.of, hcause]
    rfl

theorem tracks_note {e : Event} (h : ∀ e', e = .called e' → d.faults e' = none) :
    d.Tracks Eq (note e) (note e) := by
  intro s s' hs
  refine .inl ⟨.ok rfl, ⟨congrArg (· ++ [e]) hs.events, ?_, hs.cache⟩⟩
  intro e' he
  rcases List.mem_append.1 he with he | he
  · exact hs.quiet e' he
  · exact h e' (List.mem_singleton.1 he).symm

theorem tracks_updateCache {f f' : ObjectCache → ObjectCache}
    (h : ∀ k k', d.SameCache k k' → d.SameCache (f k) (f' k')) :
    d.Tracks Eq (updateCache f) (updateCache f') :=
  fun _ _ hs => .inl ⟨.ok rfl, ⟨hs.events, hs.quiet, h _ _ hs.cache⟩⟩

end

section

variable {e e' : CacheEntry} {k k' : ObjectCache} {id : String} {ps : List String}

theorem SameEntry.covers (h : d.SameEntry e e') : e'.covers ps = e.covers ps := by
  obtain ⟨r, qs⟩ := e
  obtain ⟨r', qs'⟩ := e'
  obtain ⟨rfl, hrecord⟩ := h
  cases hrecord <;> rfl

theorem SameEntry.record_of_covers (h : d.SameEntry e e') (hcovers : e.covers ps = true) :
    Option.Rel (d.Same ps) e.record e'.record := by
  obtain ⟨r, qs⟩ := e
  obtain ⟨r', qs'⟩ := e'
  obtain ⟨rfl, hrecord⟩ := h
  cases hrecord with
  | none => exact .none
  | some hr =>
      simp only [CacheEntry.covers, Option.isNone_some, Bool.false_or, List.all_eq_true] at hcovers
      exact .some (hr.mono fun p hp => List.contains_iff_mem.1 (hcovers p hp))

theorem SameCache.answer? (h : d.SameCache k k') :
    Option.Rel d.SameEntry (k.answer? id ps) (k'.answer? id ps) := by
  rw [ObjectCache.answer?, ObjectCache.answer?]
  generalize hfind : Assoc.find? id k.entries = o
  generalize hfind' : Assoc.find? id k'.entries = o'
  have hrel := h id
  rw [hfind, hfind'] at hrel
  cases hrel with
  | none => exact .none
  | some he =>
      rw [Option.filter_some, Option.filter_some, he.covers]
      split
      · exact .some he
      · exact .none

theorem SameCache.projection (h : d.SameCache k k') :
    k'.projection id ps = k.projection id ps := by
  have hrel : (Assoc.find? id k'.entries).map CacheEntry.properties =
      (Assoc.find? id k.entries).map CacheEntry.properties := by
    generalize hfind : Assoc.find? id k.entries = o
    generalize hfind' : Assoc.find? id k'.entries = o'
    have hrel := h id
    rw [hfind, hfind'] at hrel
    cases hrel with
    | none => rfl
    | some he => exact congrArg some he.properties
  rw [ObjectCache.projection, ObjectCache.projection, hrel]

theorem SameCache.keep (h : d.SameCache k k') (he : d.SameEntry e e') :
    d.SameCache (k.keep id e) (k'.keep id e') := by
  intro id'
  by_cases hid : id = id'
  · subst hid
    rw [ObjectCache.keep, ObjectCache.keep, Assoc.find?_put_self, Assoc.find?_put_self]
    exact .some he
  · rw [ObjectCache.keep, ObjectCache.keep, Assoc.find?_put_of_ne hid, Assoc.find?_put_of_ne hid]
    exact h id'

end

end Divergence

/-- The second backend answers what it is asked for as the first one does, but for the calls that
fail. -/
structure Backend.Follows (d : Divergence) (b b' : Backend) : Prop where
  served : ∀ e, d.faults e = none → b'.outage e = b.outage e
  failing : ∀ e x, d.faults e = some x →
    b'.outage e = some ⟨Failure.ofCause (.backend e.name (some x)), true⟩
  search : ∀ n, Attempt.Alike Eq (List.Forall₂ (d.Same n.properties)) (b.search n) (b'.search n)
  record : ∀ id ps, Option.Rel (d.Same ps) (b.record id ps) (b'.record id ps)
  stringProperties : b'.stringProperties = b.stringProperties
  version : b'.version = b.version

namespace Backend.Follows

open Session Divergence

variable {d : Divergence} {b b' : Backend}

theorem refl (shared : String → Prop) (b : Backend) : b.Follows ⟨shared, fun _ => none⟩ b where
  served := fun _ _ => rfl
  failing := by
    rintro e x ⟨⟩
  search := by
    intro n
    cases b.search n with
    | error f => exact .error rfl
    | ok hits => exact .ok (List.forall₂_same.2 fun r _ => .refl _ r)
  record := by
    intro id ps
    cases b.record id ps with
    | none => exact .none
    | some r => exact .some (.refl _ r)
  stringProperties := rfl
  version := rfl

theorem tracks_enter (hb : b.Follows d b') (e : Endpoint) :
    d.Tracks Eq (b.enter e) (b'.enter e) := by
  rw [enter, enter]
  cases hf : d.faults e with
  | none =>
      rw [hb.served e hf]
      have hnote : d.Tracks Eq (note (.called e)) (note (.called e)) := by
        refine tracks_note ?_
        rintro _ ⟨⟩
        exact hf
      cases b.outage e with
      | none => exact hnote
      | some o =>
          simp only
          split
          · exact hnote.bind_eq fun _ => tracks_throw o.failure
          · exact tracks_throw o.failure
  | some x =>
      rw [hb.failing e x hf]
      intro s s' hs
      refine .inr ⟨e, x, s'.events, hf, ?_, rfl, rfl⟩
      rw [hs.events]
      exact hs.quiet

theorem tracks_runSearch (hb : b.Follows d b') (n : NativeSearch) :
    d.Tracks (List.Forall₂ (d.Same n.properties)) (b.runSearch n) (b'.runSearch n) := by
  refine (hb.tracks_enter .search).bind_eq fun _ => ?_
  refine Tracks.bind_eq (tracks_note ?_) fun _ => tracks_ofAttempt (hb.search n)
  rintro _ ⟨⟩

theorem tracks_fetch (hb : b.Follows d b') (id : String) (ps : List String) :
    d.Tracks (Option.Rel (d.Same ps)) (b.fetch id ps) (b'.fetch id ps) := by
  refine (hb.tracks_enter .record).bind_eq fun _ => ?_
  refine Tracks.bind_eq (tracks_note ?_) fun _ => tracks_pure (hb.record id ps)
  rintro _ ⟨⟩

theorem tracks_askStringProperties (hb : b.Follows d b') (assetType : String) :
    d.Tracks Eq (b.askStringProperties assetType) (b'.askStringProperties assetType) := by
  refine (hb.tracks_enter .stringProperties).bind_eq fun _ => ?_
  rw [hb.stringProperties]
  exact tracks_pure rfl

theorem tracks_askVersion (hb : b.Follows d b') : d.Tracks Eq b.askVersion b'.askVersion := by
  refine (hb.tracks_enter .version).bind_eq fun _ => ?_
  rw [hb.version]
  exact tracks_pure rfl

theorem tracks_lookUp (hb : b.Follows d b') (id : String) (ps : List String) :
    d.Tracks (Option.Rel (d.Same ps)) (b.lookUp id ps) (b'.lookUp id ps) := by
  intro s s' hs
  have hanswer : Option.Rel d.SameEntry (s.cache.answer? id ps) (s'.cache.answer? id ps) :=
    hs.cache.answer?
  have hprojection : s'.cache.projection id ps = s.cache.projection id ps := hs.cache.projection
  rw [lookUp, lookUp, runFrom_bind_ok (show runFrom s get = (.ok s, s) from rfl),
    runFrom_bind_ok (show runFrom s' get = (.ok s', s') from rfl)]
  simp only [hprojection]
  -- Both look-ups are answered by what was fetched before, or both need the same fetch.
  generalize ho : s.cache.answer? id ps = o at hanswer ⊢
  generalize ho' : s'.cache.answer? id ps = o' at hanswer ⊢
  cases hanswer with
  | @some e e' he =>
      have hcovers : e.covers ps = true := (Option.filter_eq_some_iff.1 ho).2
      have hhit : d.Tracks Eq (updateCache ObjectCache.hit) (updateCache ObjectCache.hit) :=
        tracks_updateCache fun _ _ h => h
      exact hhit.bind_eq (fun _ => tracks_pure (he.record_of_covers hcovers)) s s' hs
  | none =>
      have hsub : ps ⊆ s.cache.projection id ps := fun p hp => by
        rw [ObjectCache.projection, mem_firsts]
        exact List.mem_append_right _ hp
      have hmiss : d.Tracks Eq (updateCache ObjectCache.miss) (updateCache ObjectCache.miss) :=
        tracks_updateCache fun _ _ h => h
      refine hmiss.bind_eq (fun _ => ?_) s s' hs
      refine (hb.tracks_fetch id _).bind fun r r' hr => ?_
      refine Tracks.bind_eq (tracks_updateCache fun _ _ h => h.keep ⟨rfl, hr⟩) fun _ => ?_
      refine tracks_pure ?_
      cases hr with
      | none => exact .none
      | some hr => exact .some (hr.mono hsub)

end Backend.Follows

end MetaFed
