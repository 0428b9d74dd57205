import MetaFed.Proofs.Attempt
import MetaFed.Session

/-!
What parts of a session answer. Searches do not look at what was fetched before, so they answer
the same in every state.
-/

namespace MetaFed

namespace Session

variable {α β : Type}

@[simp] theorem runFrom_pure (s : SessionState) (a : α) : runFrom s (pure a) = (.ok a, s) := rfl

@[simp] theorem runFrom_ofAttempt (s : SessionState) (a : Attempt α) :
    runFrom s (ofAttempt a) = (a, s) := by
  cases a <;> rfl

theorem runFrom_bind (s : SessionState) (m : Session α) (f : α → Session β) :
    runFrom s (m >>= f) =
      match runFrom s m with
      | (.ok a, s') => runFrom s' (f a)
      | (.error e, s') => (.error e, s') := by
  change runFrom s (ExceptT.bind m f) = _
  simp only [runFrom, ExceptT.bind, ExceptT.run, ExceptT.mk, StateT.run_bind]
  rcases h : StateT.run m s with ⟨a | a, s'⟩ <;> simp [ExceptT.bindCont] <;> rfl

theorem runFrom_bind_ok {s s' : SessionState} {m : Session α} {a : α} (h : runFrom s m = (.ok a, s'))
    (f : α → Session β) : runFrom s (m >>= f) = runFrom s' (f a) := by
  rw [runFrom_bind, h]

theorem runFrom_bind_eq_ok {s : SessionState} {m : Session α} {f : α → Session β} {b : β} :
    (runFrom s (m >>= f)).1 = .ok b ↔
      ∃ a s', runFrom s m = (.ok a, s') ∧ (runFrom s' (f a)).1 = .ok b := by
  rw [runFrom_bind]
  rcases runFrom s m with ⟨a | a, s'⟩ <;> simp

/-- A part of a session ends like this in every state. -/
def Yields (m : Session α) (r : Attempt α) : Prop :=
  ∀ s, (runFrom s m).1 = r

theorem yields_pure (a : α) : Yields (pure a) (.ok a) := fun _ => rfl

theorem yields_ofAttempt (a : Attempt α) : Yields (ofAttempt a) a := by
  intro s
  rw [runFrom_ofAttempt]

theorem yields_of_eq_ok {x : Attempt α} {a : α} (h : x = .ok a) : Yields (ofAttempt x) (.ok a) := by
  rw [h]
  exact yields_pure a

theorem Yields.bind {m : Session α} {r : Attempt α} {f : α → Session β} {g : α → Attempt β}
    (hm : Yields m r) (hf : ∀ a, r = .ok a → Yields (f a) (g a)) : Yields (m >>= f) (r >>= g) := by
  intro s
  rw [runFrom_bind, ← hm s]
  rcases h : runFrom s m with ⟨a | a, s'⟩
  · rfl
  · exact hf a (by rw [← hm s, h]) s'

theorem Yields.bind_ok {m : Session α} {a : α} {f : α → Session β} {r : Attempt β}
    (hm : Yields m (.ok a)) (hf : Yields (f a) r) : Yields (m >>= f) r := by
  refine hm.bind (g := fun _ => r) fun b hb => ?_
  cases hb
  exact hf

end Session

namespace Backend

open Session

variable (b : Backend)

/-- What a call of an endpoint ends with before the catalog does anything. -/
def entry (e : Endpoint) : Attempt Unit :=
  match b.outage e with
  | none => .ok ()
  | some o => .error o.failure

def answer (n : NativeSearch) : Attempt (List Record) :=
  b.entry .search >>= fun _ => b.search n

theorem yields_enter (e : Endpoint) : Yields (b.enter e) (b.entry e) := by
  intro s
  rw [enter, entry]
  cases b.outage e with
  | none => rfl
  | some o =>
      simp only
      cases o.noticed with
      | false => rfl
      | true => rfl

theorem yields_runSearch (n : NativeSearch) : Yields (b.runSearch n) (b.answer n) := by
  refine (b.yields_enter .search).bind fun _ _ => ?_
  intro s
  rw [runFrom_bind]
  exact yields_ofAttempt _ _

theorem entry_eq_ok {e : Endpoint} : b.entry e = .ok () ↔ b.outage e = none := by
  rw [entry]
  cases b.outage e <;> simp

theorem answer_eq_ok {n : NativeSearch} {rs : List Record} :
    b.answer n = .ok rs ↔ b.outage .search = none ∧ b.search n = .ok rs := by
  rw [answer, Attempt.bind_eq_ok]
  simp [b.entry_eq_ok]

end Backend

end MetaFed
