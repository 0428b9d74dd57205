import MetaFed.Collection.Operation
import MetaFed.Proofs.Find

/-!
What operations answer, in terms of the sessions they run in.
-/

namespace MetaFed

/-- Two calls end alike: with related results, or with related failures. -/
inductive Attempt.Alike {α β : Type} (E : Failure → Failure → Prop) (R : α → β → Prop) :
    Attempt α → Attempt β → Prop where
  | ok {a : α} {b : β} (h : R a b) : Alike E R (.ok a) (.ok b)
  | error {f f' : Failure} (h : E f f') : Alike E R (.error f) (.error f')

namespace Attempt.Alike

variable {α β γ δ : Type} {E : Failure → Failure → Prop} {R : α → β → Prop} {S : γ → δ → Prop}
  {a : Attempt α} {b : Attempt β}

theorem refl (a : Attempt α) : Alike Eq Eq a a := by
  cases a with
  | ok x => exact .ok rfl
  | error f => exact .error rfl

theorem of_eq {a b : Attempt α} (h : a = b) : Alike Eq Eq a b := h ▸ refl a

theorem mono {R' : α → β → Prop} (h : Alike E R a b) (hR : ∀ x y, R x y → R' x y) :
    Alike E R' a b := by
  cases h with
  | ok hxy => exact .ok (hR _ _ hxy)
  | error hf => exact .error hf

theorem bind {f : α → Attempt γ} {g : β → Attempt δ} (h : Alike E R a b)
    (hf : ∀ x y, R x y → Alike E S (f x) (g y)) : Alike E S (a >>= f) (b >>= g) := by
  cases h with
  | ok hxy => exact hf _ _ hxy
  | error hf => exact .error hf

theorem bind_eq {a b : Attempt α} {f : α → Attempt γ} {g : α → Attempt δ} (h : Alike E Eq a b)
    (hf : ∀ x, Alike E S (f x) (g x)) : Alike E S (a >>= f) (b >>= g) :=
  h.bind fun x _ hxy => hxy ▸ hf x

end Attempt.Alike

theorem Session.runFrom_tryCatch {α : Type} (st : SessionState) (m : Session α)
    (f : Failure → Session α) : runFrom st (tryCatch m f) =
      match runFrom st m with
      | (.ok a, st') => (.ok a, st')
      | (.error e, st') => runFrom st' (f e) := by
  change runFrom st (ExceptT.tryCatch m f) = _
  simp only [runFrom, ExceptT.tryCatch, ExceptT.run, ExceptT.mk, StateT.run_bind]
  rcases StateT.run m st with ⟨a | a, st'⟩ <;> rfl

namespace Collection

open Session

variable {c : Collection} {σ : Type} [Provider σ] {s : σ} {α : Type}

theorem runFrom_ifKnown (missing : Cause → Bool) (work : Session α) (st : SessionState) :
    runFrom st (ifKnown missing work) =
      match runFrom st work with
      | (.ok a, st') => (.ok (some a), st')
      | (.error (.refused r), st') =>
        (if missing r.cause then .ok none else .error (.refused r), st')
      | (.error (.fault f), st') => (.error (.fault f), st') := by
  rw [ifKnown, runFrom_tryCatch, runFrom_bind]
  rcases runFrom st work with ⟨(f | r) | a, st'⟩
  · simp only
    split <;> rfl
  · rfl
  · rfl

theorem answer_eq_value {o : Operation α} {a : α} :
    (c.answer s o).1 = .ok (.value a) ↔ (runFrom {} (c.work s o)).1 = .ok a :=
  run_eq_value

end Collection

end MetaFed
