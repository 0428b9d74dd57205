import MetaFed.Failure
import Mathlib.Data.List.Forall2

/-!
Calls that end with a result: what their steps gave.
-/

namespace MetaFed

theorem exists_left_of_mem {α β : Type} {R : α → β → Prop} {xs : List α} {ys : List β} {y : β}
    (h : List.Forall₂ R xs ys) (hy : y ∈ ys) : ∃ x ∈ xs, R x y := by
  induction h with
  | nil => cases hy
  | @cons x z xs ys hz _ ih =>
      rcases List.mem_cons.1 hy with rfl | hy
      · exact ⟨x, List.mem_cons_self, hz⟩
      · obtain ⟨w, hw, hr⟩ := ih hy
        exact ⟨w, List.mem_cons_of_mem x hw, hr⟩

namespace Attempt

variable {α β : Type}

@[simp] theorem ok_bind (a : α) (f : α → Attempt β) : (Except.ok a : Attempt α) >>= f = f a := rfl

@[simp] theorem error_bind (e : Failure) (f : α → Attempt β) :
    (Except.error e : Attempt α) >>= f = Except.error e := rfl

@[simp] theorem pure_eq_ok (a : α) : (pure a : Attempt α) = Except.ok a := rfl

@[simp] theorem map_ok (f : α → β) (a : α) : Except.map f (Except.ok a : Attempt α) = Except.ok (f a) :=
  rfl

theorem bind_eq_ok {x : Attempt α} {f : α → Attempt β} {b : β} :
    x >>= f = .ok b ↔ ∃ a, x = .ok a ∧ f a = .ok b := by
  cases x with
  | ok a => simp
  | error e => simp

theorem bind_eq_error {x : Attempt α} {f : α → Attempt β} {e : Failure} :
    x >>= f = .error e ↔ x = .error e ∨ ∃ a, x = .ok a ∧ f a = .error e := by
  cases x with
  | ok a => simp
  | error e => simp

theorem map_eq_ok {x : Attempt α} {f : α → β} {b : β} :
    Except.map f x = .ok b ↔ ∃ a, x = .ok a ∧ f a = b := by
  cases x with
  | ok a => simp
  | error e => simp [Except.map]

theorem within_eq_ok {operation : Option String} {x : Attempt α} {a : α} :
    x.within operation = .ok a ↔ x = .ok a := by
  cases x <;> simp [Attempt.within]

theorem exists_of_toOption {x : Attempt α} {f : α → β} {b : β}
    (h : x.toOption.map f = some b) : ∃ a, x = .ok a ∧ f a = b := by
  cases x with
  | ok a => exact ⟨a, rfl, Option.some_inj.1 h⟩
  | error e => cases h

theorem exists_told {f : α → Attempt Bool} {P : α → Prop} (h : ∀ a, P a → ∃ b, f a = .ok b) :
    ∃ told : α → Bool, ∀ a, P a → f a = .ok (told a) := by
  refine ⟨fun a => (f a).toOption.getD false, fun a ha => ?_⟩
  obtain ⟨b, hb⟩ := h a ha
  simp only [hb, Except.toOption, Option.getD_some]

theorem mapM_eq_ok {f : α → Attempt β} {xs : List α} {ys : List β} :
    xs.mapM f = .ok ys ↔ List.Forall₂ (fun x y => f x = .ok y) xs ys := by
  induction xs generalizing ys with
  | nil => simp [eq_comm]
  | cons x xs ih =>
      simp only [List.mapM_cons, bind_eq_ok, ih, List.forall₂_cons_left_iff, pure_eq_ok,
        Except.ok.injEq]
      constructor
      · rintro ⟨y, hy, zs, hzs, rfl⟩
        exact ⟨y, zs, hy, hzs, rfl⟩
      · rintro ⟨y, zs, hy, hzs, rfl⟩
        exact ⟨y, hy, zs, hzs, rfl⟩

theorem mapM_congr {f g : α → Attempt β} {xs : List α} (h : ∀ x ∈ xs, f x = g x) :
    xs.mapM f = xs.mapM g := by
  induction xs with
  | nil => rfl
  | cons x xs ih =>
      rw [List.mapM_cons, List.mapM_cons, h x List.mem_cons_self,
        ih fun y hy => h y (List.mem_cons_of_mem x hy)]

theorem exists_of_mem_mapM {f : α → Attempt β} {xs : List α} {ys : List β} {y : β}
    (h : xs.mapM f = .ok ys) (hy : y ∈ ys) : ∃ x ∈ xs, f x = .ok y :=
  exists_left_of_mem (R := fun x y => f x = .ok y) (mapM_eq_ok.1 h) hy

theorem exists_of_mem_filterMap {f : α → Attempt (Option β)} {xs : List α} {os : List (Option β)}
    {y : β} (h : xs.mapM f = .ok os) (hy : y ∈ os.filterMap id) : ∃ x ∈ xs, f x = .ok (some y) := by
  obtain ⟨o, ho, rfl⟩ := List.mem_filterMap.1 hy
  exact exists_of_mem_mapM h ho

theorem exists_of_mapM {f : α → Attempt β} {xs : List α} {ys : List β} {x : α}
    (h : xs.mapM f = .ok ys) (hx : x ∈ xs) : ∃ y ∈ ys, f x = .ok y := by
  rw [mapM_eq_ok] at h
  exact exists_left_of_mem (R := fun y x => f x = .ok y) h.flip hx

theorem exists_mapM {f : α → Attempt β} {xs : List α} (h : ∀ x ∈ xs, ∃ y, f x = .ok y) :
    ∃ ys, xs.mapM f = .ok ys := by
  induction xs with
  | nil => exact ⟨[], rfl⟩
  | cons x xs ih =>
      obtain ⟨y, hy⟩ := h x List.mem_cons_self
      obtain ⟨ys, hys⟩ := ih fun z hz => h z (List.mem_cons_of_mem x hz)
      exact ⟨y :: ys, by rw [List.mapM_cons, hy, ok_bind, hys, ok_bind, pure_eq_ok]⟩

theorem mem_flatten_mapM {f : α → Attempt (List β)} {xs : List α} {yss : List (List β)}
    (h : xs.mapM f = .ok yss) {z : β} :
    z ∈ yss.flatten ↔ ∃ x ∈ xs, ∃ ys, f x = .ok ys ∧ z ∈ ys := by
  rw [List.mem_flatten]
  constructor
  · rintro ⟨ys, hys, hz⟩
    obtain ⟨x, hx, hf⟩ := exists_of_mem_mapM h hys
    exact ⟨x, hx, ys, hf, hz⟩
  · rintro ⟨x, hx, ys, hf, hz⟩
    obtain ⟨ys', hys', hf'⟩ := exists_of_mapM h hx
    rw [hf] at hf'
    cases hf'
    exact ⟨ys, hys', hz⟩

theorem exists_flatten_mapM {f : α → Attempt (List β)} {P : β → Prop} {xs : List α}
    (h : ∀ x ∈ xs, ∃ ys, f x = .ok ys ∧ ∀ y ∈ ys, P y) :
    ∃ yss, xs.mapM f = .ok yss ∧ ∀ y ∈ yss.flatten, P y := by
  obtain ⟨yss, hyss⟩ := exists_mapM fun x hx => (h x hx).imp fun _ => And.left
  refine ⟨yss, hyss, fun y hy => ?_⟩
  obtain ⟨x, hx, ys, hf, hy⟩ := (mem_flatten_mapM hyss).1 hy
  obtain ⟨ys', hf', hall⟩ := h x hx
  cases hf.symm.trans hf'
  exact hall y hy

theorem flatten_filter {e f : α → Attempt (List β)} {leads : α → Bool}
    {keep : β → Bool} {xs : List α} {yss zss : List (List β)} (hf : xs.mapM f = .ok yss)
    (he : (xs.filter leads).mapM e = .ok zss)
    (h : ∀ x ∈ xs, ∀ ys, f x = .ok ys →
      if leads x then e x = .ok (ys.filter keep) else ys.filter keep = []) :
    zss.flatten = yss.flatten.filter keep := by
  rw [mapM_eq_ok] at hf he
  induction hf generalizing zss with
  | nil =>
      cases he
      rfl
  | @cons x ys xs yss hx _ ih =>
      have hkeep := h x List.mem_cons_self ys hx
      have hrest := fun y hy => h y (List.mem_cons_of_mem x hy)
      rw [List.flatten_cons, List.filter_append]
      cases hl : leads x with
      | true =>
          rw [hl, if_pos rfl] at hkeep
          rw [List.filter_cons_of_pos hl] at he
          obtain ⟨zs, wss, hz, hw, rfl⟩ := List.forall₂_cons_left_iff.1 he
          rw [hkeep] at hz
          cases hz
          rw [List.flatten_cons, ih hw hrest]
      | false =>
          rw [hl, if_neg Bool.false_ne_true] at hkeep
          rw [List.filter_cons_of_neg (by simp [hl])] at he
          rw [hkeep, List.nil_append, ih he hrest]

theorem exists_mapM_filter {e f : α → Attempt (List β)} {keep : β → Bool} {xs : List α}
    {yss : List (List β)} (hf : xs.mapM f = .ok yss)
    (h : ∀ x ∈ xs, ∀ ys, f x = .ok ys → e x = .ok (ys.filter keep)) :
    ∃ zss, xs.mapM e = .ok zss ∧ zss.flatten = yss.flatten.filter keep := by
  obtain ⟨zss, hzss⟩ := exists_mapM fun x hx => by
    obtain ⟨ys, _, hys⟩ := exists_of_mapM hf hx
    exact ⟨_, h x hx ys hys⟩
  have hall : (xs.filter fun _ => true).mapM e = .ok zss := by
    rwa [List.filter_true]
  exact ⟨zss, hzss, flatten_filter hf hall h⟩

end Attempt

end MetaFed
