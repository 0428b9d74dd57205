/-!
Stable sorting by insertion. The result holds the same items, in an order that the comparison
agrees with, and items that the comparison holds equal keep their order.
-/

namespace MetaFed

variable {α : Type} {le : α → α → Bool}

/-- Puts an item before the first one that it may precede. -/
def insertBy (le : α → α → Bool) (x : α) : List α → List α
  | [] => [x]
  | y :: ys => if le x y then x :: y :: ys else y :: insertBy le x ys

def sortBy (le : α → α → Bool) (xs : List α) : List α :=
  xs.foldr (insertBy le) []

theorem insertBy_perm (x : α) (xs : List α) : (insertBy le x xs).Perm (x :: xs) := by
  induction xs with
  | nil => exact .refl _
  | cons y ys ih =>
    by_cases h : le x y
    · simp [insertBy, h]
    · simp only [insertBy, h]
      exact (ih.cons y).trans (.swap x y ys)

theorem sortBy_perm (xs : List α) : (sortBy le xs).Perm xs := by
  induction xs with
  | nil => exact .refl _
  | cons x xs ih => exact (insertBy_perm x (sortBy le xs)).trans (ih.cons x)

theorem mem_sortBy {x : α} {xs : List α} : x ∈ sortBy le xs ↔ x ∈ xs :=
  (sortBy_perm xs).mem_iff

theorem pairwise_insertBy (total : ∀ a b, le a b ∨ le b a)
    (trans : ∀ a b c, le a b → le b c → le a c) (x : α) {xs : List α}
    (h : xs.Pairwise fun a b => le a b) : (insertBy le x xs).Pairwise fun a b => le a b := by
  induction xs with
  | nil => simp [insertBy]
  | cons y ys ih =>
    obtain ⟨hy, hys⟩ := List.pairwise_cons.1 h
    by_cases hx : le x y
    · simp only [insertBy, hx, if_true]
      refine List.pairwise_cons.2 ⟨fun z hz => ?_, h⟩
      rcases List.mem_cons.1 hz with rfl | hz
      · exact hx
      · exact trans _ _ _ hx (hy z hz)
    · simp only [insertBy, hx]
      refine List.pairwise_cons.2 ⟨fun z hz => ?_, ih hys⟩
      rcases List.mem_cons.1 ((insertBy_perm x ys).mem_iff.1 hz) with rfl | hz
      · exact (total y z).resolve_right hx
      · exact hy z hz

theorem pairwise_sortBy (total : ∀ a b, le a b ∨ le b a)
    (trans : ∀ a b c, le a b → le b c → le a c) (xs : List α) :
    (sortBy le xs).Pairwise fun a b => le a b := by
  induction xs with
  | nil => exact .nil
  | cons x xs ih => exact pairwise_insertBy total trans x ih

end MetaFed
