import MetaFed.Assoc
import Mathlib.Data.List.Induction
import Mathlib.Data.List.Nodup

/-!
The members of a list, each once. Members that are added one after another leave those before them
where they are, and come in the order of their first places.
-/

namespace MetaFed

variable {α : Type} [DecidableEq α]

theorem nodup_foldl_firsts (xs : List α) {seen : List α} (h : seen.Nodup) :
    (xs.foldl (fun seen x => if x ∈ seen then seen else seen ++ [x]) seen).Nodup := by
  induction xs generalizing seen with
  | nil => exact h
  | cons x xs ih =>
      rw [List.foldl_cons]
      split
      · exact ih h
      · rename_i hx
        refine ih (List.nodup_append.2 ⟨h, List.nodup_singleton x, ?_⟩)
        intro y hy z hz e
        exact hx (List.mem_singleton.1 hz ▸ e ▸ hy)

theorem nodup_firsts (xs : List α) : (firsts xs).Nodup := nodup_foldl_firsts xs List.nodup_nil

theorem foldl_firsts_of_nodup {xs seen : List α} (h : (seen ++ xs).Nodup) :
    xs.foldl (fun seen x => if x ∈ seen then seen else seen ++ [x]) seen = seen ++ xs := by
  induction xs generalizing seen with
  | nil => rw [List.foldl_nil, List.append_nil]
  | cons x xs ih =>
      have hx : x ∉ seen := fun hs =>
        (List.nodup_append.1 h).2.2 x hs x List.mem_cons_self rfl
      rw [List.append_cons] at h
      rw [List.foldl_cons, if_neg hx, ih h]
      simp

theorem firsts_firsts (xs : List α) : firsts (firsts xs) = firsts xs :=
  foldl_firsts_of_nodup (nodup_firsts xs)

theorem mem_foldl_firsts {x : α} (xs seen : List α) :
    x ∈ xs.foldl (fun seen x => if x ∈ seen then seen else seen ++ [x]) seen ↔ x ∈ seen ∨ x ∈ xs := by
  induction xs generalizing seen with
  | nil => simp
  | cons y ys ih =>
      rw [List.foldl_cons, ih, List.mem_cons]
      split
      · rename_i hy
        constructor
        · exact Or.imp_right .inr
        · rintro (h | rfl | h)
          · exact .inl h
          · exact .inl hy
          · exact .inr h
      · rw [List.mem_append, List.mem_singleton, or_assoc]

@[simp] theorem mem_firsts {x : α} {xs : List α} : x ∈ firsts xs ↔ x ∈ xs := by
  rw [firsts, mem_foldl_firsts]
  simp

theorem prefix_foldl_firsts (xs seen : List α) :
    seen <+: xs.foldl (fun seen x => if x ∈ seen then seen else seen ++ [x]) seen := by
  induction xs generalizing seen with
  | nil => exact List.prefix_refl seen
  | cons y ys ih =>
      rw [List.foldl_cons]
      split
      · exact ih seen
      · exact (List.prefix_append seen [y]).trans (ih _)

theorem firsts_concat (xs : List α) (x : α) :
    firsts (xs ++ [x]) = if x ∈ xs then firsts xs else firsts xs ++ [x] := by
  rw [firsts, List.foldl_append, List.foldl_cons, List.foldl_nil]
  exact if_congr mem_firsts rfl rfl

theorem pairwise_idxOf_firsts (xs : List α) :
    (firsts xs).Pairwise fun a b => xs.idxOf a < xs.idxOf b := by
  induction xs using List.reverseRecOn with
  | nil => exact List.Pairwise.nil
  | append_singleton xs x ih =>
      have hold : (firsts xs).Pairwise fun a b => (xs ++ [x]).idxOf a < (xs ++ [x]).idxOf b := by
        refine ih.imp_of_mem fun {a b} ha hb hab => ?_
        rwa [List.idxOf_append_of_mem (mem_firsts.1 ha), List.idxOf_append_of_mem (mem_firsts.1 hb)]
      rw [firsts_concat]
      split
      · exact hold
      · rename_i hx
        refine List.pairwise_append.2 ⟨hold, List.pairwise_singleton _ x, ?_⟩
        intro a ha b hb
        have ha := mem_firsts.1 ha
        rw [List.mem_singleton.1 hb, List.idxOf_append_of_mem ha, List.idxOf_append_of_notMem hx]
        exact Nat.lt_add_right _ (List.idxOf_lt_length_iff.2 ha)

end MetaFed
