import MetaFed.Hierarchy
import MetaFed.Proofs.Attempt
import Mathlib.Logic.Relation

/-!
The way up an accepted hierarchy. Looking an ancestor up leaves out the types met before, which
changes nothing where no type is met twice, so the ancestors of a type are its supertype and the
ancestors of that one, and being a descendant is transitive.
-/

namespace MetaFed

namespace TypeDef

variable {defs : List TypeDef} {name other : String}

theorem mem_names_iff : name ∈ defs.map TypeDef.name ↔ (find? defs name).isSome = true := by
  rw [find?, List.find?_isSome, List.mem_map]
  exact exists_congr fun t => and_congr_right fun _ => beq_iff_eq.symm

theorem find?_without (h : name ≠ other) : find? (without defs other) name = find? defs name := by
  rw [find?, find?, without, List.find?_filter]
  congr 1
  funext t
  by_cases ht : t.name = name
  · simp [ht, h]
  · simp [ht]

theorem without_comm (defs : List TypeDef) (a b : String) :
    without (without defs a) b = without (without defs b) a := by
  rw [without, without, without, without, List.filter_filter, List.filter_filter]
  congr 1
  funext t
  exact Bool.and_comm _ _

theorem ancestors_of_none (h : find? defs name = none) : ancestors defs name = [] := by
  rw [ancestors]
  split
  · rfl
  · rename_i t ht
    rw [h] at ht
    cases ht

theorem ancestors_of_some {t : TypeDef} (h : find? defs name = some t) :
    ancestors defs name = match t.supertype with
      | none => []
      | some s => s :: ancestors (without defs name) s := by
  rw [ancestors]
  split
  · rename_i ht
    rw [h] at ht
    cases ht
  · rename_i t' ht
    rw [h] at ht
    cases ht
    rfl

/-- A type that is not on the way up can be left out. -/
theorem ancestors_without (defs : List TypeDef) (name : String)
    (h : other ∉ name :: ancestors (without defs other) name) :
    ancestors (without defs other) name = ancestors defs name := by
  induction hn : defs.length using Nat.strongRecOn generalizing defs name with
  | _ n ih =>
      have hne : name ≠ other := fun e => h (e ▸ List.mem_cons_self)
      cases hf : find? defs name with
      | none =>
          rw [ancestors_of_none hf, ancestors_of_none ((find?_without hne).trans hf)]
      | some t =>
          have hf' : find? (without defs other) name = some t := (find?_without hne).trans hf
          rw [ancestors_of_some hf'] at h ⊢
          rw [ancestors_of_some hf]
          cases hs : t.supertype with
          | none => rfl
          | some s =>
              rw [hs] at h
              simp only [List.cons.injEq, true_and]
              rw [without_comm]
              refine ih _ (hn ▸ length_without_lt hf) (without defs name) s ?_ rfl
              rw [without_comm]
              exact fun hmem => h (List.mem_cons_of_mem name hmem)

end TypeDef

namespace Hierarchy

variable {h : Hierarchy} {a b c s : String}

theorem nodup_of_build (hb : build h.defs = .ok h) (a : String) : (a :: h.supertypes a).Nodup := by
  cases hf : TypeDef.find? h.defs a with
  | none =>
      rw [supertypes, TypeDef.ancestors_of_none hf]
      simp
  | some t =>
      have hname := TypeDef.mem_names_iff.2 (Option.isSome_of_eq_some hf)
      have hcycle : cyclic? h.defs = none := by
        rw [build, fault?] at hb
        split at hb
        · cases hb
        · rename_i hfault
          split at hfault
          · cases hfault
          · cases hfault
          · cases hfault
          · assumption
      have hnodup := List.find?_eq_none.1 hcycle a hname
      rwa [decide_eq_true_eq, not_not] at hnodup

theorem exists_of_supertypes {ss : List String} (hs : h.supertypes a = s :: ss) :
    ∃ t, h.find? a = some t ∧ t.supertype = some s ∧
      ss = TypeDef.ancestors (TypeDef.without h.defs a) s := by
  cases hf : TypeDef.find? h.defs a with
  | none =>
      rw [supertypes, TypeDef.ancestors_of_none hf] at hs
      cases hs
  | some t =>
      rw [supertypes, TypeDef.ancestors_of_some hf] at hs
      cases ht : t.supertype with
      | none =>
          rw [ht] at hs
          cases hs
      | some s' =>
          rw [ht] at hs
          cases hs
          exact ⟨t, hf, ht, rfl⟩

theorem supertypes_eq_cons (hb : build h.defs = .ok h) {ss : List String}
    (hs : h.supertypes a = s :: ss) : ss = h.supertypes s := by
  have hnodup := nodup_of_build hb a
  rw [hs] at hnodup
  obtain ⟨_, _, _, rfl⟩ := exists_of_supertypes hs
  exact TypeDef.ancestors_without h.defs s (List.nodup_cons.1 hnodup).1

theorem mem_supertypes_trans (hb : build h.defs = .ok h) (hab : b ∈ h.supertypes a)
    (hbc : c ∈ h.supertypes b) : c ∈ h.supertypes a := by
  induction hs : h.supertypes a generalizing a with
  | nil =>
      rw [hs] at hab
      cases hab
  | cons s ss ih =>
      have hss := supertypes_eq_cons hb hs
      rw [hs] at hab
      rcases List.mem_cons.1 hab with rfl | hab
      · exact List.mem_cons_of_mem b (hss ▸ hbc)
      · exact List.mem_cons_of_mem s (ih (hss ▸ hab) hss.symm)

theorem has_of_mem_supertypes (hab : b ∈ h.supertypes a) : h.has a = true := by
  cases hf : TypeDef.find? h.defs a with
  | none =>
      rw [supertypes, TypeDef.ancestors_of_none hf] at hab
      cases hab
  | some t => rw [has, find?, hf, Option.isSome_some]

theorem isTypeOf_iff : h.isTypeOf a b = true ↔
    (a = b ∧ h.has a = true) ∨ (a ≠ b ∧ b ∈ h.supertypes a) := by
  rw [isTypeOf]
  by_cases hab : a = b
  · simp [hab]
  · simp [hab]

theorem isTypeOf_trans (hb : build h.defs = .ok h) (hab : h.isTypeOf a b = true)
    (hbc : h.isTypeOf b c = true) : h.isTypeOf a c = true := by
  rcases isTypeOf_iff.1 hab with ⟨rfl, _⟩ | ⟨_, hab⟩
  · exact hbc
  rcases isTypeOf_iff.1 hbc with ⟨rfl, _⟩ | ⟨_, hbc⟩
  · exact isTypeOf_iff.2 (.inr ⟨‹_›, hab⟩)
  · refine isTypeOf_iff.2 ?_
    by_cases hac : a = c
    · exact .inl ⟨hac, has_of_mem_supertypes hab⟩
    · exact .inr ⟨hac, mem_supertypes_trans hb hab hbc⟩

def Extends (h : Hierarchy) (a b : String) : Prop :=
  ∃ t, h.find? a = some t ∧ t.supertype = some b

/-- One type is another or gets there by way of supertypes. -/
def Descends (h : Hierarchy) : String → String → Prop :=
  Relation.ReflTransGen h.Extends

theorem extends_of_supertypes {ss : List String} (hs : h.supertypes a = s :: ss) :
    h.Extends a s := by
  obtain ⟨t, hf, ht, _⟩ := exists_of_supertypes hs
  exact ⟨t, hf, ht⟩

theorem isTypeOf_of_extends (hb : build h.defs = .ok h) (hab : h.Extends a b) :
    h.isTypeOf a b = true := by
  obtain ⟨t, hf, ht⟩ := hab
  have hcons : h.supertypes a = b :: TypeDef.ancestors (TypeDef.without h.defs a) b := by
    rw [supertypes, TypeDef.ancestors_of_some hf, ht]
  have hmem : b ∈ h.supertypes a := hcons ▸ List.mem_cons_self
  have hne : a ≠ b := by
    rintro rfl
    exact (List.nodup_cons.1 (nodup_of_build hb a)).1 hmem
  exact isTypeOf_iff.2 (.inr ⟨hne, hmem⟩)

theorem descends_of_mem_supertypes (hb : build h.defs = .ok h) (hab : b ∈ h.supertypes a) :
    h.Descends a b := by
  induction hs : h.supertypes a generalizing a with
  | nil =>
      rw [hs] at hab
      cases hab
  | cons s ss ih =>
      have hss := supertypes_eq_cons hb hs
      have hstep : h.Extends a s := extends_of_supertypes hs
      rw [hs] at hab
      rcases List.mem_cons.1 hab with rfl | hab
      · exact .single hstep
      · exact .head hstep (ih (hss ▸ hab) hss.symm)

theorem isTypeOf_iff_descends (hb : build h.defs = .ok h) :
    h.isTypeOf a b = true ↔ h.has a = true ∧ h.Descends a b := by
  constructor
  · intro hab
    rcases isTypeOf_iff.1 hab with ⟨rfl, ha⟩ | ⟨_, hab⟩
    · exact ⟨ha, .refl⟩
    · exact ⟨has_of_mem_supertypes hab, descends_of_mem_supertypes hb hab⟩
  · rintro ⟨ha, hab⟩
    induction hab with
    | refl => exact isTypeOf_iff.2 (.inl ⟨rfl, ha⟩)
    | tail _ hbc ih => exact isTypeOf_trans hb ih (isTypeOf_of_extends hb hbc)

end Hierarchy

end MetaFed
