import MetaFed.Proofs.Hierarchy
import MetaFed.Proofs.Table
import Mathlib.Data.List.Nodup

/-!
Which definitions form a hierarchy: those with distinct names and known supertypes, among which no
type is its own ancestor. The check for that climbs from every type and stops where it meets a type
again, so it ends on any definitions. On definitions that it accepts climbing needs no such stop,
and to be a descendant is an order in which the types above another one form a chain.
-/

namespace MetaFed

namespace Hierarchy

variable {h : Hierarchy} {a b c n : String} {seen : List String}

theorem Extends.unique (hb : h.Extends a b) (hc : h.Extends a c) : b = c := by
  obtain ⟨t, ht, hts⟩ := hb
  obtain ⟨u, hu, hus⟩ := hc
  obtain rfl : t = u := Option.some.inj (ht.symm.trans hu)
  exact Option.some.inj (hts.symm.trans hus)

theorem supertypes_eq_nil (hn : ∀ b, ¬h.Extends a b) : h.supertypes a = [] := by
  cases hs : h.supertypes a with
  | nil => rfl
  | cons s ss => exact absurd (extends_of_supertypes hs) (hn s)

theorem supertypes_of_extends (hab : h.Extends a b) :
    h.supertypes a = b :: TypeDef.ancestors (TypeDef.without h.defs a) b := by
  obtain ⟨t, ht, hts⟩ := hab
  rw [supertypes, TypeDef.ancestors_of_some ht, hts]

/-- Where no type is met twice on the way up, nothing has to be left out. -/
theorem supertypes_of_nodup (hn : (a :: h.supertypes a).Nodup) (hab : h.Extends a b) :
    h.supertypes a = b :: h.supertypes b := by
  have hs := supertypes_of_extends hab
  rw [hs] at hn ⊢
  rw [TypeDef.ancestors_without h.defs b (List.nodup_cons.1 hn).1]
  rfl

theorem nodup_of_extends (hn : (a :: h.supertypes a).Nodup) (hab : h.Extends a b) :
    (b :: h.supertypes b).Nodup := by
  rw [supertypes_of_nodup hn hab] at hn
  exact (List.nodup_cons.1 hn).2

theorem nodup_of_descends (hn : (a :: h.supertypes a).Nodup) (hab : h.Descends a b) :
    (b :: h.supertypes b).Nodup := by
  induction hab with
  | refl => exact hn
  | tail _ hbc ih => exact nodup_of_extends ih hbc

theorem mem_supertypes_of_transGen (hn : (a :: h.supertypes a).Nodup)
    (hab : Relation.TransGen h.Extends a b) : b ∈ h.supertypes a := by
  induction hab using Relation.TransGen.head_induction_on with
  | single hab =>
      rw [supertypes_of_extends hab]
      exact List.mem_cons_self
  | head hac _ ih =>
      rw [supertypes_of_nodup hn hac]
      exact List.mem_cons_of_mem _ (ih (nodup_of_extends hn hac))

theorem extends_of_without (hab : (Hierarchy.mk (TypeDef.without h.defs n)).Extends a b) :
    h.Extends a b := by
  obtain ⟨t, ht, hts⟩ := hab
  have hne : a ≠ n := by
    rintro rfl
    have hmem := List.mem_filter.1 (List.mem_of_find?_eq_some ht)
    have hname : t.name = a := by simpa using List.find?_some ht
    simp [hname] at hmem
  exact ⟨t, (TypeDef.find?_without hne).symm.trans ht, hts⟩

theorem transGen_of_mem_supertypes (hb : b ∈ h.supertypes a) :
    Relation.TransGen h.Extends a b := by
  -- Each step leaves the definition it starts from out, so there are fewer of them above it.
  induction hl : h.defs.length using Nat.strongRecOn generalizing h a with
  | _ l ih =>
      cases hs : h.supertypes a with
      | nil =>
          rw [hs] at hb
          cases hb
      | cons s ss =>
          have hstep := extends_of_supertypes hs
          rw [supertypes_of_extends hstep] at hb
          rcases List.mem_cons.1 hb with rfl | hb
          · exact .single hstep
          · obtain ⟨t, ht, _⟩ := id hstep
            have hshort := hl ▸ TypeDef.length_without_lt ht
            have habove := ih _ hshort (h := ⟨TypeDef.without h.defs a⟩) hb rfl
            exact .head hstep (habove.lift id fun _ _ => extends_of_without)

theorem Descends.total (hab : h.Descends a b) (hac : h.Descends a c) :
    h.Descends b c ∨ h.Descends c b :=
  Relation.ReflTransGen.total_of_right_unique (fun _ _ _ => Extends.unique) hab hac

/-- The way up from a type leads into a circle. -/
def Circles (h : Hierarchy) (n : String) : Prop :=
  ∃ a, h.Descends n a ∧ Relation.TransGen h.Extends a a

theorem circles_of_not_nodup (hn : ¬(n :: h.supertypes n).Nodup) : h.Circles n := by
  induction hl : h.defs.length using Nat.strongRecOn generalizing h n with
  | _ l ih =>
      cases hs : h.supertypes n with
      | nil =>
          rw [hs] at hn
          exact absurd (List.pairwise_singleton _ n) hn
      | cons s ss =>
          have hstep := extends_of_supertypes hs
          have hup := supertypes_of_extends hstep
          by_cases hself : n ∈ h.supertypes n
          · exact ⟨n, .refl, transGen_of_mem_supertypes hself⟩
          · rw [List.nodup_cons, not_and_or, not_not, or_iff_right hself, hup] at hn
            obtain ⟨t, ht, _⟩ := id hstep
            have hshort := hl ▸ TypeDef.length_without_lt ht
            obtain ⟨a, hsa, haa⟩ := ih _ hshort (h := ⟨TypeDef.without h.defs n⟩) hn rfl
            exact ⟨a, .head hstep (hsa.lift id fun _ _ => extends_of_without),
              haa.lift id fun _ _ => extends_of_without⟩

/-- A type is met twice on the way up just if the way leads into a circle. -/
theorem nodup_iff_not_circles : (n :: h.supertypes n).Nodup ↔ ¬h.Circles n := by
  refine ⟨?_, not_imp_comm.1 circles_of_not_nodup⟩
  rintro hn ⟨a, hna, haa⟩
  have ha := nodup_of_descends hn hna
  exact (List.nodup_cons.1 ha).1 (mem_supertypes_of_transGen ha haa)

/-- A round of climbing: from the type reached to its supertype, unless that was met before. -/
inductive Round (h : Hierarchy) : List String × String → List String × String → Prop
  | up {met : List String} {x y : String} (hxy : h.Extends x y) (hy : y ∉ met) :
      Round h (met, x) (y :: met, y)

/-- The supertypes in the definitions that were not met. -/
def unmet (h : Hierarchy) (seen : List String) : List String :=
  (h.defs.filterMap TypeDef.supertype).filter (· ∉ seen)

theorem length_unmet_lt (hab : h.Extends a b) (hb : b ∉ seen) :
    (h.unmet (b :: seen)).length < (h.unmet seen).length := by
  obtain ⟨t, ht, hts⟩ := hab
  have hfilter : h.unmet (b :: seen) = (h.unmet seen).filter (· ≠ b) := by
    rw [unmet, unmet, List.filter_filter]
    exact List.filter_congr fun x _ => by simp [not_or]
  have hmem : b ∈ h.unmet seen :=
    List.mem_filter.2
      ⟨List.mem_filterMap.2 ⟨t, List.mem_of_find?_eq_some ht, hts⟩, decide_eq_true hb⟩
  rw [hfilter]
  exact List.length_filter_lt_length_iff_exists.2 ⟨b, hmem, by simp⟩

theorem wellFounded_round (h : Hierarchy) : WellFounded fun y x => h.Round x y := by
  have hwf := InvImage.wf (fun x : List String × String => (h.unmet x.1).length) Nat.lt_wfRel.wf
  refine Subrelation.wf ?_ hwf
  intro y x hround
  cases hround with
  | up hab hb => exact length_unmet_lt hab hb

theorem between_of_rounds (hrun : Relation.ReflTransGen h.Round ([n], n) (seen, a)) :
    h.Descends n a ∧ ∀ x ∈ seen, h.Descends n x ∧ h.Descends x a := by
  generalize hx : (seen, a) = x at hrun
  induction hrun generalizing seen a with
  | refl =>
      cases hx
      exact ⟨.refl, fun x hx => List.mem_singleton.1 hx ▸ ⟨.refl, .refl⟩⟩
  | tail _ hround ih =>
      cases hround with
      | up hab hb =>
          cases hx
          obtain ⟨hreached, hmet⟩ := ih rfl
          refine ⟨hreached.tail hab, fun x hx => ?_⟩
          rcases List.mem_cons.1 hx with rfl | hx
          · exact ⟨hreached.tail hab, .refl⟩
          · exact ⟨(hmet x hx).1, (hmet x hx).2.tail hab⟩

theorem not_circles_of_end (hna : h.Descends n a) (hend : ∀ b, ¬h.Extends a b) : ¬h.Circles n := by
  rintro ⟨c, hnc, hcc⟩
  have hca : h.Descends c a := by
    rcases Descends.total hnc hna with hca | hac
    · exact hca
    · rcases Relation.ReflTransGen.cases_head hac with rfl | ⟨b, hab, _⟩
      · exact .refl
      · exact absurd hab (hend b)
  -- From inside a circle every way up leads back into it.
  have hback : ∀ d, h.Descends c d → Relation.TransGen h.Extends d c := by
    intro d hcd
    induction hcd with
    | refl => exact hcc
    | tail _ hde ih =>
        obtain ⟨e, hde', hec⟩ := Relation.TransGen.head'_iff.1 ih
        obtain rfl := Extends.unique hde hde'
        rcases Relation.reflTransGen_iff_eq_or_transGen.1 hec with rfl | hec
        · exact hcc
        · exact hec
  obtain ⟨b, hab, _⟩ := Relation.TransGen.head'_iff.1 (hback a hca)
  exact hend b hab

section Accepted

variable {defs : List TypeDef}

theorem dangling?_eq_none : dangling? defs = none ↔
    ∀ t ∈ defs, ∀ s ∈ t.supertype, s ∈ defs.map TypeDef.name := by
  rw [dangling?, List.findSome?_eq_none_iff]
  refine forall_congr' fun t => forall_congr' fun _ => ?_
  cases ht : t.supertype with
  | none => simp
  | some s => simp [TypeDef.mem_names_iff, Option.isSome_iff_ne_none]

/-- One of the definitions names the other type as its supertype. -/
def Declares (defs : List TypeDef) (a b : String) : Prop :=
  ∃ t ∈ defs, t.name = a ∧ t.supertype = some b

theorem declares_of_extends (hab : h.Extends a b) : Declares h.defs a b := by
  obtain ⟨t, ht, hts⟩ := hab
  exact ⟨t, List.mem_of_find?_eq_some ht, by simpa using List.find?_some ht, hts⟩

theorem find?_eq_some_iff (hd : h.names.Nodup) {t : TypeDef} :
    h.find? n = some t ↔ t ∈ h.defs ∧ t.name = n := by
  rw [find?, TypeDef.find?, find?_eq_some_iff_of_unique, beq_iff_eq]
  intro t ht u hu et eu
  exact List.inj_on_of_nodup_map hd ht hu ((beq_iff_eq.1 et).trans (beq_iff_eq.1 eu).symm)

theorem extends_of_declares (hd : h.names.Nodup) (hab : Declares h.defs a b) : h.Extends a b := by
  obtain ⟨t, ht, hname, hts⟩ := hab
  exact ⟨t, (find?_eq_some_iff hd).2 ⟨ht, hname⟩, hts⟩

/-- Distinct names, defined supertypes, and no type that is an ancestor of itself. -/
structure Sound (defs : List TypeDef) : Prop where
  distinct : (defs.map TypeDef.name).Nodup
  known : ∀ t ∈ defs, ∀ s ∈ t.supertype, s ∈ defs.map TypeDef.name
  acyclic : ∀ a, ¬Relation.TransGen (Declares defs) a a

theorem cyclic?_eq_none (hn : (defs.map TypeDef.name).Nodup) : cyclic? defs = none ↔
    ∀ a, ¬Relation.TransGen (Declares defs) a a := by
  have hiff : ∀ n, (n :: TypeDef.ancestors defs n).Nodup ↔ ¬(Hierarchy.mk defs).Circles n :=
    fun n => nodup_iff_not_circles (h := ⟨defs⟩)
  rw [cyclic?, List.find?_eq_none]
  simp only [decide_eq_true_eq, not_not, hiff]
  constructor
  · intro hc a haa
    obtain ⟨b, ⟨t, ht, hta, _⟩, _⟩ := Relation.TransGen.head'_iff.1 haa
    exact hc a (hta ▸ List.mem_map_of_mem ht)
      ⟨a, .refl, haa.lift id fun _ _ => extends_of_declares (h := ⟨defs⟩) hn⟩
  · rintro hc n _ ⟨a, _, haa⟩
    exact hc a (haa.lift id fun _ _ => declares_of_extends (h := ⟨defs⟩))

theorem build_eq_ok_iff : build defs = .ok h ↔ Sound defs ∧ h = ⟨defs⟩ := by
  have hok : fault? defs = none ↔ Sound defs := by
    rw [fault?]
    constructor
    · intro hf
      split at hf
      · cases hf
      · cases hf
      · cases hf
      · rename_i hr hd hc
        have hn := (firstRepeated?_eq_none.1 hr).1
        exact ⟨hn, dangling?_eq_none.1 hd, (cyclic?_eq_none hn).1 hc⟩
    · rintro ⟨hn, hk, hc⟩
      rw [firstRepeated?_eq_none.2 ⟨hn, fun _ _ => List.not_mem_nil⟩, dangling?_eq_none.2 hk,
        (cyclic?_eq_none hn).2 hc]
  rw [build, ← hok]
  cases hf : fault? defs with
  | none => simp [eq_comm]
  | some m => simp [refuse]

/-- What holds where climbing ends: being a type of another is an order of the defined names. -/
structure Ordered (h : Hierarchy) : Prop where
  ends : WellFounded fun b a => h.Extends a b
  root : ∀ a, (∀ b, ¬h.Extends a b) → h.supertypes a = []
  step : ∀ a b, h.Extends a b → h.supertypes a = b :: h.supertypes b
  descends : ∀ a b, h.isTypeOf a b = true ↔ h.has a = true ∧ h.Descends a b
  defined : ∀ a b, h.isTypeOf a b = true → h.has a = true ∧ h.has b = true
  refl : ∀ a, h.has a = true → h.isTypeOf a a = true
  trans : ∀ a b c, h.isTypeOf a b = true → h.isTypeOf b c = true → h.isTypeOf a c = true
  antisymm : ∀ a b, h.isTypeOf a b = true → h.isTypeOf b a = true → a = b
  chain : ∀ a b c, h.isTypeOf a b = true → h.isTypeOf a c = true →
    h.isTypeOf b c = true ∨ h.isTypeOf c b = true
  distinct : h.names.Nodup
  subtypes_sublist : ∀ a, (h.subtypes a).Sublist h.names
  mem_subtypes : ∀ a t, t ∈ h.subtypes a ↔ t ≠ a ∧ h.isTypeOf t a = true

theorem wellFounded_extends (hn : ∀ a, (a :: h.supertypes a).Nodup) :
    WellFounded fun b a => h.Extends a b := by
  refine Subrelation.wf ?_ (InvImage.wf (fun a => (h.supertypes a).length) Nat.lt_wfRel.wf)
  intro b a hab
  rw [InvImage, supertypes_of_nodup (hn a) hab]
  exact Nat.lt_succ_self _

theorem has_of_extends (hs : Sound h.defs) (hab : h.Extends a b) : h.has b = true := by
  obtain ⟨t, ht, hts⟩ := hab
  exact TypeDef.mem_names_iff.1 (hs.known t (List.mem_of_find?_eq_some ht) b hts)

theorem has_of_descends (hs : Sound h.defs) (ha : h.has a = true) (hab : h.Descends a b) :
    h.has b = true := by
  rcases Relation.ReflTransGen.cases_tail hab with rfl | ⟨_, _, hcb⟩
  · exact ha
  · exact has_of_extends hs hcb

theorem mem_subtypes : n ∈ h.subtypes a ↔ n ≠ a ∧ h.isTypeOf n a = true := by
  have hnamed : h.isTypeOf n a = true → n ∈ h.names := by
    intro hna
    rcases isTypeOf_iff.1 hna with ⟨rfl, hn⟩ | ⟨_, hn⟩
    · exact TypeDef.mem_names_iff.2 hn
    · exact TypeDef.mem_names_iff.2 (has_of_mem_supertypes hn)
  rw [subtypes, List.mem_filter, decide_eq_true_eq, and_iff_right_of_imp fun hna => hnamed hna.2]

theorem ordered_of_build (hb : build h.defs = .ok h) : Ordered h := by
  have hs := (build_eq_ok_iff.1 hb).1
  have hn := nodup_of_build hb
  refine ⟨wellFounded_extends hn, fun a => supertypes_eq_nil, fun a b => supertypes_of_nodup (hn a),
    fun a b => isTypeOf_iff_descends hb, ?defined, fun a ha => isTypeOf_iff.2 (.inl ⟨rfl, ha⟩),
    fun a b c => isTypeOf_trans hb, ?antisymm, ?chain, hs.distinct,
    fun a => List.filter_sublist, fun a t => mem_subtypes⟩
  case defined =>
    intro a b hab
    obtain ⟨ha, hab⟩ := (isTypeOf_iff_descends hb).1 hab
    exact ⟨ha, has_of_descends hs ha hab⟩
  case antisymm =>
    intro a b hab hba
    rcases isTypeOf_iff.1 hab with ⟨rfl, _⟩ | ⟨_, hab⟩
    · rfl
    rcases isTypeOf_iff.1 hba with ⟨rfl, _⟩ | ⟨_, hba⟩
    · rfl
    · exact absurd (mem_supertypes_trans hb hab hba) (List.nodup_cons.1 (hn a)).1
  case chain =>
    intro a b c hab hac
    obtain ⟨ha, hab⟩ := (isTypeOf_iff_descends hb).1 hab
    obtain ⟨_, hac⟩ := (isTypeOf_iff_descends hb).1 hac
    rw [isTypeOf_iff_descends hb, isTypeOf_iff_descends hb]
    exact (Descends.total hab hac).imp (⟨has_of_descends hs ha hab, ·⟩)
      (⟨has_of_descends hs ha hac, ·⟩)

/-- Where the rounds stop short of a root the type that comes next was met before. -/
theorem cyclic_of_stuck {seen : List String}
    (hrun : Relation.ReflTransGen h.Round ([n], n) (seen, a)) (hstuck : ∀ y, ¬h.Round (seen, a) y) :
    (∃ b, h.Extends a b) ↔ ¬(n :: h.supertypes n).Nodup := by
  obtain ⟨hna, hmet⟩ := between_of_rounds hrun
  rw [nodup_iff_not_circles, not_not]
  constructor
  · rintro ⟨b, hab⟩
    have hb : b ∈ seen := by
      by_contra hb
      exact hstuck _ (.up hab hb)
    exact ⟨b, (hmet b hb).1, Relation.TransGen.tail' (hmet b hb).2 hab⟩
  · intro hc
    by_contra hend
    exact not_circles_of_end hna (not_exists.1 hend) hc

/-- Exactly the sound definitions are accepted, the check of each type ends on any definitions, and
the accepted ones are ordered. -/
theorem accepts_sound (defs : List TypeDef) :
    ((∃ h, build defs = .ok h) ↔ Sound defs) ∧
      (WellFounded fun y x => (Hierarchy.mk defs).Round x y) ∧
      (∀ n seen a, Relation.ReflTransGen (Hierarchy.mk defs).Round ([n], n) (seen, a) →
        (∀ y, ¬(Hierarchy.mk defs).Round (seen, a) y) →
        ((∃ b, (Hierarchy.mk defs).Extends a b) ↔ ¬(n :: TypeDef.ancestors defs n).Nodup)) ∧
      ∀ h, build defs = .ok h → h.defs = defs ∧ Ordered h := by
  refine ⟨?_, wellFounded_round ⟨defs⟩, fun n seen a => cyclic_of_stuck (h := ⟨defs⟩), ?_⟩
  · exact ⟨fun ⟨h, hb⟩ => (build_eq_ok_iff.1 hb).1, fun hs => ⟨⟨defs⟩, build_eq_ok_iff.2 ⟨hs, rfl⟩⟩⟩
  · intro h hb
    obtain ⟨_, rfl⟩ := build_eq_ok_iff.1 hb
    exact ⟨rfl, ordered_of_build hb⟩

end Accepted

end Hierarchy

namespace Sample

def circle : List TypeDef :=
  [{ name := "Asset", supertype := some "Process" },
    { name := "Process", supertype := some "Asset" }]

theorem ordered_standard : Hierarchy.Sound Hierarchy.standard.defs ∧ Hierarchy.standard.Ordered ∧
    ¬("Asset" :: TypeDef.ancestors circle "Asset").Nodup := by
  obtain ⟨hsound, _, _, hordered⟩ := Hierarchy.accepts_sound Hierarchy.standard.defs
  obtain ⟨_, _, hstuck, _⟩ := Hierarchy.accepts_sound circle
  have hup : (Hierarchy.mk circle).Extends "Asset" "Process" := ⟨_, rfl, rfl⟩
  have hback : (Hierarchy.mk circle).Extends "Process" "Asset" := ⟨_, rfl, rfl⟩
  have hround : (Hierarchy.mk circle).Round (["Asset"], "Asset")
      (["Process", "Asset"], "Process") := .up hup (by decide)
  have hend : ∀ y, ¬(Hierarchy.mk circle).Round (["Process", "Asset"], "Process") y := by
    rintro _ ⟨hnext, hnew⟩
    obtain rfl := Hierarchy.Extends.unique hback hnext
    exact hnew (by decide)
  exact ⟨hsound.1 ⟨_, MappingTable.hierarchy_standard⟩,
    (hordered _ MappingTable.hierarchy_standard).2,
    (hstuck _ _ _ (.single hround) hend).1 ⟨_, hback⟩⟩

end Sample

end MetaFed
