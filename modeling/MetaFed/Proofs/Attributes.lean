import MetaFed.Proofs.Ancestry
import MetaFed.Proofs.Firsts

/-!
Attributes along the way up. A type takes over the list of its supertype and puts behind it what it
declares itself, each name once, so what every type on the way up lists comes first and in the same
order.
-/

namespace MetaFed

namespace Hierarchy

variable {h : Hierarchy} {n a b x : String} {t : TypeDef} {seen : List String}

theorem prefix_addAttributes (seen : List String) (t : TypeDef) : seen <+: addAttributes seen t :=
  prefix_foldl_firsts t.attributes seen

theorem nodup_addAttributes (hs : seen.Nodup) (t : TypeDef) : (addAttributes seen t).Nodup :=
  nodup_foldl_firsts t.attributes hs

theorem mem_addAttributes : x ∈ addAttributes seen t ↔ x ∈ seen ∨ x ∈ t.attributes :=
  mem_foldl_firsts t.attributes seen

theorem allAttributes_of_undefined (hn : h.find? n = none) : h.allAttributes n = [] := by
  have hup : h.supertypes n = [] := TypeDef.ancestors_of_none hn
  rw [allAttributes, hup]
  simp [hn]

theorem allAttributes_of_root (ht : h.find? n = some t) (hts : t.supertype = none) :
    h.allAttributes n = addAttributes [] t := by
  have hup : h.supertypes n = [] := by
    rw [supertypes, TypeDef.ancestors_of_some ht, hts]
  rw [allAttributes, hup]
  simp [ht]

theorem allAttributes_of_supertype (hn : (n :: h.supertypes n).Nodup) (ht : h.find? n = some t)
    (hts : t.supertype = some b) : h.allAttributes n = addAttributes (h.allAttributes b) t := by
  rw [allAttributes, supertypes_of_nodup hn ⟨t, ht, hts⟩, List.reverse_cons, List.foldl_append,
    List.foldl_cons, List.foldl_nil, ht]
  rfl

/-- The attributes a type has are those declared on the way up, each once, and the list of every
type on that way is the beginning of its own. -/
structure Inherits (h : Hierarchy) (n : String) : Prop where
  nodup : (h.allAttributes n).Nodup
  declared : ∀ x, x ∈ h.allAttributes n ↔ ∃ t ∈ h.defs, h.Descends n t.name ∧ x ∈ t.attributes
  above : ∀ a, h.Descends n a → h.allAttributes a <+: h.allAttributes n

theorem eq_of_descends_root (hn : ∀ b, ¬h.Extends n b) (hna : h.Descends n a) : a = n := by
  rcases Relation.ReflTransGen.cases_head hna with rfl | ⟨b, hnb, _⟩
  · rfl
  · exact absurd hnb (hn b)

theorem inherits_of_undefined (hd : h.names.Nodup) (hf : h.find? n = none) : h.Inherits n := by
  have hend : ∀ b, ¬h.Extends n b := by
    rintro b ⟨t, ht, _⟩
    rw [hf] at ht
    cases ht
  have hall := allAttributes_of_undefined hf
  refine ⟨hall ▸ List.nodup_nil, fun x => ?_, fun a hna => ?_⟩
  · rw [hall]
    refine iff_of_false List.not_mem_nil ?_
    rintro ⟨t, ht, hnt, _⟩
    have hsome := (find?_eq_some_iff hd).2 ⟨ht, eq_of_descends_root hend hnt⟩
    rw [hf] at hsome
    cases hsome
  · exact eq_of_descends_root hend hna ▸ List.prefix_refl _

theorem inherits_of_root (hd : h.names.Nodup) (hf : h.find? n = some t) (hts : t.supertype = none) :
    h.Inherits n := by
  have hend : ∀ b, ¬h.Extends n b := by
    rintro b ⟨u, hu, hus⟩
    obtain rfl : t = u := Option.some.inj (hf.symm.trans hu)
    rw [hts] at hus
    cases hus
  have hall := allAttributes_of_root hf hts
  obtain ⟨ht, rfl⟩ := (find?_eq_some_iff hd).1 hf
  refine ⟨hall ▸ nodup_addAttributes List.nodup_nil t, fun x => ?_, fun a hna => ?_⟩
  · rw [hall, mem_addAttributes, or_iff_right List.not_mem_nil]
    constructor
    · exact fun hx => ⟨t, ht, .refl, hx⟩
    · rintro ⟨u, hu, htu, hx⟩
      obtain rfl := List.inj_on_of_nodup_map hd hu ht (eq_of_descends_root hend htu)
      exact hx
  · exact eq_of_descends_root hend hna ▸ List.prefix_refl _

theorem inherits_of_extends (hd : h.names.Nodup) (hn : (n :: h.supertypes n).Nodup)
    (hnb : h.Extends n b) (hb : h.Inherits b) : h.Inherits n := by
  obtain ⟨t, hf, hts⟩ := id hnb
  have hall := allAttributes_of_supertype hn hf hts
  have hprefix : h.allAttributes b <+: h.allAttributes n := hall ▸ prefix_addAttributes _ t
  refine ⟨hall ▸ nodup_addAttributes hb.nodup t, fun x => ?_, fun a hna => ?_⟩
  · rw [hall, mem_addAttributes, hb.declared x]
    obtain ⟨ht, rfl⟩ := (find?_eq_some_iff hd).1 hf
    constructor
    · rintro (⟨u, hu, hbu, hx⟩ | hx)
      · exact ⟨u, hu, .head hnb hbu, hx⟩
      · exact ⟨t, ht, .refl, hx⟩
    · rintro ⟨u, hu, htu, hx⟩
      rcases Relation.ReflTransGen.cases_head htu with hname | ⟨c, htc, hcu⟩
      · obtain rfl := List.inj_on_of_nodup_map hd ht hu hname
        exact .inr hx
      · exact .inl ⟨u, hu, Extends.unique htc hnb ▸ hcu, hx⟩
  · rcases Relation.ReflTransGen.cases_head hna with rfl | ⟨c, hnc, hca⟩
    · exact List.prefix_refl _
    · exact (hb.above a (Extends.unique hnc hnb ▸ hca)).trans hprefix

theorem inherits_of_build (hb : build h.defs = .ok h) (n : String) : h.Inherits n := by
  have hordered := ordered_of_build hb
  -- The induction goes down from the roots, where the way up ends.
  induction n using hordered.ends.induction with
  | h n ih =>
      cases hf : h.find? n with
      | none => exact inherits_of_undefined hordered.distinct hf
      | some t =>
          cases hts : t.supertype with
          | none => exact inherits_of_root hordered.distinct hf hts
          | some b =>
              have hnb : h.Extends n b := ⟨t, hf, hts⟩
              exact inherits_of_extends hordered.distinct (nodup_of_build hb n) hnb (ih b hnb)

/-- The ancestors listed for a type are what is reached from it by way of supertypes, and with
their attributes it inherits: none twice, all that are declared, those of an ancestor first. -/
theorem inherited_attributes (h : Hierarchy) (hb : build h.defs = .ok h) (n : String) :
    (∀ a, a ∈ h.supertypes n ↔ Relation.TransGen h.Extends n a) ∧ h.Inherits n := by
  refine ⟨fun a => ⟨transGen_of_mem_supertypes, ?_⟩, inherits_of_build hb n⟩
  exact mem_supertypes_of_transGen (nodup_of_build hb n)

end Hierarchy

namespace Sample

/-- Types that declare attributes anew: one its own again, one those of the type above. -/
def repeating : Hierarchy :=
  ⟨[{ name := "Column", supertype := some "Element", attributes := ["length", "name", "length"] },
    { name := "Element", attributes := ["qualifiedName", "name", "qualifiedName"] }]⟩

theorem inherits_repeating : Hierarchy.build repeating.defs = .ok repeating ∧
    repeating.allAttributes "Column" = ["qualifiedName", "name", "length"] ∧
      repeating.allAttributes "Element" <+: repeating.allAttributes "Column" := by
  have hb : Hierarchy.build repeating.defs = .ok repeating := by
    rw [Hierarchy.build, show Hierarchy.fault? repeating.defs = none by decide +kernel]
  obtain ⟨hup, hinherits⟩ := Hierarchy.inherited_attributes repeating hb "Column"
  have habove : "Element" ∈ repeating.supertypes "Column" := by decide +kernel
  exact ⟨hb, by decide +kernel, hinherits.above "Element" ((hup "Element").1 habove).to_reflTransGen⟩

end Sample

end MetaFed
