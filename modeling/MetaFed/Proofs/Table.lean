import MetaFed.Mapping.Document
import MetaFed.Mapping.Standard
import MetaFed.Proofs.Attempt
import Mathlib.Data.List.Pairwise

/-!
What construction makes sure of in a mapping table: no entity type is mapped twice, and no two
mappings own the same records.
-/

namespace MetaFed

/-- Where a test singles a member out, looking for the first that passes it finds that one. -/
theorem find?_eq_some_iff_of_unique {α : Type} {p : α → Bool} {xs : List α}
    (hu : ∀ x ∈ xs, ∀ y ∈ xs, p x = true → p y = true → x = y) {x : α} :
    xs.find? p = some x ↔ x ∈ xs ∧ p x = true := by
  constructor
  · exact fun hx => ⟨List.mem_of_find?_eq_some hx, List.find?_some hx⟩
  · rintro ⟨hx, hp⟩
    obtain ⟨y, hy⟩ := Option.isSome_iff_exists.1 (List.find?_isSome.2 ⟨x, hx, hp⟩)
    rw [hy, hu y (List.mem_of_find?_eq_some hy) x hx (List.find?_some hy) hp]

namespace EntityMapping

variable {m n : EntityMapping}

theorem mark_ne_of_checked (h : m.checked = .ok n) : n.mark ≠ some "" := by
  rw [checked] at h
  split at h
  · cases h
  · cases h
    simp [Option.filter_eq_some_iff]

theorem checked_eq_self (hk : m.mark.filter (· ≠ "") = m.mark) (hf : m.fault? = none) :
    m.checked = .ok m := by
  simp only [checked, hk, hf]

theorem filter_mark (hk : m.mark ≠ some "") : m.mark.filter (· ≠ "") = m.mark := by
  cases h : m.mark with
  | none => rfl
  | some p =>
      have hp : p ≠ "" := fun e => hk (by rw [h, e])
      simp [hp]

theorem checked_of_checked (h : m.checked = .ok n) : n.checked = .ok n := by
  refine checked_eq_self (filter_mark (mark_ne_of_checked h)) ?_
  rw [checked] at h
  split at h
  · cases h
  · rename_i hf
    cases h
    exact hf

def Apart (m n : EntityMapping) : Prop :=
  m.abstractType ≠ n.abstractType ∧
    (m.isSentinel = false → n.isSentinel = false → ¬(m.assetType = n.assetType ∧ m.mark = n.mark))

instance : Std.Symm Apart where
  symm _ _ h := ⟨h.1.symm, fun hn hm e => h.2 hm hn ⟨e.1.symm, e.2.symm⟩⟩

end EntityMapping

namespace MappingTable

open EntityMapping

variable {h : Hierarchy} {before ms : List EntityMapping} {m n : EntityMapping}

theorem mem_backed : m ∈ backed ms ↔ m ∈ ms ∧ m.isSentinel = false := by
  simp [backed, List.mem_filter]

theorem apart_of_mappingFault? (hf : mappingFault? h before m = none) (hn : n ∈ before) :
    n.Apart m := by
  rw [mappingFault?] at hf
  split at hf
  · cases hf
  split at hf
  · cases hf
  rename_i htype
  refine ⟨fun e => htype (List.any_eq_true.2 ⟨n, hn, by simp [e]⟩), fun hs hm e => ?_⟩
  split at hf
  · cases hf
  · cases hf
  · rw [hm, if_neg Bool.false_ne_true, Option.map_eq_none_iff, owner?,
      List.find?_eq_none] at hf
    exact hf n (mem_backed.2 ⟨hn, hs⟩) (by simp [e])

theorem pairwise_of_mappingsFault? (hf : mappingsFault? h before ms = none)
    (hb : before.Pairwise Apart) : (before ++ ms).Pairwise Apart := by
  induction ms generalizing before with
  | nil => simpa using hb
  | cons m ms ih =>
      rw [mappingsFault?] at hf
      split at hf
      · cases hf
      · rename_i hm
        have hs : (before ++ [m]).Pairwise Apart :=
          List.pairwise_append.2 ⟨hb, List.pairwise_singleton Apart m, fun n hn k hk =>
            List.mem_singleton.1 hk ▸ apart_of_mappingFault? hm hn⟩
        simpa using ih hf hs

theorem exists_mappingFault? (hf : mappingsFault? h before ms = none) (hm : m ∈ ms) :
    ∃ before', mappingFault? h before' m = none := by
  induction ms generalizing before with
  | nil => cases hm
  | cons n ms ih =>
      rw [mappingsFault?] at hf
      split at hf
      · cases hf
      · rename_i hn
        rcases List.mem_cons.1 hm with rfl | hm
        · exact ⟨before, hn⟩
        · exact ih hf hm

theorem has_of_mappingFault? (hf : mappingFault? h before m = none) {k : RelationshipMapping}
    (hk : k ∈ m.relationships) : h.has k.type = true := by
  rw [mappingFault?] at hf
  split at hf
  · cases hf
  split at hf
  · cases hf
  split at hf
  · cases hf
  · cases hf
  · rename_i hfind
    simpa using List.find?_eq_none.1 hfind k hk

theorem find?_abstract_eq_some (hp : ms.Pairwise Apart) {name : String} :
    ms.find? (fun m => m.abstractType == name) = some m ↔ m ∈ ms ∧ m.abstractType = name := by
  rw [find?_eq_some_iff_of_unique, beq_iff_eq]
  intro k hk l hl ek el
  by_contra hne
  exact (hp.forall hk hl hne).1 ((beq_iff_eq.1 ek).trans (beq_iff_eq.1 el).symm)

theorem owner?_eq_some (hp : ms.Pairwise Apart) {assetType : String} {mark : Option String} :
    owner? ms assetType mark = some m ↔
      m ∈ ms ∧ m.isSentinel = false ∧ m.assetType = assetType ∧ m.mark = mark := by
  rw [owner?, find?_eq_some_iff_of_unique, mem_backed, and_assoc, Bool.and_eq_true, beq_iff_eq,
    beq_iff_eq]
  intro k hk l hl ek el
  simp only [Bool.and_eq_true, beq_iff_eq] at ek el
  obtain ⟨hk, hks⟩ := mem_backed.1 hk
  obtain ⟨hl, hls⟩ := mem_backed.1 hl
  by_contra hne
  exact (hp.forall hk hl hne).2 hks hls ⟨ek.1.trans el.1.symm, ek.2.trans el.2.symm⟩

/-- A table of checked mappings as `build` accepts it. -/
structure Accepted (t : MappingTable) : Prop where
  hierarchy : Hierarchy.build t.hierarchy.defs = .ok t.hierarchy
  checked : ∀ m ∈ t.mappings, m.checked = .ok m
  built : build t.hierarchy t.mappings t.baseType t.unsupported = .ok t

namespace Accepted

variable {t : MappingTable}

theorem fault?_eq_none (ht : t.Accepted) :
    MappingTable.fault? t.hierarchy t.mappings t.baseType = none := by
  have hb := ht.built
  rw [build] at hb
  split at hb
  · cases hb
  · assumption

theorem mappingsFault?_eq_none (ht : t.Accepted) :
    mappingsFault? t.hierarchy [] t.mappings = none := by
  have hf := ht.fault?_eq_none
  rw [MappingTable.fault?] at hf
  split at hf
  · cases hf
  · assumption

theorem pairwise (ht : t.Accepted) : t.mappings.Pairwise Apart := by
  simpa using pairwise_of_mappingsFault? ht.mappingsFault?_eq_none List.Pairwise.nil

theorem mark_ne (ht : t.Accepted) (hm : m ∈ t.mappings) : m.mark ≠ some "" :=
  mark_ne_of_checked (ht.checked m hm)

theorem eq_of_abstractType (ht : t.Accepted) (hm : m ∈ t.mappings) (hn : n ∈ t.mappings)
    (e : m.abstractType = n.abstractType) : m = n := by
  by_contra hne
  exact (ht.pairwise.forall hm hn hne).1 e

theorem eq_of_identity (ht : t.Accepted) (hm : m ∈ backed t.mappings) (hn : n ∈ backed t.mappings)
    (ha : m.assetType = n.assetType) (hk : m.mark = n.mark) : m = n := by
  obtain ⟨hm, hms⟩ := mem_backed.1 hm
  obtain ⟨hn, hns⟩ := mem_backed.1 hn
  by_contra hne
  exact (ht.pairwise.forall hm hn hne).2 hms hns ⟨ha, hk⟩

theorem forAbstract_of_mem (ht : t.Accepted) (hm : m ∈ t.mappings) :
    t.forAbstract m.abstractType = some m :=
  (find?_abstract_eq_some ht.pairwise).2 ⟨hm, rfl⟩

theorem forIdentity_of_mem (ht : t.Accepted) (hm : m ∈ backed t.mappings) :
    t.forIdentity m.assetType m.mark = some m := by
  obtain ⟨hm, hs⟩ := mem_backed.1 hm
  rw [forIdentity, filter_mark (ht.mark_ne hm)]
  exact (owner?_eq_some ht.pairwise).2 ⟨hm, hs, rfl, rfl⟩

/-- A mapping owns the records at each end of a relationship. -/
theorem exists_owner (ht : t.Accepted) {k : RelationshipMapping} (hk : k ∈ t.relationships)
    (e : End) : ∃ m ∈ backed t.mappings,
      m.assetType = (k.atEnd e).assetType ∧ m.mark = (k.atEnd e).mark := by
  have hf := ht.fault?_eq_none
  rw [MappingTable.fault?] at hf
  split at hf
  · cases hf
  split at hf
  · have hends : endFault? t.mappings k k.one = none ∧ endFault? t.mappings k k.two = none := by
      simpa using List.findSome?_eq_none_iff.1 hf k hk
    have hend : endFault? t.mappings k (k.atEnd e) = none := by
      cases e with
      | one => exact hends.1
      | two => exact hends.2
    rw [endFault?] at hend
    split at hend
    · rename_i howner
      obtain ⟨m, hm⟩ := Option.isSome_iff_exists.1 howner
      have hp := List.find?_some hm
      simp only [Bool.and_eq_true, beq_iff_eq] at hp
      exact ⟨m, List.mem_of_find?_eq_some hm, hp.1, hp.2⟩
    · cases hend
  · cases hf

theorem mark_ne_of_end (ht : t.Accepted) {k : RelationshipMapping} (hk : k ∈ t.relationships)
    (e : End) : (k.atEnd e).mark ≠ some "" := by
  obtain ⟨m, hm, _, hmark⟩ := ht.exists_owner hk e
  rw [← hmark]
  exact ht.mark_ne (mem_backed.1 hm).1

end Accepted

theorem accepted_of_build {b : String} {u : List String} {t : MappingTable}
    (hh : Hierarchy.build h.defs = .ok h) (hc : ∀ m ∈ ms, m.checked = .ok m)
    (hb : build h ms b u = .ok t) : t.Accepted := by
  have ht : t = ⟨h, ms, b, u⟩ := by
    rw [build] at hb
    split at hb
    · cases hb
    · exact (Except.ok.inj hb).symm
  subst ht
  exact ⟨hh, hc, hb⟩

theorem forIdentity_eq_some {t : MappingTable} {assetType : String} {mark : Option String}
    (hm : t.forIdentity assetType mark = some m) :
    m ∈ backed t.mappings ∧ m.assetType = assetType ∧ m.mark = mark.filter (· ≠ "") := by
  rw [forIdentity, owner?] at hm
  have hp := List.find?_some hm
  simp only [Bool.and_eq_true, beq_iff_eq] at hp
  exact ⟨List.mem_of_find?_eq_some hm, hp⟩

theorem mem_relationshipsFor {t : MappingTable} {type : Option String}
    {ks : List RelationshipMapping} (h : t.relationshipsFor type = .ok ks)
    {k : RelationshipMapping} : k ∈ ks ↔ k ∈ t.relationships ∧
      (type.all fun name => t.hierarchy.isTypeOf k.type name) = true := by
  cases type with
  | none =>
      cases h
      simp
  | some name =>
      obtain ⟨_, _, h⟩ := Attempt.bind_eq_ok.1 h
      simp only at h
      split at h
      · cases h
      · cases h
        rw [List.mem_filter, Option.all_some]

theorem accepted_of_faultless {t : MappingTable}
    (hh : Hierarchy.build t.hierarchy.defs = .ok t.hierarchy)
    (hc : ∀ m ∈ t.mappings, m.mark.filter (· ≠ "") = m.mark ∧ m.fault?.isNone = true)
    (hf : (fault? t.hierarchy t.mappings t.baseType).isNone = true) : t.Accepted where
  hierarchy := hh
  checked m hm := checked_eq_self (hc m hm).1 (Option.isNone_iff_eq_none.1 (hc m hm).2)
  built := by simp only [build, Option.isNone_iff_eq_none.1 hf]

theorem hierarchy_standard : Hierarchy.build Hierarchy.standard.defs = .ok Hierarchy.standard := by
  have hf : (Hierarchy.fault? Hierarchy.standard.defs).isNone = true := by decide +kernel
  simp only [Hierarchy.build, Option.isNone_iff_eq_none.1 hf]

theorem accepted_standard : standard.Accepted :=
  accepted_of_faultless hierarchy_standard (by decide +kernel) (by decide +kernel)

end MappingTable

/-- A document describes a table only if construction accepts it. -/
theorem MappingDocument.accepted_table {d : MappingDocument} {h : Hierarchy} {t : MappingTable}
    (hh : Hierarchy.build h.defs = .ok h) (ht : d.table h = .ok t) : t.Accepted := by
  simp only [MappingDocument.table, Attempt.bind_eq_ok] at ht
  obtain ⟨known, _, ms, hms, hb⟩ := ht
  refine MappingTable.accepted_of_build hh ?_ hb
  intro m hm
  obtain ⟨⟨keys, k⟩, _, hl⟩ := Attempt.exists_of_mem_mapM hms hm
  rw [MappingDocument.linked] at hl
  split at hl
  · exact EntityMapping.checked_of_checked hl
  · cases hl

end MetaFed
