import MetaFed.Proofs.Links

/-!
What reading a document guarantees of its table, beyond what every table is checked for.
-/

namespace MetaFed

namespace Document

variable {α : Type} {read : Value → Option α}

theorem exists_of_mem_list? {v : Value} {xs : List α} (h : list? read v = some xs) {x : α}
    (hx : x ∈ xs) : ∃ w, read w = some x := by
  cases v with
  | list vs =>
      change vs.mapM read = some xs at h
      induction vs generalizing xs with
      | nil =>
          cases h
          cases hx
      | cons w vs ih =>
          simp only [List.mapM_cons, Option.bind_eq_bind, Option.bind_eq_some_iff] at h
          obtain ⟨y, hy, ys, hys, h⟩ := h
          cases h
          rcases List.mem_cons.1 hx with rfl | hx
          · exact ⟨w, hy⟩
          · exact ih hx hys
  | _ => cases h

theorem eq_or_of_defaulted? {es : Assoc String Value} {name : String} {d x : α}
    (h : defaulted? es name d read = some x) : x = d ∨ ∃ v, read v = some x := by
  rw [defaulted?] at h
  split at h
  · exact .inr ⟨_, h⟩
  · exact .inl (Option.some.inj h).symm

end Document

open Document

/-- Reading refuses a property made of the names of references without a property that holds
them. -/
theorem ComplexProperty.backend_of_ofValue? {v : Value} {p : ComplexProperty}
    (h : ofValue? v = some p) (hk : p.kind = .referenceName) : p.backend ≠ some "" := by
  simp only [ofValue?, Option.bind_eq_bind, Option.bind_eq_some_iff] at h
  obtain ⟨_, _, _, _, kind, _, backend, _, _, _, h⟩ := h
  split at h
  · cases h
  · rename_i hgiven
    cases h
    rintro rfl
    exact hgiven ⟨hk, by simp [isGiven]⟩

theorem EntityMapping.namesGiven_of_keyedOfValue? {v : Value} {keys : List String}
    {m : EntityMapping} (h : keyedOfValue? v = some (keys, m)) : m.NamesGiven := by
  simp only [keyedOfValue?, Option.bind_eq_bind, Option.bind_eq_some_iff] at h
  obtain ⟨_, _, _, _, _, _, _, _, _, _, complex, hcomplex, _, _, _, _, _, _, _, _, _, _, h⟩ := h
  cases h
  intro p hp
  rcases eq_or_of_defaulted? hcomplex with rfl | ⟨w, hw⟩
  · cases hp
  · obtain ⟨w', hw'⟩ := exists_of_mem_list? hw hp
    exact ComplexProperty.backend_of_ofValue? hw'

/-- Every mapping that has records is told which properties hold the references it names. -/
def MappingTable.NamesGiven (t : MappingTable) : Prop :=
  ∀ m ∈ backed t.mappings, m.NamesGiven

namespace MappingDocument

variable {d : MappingDocument} {h : Hierarchy} {t : MappingTable}

theorem exists_of_mem_table (ht : d.table h = .ok t) {m : EntityMapping} (hm : m ∈ t.mappings) :
    ∃ known keys m', declared [] d.relationships = .ok known ∧ (keys, m') ∈ d.mappings ∧
      m.complex = m'.complex ∧ m.relationships = keys.filterMap fun k => Assoc.find? k known := by
  simp only [table, Attempt.bind_eq_ok] at ht
  obtain ⟨known, hknown, ms, hms, hb⟩ := ht
  rw [MappingTable.build] at hb
  split at hb
  · cases hb
  · cases hb
    obtain ⟨⟨keys, m'⟩, hmem, hl⟩ := Attempt.exists_of_mem_mapM hms hm
    refine ⟨known, keys, m', hknown, hmem, ?_⟩
    rw [linked] at hl
    split at hl
    · rw [EntityMapping.checked] at hl
      split at hl
      · cases hl
      · cases hl
        exact ⟨rfl, rfl⟩
    · cases hl

theorem fault?_of_declared {before known : Assoc String RelationshipMapping}
    {rs : List (String × RelationshipMapping)} (hd : declared before rs = .ok known)
    (hbefore : ∀ e ∈ before, e.2.fault? = none) : ∀ e ∈ known, e.2.fault? = none := by
  induction rs generalizing before with
  | nil =>
      cases hd
      exact hbefore
  | cons e rs ih =>
      obtain ⟨k, r⟩ := e
      rw [declared] at hd
      split at hd
      · cases hd
      · obtain ⟨r', hr', hd⟩ := Attempt.bind_eq_ok.1 hd
        refine ih hd fun e he => ?_
        rcases List.mem_append.1 he with he | he
        · exact hbefore e he
        · rw [List.mem_singleton.1 he]
          rw [RelationshipMapping.checked] at hr'
          split at hr'
          · cases hr'
          · rename_i hf
            cases hr'
            exact hf

theorem fault?_of_table (ht : d.table h = .ok t) : ∀ k ∈ t.relationships, k.fault? = none := by
  intro k hk
  rw [MappingTable.relationships, MappingTable.relationshipsOf, mem_firsts] at hk
  obtain ⟨m, hm, hk⟩ := List.mem_flatMap.1 hk
  have hmem := (MappingTable.mem_backed.1 hm).1
  obtain ⟨known, keys, _, hknown, _, _, hrel⟩ := exists_of_mem_table ht hmem
  rw [hrel] at hk
  obtain ⟨key, _, hfind⟩ := List.mem_filterMap.1 hk
  exact fault?_of_declared hknown (by simp) _ (Assoc.mem_of_find? hfind)

end MappingDocument

/-- The table of a document is accepted, nothing is wrong with its relationships, and it is told
which properties hold the references whose names it takes. -/
theorem MappingTable.sound_of_document {h : Hierarchy} (hh : Hierarchy.build h.defs = .ok h)
    {defaultBase : String} {v : Value} {t : MappingTable}
    (ht : ofDocument h defaultBase v = .ok t) :
    t.Accepted ∧ (∀ k ∈ t.relationships, k.fault? = none) ∧ t.NamesGiven := by
  rw [ofDocument] at ht
  split at ht
  · rename_i d hd
    refine ⟨MappingDocument.accepted_table hh ht, MappingDocument.fault?_of_table ht, ?_⟩
    intro m hm p hp
    obtain ⟨_, keys, m', _, hmem, hcomplex, _⟩ :=
      MappingDocument.exists_of_mem_table ht (mem_backed.1 hm).1
    rw [hcomplex] at hp
    simp only [MappingDocument.ofValue?, Option.bind_eq_bind, Option.bind_eq_some_iff] at hd
    obtain ⟨_, _, _, _, _, _, _, _, mappings, hmappings, hd⟩ := hd
    cases hd
    obtain ⟨vs, _, hvs⟩ := Option.bind_eq_some_iff.1 hmappings
    obtain ⟨w, hw⟩ := exists_of_mem_list? hvs hmem
    exact EntityMapping.namesGiven_of_keyedOfValue? hw p hp
  · cases ht

theorem MappingTable.namesGiven_standard : standard.NamesGiven := by
  unfold NamesGiven EntityMapping.NamesGiven
  decide

end MetaFed
