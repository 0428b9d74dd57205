import MetaFed.Proofs.Agreement

/-!
The links of a record. A record fetched with the properties that its links are read from has the
links of the whole record, so what a session finds depends on the catalog only.
-/

namespace MetaFed

theorem Assoc.mem_of_find? {α β : Type} [DecidableEq α] {k : α} {v : β} {m : Assoc α β}
    (h : Assoc.find? k m = some v) : (k, v) ∈ m := by
  induction m with
  | nil => cases h
  | cons e m ih =>
      rw [find?] at h
      split at h
      · rename_i he
        rw [← he, ← Option.some.inj h]
        exact List.mem_cons_self
      · exact List.mem_cons_of_mem e (ih h)

theorem Catalog.Keyed.find?_eq_some {cat : Catalog} (hk : cat.Keyed) {id : String} {r : Record} :
    cat.find? id = some r ↔ r ∈ cat.records.values ∧ r.id = id := by
  constructor
  · intro h
    have hm := Assoc.mem_of_find? h
    exact ⟨List.mem_map.2 ⟨_, hm, rfl⟩, (hk.id _ hm).symm⟩
  · rintro ⟨hr, rfl⟩
    obtain ⟨e, he, rfl⟩ := List.mem_map.1 hr
    refine Assoc.find?_of_mem hk.nodup ?_
    rw [← hk.id e he]
    exact he

theorem Catalog.Keyed.eq_of_id {cat : Catalog} (hk : cat.Keyed) {r r' : Record}
    (hr : r ∈ cat.records.values) (hr' : r' ∈ cat.records.values) (h : r.id = r'.id) : r = r' :=
  Option.some.inj ((hk.find?_eq_some.2 ⟨hr, h⟩).symm.trans (hk.find?_eq_some.2 ⟨hr', rfl⟩))

namespace Record

variable {r : Record}

theorem exists_putSimple {ps : List SimpleProperty} (h : ∀ p ∈ ps, p.required = false)
    (vs : Assoc String Value) : ∃ vs', r.putSimple ps vs = .ok vs' := by
  induction ps generalizing vs with
  | nil => exact ⟨vs, rfl⟩
  | cons p ps ih =>
      have hrest := ih fun q hq => h q (List.mem_cons_of_mem p hq)
      simp only [putSimple, h p List.mem_cons_self, Bool.false_eq_true, if_false]
      split
      · exact hrest vs
      · exact hrest _

end Record

namespace RelationshipMapping

variable {k : RelationshipMapping} {r : Record} {wanted : List String} {l : Link} {ls : List Link}

theorem mem_levelProperties_of_given {e : EndMapping} (h : isGiven e.navigation = true)
    (he : e = k.one ∨ e = k.two) : e.navigationName ∈ k.levelProperties := by
  cases hn : e.navigation with
  | none => simp [isGiven, hn] at h
  | some n =>
      have hne : n ≠ "" := by simpa [isGiven, hn] using h
      refine List.mem_append_left _ (List.mem_filterMap.2 ⟨some n, ?_, ?_⟩)
      · rcases he with rfl | rfl <;> simp [hn]
      · simp [EndMapping.navigationName, hn, hne]

theorem fault?_of_checked (h : k.checked = .ok k) : k.fault? = none := by
  rw [checked] at h
  split at h
  · cases h
  · assumption

theorem checked_of_fault? (hv : k.fault? = none) : k.checked = .ok k := by
  rw [checked, hv]

/-- Both ends of a mapping for which records of their own stand are followed through a property. -/
theorem given_of_level (hv : k.fault? = none) (hk : k.kind = .level) :
    isGiven k.levelType = true ∧ isGiven k.one.navigation = true ∧
      isGiven k.two.navigation = true := by
  simp only [fault?, hk] at hv
  split at hv
  · cases hv
  · rename_i ht
    split at hv
    · cases hv
    · rename_i hn
      exact ⟨not_not.1 ht, not_not.1 hn⟩

theorem given_of_reference (hv : k.fault? = none) (hk : k.kind = .reference) :
    isGiven k.one.navigation = true := by
  simp only [fault?, hk] at hv
  split at hv
  · cases hv
  · rename_i hn
    exact not_not.1 hn

theorem ends_of_self (hv : k.fault? = none) (hk : k.kind = .self) :
    k.one.assetType = k.two.assetType ∧ k.one.mark ≠ k.two.mark := by
  simp only [fault?, hk] at hv
  split at hv
  · cases hv
  · rename_i ht
    split at hv
    · cases hv
    · rename_i hm
      exact ⟨not_not.1 ht, hm⟩

theorem levelLinks_project (hv : k.fault? = none) (hk : k.kind = .level)
    (hw : k.levelProperties ⊆ wanted) : k.levelLinks (r.project wanted) = k.levelLinks r := by
  obtain ⟨_, hone, htwo⟩ := given_of_level hv hk
  exact levelLinks_congr (r.agreesOn_project wanted)
    (hw (mem_levelProperties_of_given hone (.inl rfl)))
    (hw (mem_levelProperties_of_given htwo (.inr rfl)))
    fun p hp => hw (List.mem_append_right _ (List.mem_map_of_mem hp))

theorem linksFromOne_project (hw : k.one.navigationName ∈ wanted) :
    k.linksFromOne (r.project wanted) = k.linksFromOne r :=
  linksFromOne_congr (r.agreesOn_project wanted) hw

theorem linksFromTwo_project (hw : k.two.navigationName ∈ wanted) :
    k.linksFromTwo (r.project wanted) = k.linksFromTwo r :=
  linksFromTwo_congr (r.agreesOn_project wanted) fun _ hp => (mem_readsTwo hp).2 ▸ hw

theorem links_project_level (hv : k.fault? = none) (hk : k.kind = .level)
    (hw : k.levelProperties ⊆ wanted) (e : Option End) :
    k.links (r.project wanted) e = k.links r e := by
  simp only [links, hk]
  exact levelLinks_project hv hk hw

theorem mem_linksFromOne (h : k.linksFromOne r = .ok ls) (hl : l ∈ ls) :
    r.type = k.one.assetType ∧ ∃ refs, r.references k.one.navigationName = .ok refs ∧
      ∃ x ∈ refs, x.type = k.two.assetType ∧ l = { mapping := k, one := r.ref, two := x } := by
  rw [linksFromOne] at h
  split at h
  · cases h
    cases hl
  · rename_i ht
    obtain ⟨refs, hrefs, h⟩ := Attempt.bind_eq_ok.1 h
    cases h
    obtain ⟨x, hx, rfl⟩ := List.mem_map.1 hl
    obtain ⟨hx, htype⟩ := List.mem_filter.1 hx
    exact ⟨not_not.1 ht, refs, hrefs, x, hx, of_decide_eq_true htype, rfl⟩

theorem mem_linksFromTwo (h : k.linksFromTwo r = .ok ls) (hl : l ∈ ls) :
    r.type = k.two.assetType ∧ ∃ refs, r.references k.two.navigationName = .ok refs ∧
      ∃ x ∈ refs, x.type = k.one.assetType ∧ l = { mapping := k, one := x, two := r.ref } := by
  rw [linksFromTwo] at h
  split at h
  · cases h
    cases hl
  · rename_i ht
    obtain ⟨refs, hrefs, h⟩ := Attempt.bind_eq_ok.1 h
    cases h
    obtain ⟨x, hx, rfl⟩ := List.mem_map.1 hl
    obtain ⟨hx, htype⟩ := List.mem_filter.1 hx
    exact ⟨not_not.1 (not_or.1 ht).1, refs, hrefs, x, hx, of_decide_eq_true htype, rfl⟩

theorem mem_levelLinks (h : k.levelLinks r = .ok ls) (hl : l ∈ ls) :
    some r.type = k.levelType ∧ ls = [l] ∧
      ∃ one ones two twos properties, r.references k.one.navigationName = .ok (one :: ones) ∧
        r.references k.two.navigationName = .ok (two :: twos) ∧
        l = { mapping := k, one, two, level := some r.ref, properties } := by
  rw [levelLinks] at h
  split at h
  · cases h
    cases hl
  · rename_i ht
    obtain ⟨ones, hones, h⟩ := Attempt.bind_eq_ok.1 h
    obtain ⟨twos, htwos, h⟩ := Attempt.bind_eq_ok.1 h
    cases ones with
    | nil =>
        cases h
        cases hl
    | cons one ones =>
        cases twos with
        | nil =>
            cases h
            cases hl
        | cons two twos =>
            obtain ⟨properties, _, h⟩ := Attempt.bind_eq_ok.1 h
            cases h
            obtain rfl := List.mem_singleton.1 hl
            exact ⟨not_not.1 ht, rfl, one, ones, two, twos, properties, hones, htwos, rfl⟩

theorem mem_selfLinks (hl : l ∈ k.selfLinks r) :
    r.type = k.one.assetType ∧ l = { mapping := k, one := r.ref, two := r.ref } := by
  rw [selfLinks] at hl
  split at hl
  · rename_i ht
    exact ⟨ht, List.mem_singleton.1 hl⟩
  · cases hl

/-- How a record yields a link: as its own part, as the record that stands for the link, or at one
of the ends. -/
theorem links_cases {e : Option End} (h : k.links r e = .ok ls) (hl : l ∈ ls) :
    (k.kind = .self ∧ l ∈ k.selfLinks r) ∨ (k.kind = .level ∧ k.levelLinks r = .ok ls) ∨
      (k.kind = .reference ∧ ((∃ us, k.linksFromOne r = .ok us ∧ l ∈ us) ∨
        ∃ us, k.linksFromTwo r = .ok us ∧ l ∈ us)) := by
  cases hk : k.kind with
  | self =>
      simp only [links, hk] at h
      cases h
      exact .inl ⟨rfl, hl⟩
  | level =>
      simp only [links, hk] at h
      exact .inr (.inl ⟨rfl, h⟩)
  | reference =>
      refine .inr (.inr ⟨rfl, ?_⟩)
      simp only [links, hk] at h
      cases e with
      | none =>
          obtain ⟨us, hus, h⟩ := Attempt.bind_eq_ok.1 h
          obtain ⟨vs, hvs, h⟩ := Attempt.bind_eq_ok.1 h
          cases h
          exact (List.mem_append.1 hl).imp (fun hl => ⟨us, hus, hl⟩) fun hl => ⟨vs, hvs, hl⟩
      | some e =>
          cases e with
          | one => exact .inl ⟨ls, h, hl⟩
          | two => exact .inr ⟨ls, h, hl⟩

theorem mapping_of_links {e : Option End} (h : k.links r e = .ok ls) (hl : l ∈ ls) :
    l.mapping = k := by
  rcases links_cases h hl with ⟨_, hl⟩ | ⟨_, hlevel⟩ | ⟨_, ⟨us, hus, hl⟩ | ⟨us, hus, hl⟩⟩
  · obtain ⟨_, rfl⟩ := mem_selfLinks hl
    rfl
  · obtain ⟨_, _, _, _, _, _, _, _, _, rfl⟩ := mem_levelLinks hlevel hl
    rfl
  · obtain ⟨_, _, _, _, _, _, rfl⟩ := mem_linksFromOne hus hl
    rfl
  · obtain ⟨_, _, _, _, _, _, rfl⟩ := mem_linksFromTwo hus hl
    rfl

theorem isLevel_iff : k.isLevel = true ↔ k.kind = .level := by
  rw [isLevel, decide_eq_true_iff]

end RelationshipMapping

end MetaFed
