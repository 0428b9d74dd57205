import MetaFed.Proofs.HitOrder
import MetaFed.Proofs.Links
import MetaFed.Proofs.Outages
import MetaFed.Proofs.Told

/-!
Catalogs that hold the same records in different orders. The records that meet the conditions of a
search are the same in both, and its keys leave no two of them equal, so that they are found in one
order. Only the failure of a search depends on the order of the catalog: it is that of the first
record on which the conditions fail.
-/

namespace MetaFed

theorem Failure.Native.exists_fault {f : Failure} (h : f.Native) :
    ∃ x : Fault, f = .fault x ∧ x.Ordinary := by
  rcases h with rfl | rfl
  · exact ⟨_, rfl, trivial⟩
  · exact ⟨_, rfl, trivial⟩

namespace Catalog

variable {cat cat' : Catalog} {types : List String} {conditions : Node} {rs rs' us : List Record}
  {n : NativeSearch}

/-- Two catalogs hold the same records, in any order, and differ in nothing else. -/
structure Reorders (cat cat' : Catalog) : Prop where
  keyed : cat.Keyed
  keyed' : cat'.Keyed
  records : cat'.records.values.Perm cat.records.values
  stringProperties : cat'.stringProperties = cat.stringProperties
  version : cat'.version = cat.version

/-- The conditions of a search fail like this on a record of its types. -/
def FailsWith (cat : Catalog) (n : NativeSearch) (x : Fault) : Prop :=
  ∃ r ∈ cat.records.values, r.type ∈ n.types ∧
    n.conditions.toNode.holds (cat.holds r) = .error (.fault x)

theorem FailsWith.ordinary {x : Fault} (h : cat.FailsWith n x) : x.Ordinary := by
  obtain ⟨r, _, _, hr⟩ := h
  obtain ⟨_, heq, hx⟩ := (n.conditions.toNode.fails_holds (cat.native_holds r) _ hr).exists_fault
  cases heq
  exact hx

section Filled

/-- A catalog with some records put in, one after another. -/
def filled (cat : Catalog) (rs : List Record) : Catalog :=
  rs.foldl put cat

theorem keyed_filled (h : cat.Keyed) (rs : List Record) : (cat.filled rs).Keyed := by
  induction rs generalizing cat with
  | nil => exact h
  | cons r rs ih => exact ih (keyed_put h r)

theorem values_put {m : Assoc String Record} (hid : ∀ e ∈ m, e.1 = e.2.id) {r : Record}
    (hr : r.id ∉ m.values.map Record.id) : (Assoc.put r.id r m).values = m.values ++ [r] := by
  induction m with
  | nil => rfl
  | cons e m ih =>
      obtain ⟨he, hm⟩ := List.forall_mem_cons.1 hid
      rw [Assoc.values, List.map_cons, List.map_cons, List.mem_cons, not_or] at hr
      rw [Assoc.put, if_neg fun heq => hr.1 (heq.symm.trans he)]
      exact congrArg (e.2 :: ·) (ih hm hr.2)

theorem values_filled (h : cat.Keyed) (hn : ((cat.records.values ++ rs).map Record.id).Nodup) :
    (cat.filled rs).records.values = cat.records.values ++ rs := by
  induction rs generalizing cat with
  | nil => exact (List.append_nil _).symm
  | cons r rs ih =>
      have hr : r.id ∉ cat.records.values.map Record.id := by
        rw [List.map_append, List.map_cons] at hn
        intro hmem
        exact (List.nodup_append.1 hn).2.2 _ hmem _ List.mem_cons_self rfl
      have hput : (cat.put r).records.values = cat.records.values ++ [r] := values_put h.id hr
      have hcons : cat.records.values ++ r :: rs = (cat.put r).records.values ++ rs := by
        rw [hput, List.append_assoc, List.singleton_append]
      rw [hcons] at hn ⊢
      exact ih (keyed_put h r) hn

theorem stringProperties_filled (cat : Catalog) (rs : List Record) :
    (cat.filled rs).stringProperties = cat.stringProperties := by
  induction rs generalizing cat with
  | nil => rfl
  | cons r rs ih => exact ih (cat.put r)

theorem version_filled (cat : Catalog) (rs : List Record) :
    (cat.filled rs).version = cat.version := by
  induction rs generalizing cat with
  | nil => rfl
  | cons r rs ih => exact ih (cat.put r)

/-- New records with different ids may be put in in any order. -/
theorem reorders_filled (h : cat.Keyed) (hp : rs'.Perm rs)
    (hn : ((cat.records.values ++ rs).map Record.id).Nodup) :
    (cat.filled rs).Reorders (cat.filled rs') where
  keyed := keyed_filled h rs
  keyed' := keyed_filled h rs'
  records := by
    have hp' := hp.append_left cat.records.values
    rw [values_filled h hn, values_filled h ((hp'.map Record.id).nodup_iff.2 hn)]
    exact hp'
  stringProperties := by rw [stringProperties_filled, stringProperties_filled]
  version := by rw [version_filled, version_filled]

end Filled

namespace Reorders

variable (h : cat.Reorders cat')
include h

theorem find?_eq (id : String) : cat'.find? id = cat.find? id :=
  Option.ext fun r => by rw [h.keyed'.find?_eq_some, h.keyed.find?_eq_some, h.records.mem_iff]

theorem follow_eq (property : String) (rs : List Record) :
    cat'.follow property rs = cat.follow property rs := by
  induction rs with
  | nil => rfl
  | cons r rs ih => simp only [follow, h.find?_eq, ih]

theorem followAll_eq (hops : List String) (rs : List Record) :
    cat'.followAll hops rs = cat.followAll hops rs := by
  induction hops generalizing rs with
  | nil => rfl
  | cons hop hops ih => simp only [followAll, h.follow_eq, ih]

/-- Conditions do not see the order of the catalog: references are followed by id. -/
theorem holds_eq : cat'.holds = cat.holds := by
  funext r k
  simp only [holds, valuesAlong, h.followAll_eq]

theorem matching_eq (types : List String) (conditions : Node) (rs : List Record) :
    cat'.matching types conditions rs = cat.matching types conditions rs := by
  induction rs with
  | nil => rfl
  | cons r rs ih => rw [matching, matching, h.holds_eq, ih]

end Reorders

theorem matching_of_perm (hp : rs'.Perm rs) (h : cat.matching types conditions rs = .ok us) :
    ∃ us', cat.matching types conditions rs' = .ok us' ∧ us'.Perm us := by
  obtain ⟨told, htold⟩ := Attempt.exists_told
    fun r (hr : r ∈ rs ∧ types.contains r.type = true) => exists_holds_of_matching h r hr.1 hr.2
  rw [matching_eq_filter fun r hr ht => htold r ⟨hr, ht⟩] at h
  cases h
  exact ⟨_, matching_eq_filter fun r hr ht => htold r ⟨hp.mem_iff.1 hr, ht⟩, hp.filter _⟩

theorem exists_of_matching_eq_error {f : Failure}
    (h : cat.matching types conditions rs = .error f) :
    ∃ r ∈ rs, r.type ∈ types ∧ conditions.holds (cat.holds r) = .error f := by
  induction rs with
  | nil => cases h
  | cons r rs ih =>
      have hrest {found : Bool} (h : (cat.matching types conditions rs >>= fun rest =>
          .ok (if found then r :: rest else rest)) = .error f) :
          ∃ r' ∈ r :: rs, r'.type ∈ types ∧ conditions.holds (cat.holds r') = .error f := by
        rcases Attempt.bind_eq_error.1 h with h | ⟨us, _, h⟩
        · exact (ih h).imp fun _ hx => ⟨List.mem_cons_of_mem r hx.1, hx.2⟩
        · cases h
      rw [matching] at h
      split at h
      · next ht =>
          rcases Attempt.bind_eq_error.1 h with h | ⟨b, _, h⟩
          · exact ⟨r, List.mem_cons_self, List.contains_iff_mem.1 ht, h⟩
          · exact hrest h
      · exact hrest h

/-- A search finds the same in the same order, unless its conditions fail in different ways on two
records. -/
theorem Reorders.search_cases (h : cat.Reorders cat') (hn : n.Settled) :
    cat'.search n = cat.search n ∨ ∃ x x', x ≠ x' ∧ cat.FailsWith n x ∧ cat.FailsWith n x' ∧
      cat.search n = .error (.fault x) ∧ cat'.search n = .error (.fault x') := by
  obtain ⟨ks, hks⟩ := hn
  rw [search, search, h.matching_eq]
  cases hm : cat.matching n.types n.conditions.toNode cat.records.values with
  | ok us =>
      obtain ⟨us', hm', hp⟩ := matching_of_perm h.records hm
      have hids : (us.map Record.id).Nodup :=
        ((matching_sublist hm).1.map Record.id).nodup h.keyed.nodup_ids
      rw [hm', Attempt.ok_bind, Attempt.ok_bind, hks, sortByKeys_perm_eq hp hids]
      exact .inl rfl
  | error f =>
      cases hm' : cat.matching n.types n.conditions.toNode cat'.records.values with
      | ok us' =>
          -- The conditions would have been told for every record.
          obtain ⟨us, hus, _⟩ := matching_of_perm h.records.symm hm'
          cases hm.symm.trans hus
      | error f' =>
          obtain ⟨x, rfl, _⟩ := (cat.native_matching _ _ _ f hm).exists_fault
          obtain ⟨x', rfl, _⟩ := (cat.native_matching _ _ _ f' hm').exists_fault
          obtain ⟨r', hr', hfails'⟩ := exists_of_matching_eq_error hm'
          by_cases hx : x = x'
          · rw [hx]
            exact .inl rfl
          · exact .inr ⟨x, x', hx, exists_of_matching_eq_error hm,
              ⟨r', h.records.mem_iff.1 hr', hfails'⟩, rfl, rfl⟩

end Catalog

end MetaFed
