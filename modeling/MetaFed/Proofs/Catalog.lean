import MetaFed.Proofs.Session
import Mathlib.Data.List.Nodup

/-!
The hits of a search are records of the catalog, each at most once, and a window on a search is a
window on its hits.
-/

namespace MetaFed

namespace Assoc

variable {α β : Type} [DecidableEq α]

theorem find?_of_mem {m : Assoc α β} (hk : (keys m).Nodup) {k : α} {v : β} (h : (k, v) ∈ m) :
    find? k m = some v := by
  induction m with
  | nil => cases h
  | cons p m ih =>
      obtain ⟨hp, hm⟩ := List.nodup_cons.1 hk
      rcases List.mem_cons.1 h with rfl | h
      · simp [find?]
      · have hne : p.1 ≠ k := by
          intro e
          exact hp (e ▸ List.mem_map.2 ⟨(k, v), h, rfl⟩)
        rw [find?, if_neg hne, ih hm h]

end Assoc

namespace Record

variable (r : Record) (wanted : List String)

@[simp] theorem project_ref : (r.project wanted).ref = r.ref := by
  rw [project]
  split <;> rfl

@[simp] theorem project_id : (r.project wanted).id = r.id := by
  rw [id, project_ref]
  rfl

@[simp] theorem project_type : (r.project wanted).type = r.type := by
  rw [type, project_ref]
  rfl

end Record

namespace Catalog

variable {c : Catalog}

/-- Every record is kept under its id, once. -/
structure Keyed (c : Catalog) : Prop where
  nodup : (Assoc.keys c.records).Nodup
  id : ∀ e ∈ c.records, e.1 = e.2.id

theorem keyed_empty : Keyed {} := ⟨List.nodup_nil, by simp⟩

theorem mem_put {r : Record} {e : String × Record} {m : Assoc String Record}
    (h : e ∈ Assoc.put r.id r m) : e = (r.id, r) ∨ e ∈ m := by
  induction m with
  | nil => exact .inl (List.mem_singleton.1 h)
  | cons p m ih =>
      rw [Assoc.put] at h
      split at h
      · rcases List.mem_cons.1 h with h | h
        · exact .inl h
        · exact .inr (List.mem_cons_of_mem p h)
      · rcases List.mem_cons.1 h with h | h
        · exact .inr (List.mem_cons.2 (.inl h))
        · exact (ih h).imp_right (List.mem_cons_of_mem p)

theorem keyed_put (hc : c.Keyed) (r : Record) : (c.put r).Keyed := by
  refine ⟨Assoc.nodup_keys_put r.id r hc.nodup, fun e he => ?_⟩
  rcases mem_put he with rfl | he
  · rfl
  · exact hc.id e he

namespace Keyed

theorem nodup_ids (hc : c.Keyed) : (c.records.values.map Record.id).Nodup := by
  have h : c.records.values.map Record.id = Assoc.keys c.records := by
    rw [Assoc.values, Assoc.keys, List.map_map]
    exact List.map_congr_left fun e he => (hc.id e he).symm
  rw [h]
  exact hc.nodup

theorem fetch_eq (hc : c.Keyed) {r : Record} (hr : r ∈ c.records.values) (wanted : List String) :
    c.fetch r.id wanted = some (r.project wanted) := by
  obtain ⟨e, he, rfl⟩ := List.mem_map.1 hr
  have hm : (e.2.id, e.2) ∈ c.records := by
    rw [← hc.id e he]
    exact he
  rw [fetch, find?, Assoc.find?_of_mem hc.nodup hm, Option.map_some]

end Keyed

/-- The hits of a search in order, before its window is applied. -/
def found (c : Catalog) (n : NativeSearch) : Attempt (List Record) := do
  let rs ← c.matching n.types n.conditions.toNode c.records.values
  sortByKeys n.sorts rs

theorem search_eq (n : NativeSearch) : c.search n =
    (c.found n).map fun rs => (page n.start n.pageSize rs).map fun r => r.project n.properties := by
  rw [search, found]
  cases c.matching n.types n.conditions.toNode c.records.values with
  | error e => rfl
  | ok rs =>
      simp only [Attempt.ok_bind]
      cases sortByKeys n.sorts rs <;> rfl

theorem matching_sublist {types : List String} {conditions : Node} {rs rs' : List Record}
    (h : c.matching types conditions rs = .ok rs') :
    rs'.Sublist rs ∧ ∀ r ∈ rs', r.type ∈ types := by
  induction rs generalizing rs' with
  | nil =>
      cases h
      exact ⟨List.Sublist.slnil, by simp⟩
  | cons r rs ih =>
      by_cases hr : r.type ∈ types
      · simp only [matching, List.contains_iff_mem.2 hr, if_true, Attempt.bind_eq_ok] at h
        obtain ⟨found, _, rest, hrest, h⟩ := h
        obtain ⟨hs, ht⟩ := ih hrest
        cases found with
        | false =>
            cases h
            exact ⟨hs.cons r, ht⟩
        | true =>
            cases h
            exact ⟨hs.cons_cons r, List.forall_mem_cons.2 ⟨hr, ht⟩⟩
      · have hc : types.contains r.type = false := by simpa using hr
        simp only [matching, hc, Bool.false_eq_true, if_false, Attempt.ok_bind,
          Attempt.bind_eq_ok] at h
        obtain ⟨rest, hrest, h⟩ := h
        cases h
        exact ⟨(ih hrest).1.cons r, (ih hrest).2⟩

theorem sortByKeys_perm {ks : List SortKey} {rs rs' : List Record}
    (h : sortByKeys ks rs = .ok rs') : rs'.Perm rs := by
  induction ks generalizing rs' with
  | nil =>
      cases h
      exact .refl _
  | cons k ks ih =>
      obtain ⟨us, hu, h⟩ := Attempt.bind_eq_ok.1 h
      rw [sortByKey] at h
      split at h
      · cases h
        exact (sortBy_perm us).trans (ih hu)
      · cases h

theorem page_sublist {α : Type} (start size : Nat) (xs : List α) :
    (page start size xs).Sublist xs := by
  rw [page]
  split
  · exact List.drop_sublist start xs
  · exact (List.take_sublist size _).trans (List.drop_sublist start xs)

theorem mem_search {n : NativeSearch} {hits : List Record} (h : c.search n = .ok hits) :
    ∀ r ∈ hits, ∃ r' ∈ c.records.values, r = r'.project n.properties ∧ r'.type ∈ n.types := by
  rw [search_eq, Attempt.map_eq_ok] at h
  obtain ⟨rs, hrs, rfl⟩ := h
  obtain ⟨us, hu, hs⟩ := Attempt.bind_eq_ok.1 hrs
  obtain ⟨hsub, htypes⟩ := matching_sublist hu
  intro r hr
  obtain ⟨r', hr', rfl⟩ := List.mem_map.1 hr
  have hm : r' ∈ us := (sortByKeys_perm hs).subset ((page_sublist _ _ rs).subset hr')
  exact ⟨r', hsub.subset hm, rfl, htypes r' hm⟩

theorem nodup_search (hc : c.Keyed) {n : NativeSearch} {hits : List Record}
    (h : c.search n = .ok hits) : (hits.map Record.id).Nodup := by
  rw [search_eq, Attempt.map_eq_ok] at h
  obtain ⟨rs, hrs, rfl⟩ := h
  obtain ⟨us, hu, hs⟩ := Attempt.bind_eq_ok.1 hrs
  rw [List.map_map, List.map_congr_left fun r _ => r.project_id n.properties]
  refine (((page_sublist _ _ rs).map _).nodup ?_)
  refine ((sortByKeys_perm hs).map _).nodup_iff.2 ?_
  exact ((matching_sublist hu).1.map Record.id).nodup hc.nodup_ids

theorem search_page {n : NativeSearch} (h0 : n.start = 0) (h1 : n.pageSize = 0) {hits : List Record}
    (h : c.search n = .ok hits) (start size : Nat) :
    c.search { n with start, pageSize := size } = .ok (page start size hits) := by
  rw [search_eq, Attempt.map_eq_ok] at h
  obtain ⟨rs, hrs, rfl⟩ := h
  have hf : c.found { n with start, pageSize := size } = .ok rs := hrs
  rw [search_eq, hf, Attempt.map_ok, h0, h1]
  simp only [page]
  split <;> simp [List.map_take, List.map_drop]

end Catalog

/-- A window on a search is a window on what the backend answers. -/
def Backend.Pages (b : Backend) : Prop :=
  ∀ n hits, n.start = 0 → n.pageSize = 0 → b.answer n = .ok hits → ∀ start size,
    b.answer { n with start, pageSize := size } = .ok (page start size hits)

/-- Bounding a backend changes its failures only. -/
theorem Backend.search_reporting {b : Backend} {n : NativeSearch} {hits : List Record} :
    b.reporting.search n = .ok hits ↔ b.search n = .ok hits := by
  cases h : b.search n with
  | ok rs => simp [Backend.reporting, h]
  | error f => simp [Backend.reporting, h]

namespace Service

variable {s : Service} {limit : Option Value} {n : NativeSearch} {hits : List Record}

theorem search_bounded : (s.bounded limit).search n = .ok hits ↔ s.catalog.search n = .ok hits := by
  cases limit with
  | none => exact Backend.search_reporting
  | some t => exact Backend.search_reporting

theorem answer_bounded : (s.bounded limit).answer n = .ok hits ↔
    (s.bounded limit).outage .search = none ∧ s.catalog.search n = .ok hits := by
  rw [Backend.answer_eq_ok, search_bounded]

theorem pages_bounded (s : Service) (limit : Option Value) : (s.bounded limit).Pages := by
  intro n hits h0 h1 h start size
  rw [answer_bounded] at h ⊢
  exact ⟨h.1, Catalog.search_page h0 h1 h.2 start size⟩

end Service

end MetaFed
