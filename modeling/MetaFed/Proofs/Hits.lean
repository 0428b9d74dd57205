import MetaFed.Proofs.Catalog
import MetaFed.Proofs.Guid

/-!
What a search finds. A search whose conditions can be told for every record finds the records that
meet them, in the order of their ids, and finding fewer leaves the others in their order.
-/

namespace MetaFed

section Filter

variable {α : Type} {le : α → α → Bool} {keep : α → Bool}

theorem insertBy_of_forall {x : α} {xs : List α} (h : ∀ y ∈ xs, le x y = true) :
    insertBy le x xs = x :: xs := by
  cases xs with
  | nil => rfl
  | cons y ys => rw [insertBy, if_pos (h y List.mem_cons_self)]

theorem filter_insertBy_of_neg {x : α} (hx : keep x = false) (xs : List α) :
    (insertBy le x xs).filter keep = xs.filter keep := by
  induction xs with
  | nil => simp [insertBy, hx]
  | cons y ys ih =>
      rw [insertBy]
      split
      · rw [List.filter_cons, if_neg (by simp [hx])]
      · rw [List.filter_cons, List.filter_cons, ih]

theorem filter_insertBy_of_pos (trans : ∀ a b c, le a b → le b c → le a c) {x : α}
    (hx : keep x = true) {xs : List α} (hs : xs.Pairwise fun a b => le a b) :
    (insertBy le x xs).filter keep = insertBy le x (xs.filter keep) := by
  induction xs with
  | nil => simp [insertBy, hx]
  | cons y ys ih =>
      obtain ⟨hy, hys⟩ := List.pairwise_cons.1 hs
      rw [insertBy]
      split
      · rename_i hle
        rw [List.filter_cons_of_pos hx, insertBy_of_forall]
        intro z hz
        rcases List.mem_cons.1 (List.mem_of_mem_filter hz) with rfl | hz
        · exact hle
        · exact trans _ _ _ hle (hy z hz)
      · rename_i hle
        cases hk : keep y with
        | true => rw [List.filter_cons_of_pos hk, List.filter_cons_of_pos hk, ih hys, insertBy, if_neg hle]
        | false =>
            rw [List.filter_cons_of_neg (by simp [hk]), List.filter_cons_of_neg (by simp [hk]), ih hys]

/-- Leaving out items before sorting or after comes to the same. -/
theorem filter_sortBy (total : ∀ a b, le a b ∨ le b a) (trans : ∀ a b c, le a b → le b c → le a c)
    (keep : α → Bool) (xs : List α) : (sortBy le xs).filter keep = sortBy le (xs.filter keep) := by
  induction xs with
  | nil => rfl
  | cons x xs ih =>
      have hcons (ys : List α) : sortBy le (x :: ys) = insertBy le x (sortBy le ys) := rfl
      rw [hcons]
      cases hx : keep x with
      | true =>
          rw [List.filter_cons_of_pos hx, hcons, ← ih]
          exact filter_insertBy_of_pos trans hx (pairwise_sortBy total trans xs)
      | false =>
          rw [List.filter_cons_of_neg (by simp [hx]), ← ih]
          exact filter_insertBy_of_neg hx _

end Filter

namespace Catalog

variable {c : Catalog} {r : Record} {rs : List Record} {types : List String} {conditions : Node}
  {keep : Record → Bool} {n : NativeSearch} {property : String}

theorem keyOrder?_id (r r' : Record) : keyOrder? (r.value Record.idProperty)
    (r'.value Record.idProperty) = some (compare r.id r'.id) := by
  have hid (r : Record) : r.value Record.idProperty = .text r.id := if_pos rfl
  have hsame := Value.text_same_text r.id r'.id
  have hcompare : (Value.text r.id).compare? (.text r'.id) = some (compare r.id r'.id) := by
    simp only [Value.compare?]
  rw [hid, hid, keyOrder?, hcompare]
  simp only [Value.isNull]
  by_cases h : r.id = r'.id
  · rw [if_pos (hsame.trans (beq_iff_eq.2 h)), h, Std.compare_self]
  · rw [if_neg fun e => h (beq_iff_eq.1 (hsame.symm.trans e))]

theorem precedes_byId (r r' : Record) :
    precedes .byId r r' = (compare r.id r'.id).isLE := by
  exact congrArg (Option.any Ordering.isLE) (keyOrder?_id r r')

theorem total_byId (a b : Record) : precedes .byId a b ∨ precedes .byId b a := by
  rw [precedes_byId, precedes_byId, Std.OrientedOrd.eq_swap (a := b.id)]
  cases compare a.id b.id <;> simp

theorem trans_byId (a b c : Record) (h : precedes .byId a b) (h' : precedes .byId b c) :
    precedes .byId a c := by
  rw [precedes_byId] at *
  exact Std.TransOrd.isLE_trans h h'

theorem sortByKeys_byId (rs : List Record) :
    sortByKeys [.byId] rs = .ok (sortBy (precedes .byId) rs) := by
  have hcomparable : isComparable .byId rs = true := by
    refine List.all_eq_true.2 fun r _ => List.all_eq_true.2 fun r' _ => ?_
    rw [show SortKey.byId.property = Record.idProperty from rfl, keyOrder?_id]
    rfl
  rw [sortByKeys, sortByKeys, Attempt.ok_bind, sortByKey, if_pos hcomparable]

/-- If the conditions can be told for every record of the types, those that meet them match. -/
theorem matching_eq_filter (h : ∀ r ∈ rs, types.contains r.type = true →
    Node.holds (c.holds r) conditions = .ok (keep r)) :
    c.matching types conditions rs = .ok (rs.filter fun r => types.contains r.type && keep r) := by
  induction rs with
  | nil => rfl
  | cons r rs ih =>
      rw [matching, ih fun r' hr' => h r' (List.mem_cons_of_mem r hr'), List.filter_cons]
      by_cases ht : types.contains r.type = true
      · rw [if_pos ht, h r List.mem_cons_self ht, ht, Bool.true_and]
        rfl
      · rw [if_neg ht, Bool.eq_false_iff.2 ht, Bool.false_and]
        rfl

/-- A search whose conditions can be told for every record, and that asks for all hits. -/
theorem search_eq_ok (hs : n.sorts = [.byId]) (h0 : n.start = 0) (h1 : n.pageSize = 0)
    (h : ∀ r ∈ c.records.values, n.types.contains r.type = true →
      Node.holds (c.holds r) n.conditions.toNode = .ok (keep r)) :
    c.search n = .ok (((sortBy (precedes .byId) c.records.values).filter fun r =>
      n.types.contains r.type && keep r).map fun r => r.project n.properties) := by
  rw [search, matching_eq_filter h, Attempt.ok_bind, hs, sortByKeys_byId, Attempt.ok_bind, h0, h1,
    filter_sortBy total_byId trans_byId]
  rfl

theorem exists_holds_of_matching {rs' : List Record}
    (h : c.matching types conditions rs = .ok rs') :
    ∀ r ∈ rs, types.contains r.type = true → ∃ b, Node.holds (c.holds r) conditions = .ok b := by
  induction rs generalizing rs' with
  | nil => simp
  | cons r rs ih =>
      by_cases ht : types.contains r.type = true
      · rw [matching, if_pos ht] at h
        obtain ⟨b, hb, h⟩ := Attempt.bind_eq_ok.1 h
        obtain ⟨rest, hrest, _⟩ := Attempt.bind_eq_ok.1 h
        exact List.forall_mem_cons.2 ⟨fun _ => ⟨b, hb⟩, ih hrest⟩
      · rw [matching, if_neg ht, Attempt.ok_bind] at h
        obtain ⟨rest, hrest, _⟩ := Attempt.bind_eq_ok.1 h
        exact List.forall_mem_cons.2 ⟨fun ht' => absurd ht' ht, ih hrest⟩

/-- A search that ends well told its conditions for every record of its types. -/
theorem exists_told_of_search {hits : List Record} (h : c.search n = .ok hits) :
    ∃ told : Record → Bool, ∀ r ∈ c.records.values, n.types.contains r.type = true →
      Node.holds (c.holds r) n.conditions.toNode = .ok (told r) := by
  obtain ⟨rs, hrs, _⟩ := Attempt.bind_eq_ok.1 h
  obtain ⟨told, htold⟩ := Attempt.exists_told
    fun r (hr : r ∈ c.records.values ∧ n.types.contains r.type = true) =>
      exists_holds_of_matching hrs r hr.1 hr.2
  exact ⟨told, fun r hr ht => htold r ⟨hr, ht⟩⟩

theorem mem_matching {rs' : List Record} (h : c.matching types conditions rs = .ok rs')
    {r : Record} :
    r ∈ rs' ↔ r ∈ rs ∧ r.type ∈ types ∧ conditions.holds (c.holds r) = .ok true := by
  obtain ⟨told, htold⟩ := Attempt.exists_told
    fun r (hr : r ∈ rs ∧ types.contains r.type = true) => exists_holds_of_matching h r hr.1 hr.2
  rw [matching_eq_filter fun r hr ht => htold r ⟨hr, ht⟩] at h
  cases h
  simp only [List.mem_filter, Bool.and_eq_true, List.contains_iff_mem]
  refine and_congr_right fun hr => and_congr_right fun ht => ?_
  rw [htold r ⟨hr, List.contains_iff_mem.2 ht⟩, Except.ok.injEq]

theorem mem_search_all (h0 : n.start = 0) (h1 : n.pageSize = 0) {hits : List Record}
    (h : c.search n = .ok hits) {x : Record} :
    x ∈ hits ↔ ∃ r ∈ c.records.values, r.type ∈ n.types ∧
      n.conditions.toNode.holds (c.holds r) = .ok true ∧ x = r.project n.properties := by
  obtain ⟨rs, hrs, h⟩ := Attempt.bind_eq_ok.1 h
  obtain ⟨us, hus, h⟩ := Attempt.bind_eq_ok.1 h
  cases h
  rw [h0, h1, List.mem_map]
  simp only [page, List.drop_zero, if_true, (sortByKeys_perm hus).mem_iff, mem_matching hrs,
    and_assoc, eq_comm (a := x)]

/-- A search whose conditions ask for more finds the records among those found before for which
that holds too. -/
theorem search_narrowed {assetType : String} (ht : n.types = [assetType])
    (hs : n.sorts = [.byId]) (h0 : n.start = 0) (h1 : n.pageSize = 0)
    {hits : List Record} (h : c.search n = .ok hits) :
    ∃ rs : List Record,
      (∀ r ∈ rs, r ∈ c.records.values ∧ r.type = assetType) ∧
      hits = rs.map (fun r => r.project n.properties) ∧
      ∀ (cs : ConditionSet) (keep : Record → Bool),
        (∀ r ∈ c.records.values, r.type = assetType → ∀ b,
          Node.holds (c.holds r) n.conditions.toNode = .ok b →
            Node.holds (c.holds r) cs.toNode = .ok (b && keep r)) →
        c.search { n with conditions := cs } =
          .ok ((rs.filter keep).map fun r => r.project n.properties) := by
  have htypes (r : Record) : n.types.contains r.type = true ↔ r.type = assetType := by
    simp [ht]
  obtain ⟨told, htold⟩ := exists_told_of_search h
  rw [search_eq_ok hs h0 h1 htold] at h
  refine ⟨_, fun r hr => ?_, (Except.ok.inj h).symm, fun cs keep hcs => ?_⟩
  · obtain ⟨hr, hkeep⟩ := List.mem_filter.1 hr
    exact ⟨(sortBy_perm _).subset hr, (htypes r).1 (Bool.and_eq_true_iff.1 hkeep).1⟩
  · rw [search_eq_ok (n := { n with conditions := cs }) hs h0 h1 fun r hr ht =>
      hcs r hr ((htypes r).1 ht) _ (htold r hr ht), List.filter_filter]
    congr 3
    funext r
    exact (Bool.and_assoc _ _ _).symm.trans (Bool.and_comm _ _)

/-- A condition is told from the values that its path reaches. -/
theorem holds_compare_along (r : Record) (path : String) (o : NativeOperator) (value : Value) :
    (Node.compare path o value).holds (c.holds r) =
      (c.valuesAlong r path >>= fun vs => o.holds vs value) := by
  simp only [Node.compare, Node.holds, holds, NativeCondition.of]
  cases c.valuesAlong r path >>= fun vs => o.holds vs value <;> simp [Except.map]

theorem holds_eq_text (vs : List Value) (text : String) :
    NativeOperator.holds .eq vs (.text text) = .ok (vs.any (·.same (.text text))) := by
  cases vs with
  | nil => rfl
  | cons w ws => exact List.anyM_pure

theorem holds_lone (r : Record) (path : String) (o : NativeOperator) (value : Value) :
    ({ members := [.compare path o value] } : ConditionSet).toNode.holds (c.holds r) =
      (c.valuesAlong r path >>= fun vs => o.holds vs value) := by
  simp only [ConditionSet.toNode, Node.holds, Node.allHold, holds_compare_along]
  cases c.valuesAlong r path >>= fun vs => o.holds vs value with
  | ok told => cases told <;> rfl
  | error e => rfl

section Plain

variable (hp : '.' ∉ property.toList)

include hp

theorem fieldsOf_plain : Text.fieldsOf '.' property = [property] := by
  simp only [Text.fieldsOf, Text.fields_eq_of_not_mem hp, List.map_cons, List.map_nil,
    String.ofList_toList]

theorem valuesAlong_plain (r : Record) : c.valuesAlong r property = .ok (valuesOf property r) := by
  rw [valuesAlong, fieldsOf_plain hp]
  simp [followAll]

theorem holds_compare (r : Record) (o : NativeOperator) (value : Value) :
    (Node.compare property o value).holds (c.holds r) = o.holds (valuesOf property r) value := by
  rw [holds_compare_along, valuesAlong_plain hp, Attempt.ok_bind]

theorem holds_isNotNull (r : Record) :
    (Node.compare property .isNotNull .null).holds (c.holds r) =
      .ok ((valuesOf property r).any fun v => !v.isNull) := by
  rw [holds_compare hp]
  cases valuesOf property r with
  | nil => rfl
  | cons v vs => exact List.anyM_pure

end Plain

section Step

variable {last : String} (hp : '.' ∉ property.toList) (hl : '.' ∉ last.toList)

include hp hl

theorem fieldsOf_step : Text.fieldsOf '.' (property ++ "." ++ last) = [property, last] := by
  have hsplit : (property ++ "." ++ last).toList = property.toList ++ '.' :: last.toList := by
    rw [String.append_assoc, String.toList_append, String.toList_append]
    rfl
  simp only [Text.fieldsOf, hsplit, Text.fields_append hp, Text.fields_eq_of_not_mem hl,
    List.map_cons, List.map_nil, String.ofList_toList]

theorem valuesAlong_step {refs : List Reference} (hr : r.references property = .ok refs) :
    c.valuesAlong r (property ++ "." ++ last) =
      .ok ((refs.filterMap fun x => c.find? x.id).flatMap (valuesOf last)) := by
  rw [valuesAlong, fieldsOf_step hp hl]
  simp only [List.dropLast_cons_cons, List.dropLast_singleton, followAll, follow, hr,
    Attempt.ok_bind, List.append_nil]
  rfl

end Step

end Catalog

end MetaFed
