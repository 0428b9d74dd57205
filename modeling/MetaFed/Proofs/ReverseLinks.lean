import MetaFed.Proofs.Hits
import MetaFed.Proofs.Listing

/-!
Links that only one end refers to, seen from the other end. Searching for the references to a
record finds the records that hold one, so the links at that record are those that deriving the
links of every record of the catalog would find.
-/

namespace MetaFed

open Session

namespace Catalog

variable {cat : Catalog} {k : RelationshipMapping} {r b : Record} {property : String}
  {refs : List Reference}

/-- The records of the catalog in the order of their ids. -/
def ordered (cat : Catalog) : List Record :=
  sortBy (fun r r' => (compare r.id r'.id).isLE) cat.records.values

/-- The links to a record, among those of every record that can refer to it. -/
def linksTo (cat : Catalog) (k : RelationshipMapping) (b : Record) : Attempt (List Link) := do
  let found ← (cat.ordered.filter (·.type = k.one.assetType)).mapM fun r => k.links r (some .one)
  .ok (found.flatten.filter fun l => l.two.type == b.type && l.two.id == b.id)

theorem mem_ordered : r ∈ cat.ordered ↔ r ∈ cat.records.values := mem_sortBy

theorem dot_not_mem_idProperty : '.' ∉ Record.idProperty.toList := by decide

/-- A path that ends with the id reaches the ids of the records that are referred to. -/
theorem valuesAlong_ids (hp : '.' ∉ property.toList) (hr : r.references property = .ok refs) :
    cat.valuesAlong r (property ++ "." ++ Record.idProperty) =
      .ok ((refs.filterMap fun x => cat.find? x.id).map fun t => .text t.id) := by
  rw [valuesAlong_step hp dot_not_mem_idProperty hr, List.map_eq_flatMap]
  rfl

/-- A record of the catalog is at the end of a path just if a reference on the way has its id. -/
theorem Keyed.any_found (hc : cat.Keyed) (hb : b ∈ cat.records.values) (refs : List Reference) :
    (refs.filterMap fun x => cat.find? x.id).any (·.id == b.id) = refs.any (·.id == b.id) := by
  rw [Bool.eq_iff_iff, List.any_eq_true, List.any_eq_true]
  simp only [List.mem_filterMap, beq_iff_eq]
  constructor
  · rintro ⟨t, ⟨x, hx, hfind⟩, hid⟩
    exact ⟨x, hx, (hc.find?_eq_some.1 hfind).2.symm.trans hid⟩
  · rintro ⟨x, hx, hid⟩
    exact ⟨b, ⟨x, hx, hc.find?_eq_some.2 ⟨hb, hid.symm⟩⟩, rfl⟩

section Reverse

variable (hp : '.' ∉ k.one.navigationName.toList)

include hp

theorem holds_reverseSearch (hc : cat.Keyed) (hb : b ∈ cat.records.values)
    (hr : r.references k.one.navigationName = .ok refs) :
    (Scope.reverseSearch k b.id).conditions.toNode.holds (cat.holds r) =
      .ok (refs.any (·.id == b.id)) := by
  refine (holds_lone r _ _ _).trans ?_
  rw [valuesAlong_ids hp hr, Attempt.ok_bind, holds_eq_text, List.any_map, ← hc.any_found hb]
  simp only [Function.comp_def, Value.text_same_text]

end Reverse

end Catalog

namespace RelationshipMapping

variable {k : RelationshipMapping} {r b : Record} {refs : List Reference}

/-- The links of a record at end one that has some references. -/
def linksOver (k : RelationshipMapping) (r : Record) (refs : List Reference) : List Link :=
  (refs.filter (·.type = k.two.assetType)).map fun x => { mapping := k, one := r.ref, two := x }

theorem links_eq_linksOver (hk : k.kind = .reference) (ht : r.type = k.one.assetType)
    (hr : r.references k.one.navigationName = .ok refs) :
    k.links r (some .one) = .ok (k.linksOver r refs) := by
  simp only [links, hk, linksFromOne]
  rw [if_neg (not_not.2 ht), hr]
  rfl

theorem exists_references_of_links (hk : k.kind = .reference) (ht : r.type = k.one.assetType)
    {ls : List Link} (h : k.links r (some .one) = .ok ls) :
    ∃ refs, r.references k.one.navigationName = .ok refs := by
  simp only [links, hk, linksFromOne] at h
  rw [if_neg (not_not.2 ht)] at h
  obtain ⟨refs, hrefs, _⟩ := Attempt.bind_eq_ok.1 h
  exact ⟨refs, hrefs⟩

/-- Only where one of the references has the id of a record does a link lead to it. -/
theorem filter_linksOver (ht : b.type = k.two.assetType) :
    if refs.any (·.id == b.id) = true then
      (k.linksOver r refs).filter (fun l => l.two.id == b.id) =
        (k.linksOver r refs).filter fun l => l.two.type == b.type && l.two.id == b.id
    else ((k.linksOver r refs).filter fun l => l.two.type == b.type && l.two.id == b.id) = [] := by
  have hmem : ∀ l ∈ k.linksOver r refs, l.two ∈ refs ∧ l.two.type = b.type := by
    intro l hl
    obtain ⟨x, hx, rfl⟩ := List.mem_map.1 hl
    obtain ⟨hx, htype⟩ := List.mem_filter.1 hx
    exact ⟨hx, (of_decide_eq_true htype).trans ht.symm⟩
  split
  · refine List.filter_congr fun l hl => ?_
    rw [(hmem l hl).2, beq_self_eq_true, Bool.true_and]
  · rename_i hnone
    refine List.filter_eq_nil_iff.2 fun l hl hto => hnone ?_
    exact List.any_eq_true.2 ⟨l.two, (hmem l hl).1, (Bool.and_eq_true_iff.1 hto).2⟩

end RelationshipMapping

theorem flatMap_filter_eq {α β : Type} {f g : α → List β} {told : α → Bool} {xs : List α}
    (h : ∀ x ∈ xs, if told x = true then f x = g x else g x = []) :
    (xs.filter told).flatMap f = xs.flatMap g := by
  induction xs with
  | nil => rfl
  | cons x xs ih =>
      have hx := h x List.mem_cons_self
      rw [List.filter_cons, List.flatMap_cons, ← ih fun y hy => h y (List.mem_cons_of_mem x hy)]
      split
      · rename_i ht
        rw [if_pos ht] at hx
        rw [List.flatMap_cons, hx]
      · rename_i ht
        rw [if_neg ht] at hx
        rw [hx, List.nil_append]

theorem Scope.collect_eq_flatMap {α : Type} {read : Record → Attempt (List α)}
    {f : Record → List α} {rs : List Record} (h : ∀ r ∈ rs, read r = .ok (f r)) :
    collect read none rs = .ok (rs.flatMap f) := by
  induction rs with
  | nil => rfl
  | cons r rs ih =>
      have hrest := ih fun r' hr' => h r' (List.mem_cons_of_mem r hr')
      exact collect_none_cons.2 ⟨_, _, h r List.mem_cons_self, hrest, List.flatMap_cons⟩

namespace Catalog

variable {cat : Catalog} {k : RelationshipMapping} {b : Record} {refs : Record → List Reference}

/-- The references by which records are at end one. -/
def RefersBy (cat : Catalog) (k : RelationshipMapping) (refs : Record → List Reference) : Prop :=
  ∀ r ∈ cat.records.values, r.type = k.one.assetType →
    r.references k.one.navigationName = .ok (refs r)

theorem exists_refersBy (h : ∀ r ∈ cat.records.values, r.type = k.one.assetType →
    ∃ refs, r.references k.one.navigationName = .ok refs) : ∃ refs, cat.RefersBy k refs := by
  refine ⟨fun r => ((r.references k.one.navigationName).toOption).getD [], fun r hr ht => ?_⟩
  obtain ⟨refs, hrefs⟩ := h r hr ht
  simp only [hrefs, Except.toOption, Option.getD_some]

theorem linksTo_eq (hk : k.kind = .reference) (h : cat.RefersBy k refs) :
    cat.linksTo k b = .ok (((cat.ordered.filter (·.type = k.one.assetType)).flatMap fun r =>
      k.linksOver r (refs r)).filter fun l => l.two.type == b.type && l.two.id == b.id) := by
  have hlinks : ((cat.ordered.filter (·.type = k.one.assetType)).mapM fun r =>
      k.links r (some .one)) = .ok ((cat.ordered.filter (·.type = k.one.assetType)).map fun r =>
        k.linksOver r (refs r)) := by
    rw [Attempt.mapM_eq_ok, List.forall₂_map_right_iff, List.forall₂_same]
    intro r hr
    obtain ⟨hr, ht⟩ := List.mem_filter.1 hr
    have ht := of_decide_eq_true ht
    exact RelationshipMapping.links_eq_linksOver hk ht (h r (mem_ordered.1 hr) ht)
  rw [linksTo, hlinks, Attempt.ok_bind, List.flatMap_def]

theorem exists_references_of_linksTo (hk : k.kind = .reference) {ls : List Link}
    (h : cat.linksTo k b = .ok ls) : ∀ r ∈ cat.records.values, r.type = k.one.assetType →
      ∃ refs, r.references k.one.navigationName = .ok refs := by
  intro r hr ht
  obtain ⟨found, hfound, _⟩ := Attempt.bind_eq_ok.1 h
  have hmem : r ∈ cat.ordered.filter (·.type = k.one.assetType) :=
    List.mem_filter.2 ⟨mem_ordered.2 hr, decide_eq_true ht⟩
  obtain ⟨us, _, hus⟩ := Attempt.exists_of_mapM hfound hmem
  exact RelationshipMapping.exists_references_of_links hk ht hus

section Reverse

variable (hp : '.' ∉ k.one.navigationName.toList) (hc : cat.Keyed) (hb : b ∈ cat.records.values)

include hp hc hb

theorem search_reverseSearch (h : cat.RefersBy k refs) :
    cat.search (Scope.reverseSearch k b.id) = .ok (((cat.ordered.filter fun r =>
      r.type = k.one.assetType).filter fun r => (refs r).any (·.id == b.id)).map fun r =>
        r.project [Record.nameProperty, k.one.navigationName]) := by
  have htypes (r : Record) :
      (Scope.reverseSearch k b.id).types.contains r.type = decide (r.type = k.one.assetType) := by
    simp [Scope.reverseSearch]
  have htold : ∀ r ∈ cat.records.values, (Scope.reverseSearch k b.id).types.contains r.type = true →
      (Scope.reverseSearch k b.id).conditions.toNode.holds (cat.holds r) =
        .ok ((refs r).any (·.id == b.id)) := fun r hr ht =>
    holds_reverseSearch hp hc hb (h r hr (of_decide_eq_true ((htypes r).symm.trans ht)))
  have hsearch := search_eq_ok rfl rfl rfl htold
  have hle : precedes .byId = fun r r' => (compare r.id r'.id).isLE := by
    funext r r'
    exact precedes_byId r r'
  simp only [htypes, hle] at hsearch
  rw [hsearch, ordered, List.filter_filter]
  congr 3
  funext r
  exact Bool.and_comm _ _

omit hc hb in
theorem exists_references_of_search {id : String} {hits : List Record}
    (h : cat.search (Scope.reverseSearch k id) = .ok hits) :
    ∀ r ∈ cat.records.values, r.type = k.one.assetType →
      ∃ refs, r.references k.one.navigationName = .ok refs := by
  intro r hr ht
  obtain ⟨told, htold⟩ := exists_told_of_search h
  have hholds := htold r hr (by simp [Scope.reverseSearch, ht])
  rw [Scope.reverseSearch, holds_lone, valuesAlong, fieldsOf_step hp dot_not_mem_idProperty] at hholds
  simp only [List.dropLast_cons_cons, List.dropLast_singleton, followAll, follow] at hholds
  cases hrefs : r.references k.one.navigationName with
  | ok refs => exact ⟨refs, rfl⟩
  | error e =>
      rw [hrefs] at hholds
      cases hholds

end Reverse

end Catalog

namespace Scope

variable {c : Scope} {cat : Catalog} {k : RelationshipMapping} {b : Record}

theorem yields_reverseLinks (recordId : String) :
    Yields (c.reverseLinks k recordId) (c.reverseLinked k recordId) := by
  refine (c.backend.yields_runSearch _).bind fun hits _ => ?_
  exact (yields_ofAttempt _).bind fun ls _ => yields_pure _

theorem linksAt_two (hk : k.kind = .reference) (hn : isGiven k.two.navigation = false) :
    c.linksAt k b .two = c.reverseLinks k b.id := by
  rw [linksAt, hk]
  exact if_neg (by simp [RelationshipMapping.atEnd, hn])

theorem reverseLinked_of_refersBy {refs : Record → List Reference} (hk : k.kind = .reference)
    (hp : '.' ∉ k.one.navigationName.toList) (hc : cat.Keyed) (hb : b ∈ cat.records.values)
    (ht : b.type = k.two.assetType) (h : cat.RefersBy k refs)
    (hs : ∀ n hits, c.backend.answer n = .ok hits ↔ cat.search n = .ok hits) :
    c.reverseLinked k b.id = cat.linksTo k b := by
  have hhits := (hs _ _).2 (Catalog.search_reverseSearch hp hc hb h)
  have hread : ∀ r ∈ (cat.ordered.filter fun r => r.type = k.one.assetType).filter fun r =>
      (refs r).any (·.id == b.id), k.links (r.project [Record.nameProperty, k.one.navigationName])
        (some .one) = .ok (k.linksOver r (refs r)) := by
    intro r hr
    obtain ⟨hr, htype⟩ := List.mem_filter.1 (List.mem_filter.1 hr).1
    have htype := of_decide_eq_true htype
    rw [← RelationshipMapping.links_eq_linksOver hk htype (h r (Catalog.mem_ordered.1 hr) htype)]
    simp only [RelationshipMapping.links, hk]
    exact RelationshipMapping.linksFromOne_project (by simp)
  rw [reverseLinked, hhits, Attempt.ok_bind, collect_map, collect_eq_flatMap hread, Attempt.ok_bind,
    Catalog.linksTo_eq hk h, List.filter_flatMap, List.filter_flatMap,
    flatMap_filter_eq fun r _ => RelationshipMapping.filter_linksOver ht]

/-- Searching for the references to a record gives the links that deriving those of all records
gives. -/
theorem linksAt_two_iff_linksTo (hk : k.kind = .reference) (hn : isGiven k.two.navigation = false)
    (hp : '.' ∉ k.one.navigationName.toList) (hc : cat.Keyed) (hb : b ∈ cat.records.values)
    (ht : b.type = k.two.assetType)
    (hs : ∀ n hits, c.backend.answer n = .ok hits ↔ cat.search n = .ok hits) (st : SessionState) :
    (∀ ls, (runFrom st (c.linksAt k b .two)).1 = .ok ls ↔ cat.linksTo k b = .ok ls) ∧
      ((∃ ls, cat.linksTo k b = .ok ls) ↔ ∀ r ∈ cat.records.values, r.type = k.one.assetType →
        ∃ refs, r.references k.one.navigationName = .ok refs) := by
  rw [linksAt_two hk hn, yields_reverseLinks b.id st]
  by_cases h : ∀ r ∈ cat.records.values, r.type = k.one.assetType →
      ∃ refs, r.references k.one.navigationName = .ok refs
  · obtain ⟨refs, hrefs⟩ := Catalog.exists_refersBy h
    rw [reverseLinked_of_refersBy hk hp hc hb ht hrefs hs]
    exact ⟨fun _ => Iff.rfl, iff_of_true ⟨_, Catalog.linksTo_eq hk hrefs⟩ h⟩
  · have hto : ∀ ls, cat.linksTo k b ≠ .ok ls := fun ls hls =>
      h (Catalog.exists_references_of_linksTo hk hls)
    have hsearch : ∀ ls, c.reverseLinked k b.id ≠ .ok ls := by
      intro ls hls
      obtain ⟨hits, hhits, _⟩ := Attempt.bind_eq_ok.1 hls
      exact h (Catalog.exists_references_of_search hp ((hs _ _).1 hhits))
    exact ⟨fun ls => iff_of_false (hsearch ls) (hto ls), iff_of_false (not_exists.2 hto) h⟩

end Scope

theorem Collection.answer_scope {c : Collection} {s : Service}
    (h : (c.scope s).backend.outage .search = none) (n : NativeSearch) (hits : List Record) :
    (c.scope s).backend.answer n = .ok hits ↔ s.catalog.search n = .ok hits :=
  Service.answer_bounded.trans (and_iff_right h)

namespace Sample

def categorization : RelationshipMapping where
  type := "TermCategorization"
  kind := .reference
  one := { assetType := "category", navigation := some "terms" }
  two := { assetType := "term" }

def marginTerm : Record := { ref := ⟨"term-1", "term", some "Margin"⟩ }

/-- Of three categories one refers to a term and to what does not exist, one to the term alone, and
one to the id of the term as that of a category. -/
def categoryService : Service :=
  { catalog := (((({} : Catalog).put marginTerm).put
      { ref := ⟨"category-2", "category", some "Sales"⟩
        properties := [("terms", .list [.reference ⟨"term-9", "term", none⟩,
          .reference marginTerm.ref])] }).put
      { ref := ⟨"category-1", "category", some "Finance"⟩
        properties := [("terms", .reference marginTerm.ref)] }).put
      { ref := ⟨"category-3", "category", some "Stray"⟩
        properties := [("terms", .reference ⟨"term-1", "category", none⟩)] } }

theorem keyed_categoryService : categoryService.catalog.Keyed :=
  Catalog.keyed_put (Catalog.keyed_put (Catalog.keyed_put (Catalog.keyed_put Catalog.keyed_empty _)
    _) _) _

theorem categories_of_marginTerm : ∃ ls,
    (runFrom {} ((collection.scope categoryService).linksAt categorization marginTerm .two)).1 =
      .ok ls ∧ ls.map (fun l => (l.one.id, l.two.id)) =
        [("category-1", "term-1"), ("category-2", "term-1")] := by
  have hsame := Scope.linksAt_two_iff_linksTo (c := collection.scope categoryService)
    (k := categorization) (b := marginTerm) rfl rfl (by decide)
    keyed_categoryService (List.mem_of_getElem? (i := 0) rfl) rfl
    (Collection.answer_scope rfl) {}
  have hto : (categoryService.catalog.linksTo categorization marginTerm).toOption.map
      (List.map fun l => (l.one.id, l.two.id)) =
        some [("category-1", "term-1"), ("category-2", "term-1")] := by decide +kernel
  obtain ⟨ls, hls, hids⟩ := Attempt.exists_of_toOption hto
  exact ⟨ls, (hsame.1 ls).2 hls, hids⟩

end Sample

end MetaFed
