import MetaFed.Proofs.Folding
import MetaFed.Proofs.Hits
import MetaFed.Proofs.Resolve

/-!
Relationships from both sides: searching for the relationships of a type finds those that the
entities of the catalog report, and an entity reports just those that it is an end of.
-/

namespace MetaFed

section References

variable {r : Record} {property : String} {vs : List Value} {refs : List Reference}

theorem Reference.collect_of_null (h : ∀ v ∈ vs, v.isNull = true) :
    Reference.allOf.collect vs = .ok [] := by
  induction vs with
  | nil => rfl
  | cons v vs ih =>
      have hv := h v List.mem_cons_self
      have hrest := ih fun w hw => h w (List.mem_cons_of_mem v hw)
      cases v with
      | null =>
          rw [Reference.allOf.collect]
          · exact hrest
          · exact fun _ e => nomatch e
          · exact fun _ e => nomatch e
      | bool _ | int _ | real _ | text _ | list _ | dict _ | moment _ | reference _ => cases hv

theorem Record.value_of_property (h : property ∉ systemProperties) :
    r.value property = (Assoc.find? property r.properties).getD .null := by
  simp only [systemProperties, List.mem_cons, not_or] at h
  rw [value, if_neg h.1, if_neg h.2.1, if_neg h.2.2.1, if_neg h.2.2.2.1, if_neg h.2.2.2.2.1]

theorem Record.exists_value (h : property ∉ systemProperties) (hr : r.references property = .ok refs)
    (hne : refs ≠ []) : (Catalog.valuesOf property r).any (fun v => !v.isNull) = true := by
  by_contra hnull
  rw [Bool.not_eq_true, List.any_eq_false] at hnull
  simp only [Bool.not_eq_true', Bool.not_eq_false] at hnull
  refine hne ?_
  rw [references, ← value_of_property h] at hr
  rw [Catalog.valuesOf] at hnull
  have hcollect : Reference.allOf (r.value property) = .ok [] := by
    cases hv : r.value property with
    | null => rfl
    | list vs =>
        rw [hv] at hnull
        exact Reference.collect_of_null hnull
    | bool _ | int _ | real _ | text _ | dict _ | moment _ | reference _ =>
        rw [hv] at hnull
        exact absurd (hnull _ List.mem_cons_self) (by simp [Value.isNull])
  exact Except.ok.inj (hr.symm.trans hcollect)

end References

namespace Catalog

variable {cat : Catalog} {t : MappingTable} {k : RelationshipMapping} {r : Record} {l : Link}

theorem HeldFrom.type_eq (hl : t.Linked) (hk : k ∈ t.relationships) (h : cat.HeldFrom k r l) :
    r.type = k.searchAssetType := by
  obtain ⟨a, b, level, hholds, hfrom, _⟩ := h
  rw [RelationshipMapping.searchAssetType]
  rcases hholds.level_cases with ⟨hplain, rfl⟩ | ⟨hkind, r', _, rfl, ht, _⟩
  · obtain rfl : a = r := hfrom
    rw [hl.plain k hk hplain, hholds.one.2]
    rfl
  · obtain rfl : r' = r := hfrom
    have hgiven := (RelationshipMapping.given_of_level (hl.valid k hk) hkind).1
    rw [← ht, isGiven, Option.any_some, decide_eq_true_eq] at hgiven
    rw [← ht, Option.filter_some, if_pos (decide_eq_true hgiven)]
    rfl

/-- A search for the relationships of a mapping takes a record. -/
def taken (k : RelationshipMapping) (r : Record) : Bool :=
  match k.kind with
  | .reference => (valuesOf k.one.navigationName r).any fun v => !v.isNull
  | _ => true

/-- A record that yields a link is not left out by a search. -/
theorem HeldFrom.taken (hl : t.Linked) (hk : k ∈ t.relationships) (h : cat.HeldFrom k r l) :
    taken k r = true := by
  obtain ⟨a, b, level, hholds, hfrom, _⟩ := h
  rw [Catalog.taken]
  cases hkind : k.kind with
  | self => rfl
  | level => rfl
  | reference =>
      obtain ⟨rfl, refs, hrefs, x, hx, _⟩ := (stores_reference hkind).1 hholds.stored
      obtain rfl : a = r := hfrom
      exact Record.exists_value (hl.direct k hk hkind).1 hrefs (List.ne_nil_of_mem hx)

/-- The search for the relationships of a mapping. -/
def searchFor (k : RelationshipMapping) : NativeSearch :=
  { types := [k.searchAssetType], conditions := { members := Planner.yieldConditions k },
    properties := firsts (Record.nameProperty :: Planner.yieldProperties k), sorts := [.byId],
    relationshipMapping := some k }

section Searched

variable (hpath : k.kind = .reference → '.' ∉ k.one.navigationName.toList)

include hpath

theorem holds_yieldConditions (r : Record) :
    Node.holds (cat.holds r) (searchFor k).conditions.toNode = .ok (taken k r) := by
  rw [searchFor, ConditionSet.toNode, taken, Planner.yieldConditions]
  cases hkind : k.kind with
  | self => rfl
  | level => rfl
  | reference =>
      rw [← holds_isNotNull (c := cat) (hpath hkind)]
      exact (Node.holds_all _).trans (Folded.holds_single_all _).symm

theorem exists_searchFor :
    ∃ hits, cat.search (searchFor k) = .ok hits ∧ ∀ r, r ∈ hits ↔ ∃ r' ∈ cat.records.values,
      r'.type = k.searchAssetType ∧ taken k r' = true ∧
        r = r'.project (searchFor k).properties := by
  refine ⟨_, search_eq_ok rfl rfl rfl fun r _ _ => holds_yieldConditions hpath r, fun r => ?_⟩
  simp only [List.mem_map, List.mem_filter, mem_sortBy, Bool.and_eq_true, List.contains_iff_mem,
    searchFor, List.mem_singleton]
  constructor
  · rintro ⟨r', ⟨hr', htype, htaken⟩, rfl⟩
    exact ⟨r', hr', htype, htaken, rfl⟩
  · rintro ⟨r', hr', htype, htaken, rfl⟩
    exact ⟨r', ⟨hr', htype, htaken⟩, rfl⟩

end Searched

theorem links_hit (hv : k.fault? = none) (r : Record) :
    k.links (r.project (searchFor k).properties) k.origin = k.links r k.origin := by
  have hread {p : String} (hp : p ∈ Planner.yieldProperties k) : p ∈ (searchFor k).properties := by
    rw [searchFor, mem_firsts]
    exact List.mem_cons_of_mem _ hp
  rw [Planner.yieldProperties] at hread
  cases hkind : k.kind with
  | self =>
      simp only [RelationshipMapping.links, hkind, RelationshipMapping.selfLinks,
        Record.project_type, Record.project_ref]
  | level =>
      simp only [hkind] at hread
      exact RelationshipMapping.links_project_level hv hkind (fun _ => hread) _
  | reference =>
      simp only [hkind] at hread
      simp only [RelationshipMapping.links, RelationshipMapping.origin, hkind]
      exact RelationshipMapping.linksFromOne_project (hread List.mem_cons_self)

end Catalog

namespace Link

variable {l l' : Link} {home guid guid' : String} {t : MappingTable} {x : Relationship}

def Identifies (l : Link) (home guid : String) : Prop :=
  ∃ i, l.identity home = .ok i ∧ i.guid = .ok guid

theorem identifies_of_relationship (h : l.relationship? home t = .ok (some x)) :
    l.Identifies home x.guid := by
  obtain ⟨_, _, i, _, _, hi, hguid, _⟩ := relationship?_eq_some h
  exact ⟨i, hi, hguid⟩

theorem Identifies.congr (hb : l.bare = l'.bare) (h : l.Identifies home guid) :
    l'.Identifies home guid := by
  obtain ⟨i, hi, hguid⟩ := h
  exact ⟨i, (identity_congr hb home).symm.trans hi, hguid⟩

theorem Identifies.unique (h : l.Identifies home guid) (h' : l.Identifies home guid') :
    guid = guid' := by
  obtain ⟨i, hi, hguid⟩ := h
  obtain ⟨i', hi', hguid'⟩ := h'
  cases hi.symm.trans hi'
  exact Except.ok.inj (hguid.symm.trans hguid')

theorem bare_bare (l : Link) : l.bare.bare = l.bare := by
  cases l with
  | mk mapping one two level properties => cases level <;> rfl

end Link

theorem exists_relationships {cat : Catalog} {t : MappingTable} {home : String} {ls : List Link}
    (ht : t.Accepted) (hl : t.Linked) (hc : cat.Consistent t) (hh : home ≠ "")
    (h : ∀ l ∈ ls, cat.Held t l) : ∃ xs, Link.relationships home t ls = .ok xs := by
  obtain ⟨os, hos⟩ := Attempt.exists_mapM fun l hmem =>
    ((h l hmem).exists_relationship ht hl hc hh).imp' some fun _ => id
  exact ⟨os.filterMap id, by rw [Link.relationships, hos, Attempt.ok_bind]⟩

def Relationship.atEnd (x : Relationship) : End → EntityProxy
  | .one => x.one
  | .two => x.two

namespace Catalog.Holds

variable {cat : Catalog} {t : MappingTable} {k : RelationshipMapping} {a b : Record}
  {level : Option Record} {l : Link} {home : String} {x : Relationship}

theorem guid_atEnd (ht : t.Accepted) (hl : t.Linked) (hc : cat.Consistent t)
    (hk : k ∈ t.relationships) (h : cat.Holds k a b level) (hb : l.bare = k.between a b level)
    (hx : l.relationship? home t = .ok (some x)) (e : End) :
    EntityId.guid ⟨home, (atEnd e a b).type, (atEnd e a b).id, (k.atEnd e).mark⟩ =
      .ok (x.atEnd e).guid := by
  obtain ⟨p, q, hp, hq, ⟨hpt, hpid, hpm⟩, hqt, hqid, hqm⟩ := h.exists_refs ht hl hc hk hb
  obtain ⟨p', q', _, hp', hq', _, _, _, hone, htwo⟩ := Link.relationship?_eq_some hx
  cases hp.symm.trans hp'
  cases hq.symm.trans hq'
  cases e with
  | one =>
      rw [RecordRef.entity, hpt, hpid, hpm] at hone
      exact hone
  | two =>
      rw [RecordRef.entity, hqt, hqid, hqm] at htwo
      exact htwo

theorem mem_atEnd (h : cat.Holds k a b level) (e : End) :
    atEnd e a b ∈ cat.records.values ∧ (atEnd e a b).type = (k.atEnd e).assetType := by
  cases e with
  | one => exact h.one
  | two => exact h.two

end Catalog.Holds

/-- No conditions on properties. -/
def RelationshipSearch.Unconditional (q : RelationshipSearch) : Prop :=
  ∀ g, q.properties = some g → g.members = []

namespace Planner

open Catalog

/-- A search for relationships without conditions searches under each mapping of the type. -/
theorem planRelationships_eq_ok {p : Planner} {q : RelationshipSearch} (hq : q.Unconditional)
    {plan : SearchPlan} : p.planRelationships q none = .ok plan ↔
      checkPresent q.historical = .ok () ∧ ∃ ks, p.table.relationshipsFor q.type = .ok ks ∧
        plan = ⟨ks.map searchFor, q.window.pageSize, q.window.start⟩ := by
  have hcheck : checkRequest q.historical q.properties = checkPresent q.historical := by
    cases hp : q.properties with
    | none => cases q.historical <;> rfl
    | some g =>
        have hleaves : checkPatterns g.leaves = .ok () := by
          rw [PropertyGroup.leaves, hq g hp]
          rfl
        cases q.historical with
        | true => rfl
        | false => exact hleaves
  have hfold (k : RelationshipMapping) :
      PropertyGroup.foldOption (Resolver.through k.backendFor) q.properties =
        .ok ⟨.const true, false⟩ := by
    cases hp : q.properties with
    | none => rfl
    | some g =>
        rw [PropertyGroup.foldOption, PropertyGroup.fold, PropertyGroup.toCriterion, hq g hp]
        rfl
  have hsearches (ks : List RelationshipMapping) :
      ks.mapM (foldFor q.properties) = .ok (ks.map fun k => some (searchFor k)) := by
    rw [Attempt.mapM_eq_ok, List.forall₂_map_right_iff]
    refine List.forall₂_same.2 fun k _ => ?_
    simp [foldFor, hfold, relationshipSearch, Folded.isNever, Folded.conjuncts, searchFor]
  simp only [planRelationships, hcheck, Attempt.bind_eq_ok, Attempt.within_eq_ok, hsearches,
    Except.ok.injEq, exists_eq_left', List.filterMap_map, eq_comm (b := plan)]
  simp only [Function.id_comp, List.filterMap_eq_map']
  constructor
  · rintro ⟨_, h⟩
    exact h
  · exact fun h => ⟨(), h⟩

end Planner

namespace Collection

open Session

variable {c : Collection} {s : Service} {T : String} {ks : List RelationshipMapping}

section Consistent

variable (ht : c.table.Accepted) (hl : c.table.Linked) (hc : s.catalog.Consistent c.table)
  (hout : ∀ e, (c.scope s).backend.outage e = none) (hh : c.home ≠ "")

include ht hl hc hout hh

omit hout in
theorem exists_readRelationships {k : RelationshipMapping} (hk : k ∈ c.table.relationships)
    {r : Record} (hr : r ∈ s.catalog.records.values) : ∃ xs,
      (c.scope s).readRelationships k (r.project (Catalog.searchFor k).properties) = .ok xs ∧
        ∀ x, x ∈ xs ↔ ∃ ls, k.links r k.origin = .ok ls ∧
          ∃ l ∈ ls, l.relationship? c.home c.table = .ok (some x) := by
  obtain ⟨ls, hls, hheld⟩ := hc.exists_links hl hk hr
  obtain ⟨xs, hxs⟩ := exists_relationships ht hl hc hh fun l hmem => by
    obtain ⟨a, b, level, hholds, _, hbare⟩ := (hheld l.bare).1 (List.mem_map_of_mem hmem)
    exact ⟨k, hk, a, b, level, hholds, hbare⟩
  refine ⟨xs, ?_, fun x => ?_⟩
  · change (k.links (r.project _) k.origin >>= Link.relationships c.home c.table) = _
    rw [Catalog.links_hit (hl.valid k hk) r, hls]
    exact hxs
  · rw [Scope.mem_relationships hxs, hls]
    simp

/-- What a search for the relationships of a type finds are those of the links of the records that
some of its mappings search. -/
theorem exists_read (hT : c.table.relationshipsFor (some T) = .ok ks)
    (hks : ∀ k ∈ ks, k ∈ c.table.relationships) : ∃ found,
      (runFrom {} (c.findRelationships s { type := some T })).1 = .ok found ∧
        ∀ x, x ∈ found ↔ ∃ k ∈ ks, ∃ r ∈ s.catalog.records.values,
          r.type = k.searchAssetType ∧ Catalog.taken k r = true ∧ ∃ ls, k.links r k.origin = .ok ls ∧
            ∃ l ∈ ls, l.relationship? c.home c.table = .ok (some x) := by
  have hhits (k : RelationshipMapping) (hk : k ∈ ks) : ∃ hits,
      (c.scope s).backend.answer (Catalog.searchFor k) = .ok hits ∧ ∀ r, r ∈ hits ↔
        ∃ r' ∈ s.catalog.records.values, r'.type = k.searchAssetType ∧
          Catalog.taken k r' = true ∧ r = r'.project (Catalog.searchFor k).properties := by
    obtain ⟨hits, hsearch, hmem⟩ :=
      s.catalog.exists_searchFor fun hkind => (hl.direct k (hks k hk) hkind).2
    exact ⟨hits, Service.answer_bounded.2 ⟨hout .search, hsearch⟩, hmem⟩
  -- Every hit can be read, so the search ends well; only then is it told what it finds.
  obtain ⟨found, hfound⟩ : ∃ found, (c.scope s).gather
      (fun n => n.relationshipMapping.map (c.scope s).readRelationships) none
      (ks.map Catalog.searchFor) = .ok found := by
    refine Scope.exists_gather fun n hn => ?_
    obtain ⟨k, hk, rfl⟩ := List.mem_map.1 hn
    obtain ⟨hits, hanswer, hmem⟩ := hhits k hk
    refine ⟨_, rfl, hits, hanswer, fun r hr => ?_⟩
    obtain ⟨r', hr', _, _, rfl⟩ := (hmem r).1 hr
    exact (exists_readRelationships ht hl hc hh (hks k hk) hr').imp fun _ => And.left
  refine ⟨found, ?_, fun x => ?_⟩
  · have hplan : c.planner.planRelationships { type := some T } none =
        .ok ⟨ks.map Catalog.searchFor, 0, 0⟩ :=
      (Planner.planRelationships_eq_ok (by rintro _ ⟨⟩)).2 ⟨rfl, ks, hT, rfl⟩
    rw [findRelationships, hplan, runFrom_bind_ok (runFrom_ofAttempt {} _)]
    refine (Scope.yields_run_of_gather hfound {}).trans ?_
    rfl
  · simp only [Scope.mem_gather hfound, List.mem_map, exists_exists_and_eq_and]
    refine exists_congr fun k => and_congr_right fun hk => ?_
    obtain ⟨hits, hanswer, hmem⟩ := hhits k hk
    constructor
    · rintro ⟨_, hf, hits', hanswer', r, hr, xs, hxs, hx⟩
      cases hf
      cases hanswer.symm.trans hanswer'
      obtain ⟨r', hr', htype, htaken, rfl⟩ := (hmem r).1 hr
      obtain ⟨ys, hys, hread⟩ := exists_readRelationships ht hl hc hh (hks k hk) hr'
      cases hxs.symm.trans hys
      exact ⟨r', hr', htype, htaken, (hread x).1 hx⟩
    · rintro ⟨r, hr, htype, htaken, hx⟩
      obtain ⟨xs, hxs, hread⟩ := exists_readRelationships ht hl hc hh (hks k hk) hr
      exact ⟨_, rfl, hits, hanswer, _, (hmem _).2 ⟨r, hr, htype, htaken, rfl⟩, xs, hxs,
        (hread x).2 hx⟩

/-- A search for the relationships of a type finds one for each link that the catalog holds, and no
others. -/
theorem exists_found (hT : c.table.relationshipsFor (some T) = .ok ks)
    (hks : ∀ k ∈ ks, k ∈ c.table.relationships) : ∃ found,
      (runFrom {} (c.findRelationships s { type := some T })).1 = .ok found ∧
        (∀ x ∈ found, ∃ k ∈ ks, ∃ a b level, s.catalog.Holds k a b level ∧ ∃ l : Link,
          l.bare = k.between a b level ∧ l.relationship? c.home c.table = .ok (some x)) ∧
        ∀ k ∈ ks, ∀ a b level, s.catalog.Holds k a b level → ∃ x ∈ found,
          (k.between a b level).Identifies c.home x.guid := by
  obtain ⟨found, hrun, hfind⟩ := exists_read ht hl hc hout hh hT hks
  refine ⟨found, hrun, fun x hx => ?_, fun k hk a b level hholds => ?_⟩
  · obtain ⟨k, hk, r, hr, _, _, ls, hls, l, hmem, hrel⟩ := (hfind x).1 hx
    obtain ⟨us, hus, hheld⟩ := hc.exists_links hl (hks k hk) hr
    cases hls.symm.trans hus
    obtain ⟨a, b, level, hholds, _, hbare⟩ := (hheld l.bare).1 (List.mem_map_of_mem hmem)
    exact ⟨k, hk, a, b, level, hholds, l, hbare, hrel⟩
  · -- The record that is searched: the one that stands for the link, or else the one at end one.
    have hfrom : s.catalog.HeldFrom k (level.getD a) (k.between a b level) :=
      ⟨a, b, level, hholds, rfl, rfl⟩
    have hr : level.getD a ∈ s.catalog.records.values := by
      rcases hholds.level_cases with ⟨_, rfl⟩ | ⟨_, r, hr, rfl, _⟩
      · exact hholds.one.1
      · exact hr
    obtain ⟨ls, hls, hheld⟩ := hc.exists_links hl (hks k hk) hr
    obtain ⟨l, hmem, hbare⟩ := List.mem_map.1 ((hheld _).2 hfrom)
    obtain ⟨x, hx⟩ := hholds.exists_relationship ht hl hc (hks k hk) hh hbare
    refine ⟨x, (hfind x).2 ⟨k, hk, _, hr, hfrom.type_eq hl (hks k hk), hfrom.taken hl (hks k hk), ls,
      hls, l, hmem, hx⟩, ?_⟩
    rw [← hbare]
    exact (Link.identifies_of_relationship hx).congr (Link.bare_bare l).symm

/-- An entity reports a relationship for each link that the catalog holds for its record in a part
that the entity plays, and no others. -/
theorem exists_reported (hT : c.table.relationshipsFor (some T) = .ok ks) {guid : String} {o : Origin}
    (hn : c.Names s guid o) : ∃ rs,
      (runFrom {} (c.relationshipPage s guid (some T) {} false)).1 = .ok rs ∧
        ∀ x, x ∈ rs.map Relationship.guid ↔
          ∃ p ∈ (c.scope s).partsOf o.mapping o.record (some T), ∃ l,
            s.catalog.HeldAt p.1 p.2 o.record l ∧ l.Identifies c.home x := by
  have hback := hn.owned.backed
  have hr := hn.mem_values hc.keyed
  obtain ⟨ls, hls, hheld⟩ := Scope.exists_linked (c := c.scope s) hl hc hback hr (some T)
  obtain ⟨xs, hxs⟩ := exists_relationships ht hl hc hh fun l hmem =>
    Scope.held_of_linked (c := c.scope s) hl hc hback hr hls hmem
  -- The record is there in part only, which its links do not show.
  have hrel (ps : List String) (hps : o.mapping.projected ⊆ ps) : (c.scope s).related s.catalog
      o.mapping (o.record.project ps) (some T) = .ok (Scope.distinct xs) := by
    refine Scope.related_eq_ok.2 ⟨ls, xs, ?_, hxs, rfl⟩
    rw [Scope.linked_project (c := c.scope s) ht hl hback hn.owned.type hps]
    exact hls
  refine ⟨_, runFrom_relationshipPage (reads_scope (hout .record)) hl.valid (fun _ => ⟨ks, hT⟩) hn
    hrel {}, fun x => ?_⟩
  have hall : page (Window.start {}) (Window.pageSize {}) (sequenced {} (Scope.distinct xs)) =
      Scope.distinct xs := rfl
  rw [hall, List.mem_map]
  constructor
  · rintro ⟨y, hy, rfl⟩
    obtain ⟨l, hmem, hx⟩ := (Scope.mem_relationships hxs).1 (Scope.mem_of_mem_distinct hy)
    obtain ⟨p, hp, hat⟩ := (hheld l.bare).1 (List.mem_map_of_mem hmem)
    exact ⟨p, hp, l.bare, hat,
      (Link.identifies_of_relationship hx).congr (Link.bare_bare l).symm⟩
  · rintro ⟨p, hp, l, hat, hid⟩
    obtain ⟨l', hmem, rfl⟩ := List.mem_map.1 ((hheld l).2 ⟨p, hp, hat⟩)
    obtain ⟨y, hy⟩ := Catalog.Held.exists_relationship ht hl hc hh
      (Scope.held_of_linked (c := c.scope s) hl hc hback hr hls hmem)
    obtain ⟨z, hz, hguid⟩ :=
      Scope.exists_mem_distinct ((Scope.mem_relationships hxs).2 ⟨l', hmem, hy⟩)
    refine ⟨z, hz, hguid.trans ?_⟩
    exact (Link.identifies_of_relationship hy).unique (hid.congr (Link.bare_bare l'))

end Consistent

/-- An identifier is that of an entity of the catalog. -/
def HasEntity (c : Collection) (s : Service) (guid : String) : Prop :=
  ∃ o : Origin, o.Owned c.table ∧ o.record ∈ s.catalog.records.values ∧
    (o.mapping.identity c.home o.record.ref).guid = .ok guid

/-- An entity reports a relationship of a type. -/
def Reports (c : Collection) (s : Service) (T guid x : String) : Prop :=
  ∃ rs, (c.run "get_relationships_for_entity" (c.relationshipPage s guid (some T) {} false)).1 =
    .ok (.value rs) ∧ x ∈ rs.map Relationship.guid

theorem exists_relationshipsFor {t : MappingTable} (ht : t.Accepted) (hl : t.Linked) {T : String}
    (hT : ∃ k ∈ t.relationships, k.type = T) : ∃ ks, t.relationshipsFor (some T) = .ok ks ∧
      ∀ k, k ∈ ks ↔ k ∈ t.relationships ∧ t.hierarchy.isTypeOf k.type T = true := by
  obtain ⟨k, hk, rfl⟩ := hT
  refine ⟨t.relationships.filter fun r => t.hierarchy.isTypeOf r.type k.type, ?_, fun k' => ?_⟩
  · have hmem : k ∈ t.relationships.filter fun r => t.hierarchy.isTypeOf r.type k.type :=
      List.mem_filter.2 ⟨hk, ht.isTypeOf_self hk⟩
    simp only [MappingTable.relationshipsFor, hl.known k hk, Attempt.ok_bind]
    rw [if_neg]
    rw [List.isEmpty_iff]
    exact List.ne_nil_of_mem hmem
  · exact List.mem_filter

section Agree

variable (ht : c.table.Accepted) (hl : c.table.Linked) (hc : s.catalog.Consistent c.table)
  (hd : ∀ m ∈ c.table.mappings, m.assetType ≠ c.settings.defaultAssetType)
  (hout : ∀ e, (c.scope s).backend.outage e = none) (hh : c.home ≠ "")
  (hT : c.table.relationshipsFor (some T) = .ok ks)

include ht hl hc hd hout hh hT

theorem reports_iff {o : Origin} (ho : o.Owned c.table) (hr : o.record ∈ s.catalog.records.values)
    {guid : String} (hg : (o.mapping.identity c.home o.record.ref).guid = .ok guid) (x : String) :
    c.Reports s T guid x ↔ ∃ p ∈ (c.scope s).partsOf o.mapping o.record (some T), ∃ l,
      s.catalog.HeldAt p.1 p.2 o.record l ∧ l.Identifies c.home x := by
  obtain ⟨rs, hrs, hmem⟩ := exists_reported ht hl hc hout hh hT
    (names_of_identity ht hd hc.keyed ho hr hg)
  rw [← hmem x]
  constructor
  · rintro ⟨rs', hrs', hx⟩
    cases hrs.symm.trans (run_eq_value.1 hrs')
    exact hx
  · exact fun hx => ⟨rs, run_eq_value.2 hrs, hx⟩

theorem reports_atEnd {k : RelationshipMapping} {a b : Record} {level : Option Record} {l : Link}
    {x : Relationship} (hk : k ∈ c.table.relationships)
    (hkT : c.table.hierarchy.isTypeOf k.type T = true) (h : s.catalog.Holds k a b level)
    (hb : l.bare = k.between a b level) (hx : l.relationship? c.home c.table = .ok (some x))
    (e : End) :
    c.HasEntity s (x.atEnd e).guid ∧ c.Reports s T (x.atEnd e).guid x.guid := by
  obtain ⟨m, hm, hasset, hmark, hlists⟩ := Scope.exists_lister (c := c.scope s) ht hl hk e
  obtain ⟨hr, hrt⟩ := h.mem_atEnd e
  have howned : Origin.Owned c.table ⟨m, Catalog.atEnd e a b⟩ := ⟨hm, hrt.trans hasset.symm⟩
  have hg : (m.identity c.home (Catalog.atEnd e a b).ref).guid = .ok (x.atEnd e).guid := by
    rw [Origin.identity_eq (ht.mark_ne (MappingTable.mem_backed.1 hm).1), hmark]
    exact h.guid_atEnd ht hl hc hk hb hx e
  refine ⟨⟨_, howned, hr, hg⟩, (reports_iff ht hl hc hd hout hh hT howned hr hg _).2
    ⟨(k, e), hlists _ _ hrt hkT, k.between a b level, ⟨a, b, level, h, rfl, rfl⟩, ?_⟩⟩
  rw [← hb]
  exact (Link.identifies_of_relationship hx).congr (Link.bare_bare l).symm

/-- Only the entities at the ends of a relationship report it. -/
theorem eq_end_of_reports {l : Link} {x : Relationship} {guid : String}
    (hheld : s.catalog.Held c.table l) (hx : l.relationship? c.home c.table = .ok (some x))
    (hguid : c.HasEntity s guid) (h : c.Reports s T guid x.guid) :
    guid = x.one.guid ∨ guid = x.two.guid := by
  obtain ⟨o, ho, hor, hg⟩ := hguid
  obtain ⟨p, hp, l', ⟨a, b, level, hholds, hend, rfl⟩, hid⟩ :=
    (reports_iff ht hl hc hd hout hh hT ho hor hg x.guid).1 h
  obtain ⟨hpm, hplay⟩ := Scope.mem_partsOf hp
  have hk := MappingTable.mem_relationships ho.backed hpm
  have hb : (p.1.between a b level).bare = p.1.between a b level := by cases level <;> rfl
  obtain ⟨y, hy⟩ := hholds.exists_relationship ht hl hc hk hh hb
  -- The link that it is reported for may be another one of the identifier, with the same ends.
  obtain ⟨_, hpair⟩ := Catalog.Held.ends_eq_of_guid_eq hl hc ⟨p.1, hk, a, b, level, hholds, hb⟩
    hheld hy hx ((Link.identifies_of_relationship hy).unique hid)
  have hself : guid = (y.atEnd p.2).guid := by
    have hend_guid := hholds.guid_atEnd ht hl hc hk hb hy p.2
    have hne := ht.mark_ne (MappingTable.mem_backed.1 ho.backed).1
    rw [EndMapping.isPlayedBy, EntityMapping.filter_mark hne, Bool.and_eq_true, beq_iff_eq,
      beq_iff_eq] at hplay
    rw [Origin.identity_eq hne] at hg
    rw [hend, hplay.2] at hend_guid
    exact Except.ok.inj (hg.symm.trans hend_guid)
  rw [← Sym2.mem_iff, ← hpair, hself, Sym2.mem_iff]
  cases p.2 with
  | one => exact .inl rfl
  | two => exact .inr rfl

end Agree

/-- The relationships of a type that a search finds are those that the entities of the catalog
report, and a relationship is reported by the entities at its ends only. -/
theorem views_agree (htable : c.table = MappingTable.standard) (hc : s.catalog.Consistent c.table)
    (hd : ∀ m ∈ c.table.mappings, m.assetType ≠ c.settings.defaultAssetType)
    (hout : ∀ e, (c.scope s).backend.outage e = none) (hh : c.home ≠ "") (T : String)
    (hT : ∃ k ∈ c.table.relationships, k.type = T) : ∃ found,
      (c.run "find_relationships_by_property" (c.findRelationships s { type := some T })).1 =
        .ok (.value found) ∧
      (∀ guid, c.HasEntity s guid → ∃ rs, (c.run "get_relationships_for_entity"
        (c.relationshipPage s guid (some T) {} false)).1 = .ok (.value rs)) ∧
      (∀ x, x ∈ found.map Relationship.guid ↔
        ∃ guid, c.HasEntity s guid ∧ c.Reports s T guid x) ∧
      ∀ r ∈ found, ∀ guid, c.HasEntity s guid ∧ c.Reports s T guid r.guid ↔
        guid = r.one.guid ∨ guid = r.two.guid := by
  have ht : c.table.Accepted := htable ▸ MappingTable.accepted_standard
  have hl : c.table.Linked := htable ▸ MappingTable.linked_standard
  -- Between the two views stand the links that the catalog holds: a search has a relationship
  -- for each of them, and so have the listings of the entities at its ends.
  obtain ⟨ks, hks, hmem⟩ := exists_relationshipsFor ht hl hT
  obtain ⟨found, hrun, hsound, hcomplete⟩ :=
    exists_found ht hl hc hout hh hks fun k hk => ((hmem k).1 hk).1
  have hends {r : Relationship} (hr : r ∈ found) (e : End) :
      c.HasEntity s (r.atEnd e).guid ∧ c.Reports s T (r.atEnd e).guid r.guid := by
    obtain ⟨k, hk, a, b, level, hholds, l, hb, hx⟩ := hsound r hr
    obtain ⟨hk, hkT⟩ := (hmem k).1 hk
    exact reports_atEnd ht hl hc hd hout hh hks hk hkT hholds hb hx e
  refine ⟨found, run_eq_value.2 hrun, fun guid hguid => ?_, fun x => ⟨fun hx => ?_, ?_⟩,
    fun r hr guid => ⟨?_, ?_⟩⟩
  · obtain ⟨o, ho, hr, hg⟩ := hguid
    obtain ⟨rs, hrs, _⟩ := exists_reported ht hl hc hout hh hks
      (names_of_identity ht hd hc.keyed ho hr hg)
    exact ⟨rs, run_eq_value.2 hrs⟩
  · obtain ⟨r, hr, rfl⟩ := List.mem_map.1 hx
    exact ⟨_, hends hr .one⟩
  · rintro ⟨guid, ⟨o, ho, hr, hg⟩, hreports⟩
    obtain ⟨p, hp, l, ⟨a, b, level, hholds, _, rfl⟩, hid⟩ :=
      (reports_iff ht hl hc hd hout hh hks ho hr hg x).1 hreports
    obtain ⟨hpm, hpT, _⟩ := Scope.mem_partsOf_iff.1 hp
    have hk := (hmem p.1).2 ⟨MappingTable.mem_relationships ho.backed hpm, hpT⟩
    obtain ⟨y, hy, hid'⟩ := hcomplete p.1 hk a b level hholds
    rw [hid.unique hid']
    exact List.mem_map_of_mem hy
  · rintro ⟨hguid, hreports⟩
    obtain ⟨k, hk, a, b, level, hholds, l, hb, hx⟩ := hsound r hr
    exact eq_end_of_reports ht hl hc hd hout hh hks
      ⟨k, ((hmem k).1 hk).1, a, b, level, hholds, hb⟩ hx hguid hreports
  · rintro (rfl | rfl)
    · exact hends hr .one
    · exact hends hr .two

end Collection

namespace Sample

open MappingTable.Standard

/-- What searching for the terms assigned to columns and tables answers. -/
def assignments : Attempt (Outcome (List Relationship)) :=
  (collection.run "find_relationships_by_property"
    (collection.findRelationships linkedService { type := some "SemanticAssignment" })).1

theorem guids_assignments : relationshipGuids assignments =
    some ["r:home-1:SemanticAssignment:0::database_column:column-1::term:term-1"] := by
  decide +kernel

theorem assignments_agree : ∃ found, assignments = .ok (.value found) ∧ found.length = 1 ∧
    ∀ r ∈ found, ∀ guid, collection.HasEntity linkedService guid ∧
      collection.Reports linkedService "SemanticAssignment" guid r.guid ↔
        guid = r.one.guid ∨ guid = r.two.guid := by
  obtain ⟨found, hfound, _, _, hends⟩ := Collection.views_agree (c := collection)
    (s := linkedService) rfl consistent_linkedService (by decide +kernel)
    (fun e => by cases e <;> rfl) (by decide) "SemanticAssignment"
    ⟨assignedTerms "database_column", by decide +kernel, rfl⟩
  refine ⟨found, hfound, ?_, hends⟩
  obtain ⟨found', hfound', hguids⟩ := exists_of_relationshipGuids guids_assignments
  cases hfound.symm.trans hfound'
  rw [← List.length_map (f := Relationship.guid), hguids]
  rfl

end Sample

end MetaFed
