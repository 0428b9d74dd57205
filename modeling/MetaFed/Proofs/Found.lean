import MetaFed.Proofs.Rederived
import MetaFed.Proofs.Views

/-!
Every relationship that a search finds is resolved from its identifier, if the catalog has no
dangling references and the table leads from every identity back to its mapping.
-/

namespace MetaFed

theorem RelationshipMapping.links_origin (k : RelationshipMapping) (r : Record) :
    k.links r k.origin = k.links r (some .one) := by
  cases hk : k.kind <;> simp only [links, origin, hk]

namespace Collection

open Session

variable {c : Collection} {s : Service} {st : SessionState} {q : RelationshipSearch}
  {found xs : List Relationship} {x : Relationship} {ks : List RelationshipMapping}

theorem serves_scope (hrecord : (c.scope s).backend.outage .record = none)
    (hsearch : (c.scope s).backend.outage .search = none) : (c.scope s).Serves s.catalog where
  toReads := reads_scope hrecord
  answers _ _ h := Service.answer_bounded.2 ⟨hsearch, h⟩

/-- What a search without conditions finds was read off the hits under its mappings. -/
theorem exists_of_findRelationships (hq : q.Unconditional)
    (h : (runFrom st (c.findRelationships s q)).1 = .ok found) : ∃ ks xs,
      c.table.relationshipsFor q.type = .ok ks ∧ (c.scope s).gather
        (fun n => n.relationshipMapping.map (c.scope s).readRelationships)
        (if q.window.pageSize = 0 then none else some (q.window.start + q.window.pageSize))
        (ks.map Catalog.searchFor) = .ok xs ∧ found = page q.window.start q.window.pageSize xs := by
  have hyields : (c.findRelationships s q).Yields (c.planner.planRelationships q none >>= fun p =>
      (c.scope s).gather (fun n => n.relationshipMapping.map (c.scope s).readRelationships)
        (Scope.room p) p.searches >>= fun xs => .ok (page p.skip p.pageSize xs)) :=
    (yields_ofAttempt _).bind fun p _ => (c.scope s).yields_run _ p
  rw [hyields] at h
  obtain ⟨plan, hplan, h⟩ := Attempt.bind_eq_ok.1 h
  obtain ⟨_, ks, hks, rfl⟩ := (Planner.planRelationships_eq_ok hq).1 hplan
  obtain ⟨xs, hxs, h⟩ := Attempt.bind_eq_ok.1 h
  exact ⟨ks, xs, hks, hxs, (Except.ok.inj h).symm⟩

section Valid

variable (hv : ∀ k ∈ c.table.relationships, k.fault? = none)
  (hks : ∀ k ∈ ks, k ∈ c.table.relationships) {room : Option Nat}
  (h : (c.scope s).gather (fun n => n.relationshipMapping.map (c.scope s).readRelationships) room
    (ks.map Catalog.searchFor) = .ok xs)

include hv hks h

theorem exists_link_of_found (hx : x ∈ xs) : (c.scope s).backend.outage .search = none ∧
    ∃ k ∈ ks, ∃ r ∈ s.catalog.records.values, ∃ us, k.links r (some .one) = .ok us ∧
      ∃ l ∈ us, l.relationship? c.home c.table = .ok (some x) := by
  obtain ⟨_, hn, f, hf, hits, hanswer, r', hr', ys, hys, hx⟩ := Scope.exists_of_mem_gather h hx
  obtain ⟨k, hk, rfl⟩ := List.mem_map.1 hn
  cases hf
  obtain ⟨hout, hsearch⟩ := Service.answer_bounded.1 hanswer
  obtain ⟨r, hr, rfl, _⟩ := Catalog.mem_search hsearch r' hr'
  obtain ⟨us, hus, hys⟩ := Attempt.bind_eq_ok.1 hys
  change k.links (r.project _) k.origin = _ at hus
  rw [Catalog.links_hit (hv k (hks k hk)), k.links_origin] at hus
  exact ⟨hout, k, hk, r, hr, us, hus, (Scope.mem_relationships hys).1 hx⟩

/-- Where all hits were read, every record that stands for a link could be. -/
theorem readable_of_found (hroom : room = none) : ∀ k ∈ ks, s.catalog.Readable k := by
  intro k hk hkind r hr
  have hvk := hv k (hks k hk)
  subst hroom
  obtain ⟨hits, hanswer, hread⟩ := Scope.exists_read_of_gather h (List.mem_map_of_mem hk) rfl
  obtain ⟨hits', hsearch, hmem⟩ :=
    s.catalog.exists_searchFor (k := k) fun href => by simp [hkind] at href
  cases (Service.answer_bounded.1 hanswer).2.symm.trans hsearch
  by_cases htype : some r.type = k.levelType
  · have hsearched : r.type = k.searchAssetType := by
      have hgiven := (RelationshipMapping.given_of_level hvk hkind).1
      rw [← htype, isGiven, Option.any_some, decide_eq_true_eq] at hgiven
      rw [RelationshipMapping.searchAssetType, ← htype, Option.filter_some,
        if_pos (decide_eq_true hgiven)]
      rfl
    obtain ⟨ys, hys⟩ := hread _ ((hmem _).2 ⟨r, hr, hsearched, by simp [Catalog.taken, hkind], rfl⟩)
    obtain ⟨us, hus, _⟩ := Attempt.bind_eq_ok.1 hys
    change k.links (r.project _) k.origin = _ at hus
    rw [Catalog.links_hit hvk] at hus
    simp only [RelationshipMapping.links, hkind] at hus
    exact ⟨us, hus⟩
  · exact ⟨[], by rw [RelationshipMapping.levelLinks, if_pos htype]⟩

end Valid

/-- A relationship that a search without conditions finds is resolved from its identifier, under a
table that leads back from identities to mappings, in a catalog without dangling references. -/
theorem resolved_of_found (ht : c.table.Accepted) (hroot : c.table.Rooted)
    (hv : ∀ k ∈ c.table.relationships, k.checked = .ok k) (hc : s.catalog.Closed)
    (hout : (c.scope s).backend.outage .record = none) (hq : q.Unconditional)
    (hread : q.window.pageSize = 0 ∨ ∀ k ∈ c.table.relationships, s.catalog.Readable k)
    {operation : String}
    (h : (c.run operation (c.findRelationships s q)).1 = .ok (.value found)) (operation' : String) :
    ∀ x ∈ found, ∃ x', (c.run operation' (c.relationship s x.guid)).1 = .ok (.value x') ∧
      x'.guid = x.guid := by
  have hfault : ∀ k ∈ c.table.relationships, k.fault? = none := fun k hk =>
    RelationshipMapping.fault?_of_checked (hv k hk)
  obtain ⟨ks, xs, hks, hxs, rfl⟩ := exists_of_findRelationships hq (run_eq_value.1 h)
  have hsub : ∀ k ∈ ks, k ∈ c.table.relationships := fun k hk =>
    ((MappingTable.mem_relationshipsFor hks).1 hk).1
  intro x hx
  obtain ⟨hsearch, k, hk, r, hr, us, hus, l, hl, hrel⟩ :=
    exists_link_of_found hfault hsub hxs ((Catalog.page_sublist _ _ _).subset hx)
  -- The search went through the mappings of all descendants of the type of the link too.
  have hreadable : ∀ k' ∈ c.table.relationships,
      c.table.hierarchy.isTypeOf k'.type k.type = true → s.catalog.Readable k' := by
    intro k' hk' htype
    rcases hread with hall | hread
    · refine readable_of_found hfault hsub hxs (if_pos hall) k' ?_
      refine (MappingTable.mem_relationshipsFor hks).2 ⟨hk', ?_⟩
      rw [Option.all_eq_true]
      intro name hname
      have hkname := ((MappingTable.mem_relationshipsFor hks).1 hk).2
      rw [hname, Option.all_some] at hkname
      exact Hierarchy.isTypeOf_trans ht.hierarchy htype hkname
    · exact hread k' hk'
  obtain ⟨x', hguid, hrun⟩ := (Scope.gives_resolve (c := c.scope s) (serves_scope hout hsearch) hc ht
    hroot hfault hreadable (hsub k hk) hr hus hl hrel).exists_run
  exact ⟨x', run_eq_value.2 hrun, hguid⟩

end Collection

namespace Sample

open MappingTable.Standard

/-- The schemas of databases are listed by the mapping at their end two only. -/
def unlistedTable : MappingTable :=
  ⟨Hierarchy.standard,
    [{ MappingTable.Standard.database with relationships := [] },
      { databaseSchema with relationships := [databaseSchemas] }],
    Hierarchy.Standard.baseType, unsupported⟩

def unlistedCollection : Collection := ⟨{ home := "home-1" }, unlistedTable⟩

def databaseRef : Reference := ⟨"database-1", "database", some "sales"⟩

def schemaRef : Reference := ⟨"schema-1", "database_schema", some "public"⟩

def schemaService : Service :=
  { catalog := (({} : Catalog).put
      { ref := databaseRef, properties := [refersTo "database_schemas" schemaRef] }).put
      { ref := schemaRef, properties := [refersTo "database" databaseRef] } }

theorem accepted_unlistedTable : unlistedTable.Accepted :=
  MappingTable.accepted_of_faultless MappingTable.hierarchy_standard (by decide)
    (by decide)

theorem closed_schemaService : schemaService.catalog.Closed :=
  Catalog.closed_of_properties
    (Catalog.keyed_put (Catalog.keyed_put Catalog.keyed_empty _) _) (by decide)

theorem closed_linkedService : linkedService.catalog.Closed :=
  Catalog.closed_of_properties consistent_linkedService.keyed (by decide)

/-- What searching for all relationships answers. -/
def allLinks (c : Collection) (s : Service) : Attempt (Outcome (List Relationship)) :=
  (c.run "find_relationships_by_property" (c.findRelationships s {})).1

theorem guids_allLinks : relationshipGuids (allLinks collection linkedService) =
    some ["r:home-1:ForeignKey:0::database_column:column-1::database_column:column-1",
      "r:home-1:SemanticAssignment:0::database_column:column-1::term:term-1",
      "r:home-1:DataClassAssignment:1::classification:detection-1::classification:detection-1"] := by
  decide +kernel

theorem allLinks_resolved : linkedService.catalog.Closed ∧ ∃ found,
    allLinks collection linkedService = .ok (.value found) ∧ found.length = 3 ∧
      ∀ r ∈ found, ∃ r', resolved r.guid = .ok (.value r') ∧ r'.guid = r.guid := by
  obtain ⟨found, hfound, hguids⟩ := exists_of_relationshipGuids guids_allLinks
  have hlength : found.length = 3 := by
    rw [← List.length_map (f := Relationship.guid), hguids]
    rfl
  exact ⟨closed_linkedService, found, hfound, hlength,
    Collection.resolved_of_found (c := collection) (s := linkedService) (q := {})
      MappingTable.accepted_standard MappingTable.linked_standard.rooted
      MappingTable.checked_relationships closed_linkedService rfl (by rintro _ ⟨⟩) (.inl rfl) hfound
      "get_relationship"⟩

def schemaGuid : String :=
  "r:home-1:DataContentForDataSet:0::database:database-1::database_schema:schema-1"

/-- The schema of the database is found, but the mapping of the database does not lead to it. -/
theorem found_not_resolved : unlistedTable.Accepted ∧
    (∀ k ∈ unlistedTable.relationships, k.checked = .ok k) ∧ schemaService.catalog.Closed ∧
    (∀ e, (unlistedCollection.scope schemaService).backend.outage e = none) ∧
    ∃ found, allLinks unlistedCollection schemaService = .ok (.value found) ∧
      found.map Relationship.guid = [schemaGuid] ∧
      ¬∃ r, (unlistedCollection.run "get_relationship"
        (unlistedCollection.relationship schemaService schemaGuid)).1 = .ok (.value r) := by
  have hfault : ∀ k ∈ unlistedTable.relationships, k.fault?.isNone = true := by decide +kernel
  have hguids : relationshipGuids (allLinks unlistedCollection schemaService) = some [schemaGuid] := by
    decide +kernel
  have hnone : guidOf (unlistedCollection.run "get_relationship"
      (unlistedCollection.relationship schemaService schemaGuid)).1 = none := by decide +kernel
  obtain ⟨found, hfound, hfound_guids⟩ := exists_of_relationshipGuids hguids
  have hchecked (k : RelationshipMapping) (hk : k ∈ unlistedTable.relationships) :
      k.checked = .ok k :=
    RelationshipMapping.checked_of_fault? (Option.isNone_iff_eq_none.1 (hfault k hk))
  refine ⟨accepted_unlistedTable, hchecked, closed_schemaService, fun e => by cases e <;> rfl,
    found, hfound, hfound_guids, ?_⟩
  rintro ⟨r, hr⟩
  rw [hr] at hnone
  cases hnone

end Sample

end MetaFed
