import MetaFed.Proofs.Evaluation
import MetaFed.Proofs.NameLookup

/-!
Searching for classified entities. The catalog tells a classification by the values that a property
path reaches, the federation by the one value of a property. Where the two cannot tell otherwise, a
search for classifications answers just the entities that have them.
-/

namespace MetaFed

namespace ClassificationMapping

variable {k : ClassificationMapping} {r : Record} {cat : Catalog}

/-- The value that shows the classification is told alike by the catalog, which sees the members of
a list and takes an empty text for a value, and by the federation. -/
def isPlainOn (k : ClassificationMapping) (r : Record) : Bool :=
  match k.signal, r.value k.backend with
  | .present, .text s => s != ""
  | .present, .list vs => vs.isEmpty || vs.any fun v => !v.isNull
  | .equals, .list vs => !(Value.list vs).same k.value && !(vs.any fun v => v.same k.value) &&
      !(vs.isEmpty && k.value.isNull)
  | _, _ => true

theorem holds_eq (vs : List Value) (value : Value) : NativeOperator.eq.holds vs value =
    .ok (if vs.isEmpty then value.isNull else vs.any fun v => v.same value) := by
  cases vs with
  | nil => cases value <;> rfl
  | cons v vs => exact List.anyM_pure

theorem applies_present (hs : k.signal = .present) (h : k.isPlainOn r = true) :
    k.applies r = (Catalog.valuesOf k.backend r).any fun v => !v.isNull := by
  rw [isPlainOn, hs] at h
  rw [applies, hs, Catalog.valuesOf]
  generalize r.value k.backend = v at h
  cases v with
  | text t =>
      have ht : t ≠ "" := by simpa using h
      simp [Value.isAmong, Value.same, Value.compareNumbers?, Value.whole?, Value.isNull, ht]
  | list vs =>
      cases vs with
      | nil => simp [Value.isAmong, Value.same, Value.sameItems]
      | cons v vs =>
          simp only [List.isEmpty_cons, Bool.false_or] at h
          simp [Value.isAmong, Value.same, Value.sameItems, Value.compareNumbers?, Value.whole?, h]
  | _ => simp [Value.isAmong, Value.same, Value.compareNumbers?, Value.whole?, Value.isNull]

theorem applies_equals (hs : k.signal = .equals) (h : k.isPlainOn r = true) :
    NativeOperator.eq.holds (Catalog.valuesOf k.backend r) k.value = .ok (k.applies r) := by
  rw [isPlainOn, hs] at h
  rw [applies, hs, Catalog.valuesOf, holds_eq]
  generalize r.value k.backend = v at h
  cases v with
  | null => exact congrArg Except.ok (Value.null_same k.value).symm
  | list vs =>
      simp only [Bool.and_eq_true, Bool.not_eq_true'] at h
      obtain ⟨⟨hsame, hany⟩, hempty⟩ := h
      simp only [hsame, hany]
      split
      · next he => rw [he, Bool.true_and] at hempty; rw [hempty]
      · rfl
  | _ => simp

theorem holds_presence (hp : '.' ∉ k.backend.toList) (h : k.isPlainOn r = true) :
    (Planner.presence k).holds (cat.holds r) = .ok (k.applies r) := by
  cases hs : k.signal with
  | present => rw [Planner.presence, hs, Catalog.holds_isNotNull hp, applies_present hs h]
  | equals => rw [Planner.presence, hs, Catalog.holds_compare hp, applies_equals hs h]

end ClassificationMapping

namespace EntityMapping

variable {m : EntityMapping} {r : Record} {name : String} {k : ClassificationMapping}

/-- The entity of a record has a classification of the name. -/
def classifies (m : EntityMapping) (r : Record) (name : String) : Bool :=
  m.classifications.any fun k => k.name == name && k.applies r

theorem classifies_of_none (h : m.classificationFor name = none) (r : Record) :
    m.classifies r name = false := by
  rw [classificationFor, List.find?_eq_none] at h
  refine List.any_eq_false.2 fun k hk hn => ?_
  exact h k hk (Bool.and_eq_true_iff.1 hn).1

theorem classifies_of_some (h : m.classificationFor name = some k)
    (hk : ∀ k' ∈ m.classifications, k'.name = k.name → k' = k) (r : Record) :
    m.classifies r name = k.applies r := by
  have hname : k.name = name := by simpa using List.find?_some h
  refine Bool.eq_iff_iff.2 ⟨fun hc => ?_, fun ha => ?_⟩
  · obtain ⟨k', hk', hc⟩ := List.any_eq_true.1 hc
    simp only [Bool.and_eq_true, beq_iff_eq] at hc
    rw [← hk k' hk' (hc.1.trans hname.symm)]
    exact hc.2
  · exact List.any_eq_true.2 ⟨k, List.mem_of_find?_eq_some h, by simp [hname, ha]⟩

end EntityMapping

/-- A group of classifications without conditions on their properties. -/
def ClassificationGroup.named (names : List String) (criteria : Criteria) : ClassificationGroup :=
  ⟨names.map fun n => ⟨n, none⟩, criteria⟩

/-- As many of the names as asked for have a property; no names ask for nothing. -/
def Criteria.meets (criteria : Criteria) (names : List String) (has : String → Bool) : Bool :=
  names.isEmpty || criteria.satisfied (names.map has)

/-- Each of the classifications is mapped but once for the entities of a type, to a property and
not to a path, and every record tells it plainly. -/
structure Catalog.Classifies (cat : Catalog) (t : MappingTable) (names : List String) : Prop where
  once : ∀ m ∈ MappingTable.backed t.mappings,
    ((m.classifications.filter fun k => names.contains k.name).map
      ClassificationMapping.name).Nodup
  direct : ∀ m ∈ MappingTable.backed t.mappings, ∀ k ∈ m.classifications, k.name ∈ names →
    '.' ∉ k.backend.toList
  plain : ∀ m ∈ MappingTable.backed t.mappings, ∀ k ∈ m.classifications, k.name ∈ names →
    ∀ r ∈ cat.records.values, r.type = m.assetType → k.isPlainOn r = true

namespace Planner

variable {p : Planner} {m : EntityMapping} {cat : Catalog} {name : String} {names : List String}

theorem exists_foldClassification (hc : cat.Classifies p.table names)
    (hm : m ∈ MappingTable.backed p.table.mappings) (hn : name ∈ names)
    (hd : p.table.checkClassification name = .ok ()) :
    ∃ f, p.foldClassification m ⟨name, none⟩ = .ok f ∧
      ∀ r ∈ cat.records.values, r.type = m.assetType →
        f.holds (cat.holds r) = .ok (m.classifies r name) := by
  rw [foldClassification, hd, Attempt.ok_bind]
  cases hk : m.classificationFor name with
  | none => exact ⟨_, rfl, fun r _ _ => by rw [m.classifies_of_none hk]; rfl⟩
  | some k =>
      have hmem : k ∈ m.classifications := List.mem_of_find?_eq_some hk
      have hname : k.name ∈ names := by
        rwa [show k.name = name by simpa using List.find?_some hk]
      have hone (k' : ClassificationMapping) (hk' : k' ∈ m.classifications)
          (he : k'.name = k.name) : k' = k :=
        List.inj_on_of_nodup_map (hc.once m hm)
          (List.mem_filter.2 ⟨hk', List.contains_iff_mem.2 (he ▸ hname)⟩)
          (List.mem_filter.2 ⟨hmem, List.contains_iff_mem.2 hname⟩) he
      refine ⟨_, rfl, fun r hr ht => ?_⟩
      rw [EntityMapping.classifies_of_some hk hone]
      change (Node.all [presence k]).holds _ = _
      rw [Node.holds_all, ← Folded.holds_single_all]
      exact k.holds_presence (hc.direct m hm k hmem hname) (hc.plain m hm k hmem hname r hr ht)

theorem exists_mapM_foldClassification (hc : cat.Classifies p.table names)
    (hm : m ∈ MappingTable.backed p.table.mappings)
    (hd : ∀ name ∈ names, p.table.checkClassification name = .ok ()) {asked : List String}
    (ha : ∀ name ∈ asked, name ∈ names) :
    ∃ fs, (asked.map fun n => (⟨n, none⟩ : ClassificationCondition)).mapM
        (p.foldClassification m) = .ok fs ∧
      ∀ r ∈ cat.records.values, r.type = m.assetType →
        List.Forall₂ (fun f b => f.holds (cat.holds r) = .ok b) fs (asked.map (m.classifies r)) := by
  induction asked with
  | nil => exact ⟨[], rfl, fun _ _ _ => .nil⟩
  | cons n ns ih =>
      have hn := ha n List.mem_cons_self
      obtain ⟨f, hf, hfr⟩ := exists_foldClassification hc hm hn (hd n hn)
      obtain ⟨fs, hfs, hfsr⟩ := ih fun n' hn' => ha n' (List.mem_cons_of_mem n hn')
      refine ⟨f :: fs, ?_, fun r hr ht => .cons (hfr r hr ht) (hfsr r hr ht)⟩
      simp only [List.map_cons, List.mapM_cons, hf, hfs, Attempt.ok_bind, Attempt.pure_eq_ok]

/-- What a group of classifications comes to holds for the records whose entities have them. -/
theorem exists_foldClassifications (hc : cat.Classifies p.table names)
    (hm : m ∈ MappingTable.backed p.table.mappings)
    (hd : ∀ name ∈ names, p.table.checkClassification name = .ok ()) (criteria : Criteria) :
    ∃ f, p.foldClassifications m (some (.named names criteria)) = .ok f ∧
      ∀ r ∈ cat.records.values, r.type = m.assetType →
        f.holds (cat.holds r) = .ok (criteria.meets names (m.classifies r)) := by
  rw [foldClassifications, ClassificationGroup.named]
  simp only [List.isEmpty_map]
  cases hempty : names.isEmpty with
  | true =>
      refine ⟨.const true, rfl, fun r _ _ => ?_⟩
      rw [Criteria.meets, hempty]
      rfl
  | false =>
      obtain ⟨fs, hfs, hfr⟩ := exists_mapM_foldClassification hc hm hd fun _ hn => hn
      refine ⟨Folded.combine criteria fs, ?_, fun r hr ht => ?_⟩
      · rw [if_neg Bool.false_ne_true, hfs, Attempt.ok_bind]
      · rw [Folded.combine_holds criteria (hfr r hr ht), Criteria.meets, hempty, Bool.false_or]

end Planner

namespace Entity

variable {home : String} {m : EntityMapping} {r : Record} {e : Entity}

theorem isSome_find?_classificationsOf {ks : List ClassificationMapping} {cs : List Classification}
    (h : classificationsOf r ks = .ok cs) (name : String) :
    (cs.find? fun c => c.name == name).isSome = ks.any fun k => k.name == name && k.applies r := by
  rw [classificationsOf] at h
  induction ks generalizing cs with
  | nil =>
      cases h
      rfl
  | cons k ks ih =>
      rw [List.any_cons]
      cases ha : k.applies r with
      | false =>
          rw [List.filter_cons_of_neg (by simp [ha])] at h
          rw [ih h, Bool.and_false, Bool.false_or]
      | true =>
          rw [List.filter_cons_of_pos (by simpa using ha), List.mapM_cons] at h
          obtain ⟨c, hc, h⟩ := Attempt.bind_eq_ok.1 h
          obtain ⟨cs', hcs, h⟩ := Attempt.bind_eq_ok.1 h
          obtain ⟨_, _, hc⟩ := Attempt.bind_eq_ok.1 hc
          cases h
          cases hc
          rw [List.find?_cons, Bool.and_true]
          cases k.name == name with
          | true => rfl
          | false => exact ih hcs

theorem isSome_classification (h : ofRecord home m r = .ok e) (name : String) :
    (e.classification name).isSome = m.classifies r name := by
  simp only [ofRecord, Attempt.bind_eq_ok] at h
  obtain ⟨_, _, cs, hcs, _, _, h⟩ := h
  cases h
  exact isSome_find?_classificationsOf hcs name

end Entity

theorem EntityMapping.classifies_project (m : EntityMapping) (r : Record) (name : String) :
    m.classifies (r.project m.projected) name = m.classifies r name := by
  have happlies (k : ClassificationMapping) (hk : k ∈ m.classifications) :
      k.applies (r.project m.projected) = k.applies r := by
    refine k.applies_congr (r.agreesOn_project m.projected) fun p hp => ?_
    simp only [projected, mem_firsts, List.cons_append, List.mem_cons, List.mem_append,
      List.mem_flatMap]
    exact .inr (.inl (.inr ⟨k, hk, hp⟩))
  rw [Bool.eq_iff_iff, classifies, classifies, List.any_eq_true, List.any_eq_true]
  exact exists_congr fun k => and_congr_right fun hk => by rw [happlies k hk]

/-- The search of a mapping for classified entities, without a window. -/
def NativeSearch.classified (m : EntityMapping) (f classified : Folded)
    (residual : Option PropertyGroup) : NativeSearch :=
  { types := [m.assetType], conditions := Planner.whereClause m f classified,
    properties := m.projected, sorts := [.byId], mapping := some m, residual }

open NativeSearch (classified)

namespace Catalog

variable {cat : Catalog} {m : EntityMapping} {f g : Folded} {residual : Option PropertyGroup}
  {r : Record} {b kept : Bool}

theorem holds_classified
    (h : (Planner.whereClause m f (.const true)).toNode.holds (cat.holds r) = .ok b)
    (hnever : g.isNever = false) (hg : g.holds (cat.holds r) = .ok kept) :
    (Planner.whereClause m f g).toNode.holds (cat.holds r) = .ok (b && kept) := by
  have hnodes (g : Folded) : (Planner.whereClause m f g).toNode.holds (cat.holds r) =
      Node.allHold (cat.holds r) ((m.typeConditions.map .leaf ++ f.conjuncts) ++ Folded.nodes [g]) :=
    Node.holds_all _
  have hmore := Folded.allHold_nodes (.cons hg .nil) (by simp [hnever])
  rw [hnodes, Folded.nodes_const, Folded.nodes, List.filterMap_nil, List.append_nil] at h
  rw [hnodes]
  exact Node.allHold_append h (hmore.trans (by simp))

/-- Classifications that can be told for every record of a mapping leave the hits that have them. -/
theorem search_classified {keep : Record → Bool} {hits : List Record}
    (h : cat.search (classified m f (.const true) residual) = .ok hits)
    (hg : ∀ r ∈ cat.records.values, r.type = m.assetType →
      g.holds (cat.holds r) = .ok (keep r)) :
    ∃ rs : List Record, (∀ r ∈ rs, r ∈ cat.records.values ∧ r.type = m.assetType) ∧
      hits = rs.map (fun r => r.project m.projected) ∧
      (g.isNever = false → cat.search (classified m f g residual) =
        .ok ((rs.filter keep).map fun r => r.project m.projected)) := by
  obtain ⟨rs, hrs, hhits, hnarrow⟩ := search_narrowed rfl rfl rfl rfl h
  refine ⟨rs, hrs, hhits, fun hnever => ?_⟩
  exact hnarrow _ keep fun r hr ht b hb => holds_classified hb hnever (hg r hr ht)

end Catalog

namespace Scope

variable {c : Scope} {m : EntityMapping} {residual : Option PropertyGroup} {r : Record}
  {xs : List Entity}

theorem filter_readEntity {keep : Entity → Bool} {b : Bool}
    (h : c.readEntity m residual r = .ok xs)
    (hkeep : ∀ e, Entity.ofRecord c.home m r = .ok e → keep e = b) :
    if b = true then c.readEntity m residual r = .ok (xs.filter keep) else xs.filter keep = [] := by
  rcases readEntity_eq_ok h with rfl | ⟨e, rfl, he⟩
  · cases b
    · rfl
    · exact h
  · rw [List.filter_singleton, hkeep e he]
    cases b
    · rfl
    · exact h

end Scope

/-- The request for entities with certain classifications. -/
def EntitySearch.askingFor (q : EntitySearch) (g : ClassificationGroup) : EntitySearch :=
  { q with classifications := some g }

/-- A request that asks for all entities and for no classification. -/
structure EntitySearch.Unclassified (q : EntitySearch) : Prop where
  window : q.window = {}
  classifications : q.classifications = none

/-- An entity has as many of some classifications as asked for. -/
def Entity.hasClassifications (criteria : Criteria) (names : List String) (e : Entity) : Bool :=
  criteria.meets names fun n => (e.classification n).isSome

namespace Collection

open Planner MappingTable

variable {c : Collection} {s : Service} {q : EntitySearch} {m : EntityMapping}
  {names : List String} {criteria : Criteria} {xs : List Entity} {f : Folding} {g : Folded}

/-- What is left to be checked of a request whose conditions came to this. -/
def residualOf (q : EntitySearch) (f : Folding) : Option PropertyGroup :=
  if f.approximate then q.properties else none

theorem entitySearch_unclassified (hq : q.Unclassified)
    (hf : PropertyGroup.foldOption (c.planner.resolver m) q.properties = .ok f) :
    c.planner.entitySearch q m = .ok (if f.folded.isNever then none
      else some (classified m f.folded (.const true) (residualOf q f))) := by
  rw [entitySearch, hf, Attempt.ok_bind, hq.classifications, hq.window, assemble_plain,
    Attempt.ok_bind, residualOf]
  cases f.folded.isNever <;> cases f.approximate <;> rfl

theorem entitySearch_askingFor {k : ClassificationGroup} (hq : q.Unclassified)
    (hf : PropertyGroup.foldOption (c.planner.resolver m) q.properties = .ok f)
    (hg : c.planner.foldClassifications m (some k) = .ok g) :
    c.planner.entitySearch (q.askingFor k) m = .ok (if f.folded.isNever || g.isNever then none
      else some (classified m f.folded g (residualOf q f))) := by
  rw [entitySearch, EntitySearch.askingFor]
  simp only [hf, Attempt.ok_bind, hq.window, assemble, hg, residualOf]
  cases f.folded.isNever <;> cases g.isNever <;> cases f.approximate <;> rfl

theorem entitiesFor_askingFor (hc : s.catalog.Classifies c.table names)
    (hm : m ∈ backed c.table.mappings)
    (hd : ∀ name ∈ names, c.table.checkClassification name = .ok ()) (hq : q.Unclassified)
    (h : c.entitiesFor s q m = .ok xs) :
    c.entitiesFor s (q.askingFor (.named names criteria)) m =
      .ok (xs.filter (Entity.hasClassifications criteria names)) := by
  rw [entitiesFor] at h
  obtain ⟨o, ho, h⟩ := Attempt.bind_eq_ok.1 h
  obtain ⟨f, hf, _⟩ := Attempt.bind_eq_ok.1 ho
  obtain ⟨g, hg, hholds⟩ := exists_foldClassifications (p := c.planner) hc hm hd criteria
  rw [entitySearch_unclassified hq hf] at ho
  rw [entitiesFor, entitySearch_askingFor hq hf hg, Attempt.ok_bind]
  -- Either no search runs for both requests, or the hits of one are among those of the other.
  cases hnever : f.folded.isNever with
  | true =>
      rw [hnever] at ho
      cases ho
      cases h
      rfl
  | false =>
      rw [hnever] at ho
      cases ho
      have hfor (g : Folded) : (classified m f.folded g (residualOf q f)).IsFor m := ⟨rfl, rfl, rfl⟩
      obtain ⟨hits, ha, hx⟩ := (Scope.entitiesOf_singleton (hfor _)).1 h
      obtain ⟨hout, hsearch⟩ := Service.answer_bounded.1 ha
      obtain ⟨rs, hrs, rfl, hfound⟩ := Catalog.search_classified hsearch hholds
      rw [Scope.collect_map] at hx
      have hmeets (r : Record) (e : Entity)
          (he : Entity.ofRecord c.home m (r.project m.projected) = .ok e) :
          e.hasClassifications criteria names = criteria.meets names (m.classifies r) := by
        rw [Entity.hasClassifications]
        simp only [Entity.isSome_classification he, m.classifies_project]
      have hkept := Scope.collect_filter hx fun r _ us hu =>
        Scope.filter_readEntity hu (hmeets r)
      rw [← Scope.collect_map (fun r => r.project m.projected)] at hkept
      rw [Bool.false_or]
      exact entitiesOf_left (hfor g) hout (fun r hr => hholds r (hrs r hr).1 (hrs r hr).2) hfound
        hkept

theorem checkRequest_of_findEntities {st : SessionState}
    (h : (Session.runFrom st (c.findEntities s q)).1 = .ok xs) :
    checkRequest q.historical q.properties = .ok () := by
  obtain ⟨p, hp, _⟩ := findEntities_eq_ok.1 h
  obtain ⟨⟨⟩, hcheck, _⟩ := Attempt.bind_eq_ok.1 hp
  exact Attempt.within_eq_ok.1 hcheck

/-- Searching for classifications finds just the entities that have them: of those that the request
answers without, as many of the names as asked for are among their classifications. -/
theorem classified_search_exact (ht : c.table.Accepted)
    (hc : s.catalog.Classifies c.table names)
    (hd : ∀ name ∈ names, c.table.checkClassification name = .ok ()) (criteria : Criteria)
    {type : Option String} {within : List String} {properties : Option PropertyGroup}
    {operation operation' : String} {all : List Entity}
    (h : (c.run operation (c.findEntities s { type, within, properties })).1 = .ok (.value all)) :
    (c.run operation' (c.findEntities s
      { type, within, properties,
        classifications := some ⟨names.map fun n => ⟨n, none⟩, criteria⟩ })).1 =
      .ok (.value (all.filter fun e => names.isEmpty ||
        criteria.satisfied (names.map fun n => (e.classification n).isSome))) := by
  have hfound := run_eq_value.1 h
  obtain ⟨q, hq⟩ : ∃ q : EntitySearch, q = { type, within, properties } := ⟨_, rfl⟩
  have hplain : q.Unclassified := hq ▸ ⟨rfl, rfl⟩
  have hpage : q.withPage 0 0 = q := hq ▸ rfl
  have hpage' (k : ClassificationGroup) : (q.askingFor k).withPage 0 0 =
      { type, within, properties, classifications := some k } := hq ▸ rfl
  rw [← hq, ← hpage] at hfound
  obtain ⟨ms, xss, hms, hxss, rfl⟩ := mapM_of_findEntities ht hfound
  obtain ⟨yss, hyss, hflat⟩ := Attempt.exists_mapM_filter hxss fun m hm xs hx =>
    entitiesFor_askingFor hc (candidates_backed (p := c.planner) hms m hm) hd hplain hx
  have hcheck : checkRequest q.historical q.properties = .ok () :=
    checkRequest_of_findEntities (q := q.withPage 0 0) hfound
  have hclassified : (Session.runFrom {} (c.findEntities s
      ((q.askingFor (.named names criteria)).withPage 0 0))).1 = .ok yss.flatten :=
    findEntities_of_mapM ht hcheck hms hyss
  rw [hpage', hflat] at hclassified
  exact run_eq_value.2 hclassified

end Collection

namespace Sample

/-- A column with a level of confidentiality, or without one, and with some primary keys. -/
def labelledColumn (n : String) (level : Value) (keys : List Reference) : Record :=
  { ref := ⟨"column-" ++ n, "database_column", some n⟩,
    properties := [("confidentiality_level", level),
      ("defined_primary_key", .list (keys.map .reference))] }

def primaryKeyRef : Reference := ⟨"key-1", "candidate_key", none⟩

/-- A secret key column, an open one, and one with no more than a level. -/
def labelledService : Service :=
  { catalog := ((({} : Catalog).put (labelledColumn "1" (.text "secret") [primaryKeyRef])).put
      (labelledColumn "2" .null [])).put (labelledColumn "3" (.text "open") []) }

def columnRequest : EntitySearch := { type := some "RelationalColumn" }

/-- The columns with as many of some classifications as asked for. -/
def labelled (s : Service) (names : List String) (criteria : Criteria) :
    Attempt (Outcome (List Entity)) :=
  (collection.run "find_entities" (collection.findEntities s
    { type := some "RelationalColumn",
      classifications := some ⟨names.map fun n => ⟨n, none⟩, criteria⟩ })).1

def columns (s : Service) : Attempt (Outcome (List Entity)) :=
  (collection.run "find_entities" (collection.findEntities s columnRequest)).1

theorem classifies_labelledService : labelledService.catalog.Classifies MappingTable.standard
    ["Confidentiality", "PrimaryKey"] where
  once := by decide +kernel
  direct := by decide +kernel
  plain := by decide +kernel

theorem guids_labelledColumns : guidsOf (columns labelledService) =
    some ["e:home-1::database_column:column-1", "e:home-1::database_column:column-2",
      "e:home-1::database_column:column-3"] := by
  decide +kernel

theorem labelledColumns_found : ∃ all, columns labelledService = .ok (.value all) ∧
    all.map Entity.guid = ["e:home-1::database_column:column-1",
      "e:home-1::database_column:column-2", "e:home-1::database_column:column-3"] ∧
    (∀ criteria, labelled labelledService ["Confidentiality", "PrimaryKey"] criteria =
      .ok (.value (all.filter fun e => criteria.satisfied
        (["Confidentiality", "PrimaryKey"].map fun n => (e.classification n).isSome)))) ∧
    guidsOf (labelled labelledService ["Confidentiality", "PrimaryKey"] .all) =
      some ["e:home-1::database_column:column-1"] ∧
    guidsOf (labelled labelledService ["Confidentiality", "PrimaryKey"] .none) =
      some ["e:home-1::database_column:column-2"] := by
  obtain ⟨all, ha, hg⟩ := exists_of_guidsOf guids_labelledColumns
  have hd : ∀ n ∈ ["Confidentiality", "PrimaryKey"],
      MappingTable.standard.checkClassification n = .ok () := by
    simp only [List.forall_mem_cons]
    exact ⟨rfl, rfl, by simp⟩
  exact ⟨all, ha, hg, fun criteria => Collection.classified_search_exact (c := collection)
    MappingTable.accepted_standard classifies_labelledService hd criteria ha,
    by decide +kernel, by decide +kernel⟩

/-- A column whose level of confidentiality is an empty text. -/
def blankService : Service :=
  { catalog := ({} : Catalog).put (labelledColumn "1" (.text "") []) }

/-- The entities of an answer, each with whether it has a classification. -/
def classifiedOf (name : String) : Attempt (Outcome (List Entity)) → Option (List (String × Bool))
  | .ok (.value es) => some (es.map fun e => (e.guid, (e.classification name).isSome))
  | _ => none

/-- The column is found among the confidential ones, although it is not classified so. -/
theorem blank_level_found :
    classifiedOf "Confidentiality" (columns blankService) =
        some [("e:home-1::database_column:column-1", false)] ∧
      guidsOf (labelled blankService ["Confidentiality"] .all) =
        some ["e:home-1::database_column:column-1"] := by
  decide +kernel

end Sample

end MetaFed
