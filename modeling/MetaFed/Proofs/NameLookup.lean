import MetaFed.Proofs.ExactName

/-!
Looking entities up by their qualified names: a request for one name answers those of all entities
that have it.
-/

namespace MetaFed

/-- The condition that an entity has a qualified name. -/
def PropertyCondition.nameIs (literal : String) : PropertyCondition :=
  ⟨qualifiedNameProperty, .eq, .text literal⟩

def Entity.isNamed (literal : String) (e : Entity) : Bool :=
  e.qualifiedName = some literal

theorem PropertyGroup.matches_nameIs {values : Assoc String Value} {qn : String}
    (h : Assoc.find? qualifiedNameProperty values = some (.text qn)) (literal : String) :
    (single (.nameIs literal)).matches values = .ok (decide (qn = literal)) := by
  have hsame : (Value.text qn).same (.text literal) = decide (qn = literal) := by
    rw [Value.text_same_text, beq_eq_decide]
  simp only [PropertyGroup.matches, single, toCriterion, Criterion.holds, List.isEmpty_cons,
    Bool.false_eq_true, if_false, Criterion.allHold, PropertyCondition.holds,
    PropertyCondition.nameIs, h, Option.getD_some, PropertyOperator.holds, hsame, Attempt.ok_bind]
  cases decide (qn = literal) <;> rfl

theorem Folding.Covers.of_holds {native : NativeCondition → Attempt Bool} {f : Folding}
    {truth b : Bool} (h : f.Covers native truth) (hb : f.folded.holds native = .ok b) :
    (truth = true → b = true) ∧ (f.approximate = false → b = truth) := by
  obtain ⟨b', hb', h⟩ := h
  cases hb.symm.trans hb'
  exact h

/-- The search of a mapping without windows and classifications. -/
def NativeSearch.plain (m : EntityMapping) (f : Folded) : NativeSearch :=
  { types := [m.assetType], conditions := Planner.whereClause m f (.const true),
    properties := m.projected, sorts := [.byId], mapping := some m }

theorem NativeSearch.isFor_plain (m : EntityMapping) (f : Folded) : (plain m f).IsFor m :=
  ⟨rfl, rfl, rfl⟩

theorem Planner.assemble_plain (p : Planner) (m : EntityMapping) (f : Folded) :
    p.assemble m f none {} = .ok (if f.isNever then none else some (.plain m f)) := by
  rw [assemble]
  split <;> rfl

namespace Catalog

open NativeSearch (plain)

variable {cat : Catalog} {m : EntityMapping} {f : Folded} {keep : Record → Bool} {r : Record}

theorem holds_plain {told b : Bool}
    (h : (plain m (.const true)).conditions.toNode.holds (cat.holds r) = .ok told)
    (hnever : f.isNever = false) (hf : f.holds (cat.holds r) = .ok b) :
    (plain m f).conditions.toNode.holds (cat.holds r) = .ok (told && b) := by
  have hnodes (f : Folded) : (plain m f).conditions.toNode.holds (cat.holds r) =
      Node.allHold (cat.holds r) (m.typeConditions.map .leaf ++ f.conjuncts) := by
    rw [← Node.holds_all, ← List.append_nil (_ ++ _)]
    rfl
  rw [hnodes, Folded.conjuncts, List.append_nil] at h
  rw [hnodes]
  exact Node.allHold_append h ((Folded.allHold_conjuncts hnever).trans hf)

/-- A condition that can be told for every record of a mapping leaves the hits that meet it. -/
theorem search_plain {hits : List Record} (h : cat.search (plain m (.const true)) = .ok hits)
    (hf : ∀ r ∈ cat.records.values, r.type = m.assetType →
      f.holds (cat.holds r) = .ok (keep r)) :
    ∃ rs : List Record, (∀ r ∈ rs, r ∈ cat.records.values ∧ r.type = m.assetType) ∧
      hits = rs.map (fun r => r.project m.projected) ∧
      (f.isNever = false → cat.search (plain m f) =
        .ok ((rs.filter keep).map fun r => r.project m.projected)) := by
  obtain ⟨rs, hrs, hhits, hnarrow⟩ := search_narrowed rfl rfl rfl rfl h
  refine ⟨rs, hrs, hhits, fun hnever => ?_⟩
  exact hnarrow _ keep fun r hr ht b hb => holds_plain hb hnever (hf r hr ht)

end Catalog

namespace Scope

variable {c : Scope} {m : EntityMapping} {r : Record} {f : Folding} {xs : List Entity}
  {native : NativeCondition → Attempt Bool} {literal : String} {b : Bool}

/-- A record whose entity has the name is read the same if the name is checked, and no other record
that a covering condition holds for is. -/
theorem readEntity_named (hn : (m.complex.map ComplexProperty.abstract).Nodup)
    (hq : m.hasQualifiedName = true)
    (hcovers : f.Covers native (decide (r.qualifiedName none m.mark = some literal)))
    (hb : f.folded.holds native = .ok b) (h : c.readEntity m none r = .ok xs) :
    if b = true then
      c.readEntity m (if f.approximate then some (.single (.nameIs literal)) else none) r =
        .ok (xs.filter (Entity.isNamed literal))
    else xs.filter (Entity.isNamed literal) = [] := by
  obtain ⟨htrue, hexact⟩ := hcovers.of_holds hb
  obtain ⟨o, ho, h⟩ := Attempt.bind_eq_ok.1 h
  rw [readEntity, ho, Attempt.ok_bind]
  cases o with
  | none =>
      cases h
      simp
  | some e =>
      cases h
      obtain ⟨qn, hqn, hfind⟩ := Entity.exists_qualifiedName hn hq (Entity.ofRecord?_eq_some.1 ho)
      have hnamed : e.isNamed literal = decide (qn = literal) := by
        simp [Entity.isNamed, Entity.qualifiedName, hfind]
      simp only [hqn, Option.some.injEq] at htrue hexact
      rw [List.filter_singleton, hnamed]
      split
      -- A condition that holds settles the name, unless it approximates: then the name is checked.
      · rename_i hbt
        cases ha : f.approximate with
        | false =>
            rw [← hexact ha, hbt]
            rfl
        | true =>
            simp only [if_true, PropertyGroup.matches_nameIs hfind, Attempt.ok_bind]
            cases decide (qn = literal) <;> rfl
      · rename_i hbf
        rw [Bool.eq_false_iff.2 fun he => hbf (htrue he), cond_false]

end Scope

namespace Collection

open Planner PropertyGroup MappingTable
open PropertyCondition (nameIs)

variable {c : Collection} {s : Service} {m : EntityMapping} {literal : String} {xs : List Entity}

/-- A search whose conditions leave some hits of another one finds what is read off these. Where no
record can meet the conditions, it does not run. -/
theorem entitiesOf_left {n : NativeSearch} (hn : n.IsFor m) {f : Folded} {rs : List Record}
    {keep : Record → Bool} (hout : (c.scope s).backend.outage .search = none)
    (hkeep : ∀ r ∈ rs, f.holds (s.catalog.holds r) = .ok (keep r))
    (hfound : f.isNever = false →
      s.catalog.search n = .ok ((rs.filter keep).map fun r => r.project m.projected))
    (hx : Scope.collect ((c.scope s).readEntity m n.residual) none
      ((rs.filter keep).map fun r => r.project m.projected) = .ok xs) :
    (c.scope s).entitiesOf (if f.isNever then none else some n).toList = .ok xs := by
  cases hnever : f.isNever with
  | false =>
      exact (Scope.entitiesOf_singleton hn).2
        ⟨_, Service.answer_bounded.2 ⟨hout, hfound hnever⟩, hx⟩
  | true =>
      have hnone : rs.filter keep = [] := by
        refine List.filter_eq_nil_iff.2 fun r hr hk => ?_
        have hfalse := hkeep r hr
        rw [Folded.holds_of_isNever hnever, hk] at hfalse
        cases hfalse
      rw [hnone] at hx
      rw [← hx]
      rfl

theorem entitiesFor_all (h : c.entitiesFor s {} m = .ok xs) :
    ∃ hits, (c.scope s).backend.answer (.plain m (.const true)) = .ok hits ∧
      Scope.collect ((c.scope s).readEntity m none) none hits = .ok xs := by
  have hsearch : c.planner.entitySearch {} m = .ok (some (.plain m (.const true))) := by
    rw [entitySearch, foldOption, Attempt.ok_bind, assemble_plain]
    rfl
  rw [entitiesFor, hsearch, Attempt.ok_bind] at h
  exact (Scope.entitiesOf_singleton (NativeSearch.isFor_plain m _)).1 h

theorem entitiesFor_asking {f : Folding} {k : PropertyCondition}
    (hres : c.planner.resolver m k true = .ok f) :
    c.entitiesFor s (({} : EntitySearch).asking (single k)) m =
      (c.scope s).entitiesOf (if f.folded.isNever then none else
        some { NativeSearch.plain m f.folded with
          residual := if f.approximate then some (single k) else none }).toList := by
  rw [entitiesFor, entitySearch_asking ((fold_single _ k).trans hres)]
  change (c.planner.assemble m f.folded none {} >>= _) >>= _ = _
  rw [assemble_plain]
  cases f.folded.isNever <;> cases f.approximate <;> rfl

/-- Asking for a name under one mapping gives the entities of the mapping that have it. -/
theorem entitiesFor_named (ht : c.table.Accepted) (hr : c.table.Readable)
    (hs : c.planner.SparesOwn) (hw : s.catalog.WellNamed c.table)
    (hm : m ∈ backed c.table.mappings) (hl : '\n' ∉ literal.toList)
    (h : c.entitiesFor s {} m = .ok xs) :
    c.entitiesFor s (({} : EntitySearch).asking (single (nameIs literal))) m =
      .ok (xs.filter (Entity.isNamed literal)) := by
  obtain ⟨hsimple, hq⟩ := hr.named m hm
  have hn := EntityMapping.nodup_complex (ht.checked m (mem_backed.1 hm).1)
  have hname : Record.nameProperty ∈ m.projected := by simp [EntityMapping.projected]
  have hres : c.planner.resolver m (nameIs literal) true =
      .ok (c.planner.nameFolding .exact literal m) := resolver_name hsimple hq rfl rfl
  generalize hf : c.planner.nameFolding .exact literal m = f at hres
  have hcovers (r : Record) (hmem : r ∈ s.catalog.records.values) (htype : r.type = m.assetType) :
      f.Covers (s.catalog.holds r) (decide (r.qualifiedName none m.mark = some literal)) :=
    hf ▸ nameFolding_covers hr hs hw hm hl hmem htype
  obtain ⟨keep, hkeep⟩ := Attempt.exists_told
    fun r (hr : r ∈ s.catalog.records.values ∧ r.type = m.assetType) =>
      (hcovers r hr.1 hr.2).imp fun _ => And.left
  obtain ⟨hits, ha, hx⟩ := entitiesFor_all h
  obtain ⟨hout, hsearch⟩ := Service.answer_bounded.1 ha
  obtain ⟨rs, hrs, rfl, hfound⟩ := Catalog.search_plain hsearch
    fun r hr htype => hkeep r ⟨hr, htype⟩
  rw [Scope.collect_map] at hx
  -- The condition was told of the whole record, the entity is made of its projection.
  have hkept := Scope.collect_filter hx fun r hr us hu => by
    obtain ⟨hmem, htype⟩ := hrs r hr
    have hcover := hcovers r hmem htype
    rw [← Record.qualifiedName_project hname] at hcover
    exact Scope.readEntity_named hn hq hcover (hkeep r (hrs r hr)) hu
  rw [← Scope.collect_map (fun r => r.project m.projected)] at hkept
  rw [entitiesFor_asking hres]
  exact entitiesOf_left ⟨rfl, rfl, rfl⟩ hout (fun r hr => hkeep r (hrs r hr)) hfound hkept

/-- A lone condition on the qualified name leads to some mappings of a request that has all. -/
theorem exists_candidates_single {k : PropertyCondition} {kind : LiteralKind}
    (hp : k.property = qualifiedNameProperty) (hk : namePattern? k = some (.literal kind literal))
    {ms : List EntityMapping} (hms : c.planner.table.expand none [] = .ok ms) :
    ∃ ms', c.planner.candidates (({} : EntitySearch).asking (single k)) = .ok ms' := by
  have hlone : loneName? (({} : EntitySearch).asking (single k)).properties = some (kind, literal) :=
    loneName?_single hp hk
  have htypes : c.planner.table.checkTypes [] = .ok () := rfl
  rw [candidates, shortcut?, hlone]
  change ∃ ms', (c.planner.table.checkTypes [] >>= _) >>= _ = _
  rw [htypes, Attempt.ok_bind]
  split
  · exact ⟨_, rfl⟩
  · cases c.planner.owners? kind literal with
    | some os => exact ⟨_, rfl⟩
    | none => exact ⟨ms, hms⟩

/-- Looking up by a qualified name is exact: of all entities, those are answered that have it. -/
theorem lookup_by_name_exact (hc : c.table = MappingTable.standard) (hs : c.planner.SparesOwn)
    (hw : s.catalog.WellNamed c.table) (hl : '\n' ∉ literal.toList)
    {operation operation' : String} {all : List Entity}
    (h : (c.run operation (c.findEntities s {})).1 = .ok (.value all)) :
    (c.run operation' (c.findEntities s
      { properties := some (.single ⟨qualifiedNameProperty, .eq, .text literal⟩) })).1 =
        .ok (.value (all.filter fun e => e.qualifiedName = some literal)) := by
  have ht : c.table.Accepted := hc ▸ MappingTable.accepted_standard
  have hr : c.table.Readable := hc ▸ MappingTable.readable_standard
  obtain ⟨ms, xss, hms, hxss, rfl⟩ := mapM_of_findEntities (q := {}) ht (run_eq_value.1 h)
  have hk : namePattern? (nameIs literal) = some (.literal .exact literal) := rfl
  obtain ⟨ms', hms'⟩ := exists_candidates_single (c := c) rfl hk hms
  obtain ⟨leads, rfl, hleads⟩ := candidates_single (p := c.planner) ht hr rfl hk hms' hms
  have hnamed (m : EntityMapping) (hm : m ∈ ms) {xs : List Entity}
      (hx : c.entitiesFor s {} m = .ok xs) :=
    entitiesFor_named ht hr hs hw (candidates_backed (p := c.planner) hms m hm) hl hx
  obtain ⟨yss, hyss⟩ : ∃ yss, (ms.filter leads).mapM
      (c.entitiesFor s (({} : EntitySearch).asking (single (nameIs literal)))) = .ok yss := by
    refine Attempt.exists_mapM fun m hm => ?_
    have hmem := (List.mem_filter.1 hm).1
    obtain ⟨xs, _, hx⟩ := Attempt.exists_of_mapM hxss hmem
    exact ⟨_, hnamed m hmem hx⟩
  have hflat : yss.flatten = xss.flatten.filter (Entity.isNamed literal) := by
    refine Attempt.flatten_filter hxss hyss fun m hm xs hx => ?_
    rcases hleads m hm with hl | ⟨hl, hnever⟩
    · rw [hl]
      exact hnamed m hm hx
    · -- A mapping that is left out has no entity of the name.
      have hback := hr.named m (candidates_backed (p := c.planner) hms m hm)
      have hres := resolver_name (p := c.planner) hback.1 hback.2 rfl hk
      rw [hl, if_neg Bool.false_ne_true]
      exact Except.ok.inj ((hnamed m hm hx).symm.trans
        (entitiesFor_never hres (congrArg (fun f => f.folded.isNever) hnever)))
  rw [run_eq_value]
  refine (findEntities_of_mapM ht rfl hms' hyss).trans (congrArg _ hflat)

end Collection

namespace Sample

def customerCategory : Record := { ref := ⟨"category-1", "category", some "Customer"⟩ }

def customerTerm : Record :=
  { ref := ⟨"term-2", "term", some "Id"⟩, context := [customerCategory.ref] }

/-- A database on its host, and a term in its category. -/
def namedService : Service :=
  { catalog := (hostedService.catalog.put customerCategory).put customerTerm }

theorem values_namedService : namedService.catalog.records.values =
    [capitalHost, hostedDatabase, customerCategory, customerTerm] := rfl

theorem wellNamed_namedService : namedService.catalog.WellNamed MappingTable.standard where
  named := by
    have hgiven : ∀ r ∈ namedService.catalog.records.values, ∀ n ∈ r.ref.name,
        QualifiedName.IsName n := by
      decide +kernel
    intro r hr
    refine ⟨r.ref.name, ?_, hgiven r hr⟩
    rw [values_namedService] at hr
    simp only [List.mem_cons, List.not_mem_nil, or_false] at hr
    rcases hr with rfl | rfl | rfl | rfl <;> rfl
  ancestors := by decide +kernel
  paths := by
    have hdepth : ∀ m ∈ MappingTable.backed MappingTable.standard.mappings,
        (m.assetType = "host" → m.contextPaths = some []) ∧
        (m.assetType = "database" → m.contextPaths = some ["host.name"]) ∧
        (m.assetType = "category" → m.contextPaths = none) ∧
        (m.assetType = "term" → m.contextPaths = none) := by
      decide +kernel
    intro m hm paths hpaths r hr htype
    obtain ⟨hhost, hdatabase, hcategory, hterm⟩ := hdepth m hm
    rw [values_namedService] at hr
    simp only [List.mem_cons, List.not_mem_nil, or_false] at hr
    rcases hr with rfl | rfl | rfl | rfl
    · cases hpaths.symm.trans (hhost htype.symm)
      exact .nil
    · cases hpaths.symm.trans (hdatabase htype.symm)
      exact .cons rfl .nil
    · cases hpaths.symm.trans (hcategory htype.symm)
    · cases hpaths.symm.trans (hterm htype.symm)

/-- The entities that a request finds, as an operation answers them. -/
def entities (q : EntitySearch) : Attempt (Outcome (List Entity)) :=
  (collection.run "find_entities" (collection.findEntities namedService q)).1

def named (literal : String) : EntitySearch :=
  { properties := some (.single ⟨qualifiedNameProperty, .eq, .text literal⟩) }

theorem guids_entities : guidsOf (entities {}) =
    some ["e:home-1::host:host-3", "e:home-1::database:database-2",
      "e:home-1::category:category-1", "e:home-1::term:term-2"] := by
  decide +kernel

theorem guids_databaseNamed : guidsOf (entities (named "DATABASE::HOST::sales")) =
    some ["e:home-1::database:database-2"] := by
  decide +kernel

theorem guids_termNamed : guidsOf (entities (named "TERM::Customer::Id")) =
    some ["e:home-1::term:term-2"] := by
  decide +kernel

/-- A database is found by the names along its path, a term by its own name and a check. -/
theorem database_and_term_looked_up : ∃ all, entities {} = .ok (.value all) ∧
    all.map Entity.guid = ["e:home-1::host:host-3", "e:home-1::database:database-2",
      "e:home-1::category:category-1", "e:home-1::term:term-2"] ∧
    (∀ literal ∈ ["DATABASE::HOST::sales", "TERM::Customer::Id"], entities (named literal) =
      .ok (.value (all.filter fun e => e.qualifiedName = some literal))) ∧
    guidsOf (entities (named "DATABASE::HOST::sales")) = some ["e:home-1::database:database-2"] ∧
    guidsOf (entities (named "TERM::Customer::Id")) = some ["e:home-1::term:term-2"] := by
  obtain ⟨all, ha, hg⟩ := exists_of_guidsOf guids_entities
  refine ⟨all, ha, hg, fun literal hl => ?_, guids_databaseNamed, guids_termNamed⟩
  have hbreak : ∀ literal ∈ ["DATABASE::HOST::sales", "TERM::Customer::Id"],
      '\n' ∉ literal.toList := by
    decide
  exact Collection.lookup_by_name_exact (c := collection) (s := namedService) rfl
    (Planner.sparesOwn_standard _) wellNamed_namedService (hbreak literal hl) ha

end Sample

end MetaFed
