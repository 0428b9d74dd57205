import MetaFed.Proofs.Classified
import MetaFed.Proofs.Lookup
import MetaFed.Proofs.Reading

/-!
Two conditions at once: one on a property that is copied from the catalog, one on the qualified
name. Where the name can only be approximated, both are checked again on the entities that were
read. Together they find what each of them finds, but for the asset types that a lone end of a name
leaves out.
-/

namespace MetaFed

/-- What some items give of two kinds is what they give of both, if they tell what they give. Items
that one of the kinds is not asked of are left out. -/
theorem Attempt.mem_flatten_both {α β : Type} {f g h : α → Attempt (List β)} {leads : α → Bool}
    {kept : Bool} {xs : List α} {fss gss hss : List (List β)} {b : β} (hf : xs.mapM f = .ok fss)
    (hg : (xs.filter leads).mapM g = .ok gss) (hh : xs.mapM h = .ok hss)
    (hboth : ∀ x ∈ xs, ∀ ys zs us, f x = .ok ys → g x = .ok zs → h x = .ok us →
      (b ∈ us ↔ b ∈ ys ∧ b ∈ zs))
    (hone : ∀ x ∈ xs, ∀ x' ∈ xs, ∀ ys zs, f x = .ok ys → g x' = .ok zs → b ∈ ys → b ∈ zs → x = x')
    (hlead : ∀ x ∈ xs, ∀ us, h x = .ok us → b ∈ us → leads x = kept) :
    b ∈ fss.flatten ∧ b ∈ gss.flatten ↔ b ∈ hss.flatten ∧ kept = true := by
  rw [mem_flatten_mapM hf, mem_flatten_mapM hg, mem_flatten_mapM hh]
  constructor
  · rintro ⟨⟨x, hx, ys, hys, hby⟩, x', hx', zs, hzs, hbz⟩
    obtain ⟨hx', hl⟩ := List.mem_filter.1 hx'
    obtain rfl := hone x hx x' hx' ys zs hys hzs hby hbz
    obtain ⟨us, _, hus⟩ := exists_of_mapM hh hx
    have hbu : b ∈ us := (hboth x hx ys zs us hys hzs hus).2 ⟨hby, hbz⟩
    exact ⟨⟨x, hx, us, hus, hbu⟩, (hlead x hx us hus hbu).symm.trans hl⟩
  · rintro ⟨⟨x, hx, us, hus, hbu⟩, hk⟩
    have hl : leads x = true := (hlead x hx us hus hbu).trans hk
    obtain ⟨ys, _, hys⟩ := exists_of_mapM hf hx
    obtain ⟨zs, _, hzs⟩ := exists_of_mapM hg (List.mem_filter.2 ⟨hx, hl⟩)
    obtain ⟨hby, hbz⟩ := (hboth x hx ys zs us hys hzs hus).1 hbu
    exact ⟨⟨x, hx, ys, hys, hby⟩, x, List.mem_filter.2 ⟨hx, hl⟩, zs, hzs, hbz⟩

section Truth

variable {native : NativeCondition → Attempt Bool}

theorem Node.allHold_eq_true {ns : List Node} :
    allHold native ns = .ok true ↔ ∀ n ∈ ns, n.holds native = .ok true := by
  induction ns with
  | nil => simp [allHold]
  | cons n ns ih =>
      rw [allHold, List.forall_mem_cons, ← ih, Attempt.bind_eq_ok]
      constructor
      · rintro ⟨b, hb, h⟩
        cases b with
        | false => cases h
        | true => exact ⟨hb, h⟩
      · rintro ⟨hn, hns⟩
        exact ⟨true, hn, hns⟩

namespace Folded

variable {f : Folded} {fs : List Folded}

theorem isNever_of_holds (h : f.holds native = .ok true) : f.isNever = false := by
  cases hn : f.isNever with
  | false => rfl
  | true => cases (holds_of_isNever hn).symm.trans h

theorem holds_nodes (hn : fs.any isNever = false) :
    (∀ n ∈ nodes fs, n.holds native = .ok true) ↔ ∀ f ∈ fs, f.holds native = .ok true := by
  induction fs with
  | nil => simp [nodes]
  | cons f fs ih =>
      rw [List.any_cons, Bool.or_eq_false_iff] at hn
      rw [List.forall_mem_cons, ← ih hn.2]
      cases f with
      | node n => exact List.forall_mem_cons
      | const b =>
          obtain rfl : b = true := by simpa [isNever] using hn.1
          rw [nodes_const]
          exact ⟨fun h => ⟨rfl, h⟩, And.right⟩

theorem combine_all_eq_true : (combine .all fs).holds native = .ok true ↔
    ∀ f ∈ fs, f.holds native = .ok true := by
  simp only [combine]
  split
  · rename_i hn
    obtain ⟨f, hf, hnever⟩ := List.any_eq_true.1 hn
    refine ⟨fun h => ?_, fun h => ?_⟩
    · cases h
    · cases (holds_of_isNever hnever).symm.trans (h f hf)
  · rename_i hn
    rw [← holds_nodes (by simpa using hn)]
    split
    · rename_i hnodes
      simp [hnodes, holds]
    · rename_i n hnodes
      simp [hnodes, holds]
    · rw [holds, Node.holds_all, Node.allHold_eq_true]

theorem conjuncts_eq_true (hn : f.isNever = false) :
    (∀ n ∈ f.conjuncts, n.holds native = .ok true) ↔ f.holds native = .ok true := by
  rw [← Node.allHold_eq_true, allHold_conjuncts hn]

end Folded

end Truth

namespace Scope

variable {c : Scope} {m : EntityMapping} {residual : Option PropertyGroup} {r : Record}
  {rs : List Record} {xs : List Entity} {e : Entity}

theorem mem_readEntity (h : c.readEntity m residual r = .ok xs) :
    e ∈ xs ↔ Entity.ofRecord c.home m r = .ok e ∧
      ∀ g ∈ residual, g.matches e.properties = .ok true := by
  obtain ⟨o, ho, h⟩ := Attempt.bind_eq_ok.1 h
  rw [← Entity.ofRecord?_eq_some, ho]
  cases o with
  | none =>
      cases h
      simp
  | some e' =>
      cases residual with
      | none =>
          cases h
          simp [eq_comm]
      | some g =>
          obtain ⟨b, hb, h⟩ := Attempt.bind_eq_ok.1 h
          cases h
          cases b with
          | true => simp +contextual [eq_comm, hb]
          | false =>
              simp only [Bool.false_eq_true, if_false, List.not_mem_nil, false_iff, not_and]
              rintro ⟨⟩ hg
              cases hb.symm.trans (hg g rfl)

theorem mem_collect_readEntity (h : collect (c.readEntity m residual) none rs = .ok xs) :
    e ∈ xs ↔ ∃ r ∈ rs, Entity.ofRecord c.home m r = .ok e ∧
      ∀ g ∈ residual, g.matches e.properties = .ok true := by
  rw [mem_collect h]
  refine exists_congr fun r => and_congr_right fun hr => ?_
  obtain ⟨us, hus⟩ := exists_read_of_collect h r hr
  rw [← mem_readEntity hus, hus]
  simp

end Scope

namespace PropertyGroup

/-- Some conditions of which all have to hold. -/
def all (ks : List PropertyCondition) : PropertyGroup := ⟨ks.map .leaf, .all⟩

variable {ks : List PropertyCondition} {resolve : Resolver} {values : Assoc String Value}

theorem allHold_leaves {judge : PropertyCondition → Attempt Bool} :
    Criterion.allHold judge (ks.map .leaf) = .ok true ↔ ∀ k ∈ ks, judge k = .ok true := by
  induction ks with
  | nil => simp [Criterion.allHold]
  | cons k ks ih =>
      rw [List.map_cons, Criterion.allHold, Criterion.holds, List.forall_mem_cons, ← ih,
        Attempt.bind_eq_ok]
      constructor
      · rintro ⟨b, hb, h⟩
        cases b with
        | false => cases h
        | true => exact ⟨hb, h⟩
      · rintro ⟨hk, hks⟩
        exact ⟨true, hk, hks⟩

theorem matches_all : (all ks).matches values = .ok true ↔ ∀ k ∈ ks, k.holds values = .ok true := by
  rw [PropertyGroup.matches, all, toCriterion, Criterion.holds]
  cases ks with
  | nil => simp
  | cons k ks => exact allHold_leaves

theorem foldAll_leaves (conjunctive : Bool) :
    Criterion.foldAll resolve conjunctive (ks.map .leaf) =
      ks.mapM fun k => resolve k conjunctive := by
  induction ks with
  | nil => rfl
  | cons k ks ih =>
      rw [List.map_cons, Criterion.foldAll, Criterion.fold, ih, List.mapM_cons]
      rfl

theorem fold_all_eq_ok {f : Folding} : (all ks).fold resolve = .ok f ↔
    ∃ fs, (ks.mapM fun k => resolve k true) = .ok fs ∧
      f = ⟨Folded.combine .all (fs.map Folding.folded), fs.any Folding.approximate⟩ := by
  rw [fold, all, toCriterion, Criterion.fold]
  cases ks with
  | nil =>
      constructor
      · rintro ⟨⟩
        exact ⟨[], rfl, rfl⟩
      · rintro ⟨fs, ⟨⟩, rfl⟩
        rfl
  | cons k ks =>
      simp only [List.map_cons, List.isEmpty_cons, Bool.false_eq_true, if_false, Criterion.passesOn,
        Bool.and_true]
      rw [← List.map_cons, foldAll_leaves, Attempt.bind_eq_ok]
      simp only [Except.ok.injEq, eq_comm (b := f)]

end PropertyGroup

namespace Planner

open MappingTable PropertyGroup

variable {p : Planner} {q : EntitySearch} {m : EntityMapping} {k : PropertyCondition} {f : Folding}
  {cat : Catalog} {r : Record} {g : Folded}

/-- A record is one of the mapping, and has the classifications that a request asks for. -/
structure Concerns (p : Planner) (cat : Catalog) (q : EntitySearch) (m : EntityMapping)
    (r : Record) :
    Prop where
  mem : r ∈ cat.records.values
  type : r.type = m.assetType
  conditions : ∀ k ∈ m.typeConditions, (Node.leaf k).holds (cat.holds r) = .ok true
  classified : ∃ g, p.foldClassifications m q.classifications = .ok g ∧
    g.holds (cat.holds r) = .ok true

theorem holds_whereClause {native : NativeCondition → Attempt Bool} {f : Folded}
    (hf : f.isNever = false) (hg : g.isNever = false) :
    (whereClause m f g).toNode.holds native = .ok true ↔
      (∀ k ∈ m.typeConditions, (Node.leaf k).holds native = .ok true) ∧
        f.holds native = .ok true ∧ g.holds native = .ok true := by
  have hnodes : (whereClause m f g).toNode.holds native =
      Node.allHold native (m.typeConditions.map .leaf ++ f.conjuncts ++ Folded.nodes [g]) :=
    Node.holds_all _
  rw [hnodes, Node.allHold_eq_true, List.forall_mem_append, List.forall_mem_append,
    List.forall_mem_map,
    Folded.conjuncts_eq_true hf, Folded.holds_nodes (by simpa using hg), List.forall_mem_singleton,
    and_assoc]

/-- A condition on the qualified name that comes to something broader for the mapping. -/
def Approximates (p : Planner) (m : EntityMapping) (k : PropertyCondition) : Prop :=
  ∃ f, p.resolver m k true = .ok f ∧ f.approximate = true

/-- The asset type that a lone condition on the qualified name narrows a search to. -/
def narrows? (p : Planner) (k : PropertyCondition) : Option String :=
  match namePattern? k with
  | some (.literal kind literal) => p.tailType? kind literal
  | _ => none

/-- A lone condition on the qualified name goes through the mappings of the asset type it narrows
the search to, but for some that it never holds for. -/
theorem candidates_named (ht : p.table.Accepted) (hr : p.table.Readable)
    (hp : k.property = qualifiedNameProperty) {ms ns : List EntityMapping}
    (hms : p.candidates (q.asking (single k)) = .ok ms)
    (hns : p.table.expand q.type q.within = .ok ns) :
    ∃ leads : EntityMapping → Bool, ms = ns.filter leads ∧
      ∀ m ∈ ns, leads m = (p.narrows? k).all (fun a => m.assetType == a) ∨
        (leads m = false ∧ ∀ f, p.resolver m k true = .ok f → f.folded.isNever = true) := by
  -- Only a literal leads to owners of the name; other conditions leave the expansion as it is.
  by_cases hk : ∃ kind literal, namePattern? k = some (.literal kind literal)
  · obtain ⟨kind, literal, hk⟩ := hk
    obtain ⟨leads, hms, hleads⟩ := candidates_single ht hr hp hk hms hns
    refine ⟨leads, hms, fun m hm => ?_⟩
    simp only [narrows?, hk]
    refine (hleads m hm).imp_right fun h => ⟨h.1, fun f hf => ?_⟩
    have hnamed := hr.named m (by
      rw [expand_eq_filter hr hns] at hm
      exact (List.mem_filter.1 hm).1)
    rw [resolver_name hnamed.1 hnamed.2 hp hk, h.2] at hf
    cases hf
    rfl
  · have hnone : loneName? (q.asking (single k)).properties = none := by
      simp only [EntitySearch.asking, loneName?, loneCondition?, single, Option.bind_eq_bind,
        Option.bind_some, hp]
      cases hk' : namePattern? k with
      | none => rfl
      | some pattern =>
          cases pattern with
          | general => rfl
          | literal kind literal => exact absurd ⟨kind, literal, hk'⟩ hk
    have hsame : ms = ns := by
      rw [candidates, shortcut?, hnone] at hms
      exact Except.ok.inj (hms.symm.trans hns)
    refine ⟨fun _ => true, by simp [hsame], fun m _ => .inl ?_⟩
    simp only [narrows?]
    split
    · rename_i kind literal hk'
      exact absurd ⟨kind, literal, hk'⟩ hk
    · rfl

end Planner

namespace Collection

open Planner PropertyGroup MappingTable

variable {c : Collection} {s : Service} {q : EntitySearch} {m : EntityMapping}
  {p k : PropertyCondition} {g : PropertyGroup} {f : Folding} {e : Entity} {xs ys zs : List Entity}

/-- What some conditions came to is never met, or else the mapping is searched for it. -/
theorem entitySearch_cases (hf : g.fold (c.planner.resolver m) = .ok f) {o : Option NativeSearch}
    (h : c.planner.entitySearch (q.asking g) m = .ok o) :
    (o = none ∧ f.folded.isNever = true) ∨
      ∃ k, c.planner.foldClassifications m q.classifications = .ok k ∧
        ((o = none ∧ k.isNever = true) ∨
          ∃ sorts, f.folded.isNever = false ∧ k.isNever = false ∧
            o = some { types := [m.assetType], conditions := whereClause m f.folded k,
                       properties := m.projected, sorts, mapping := some m,
                       residual := if f.approximate then some g else none }) := by
  rw [entitySearch_asking hf] at h
  obtain ⟨o, ha, h⟩ := Attempt.bind_eq_ok.1 h
  cases h
  obtain ⟨rfl, hnever⟩ | ⟨k, hk, ⟨rfl, hnever⟩ | ⟨sorts, _, hf, hk', rfl⟩⟩ := assemble_cases ha
  · exact .inl ⟨rfl, hnever⟩
  · exact .inr ⟨k, hk, .inl ⟨rfl, hnever⟩⟩
  · refine .inr ⟨k, hk, .inr ⟨sorts, hf, hk', ?_⟩⟩
    cases f.approximate <;> rfl

/-- Under one mapping a request finds the entities of the records that it concerns and that the
catalog finds to meet the conditions; approximated ones are checked on the entity. -/
theorem mem_entitiesFor (hf : g.fold (c.planner.resolver m) = .ok f)
    (h : c.entitiesFor s (q.asking g) m = .ok xs) :
    e ∈ xs ↔ ∃ r, c.planner.Concerns s.catalog q m r ∧
      f.folded.holds (s.catalog.holds r) = .ok true ∧
      Entity.ofRecord c.home m (r.project m.projected) = .ok e ∧
      (f.approximate = true → g.matches e.properties = .ok true) := by
  obtain ⟨o, ho, h⟩ := Attempt.bind_eq_ok.1 h
  -- Where no search runs, a condition that never holds keeps every record from being concerned.
  obtain ⟨rfl, hnever⟩ | ⟨k, hk, ⟨rfl, hnever⟩ | ⟨sorts, hf', hk', rfl⟩⟩ := entitySearch_cases hf ho
  · cases h
    refine ⟨fun he => absurd he List.not_mem_nil, fun ⟨r, _, hr, _⟩ => ?_⟩
    cases hnever.symm.trans (Folded.isNever_of_holds hr)
  · cases h
    refine ⟨fun he => absurd he List.not_mem_nil, fun ⟨r, hr, _⟩ => ?_⟩
    obtain ⟨k', hk', hr⟩ := hr.classified
    cases hk.symm.trans hk'
    cases hnever.symm.trans (Folded.isNever_of_holds hr)
  · obtain ⟨hits, ha, hx⟩ := (Scope.entitiesOf_singleton ⟨rfl, rfl, rfl⟩).1 h
    have hsearch := (Service.answer_bounded.1 ha).2
    have hconcerns (r : Record) : c.planner.Concerns s.catalog q m r ∧
        f.folded.holds (s.catalog.holds r) = .ok true ↔ r ∈ s.catalog.records.values ∧
          r.type = m.assetType ∧
            (whereClause m f.folded k).toNode.holds (s.catalog.holds r) = .ok true := by
      rw [holds_whereClause hf' hk']
      constructor
      · rintro ⟨⟨hmem, htype, hconditions, k', hk', hclassified⟩, hr⟩
        cases hk.symm.trans hk'
        exact ⟨hmem, htype, hconditions, hr, hclassified⟩
      · rintro ⟨hmem, htype, hconditions, hr, hclassified⟩
        exact ⟨⟨hmem, htype, hconditions, k, hk, hclassified⟩, hr⟩
    rw [Scope.mem_collect_readEntity hx]
    simp only [Catalog.mem_search_all rfl rfl hsearch, List.mem_singleton]
    constructor
    · rintro ⟨_, ⟨r, hmem, htype, hr, rfl⟩, he, hg⟩
      obtain ⟨hc, hr⟩ := (hconcerns r).2 ⟨hmem, htype, hr⟩
      exact ⟨r, hc, hr, he, fun ha => hg g (by rw [ha]; rfl)⟩
    · rintro ⟨r, hc, hr, he, hg⟩
      obtain ⟨hmem, htype, hr⟩ := (hconcerns r).1 ⟨hc, hr⟩
      refine ⟨_, ⟨r, hmem, htype, hr, rfl⟩, he, fun g' hg' => ?_⟩
      rw [Option.mem_def, Option.ite_none_right_eq_some] at hg'
      obtain ⟨ha, hg'⟩ := hg'
      cases hg'
      exact hg ha

theorem exists_fold (h : c.entitiesFor s (q.asking g) m = .ok xs) :
    ∃ f, g.fold (c.planner.resolver m) = .ok f := by
  obtain ⟨_, ho, _⟩ := Attempt.bind_eq_ok.1 h
  obtain ⟨f, hf, _⟩ := Attempt.bind_eq_ok.1 ho
  exact ⟨f, hf⟩

/-- No condition of a conjunction that finds an entity is one that is never met. -/
theorem exists_met_of_mem {ks : List PropertyCondition} (hk : k ∈ ks)
    (h : c.entitiesFor s (q.asking (all ks)) m = .ok xs) (he : e ∈ xs) :
    ∃ f, c.planner.resolver m k true = .ok f ∧ f.folded.isNever = false := by
  obtain ⟨f, hf⟩ := exists_fold h
  obtain ⟨r, _, hr, _⟩ := (mem_entitiesFor hf h).1 he
  obtain ⟨fs, hfs, rfl⟩ := fold_all_eq_ok.1 hf
  obtain ⟨f, hf, hres⟩ := Attempt.exists_of_mapM hfs hk
  exact ⟨f, hres, Folded.isNever_of_holds
    (Folded.combine_all_eq_true.1 hr f.folded (List.mem_map_of_mem hf))⟩

theorem eq_of_ofRecord (ht : c.table.Accepted) (hk : s.catalog.Keyed)
    (hm : m ∈ backed c.table.mappings) {r r' : Record} (hr : c.planner.Concerns s.catalog q m r)
    (hr' : c.planner.Concerns s.catalog q m r')
    (h : Entity.ofRecord c.home m (r.project m.projected) = .ok e)
    (h' : Entity.ofRecord c.home m (r'.project m.projected) = .ok e) : r = r' := by
  refine hk.eq_of_id hr.mem hr'.mem ?_
  by_contra hne
  have howned {r : Record} (hr : c.planner.Concerns s.catalog q m r) :
      Origin.Owned c.table ⟨m, r.project m.projected⟩ := ⟨hm, (r.project_type _).trans hr.type⟩
  refine Origin.guid_ne ht (howned hr) (howned hr') (fun _ hid => hne ?_) h h' rfl
  simpa using hid

/-- Under one mapping a copied property and the qualified name together find what each of them
finds, if what is checked again of the property on the entities is upheld. -/
theorem mem_entitiesFor_both (ht : c.table.Accepted) (hkeyed : s.catalog.Keyed)
    (hm : m ∈ backed c.table.mappings) (hp : m.Copies p.property)
    (hu : c.planner.Approximates m k → ∀ x, m.simpleFor p.property = some x →
      ∀ r ∈ s.catalog.records.values, r.type = m.assetType → p.UpheldOn x.backend r)
    (hx : c.entitiesFor s (q.asking (single p)) m = .ok xs)
    (hy : c.entitiesFor s (q.asking (single k)) m = .ok ys)
    (hz : c.entitiesFor s (q.asking (all [p, k])) m = .ok zs) :
    e ∈ zs ↔ e ∈ xs ∧ e ∈ ys := by
  obtain ⟨fp, hfp⟩ := exists_fold hx
  obtain ⟨fk, hfk⟩ := exists_fold hy
  rw [mem_entitiesFor hfp hx, mem_entitiesFor hfk hy]
  rw [fold_single] at hfp hfk
  have hexact : fp.approximate = false := resolver_copied hp hfp
  have hboth : (all [p, k]).fold (c.planner.resolver m) =
      .ok ⟨Folded.combine .all [fp.folded, fk.folded], fk.approximate⟩ := by
    refine fold_all_eq_ok.2 ⟨[fp, fk], ?_, by simp [hexact]⟩
    simp only [List.mapM_cons, List.mapM_nil, hfp, hfk, Attempt.ok_bind, Attempt.pure_eq_ok]
  rw [mem_entitiesFor hboth hz]
  have hsingle (k : PropertyCondition) (vs : Assoc String Value) :
      (single k).matches vs = .ok true ↔ k.holds vs = .ok true :=
    (@matches_all [k] vs).trans List.forall_mem_singleton
  simp only [Folded.combine_all_eq_true, List.forall_mem_cons, List.not_mem_nil, false_imp_iff,
    implies_true, and_true, matches_all, hsingle, hexact, Bool.false_eq_true]
  constructor
  · rintro ⟨r, hr, ⟨hrp, hrk⟩, he, hg⟩
    exact ⟨⟨r, hr, hrp, he⟩, r, hr, hrk, he, fun ha => (hg ha).2⟩
  · rintro ⟨⟨r, hr, hrp, he⟩, r', hr', hrk, he', hg⟩
    -- An entity is made of one record only, so that one record meets both conditions.
    obtain rfl := eq_of_ofRecord ht hkeyed hm hr hr' he he'
    refine ⟨r, hr, ⟨hrp, hrk⟩, he, fun ha => ⟨?_, hg ha⟩⟩
    have hn := EntityMapping.nodup_abstractProperties (ht.checked m (mem_backed.1 hm).1)
    exact holds_of_copied hp hn hfp hrp
      (fun x hx => hu ⟨fk, hfk, ha⟩ x hx r hr.mem hr.type) he

end Collection

namespace Planner

open PropertyGroup

variable {p : Planner} {q : EntitySearch} {k : PropertyCondition}

theorem candidates_unnamed (hk : k.property ≠ qualifiedNameProperty) :
    p.candidates (q.asking (single k)) = p.table.expand q.type q.within := by
  have hnone : loneName? (q.asking (single k)).properties = none := by
    simp [EntitySearch.asking, loneName?, loneCondition?, single, hk]
  rw [candidates, shortcut?, hnone]
  rfl

end Planner

namespace Collection

open Planner PropertyGroup MappingTable

variable {c : Collection} {s : Service} {q : EntitySearch} {p k : PropertyCondition}

/-- A condition on a copied property and one on the qualified name find together what both of them
find, if what is checked again of the property is upheld. A lone end of a name that tells an asset
type leaves the other types out. -/
theorem conjunction_intersects (hc : c.table = MappingTable.standard) (hkeyed : s.catalog.Keyed)
    (hp : ∃ m ∈ backed c.table.mappings, (m.simpleFor p.property).isSome = true)
    (hk : k.property = qualifiedNameProperty)
    (hu : ∀ m ∈ backed c.table.mappings, c.planner.accepts q m = true → c.planner.Approximates m k →
      ∀ x, m.simpleFor p.property = some x →
        ∀ r ∈ s.catalog.records.values, r.type = m.assetType → p.UpheldOn x.backend r)
    {operation operation' operation'' : String} {copied named both : List Entity}
    (hcopied : (c.run operation
      (c.findEntities s ((q.asking (single p)).withPage 0 0))).1 = .ok (.value copied))
    (hnamed : (c.run operation'
      (c.findEntities s ((q.asking (single k)).withPage 0 0))).1 = .ok (.value named))
    (hboth : (c.run operation''
      (c.findEntities s ((q.asking ⟨[.leaf p, .leaf k], .all⟩).withPage 0 0))).1 =
        .ok (.value both)) (e : Entity) :
    e ∈ copied ∧ e ∈ named ↔
      e ∈ both ∧ (c.planner.narrows? k).all fun a => c.planner.ofAsset a e := by
  have ht : c.table.Accepted := hc ▸ accepted_standard
  have hr : c.table.Readable := hc ▸ readable_standard
  obtain ⟨hne, hcopies⟩ : p.property ≠ qualifiedNameProperty ∧
      ∀ m ∈ backed c.table.mappings, m.Copies p.property := by
    rw [hc] at hp ⊢
    exact copies_standard hp
  obtain ⟨ns, xss, hns, hxss, rfl⟩ := mapM_of_findEntities ht (run_eq_value.1 hcopied)
  obtain ⟨ms, yss, hms, hyss, rfl⟩ := mapM_of_findEntities ht (run_eq_value.1 hnamed)
  obtain ⟨ns', zss, hns', hzss, rfl⟩ := mapM_of_findEntities ht (run_eq_value.1 hboth)
  rw [candidates_unnamed hne] at hns
  obtain rfl : ns' = ns := Except.ok.inj (hns'.symm.trans hns)
  obtain ⟨leads, rfl, hleads⟩ := candidates_named (p := c.planner) ht hr hk hms hns
  have hback (m : EntityMapping) (hm : m ∈ ns') : m ∈ backed c.table.mappings ∧
      c.planner.accepts q m = true :=
    List.mem_filter.1 (expand_eq_filter (p := c.planner) hr hns ▸ hm)
  refine Attempt.mem_flatten_both hxss hyss hzss (fun m hm xs ys zs hx hy hz => ?_)
    (fun m hm m' hm' xs ys hx hy hex hey => ?_) (fun m hm zs hz hez => ?_)
  · exact mem_entitiesFor_both ht hkeyed (hback m hm).1 (hcopies m (hback m hm).1)
      (hu m (hback m hm).1 (hback m hm).2) hx hy hz
  · -- The entity tells its mapping.
    refine ht.eq_of_abstractType (mem_backed.1 (hback m hm).1).1
      (mem_backed.1 (hback m' hm').1).1 ?_
    exact (type_of_mem_entitiesFor hx e hex).symm.trans (type_of_mem_entitiesFor hy e hey)
  · rcases hleads m hm with hspares | ⟨_, hnever⟩
    · rw [hspares]
      congr 1
      funext a
      exact (ofAsset_eq (p := c.planner) ht (mem_backed.1 (hback m hm).1).1
        (type_of_mem_entitiesFor hz e hez) a).symm
    · have hmem : k ∈ [p, k] := List.mem_cons_of_mem p (List.mem_singleton_self k)
      obtain ⟨f, hf, hmet⟩ := exists_met_of_mem hmem hz hez
      cases hmet.symm.trans (hnever f hf)

end Collection

namespace Sample

open PropertyGroup

def vendorCategory : Record := { ref := ⟨"category-2", "category", some "Vendor"⟩ }

/-- A term of the name Id in a category. -/
def idTerm (n : String) (category : Record) (abbreviation : Value) : Record :=
  { ref := ⟨"term-" ++ n, "term", some "Id"⟩, context := [category.ref],
    properties := [("abbreviation", abbreviation)] }

/-- Identifiers of customers and of vendors, some of them with several abbreviations. -/
def idService : Service :=
  { catalog := (((({} : Catalog).put customerCategory).put vendorCategory).put
      (idTerm "1" customerCategory (.texts ["ID", "CID"]))).put
      (idTerm "2" vendorCategory (.texts ["ID", "VID"])) |>.put
      (idTerm "3" customerCategory (.text "No")) }

def abbreviationLike (pattern : String) : PropertyCondition :=
  ⟨"abbreviation", .like, .text pattern⟩

/-- The terms that conditions find, as an operation answers them. -/
def terms (g : PropertyGroup) : Attempt (Outcome (List Entity)) :=
  (collection.run "find_entities" (collection.findEntities idService
    ((({ type := some "GlossaryTerm" } : EntitySearch).asking g).withPage 0 0))).1

theorem keyed_idService : idService.catalog.Keyed := by
  repeat refine Catalog.keyed_put ?_ _
  exact Catalog.keyed_empty

theorem guids_terms :
    guidsOf (terms (single (abbreviationLike "\\QID\\E"))) =
      some ["e:home-1::term:term-1", "e:home-1::term:term-2"] ∧
    guidsOf (terms (single nameEnd)) =
      some ["e:home-1::term:term-1", "e:home-1::term:term-3"] ∧
    guidsOf (terms ⟨[.leaf (abbreviationLike "\\QID\\E"), .leaf nameEnd], .all⟩) =
      some ["e:home-1::term:term-1"] := by
  decide +kernel

/-- The end of a term's name is approximated, and the abbreviations, of which there are several, are
checked again with it. -/
theorem conjunction_intersects_terms : idService.catalog.Keyed ∧
    (∃ f, collection.planner.resolver MappingTable.Standard.term nameEnd true = .ok f ∧
      f.approximate = true) ∧ ∃ copied named both : List Entity,
    copied.map Entity.guid = ["e:home-1::term:term-1", "e:home-1::term:term-2"] ∧
    named.map Entity.guid = ["e:home-1::term:term-1", "e:home-1::term:term-3"] ∧
    both.map Entity.guid = ["e:home-1::term:term-1"] ∧
    ∀ e, e ∈ copied ∧ e ∈ named ↔ e ∈ both := by
  obtain ⟨hcopied, hnamed, hboth⟩ := guids_terms
  obtain ⟨copied, hc, hcg⟩ := exists_of_guidsOf hcopied
  obtain ⟨named, hn, hng⟩ := exists_of_guidsOf hnamed
  obtain ⟨both, hb, hbg⟩ := exists_of_guidsOf hboth
  have hp : ∃ m ∈ MappingTable.backed collection.table.mappings,
      (m.simpleFor (abbreviationLike "\\QID\\E").property).isSome = true := by
    decide +kernel
  have hnarrows : collection.planner.narrows? nameEnd = none := by
    decide +kernel
  refine ⟨keyed_idService, ⟨_, resolver_nameEnd, rfl⟩, copied, named, both, hcg, hng, hbg,
    fun e => ?_⟩
  have h := Collection.conjunction_intersects (c := collection) (s := idService)
    (q := { type := some "GlossaryTerm" }) rfl keyed_idService hp (by rfl)
    (fun m _ _ _ x _ r _ _ => PropertyCondition.upheldOn_of_pattern rfl rfl) hc hn hb e
  rwa [hnarrows, Option.all_none, and_iff_left rfl] at h

def databaseNamed (name : String) : PropertyCondition := ⟨"name", .eq, .text name⟩

theorem guids_salesNamed :
    guidsOf (databases (single (databaseNamed "sales"))) =
      some ["e:home-1::database:database-2"] ∧
    guidsOf (databases
        ⟨[.leaf (databaseNamed "sales"), .leaf (nameEndsWith "HOST::sales")], .all⟩) =
      some ["e:home-1::database:database-2"] := by
  decide +kernel

/-- The end of the name finds no database by itself, but one together with the database's name. -/
theorem database_found_by_both : hostedService.catalog.Keyed ∧ ∃ copied named both,
    databases (single (databaseNamed "sales")) = .ok (.value copied) ∧
    databases (single (nameEndsWith "HOST::sales")) = .ok (.value named) ∧
    databases ⟨[.leaf (databaseNamed "sales"), .leaf (nameEndsWith "HOST::sales")], .all⟩ =
      .ok (.value both) ∧
    ¬ ∀ e, e ∈ both ↔ e ∈ copied ∧ e ∈ named := by
  obtain ⟨copied, hc, _⟩ := exists_of_guidsOf guids_salesNamed.1
  obtain ⟨named, hn, hng⟩ := exists_of_guidsOf guids_endsWith_single
  obtain ⟨both, hb, hbg⟩ := exists_of_guidsOf guids_salesNamed.2
  refine ⟨Catalog.keyed_put (Catalog.keyed_put Catalog.keyed_empty _) _, copied, named, both, hc,
    hn, hb, fun h => ?_⟩
  obtain rfl : named = [] := List.map_eq_nil_iff.1 hng
  cases both with
  | nil => cases hbg
  | cons e es => exact absurd ((h e).1 List.mem_cons_self).2 List.not_mem_nil

end Sample

end MetaFed
