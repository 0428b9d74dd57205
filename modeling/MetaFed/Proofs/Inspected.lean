import MetaFed.Proofs.Consistent
import MetaFed.Proofs.WhereClause

/-!
What the searches of a plan look at. Whatever a request asks for, the comparisons of a search go
along paths that the mapping or the request leads to, and a free-text search goes along those paths
only that the release does not exclude.
-/

namespace MetaFed

variable {Q : String → Prop}

namespace Node

variable {native native' : NativeCondition → Attempt Bool} {ns : List Node}

theorem mem_comparisonsOf {k : NativeCondition} :
    k ∈ comparisonsOf ns ↔ ∃ n ∈ ns, k ∈ n.comparisons := by
  induction ns with
  | nil => simp [comparisonsOf]
  | cons n ns ih => rw [comparisonsOf, List.mem_append, ih, List.exists_mem_cons_iff]

mutual

theorem holds_congr (n : Node) (h : ∀ k ∈ n.comparisons, native k = native' k) :
    n.holds native = n.holds native' := by
  cases n with
  | leaf k => rw [holds, holds, h k (by simp [comparisons])]
  | group ns matchAny negated =>
      obtain ⟨hany, hall⟩ := membersHold_congr ns h
      rw [holds, holds, hany, hall]

theorem membersHold_congr (ns : List Node) (h : ∀ k ∈ comparisonsOf ns, native k = native' k) :
    anyHolds native ns = anyHolds native' ns ∧ allHold native ns = allHold native' ns := by
  cases ns with
  | nil => exact ⟨rfl, rfl⟩
  | cons n ns =>
      have hn := holds_congr n fun k hk => h k (List.mem_append_left _ hk)
      obtain ⟨hany, hall⟩ := membersHold_congr ns fun k hk => h k (List.mem_append_right _ hk)
      rw [anyHolds, anyHolds, allHold, allHold, hn, hany, hall]
      exact ⟨rfl, rfl⟩

end

/-- All comparisons of the condition go along paths of a kind. -/
def Along (Q : String → Prop) (n : Node) : Prop :=
  ∀ k ∈ n.comparisons, Q k.property

@[simp] theorem along_leaf {k : NativeCondition} : (leaf k).Along Q ↔ Q k.property := by
  simp [Along, comparisons]

@[simp] theorem along_compare {path : String} {o : NativeOperator} {value : Value} :
    (compare path o value).Along Q ↔ Q path := along_leaf

@[simp] theorem along_group {matchAny negated : Bool} :
    (group ns matchAny negated).Along Q ↔ ∀ n ∈ ns, n.Along Q := by
  simp only [Along, comparisons, mem_comparisonsOf]
  exact ⟨fun h n hn k hk => h k ⟨n, hn, hk⟩, fun h k ⟨n, hn, hk⟩ => h n hn k hk⟩

end Node

namespace Folded

variable {f : Folded} {fs : List Folded}

def Along (Q : String → Prop) : Folded → Prop
  | .const _ => True
  | .node n => n.Along Q

theorem along_nodes (h : ∀ f ∈ fs, f.Along Q) : ∀ n ∈ nodes fs, n.Along Q := by
  intro n hn
  obtain ⟨f, hf, hfn⟩ := List.mem_filterMap.1 hn
  cases f with
  | const b => cases hfn
  | node n' =>
      cases hfn
      exact h _ hf

theorem along_combine (criteria : Criteria) (h : ∀ f ∈ fs, f.Along Q) :
    (combine criteria fs).Along Q := by
  have hn := along_nodes h
  generalize hns : nodes fs = ns at hn
  have hgroup (matchAny negated : Bool) : (Node.group ns matchAny negated).Along Q :=
    Node.along_group.2 hn
  have hlone (n : Node) (e : ns = [n]) : n.Along Q := hn n (e ▸ List.mem_cons_self)
  cases criteria with
  | all =>
      rw [combine, hns]
      split
      · trivial
      · split
        · trivial
        · exact hlone _ rfl
        · exact hgroup false false
  | any =>
      rw [combine, hns]
      split
      · trivial
      · split
        · trivial
        · exact hlone _ rfl
        · exact hgroup true false
  | none =>
      rw [combine, hns]
      split
      · trivial
      · split
        · trivial
        · exact hgroup true true

theorem along_conjuncts (h : f.Along Q) : ∀ n ∈ f.conjuncts, n.Along Q := by
  unfold conjuncts
  split
  · rintro _ ⟨⟩
  · exact Node.along_group.1 h
  · exact List.forall_mem_singleton.2 h

end Folded

theorem PropertyCondition.along_compile {c : PropertyCondition} {backend : String}
    {k : NativeCondition} (h : c.compile backend = .ok k) (hq : Q backend) :
    (Folded.node (.leaf k)).Along Q := by
  refine Node.along_leaf.2 ?_
  rw [(compile_plain h).1]
  exact hq

namespace Criterion

variable {resolve : Resolver}

mutual

theorem along_fold (m : Criterion) (conjunctive : Bool) (f : Folding)
    (hr : ∀ c ∈ m.leaves, ∀ j f, resolve c j = .ok f → f.folded.Along Q)
    (h : m.fold resolve conjunctive = .ok f) : f.folded.Along Q := by
  cases m with
  | leaf c => exact hr c (by simp [leaves]) conjunctive f h
  | group criteria ms =>
      rw [fold] at h
      split at h
      · cases h
        trivial
      · obtain ⟨fs, hfs, h⟩ := Attempt.bind_eq_ok.1 h
        cases h
        refine Folded.along_combine criteria (List.forall_mem_map.2 ?_)
        exact along_foldAll ms _ fs hr hfs

theorem along_foldAll (ms : List Criterion) (conjunctive : Bool) (fs : List Folding)
    (hr : ∀ c ∈ leavesOf ms, ∀ j f, resolve c j = .ok f → f.folded.Along Q)
    (h : foldAll resolve conjunctive ms = .ok fs) : ∀ f ∈ fs, f.folded.Along Q := by
  cases ms with
  | nil =>
      cases h
      rintro _ ⟨⟩
  | cons m ms =>
      obtain ⟨f, hf, h⟩ := Attempt.bind_eq_ok.1 h
      obtain ⟨fs', hfs, h⟩ := Attempt.bind_eq_ok.1 h
      cases h
      refine List.forall_mem_cons.2 ⟨?_, ?_⟩
      · exact along_fold m conjunctive f (fun c hc => hr c (List.mem_append_left _ hc)) hf
      · exact along_foldAll ms conjunctive fs' (fun c hc => hr c (List.mem_append_right _ hc)) hfs

end

end Criterion

namespace PropertyGroup

theorem along_foldOption {resolve : Resolver} {g : Option PropertyGroup} {f : Folding}
    (hr : ∀ g' ∈ g, ∀ c ∈ g'.leaves, ∀ j f, resolve c j = .ok f → f.folded.Along Q)
    (h : foldOption resolve g = .ok f) : f.folded.Along Q := by
  cases g with
  | none =>
      cases h
      trivial
  | some g =>
      have hleaves : g.toCriterion.leaves = g.leaves := by
        rw [toCriterion, Criterion.leaves, leaves]
      exact Criterion.along_fold g.toCriterion true f (hleaves ▸ hr g rfl) h

end PropertyGroup

theorem Resolver.along_through {backendFor : String → Option String} {c : PropertyCondition}
    {j : Bool} {f : Folding} (hb : ∀ a, ∀ b ∈ backendFor a, Q b)
    (h : through backendFor c j = .ok f) : f.folded.Along Q := by
  unfold through at h
  split at h
  · next b hbackend =>
      obtain ⟨k, hk, h⟩ := Attempt.bind_eq_ok.1 h
      cases h
      exact PropertyCondition.along_compile hk (hb _ b hbackend)
  · cases h
    trivial

namespace NameFold

variable {m : EntityMapping}

theorem along_conjunction {ns : List Node} (h : ∀ n ∈ ns, n.Along Q) :
    (conjunction ns).Along Q := by
  unfold conjunction
  split
  · trivial
  · exact h _ List.mem_cons_self
  · exact Node.along_group.2 h

theorem along_startsAlong {paths : List String} (h : ∀ path ∈ paths, Q path)
    (segments : List String) : ∀ n ∈ startsAlong paths segments, n.Along Q := by
  fun_induction startsAlong paths segments with
  | case1 => simp
  | case2 path paths s hs => simpa [along] using h path List.mem_cons_self
  | case3 path paths s ss hss ih =>
      refine List.forall_mem_cons.2 ⟨Node.along_compare.2 (h path List.mem_cons_self), ?_⟩
      exact ih fun q hq => h q (List.mem_cons_of_mem path hq)
  | case4 => simp

theorem along_equalAlong {paths : List String} (h : ∀ path ∈ paths, Q path)
    (segments : List String) : ∀ n ∈ equalAlong paths segments, n.Along Q := by
  refine List.forall_mem_map.2 fun ⟨path, s⟩ hs => ?_
  exact Node.along_compare.2 (h path (List.of_mem_zip hs).1)

theorem along_endsAlong {paths : List String} (h : ∀ path ∈ paths, Q path) (first : String)
    (rest : List String) : (endsAlong m paths first rest).folded.Along Q := by
  have htail (n : Nat) := along_equalAlong (fun path hp => h path (List.drop_subset n paths hp)) rest
  unfold endsAlong
  simp only
  split
  · split
    · exact along_conjunction (htail _)
    · trivial
  · refine along_conjunction (List.forall_mem_append.2 ⟨?_, htail _⟩)
    split
    · simp
    · refine List.forall_mem_map.2 fun path hp => Node.along_compare.2 (h path ?_)
      exact List.mem_of_getElem? (Option.mem_toList.1 hp)

section Mapping

variable (hm : ∀ paths ∈ m.contextPaths, ∀ path ∈ paths, Q path) (hname : Q Record.nameProperty)

include hm hname

theorem forall_namePaths {paths : List String} (h : m.contextPaths = some paths) :
    ∀ path ∈ namePaths paths, Q path :=
  List.forall_mem_append.2 ⟨hm paths h, List.forall_mem_singleton.2 hname⟩

theorem along_exact (literal : String) : (exact m literal).folded.Along Q := by
  unfold exact
  split
  · trivial
  · split
    · trivial
    · split
      · exact Node.along_compare.2 hname
      · next paths hpaths =>
          split
          · trivial
          · refine along_conjunction (List.forall_mem_append.2 ⟨?_, ?_⟩)
            · exact along_equalAlong (hm paths hpaths) _
            · exact List.forall_mem_singleton.2 (Node.along_compare.2 hname)

theorem along_startsWith (literal : String) : (startsWith m literal).folded.Along Q := by
  unfold startsWith
  simp only
  split
  · split <;> trivial
  · split
    · trivial
    · split
      · trivial
      · next paths hpaths =>
          split
          · trivial
          · exact along_conjunction (along_startsAlong (forall_namePaths hm hname hpaths) _)

theorem along_endsWith (literal : String) : (endsWith m literal).folded.Along Q := by
  unfold endsWith
  simp only
  split
  · exact Node.along_compare.2 hname
  · split
    · exact Node.along_compare.2 hname
    · next paths hpaths =>
        split
        · trivial
        · exact along_endsAlong (forall_namePaths hm hname hpaths) _ _

theorem along_contains (literal : String) : (contains m literal).folded.Along Q := by
  unfold contains
  split
  · trivial
  · next paths hpaths =>
      have hall : ∀ n ∈ (namePaths paths).map (along · .contains literal), n.Along Q :=
        List.forall_mem_map.2 fun path hp =>
          Node.along_compare.2 (forall_namePaths hm hname hpaths path hp)
      split
      · trivial
      · split
        · trivial
        · split
          · next n hn => exact hall n (hn ▸ List.mem_cons_self)
          · exact Node.along_group.2 hall

/-- A comparison of the qualified name goes along the names of a record and its ancestors. -/
theorem along_fold (pattern : SearchPattern) : (fold m pattern).folded.Along Q := by
  cases pattern with
  | general => trivial
  | literal kind l =>
      cases kind with
      | exact => exact along_exact hm hname l
      | startsWith => exact along_startsWith hm hname l
      | endsWith => exact along_endsWith hm hname l
      | contains => exact along_contains hm hname l

end Mapping

end NameFold

namespace EntityMapping

/-- Paths that the mapping gives, and that its searches can go along whatever they look for. -/
def paths (m : EntityMapping) : List String :=
  m.typeConditions.map NativeCondition.property ++ m.contextPaths.getD []
    ++ m.complex.filterMap ComplexProperty.searchPath
    ++ m.classifications.flatMap ClassificationMapping.projected

/-- Properties that decide which entities the mapping has and what they are called: the steps of its
paths, what it computes properties and reads classifications from, and what it requires. -/
def needs (m : EntityMapping) : List String :=
  m.paths.flatMap (Text.fieldsOf '.') ++ m.complex.flatMap ComplexProperty.reads
    ++ m.classifications.flatMap ClassificationMapping.projected
    ++ (m.simple.filter SimpleProperty.required).map SimpleProperty.backend

end EntityMapping

/-- A property is one of a record's own, or a mapping with records needs it. -/
def MappingTable.Needs (t : MappingTable) (p : String) : Prop :=
  p ∈ Record.systemProperties ∨ ∃ m ∈ backed t.mappings, p ∈ m.needs

instance (t : MappingTable) (p : String) : Decidable (t.Needs p) :=
  inferInstanceAs (Decidable (_ ∨ _))

/-- The standard mappings need no property that they copy without requiring it. -/
theorem MappingTable.not_needs_of_copied : ∀ m ∈ backed standard.mappings, ∀ x ∈ m.simple,
    x.required = false → ¬ standard.Needs x.backend := by
  decide +kernel

namespace Planner

variable {p : Planner} {m : EntityMapping} {f : Folded} {n : NativeSearch} {w : Window}
  {q : EntitySearch}

theorem along_anyMatches {paths : List String} {pattern : String} (hq : ∀ path ∈ paths, Q path)
    (h : anyMatches paths pattern = .ok f) : f.Along Q := by
  obtain ⟨ks, hks, h⟩ := Attempt.bind_eq_ok.1 h
  cases h
  refine Folded.along_combine .any (List.forall_mem_map.2 fun k hk => ?_)
  obtain ⟨path, hpath, hcompile⟩ := Attempt.exists_of_mem_mapM hks hk
  exact PropertyCondition.along_compile (c := ⟨path, .like, .text pattern⟩) hcompile (hq path hpath)

section Given

variable (hm : ∀ path ∈ m.paths, Q path)

include hm

theorem along_presence {k : ClassificationMapping} (hk : k ∈ m.classifications) :
    (presence k).Along Q := by
  have hq : Q k.backend := hm _ (List.mem_append_right _
    (List.mem_flatMap.2 ⟨k, hk, List.mem_cons_self⟩))
  unfold presence
  split <;> exact Node.along_compare.2 hq

theorem along_foldClassification {c : ClassificationCondition}
    (h : p.foldClassification m c = .ok f) : f.Along Q := by
  obtain ⟨_, _, h⟩ := Attempt.bind_eq_ok.1 h
  split at h
  · cases h
    trivial
  · next k hk =>
      have hk : k ∈ m.classifications := List.mem_of_find?_eq_some hk
      have hpresent := along_presence hm hk
      have hbackend (a b : String) (hb : b ∈ k.backendFor a) : Q b := by
        obtain ⟨x, hx, rfl⟩ := Option.map_eq_some_iff.1 hb
        refine hm _ (List.mem_append_right _ (List.mem_flatMap.2 ⟨k, hk, ?_⟩))
        exact List.mem_cons_of_mem _ (List.mem_map_of_mem (List.mem_of_find?_eq_some hx))
      obtain ⟨g, hg, h⟩ := Attempt.bind_eq_ok.1 h
      have hfolded : g.folded.Along Q := PropertyGroup.along_foldOption
        (fun _ _ _ _ _ _ hr => Resolver.along_through hbackend hr) hg
      split at h
      · cases h
        trivial
      · cases h
        exact Node.along_group.2 (List.forall_mem_singleton.2 hpresent)
      · next n hn =>
          cases h
          rw [hn] at hfolded
          exact Node.along_group.2 (by simpa using ⟨hpresent, hfolded⟩)

theorem along_foldClassifications {g : Option ClassificationGroup}
    (h : p.foldClassifications m g = .ok f) : f.Along Q := by
  unfold foldClassifications at h
  split at h
  · cases h
    trivial
  · split at h
    · cases h
      trivial
    · obtain ⟨fs, hfs, h⟩ := Attempt.bind_eq_ok.1 h
      cases h
      refine Folded.along_combine _ fun f hf => ?_
      obtain ⟨c, _, hc⟩ := Attempt.exists_of_mem_mapM hfs hf
      exact along_foldClassification hm hc

/-- A search goes along the paths of its mapping and those that its request folds to. -/
theorem along_assemble {g : Option ClassificationGroup} (hf : f.Along Q)
    (h : p.assemble m f g w = .ok (some n)) : n.conditions.toNode.Along Q := by
  obtain ⟨k, _, hk, _, rfl⟩ := assemble_eq_some h
  refine Node.along_group.2 (List.forall_mem_append.2 ⟨List.forall_mem_append.2 ⟨?_, ?_⟩, ?_⟩)
  · refine List.forall_mem_map.2 fun c hc => Node.along_leaf.2 (hm _ ?_)
    exact List.mem_append_left _ (List.mem_append_left _
      (List.mem_append_left _ (List.mem_map_of_mem hc)))
  · exact Folded.along_conjuncts hf
  · exact Folded.along_nodes (List.forall_mem_singleton.2 (along_foldClassifications hm hk))

end Given

/-- Without a sequencing property, the sort keys are properties of a record's own. -/
theorem systemic_sortKeys {ks : List SortKey} (hw : w.property = none)
    (h : sortKeys m w = .ok ks) : ∀ k ∈ ks, k.property ∈ Record.systemProperties := by
  unfold sortKeys at h
  rw [hw] at h
  split at h
  · next k hk =>
      cases h
      obtain ⟨o, _, ho⟩ := Option.bind_eq_some_iff.1 hk
      cases o <;> cases ho <;> decide
  · cases h
    decide
  · next hproperty => cases hproperty

theorem along_foldName {c : PropertyCondition} {j : Bool} {f : Folding}
    (hm : ∀ paths ∈ m.contextPaths, ∀ path ∈ paths, Q path) (hname : Q Record.nameProperty)
    (h : p.foldName m c j = .ok f) : f.folded.Along Q := by
  unfold foldName at h
  split at h
  · cases h
    trivial
  · cases h
    trivial
  · cases h
  · split at h
    · cases h
      trivial
    · simp only at h
      split at h
      · cases h
      · cases h
        exact NameFold.along_fold hm hname _

end Planner

/-- All steps of a path are properties of a kind. -/
def StepsIn (P : String → Prop) (path : String) : Prop :=
  ∀ step ∈ Text.fieldsOf '.' path, P step

/-- Which records a search finds, and in which order, rests on properties of a kind. -/
structure NativeSearch.RestsOn (P : String → Prop) (n : NativeSearch) : Prop where
  conditions : n.conditions.toNode.Along (StepsIn P)
  sorts : ∀ k ∈ n.sorts, P k.property

namespace Planner

variable {P : String → Prop} {p : Planner} {m : EntityMapping} {f : Folded} {n : NativeSearch}
  {q : EntitySearch} {plan : SearchPlan} {operation : Option String}

section Needed

variable (ht : ∀ x, p.table.Needs x → P x)

include ht

theorem stepsIn_paths (hm : m ∈ MappingTable.backed p.table.mappings) :
    ∀ path ∈ m.paths, StepsIn P path := by
  intro path hpath step hstep
  refine ht step (.inr ⟨m, hm, ?_⟩)
  exact List.mem_append_left _ (List.mem_append_left _
    (List.mem_append_left _ (List.mem_flatMap.2 ⟨path, hpath, hstep⟩)))

theorem restsOn_assemble (hm : m ∈ MappingTable.backed p.table.mappings)
    {g : Option ClassificationGroup} {w : Window} (hw : w.property = none)
    (hf : f.Along (StepsIn P)) (h : p.assemble m f g w = .ok (some n)) : n.RestsOn P := by
  refine ⟨along_assemble (stepsIn_paths ht hm) hf h, ?_⟩
  obtain ⟨_, ks, _, hks, rfl⟩ := assemble_eq_some h
  exact fun k hk => ht _ (.inl (systemic_sortKeys hw hks k hk))

theorem restsOn_planEntities (hr : p.table.Readable) {c : PropertyCondition}
    (hc : c.property = qualifiedNameProperty) (hq : q.properties = some (.single c))
    (hw : q.window.property = none) (h : p.planEntities q operation = .ok plan) :
    ∀ n ∈ plan.searches, n.RestsOn P := by
  intro n hn
  obtain ⟨ms, hms, m, hm, k, hk, _, _, rfl⟩ := mem_planEntities h hn
  have hm := candidates_backed hms m hm
  suffices hrests : k.RestsOn P from ⟨hrests.conditions, hrests.sorts⟩
  obtain ⟨f, k', hf, hassemble, hresidual⟩ := entitySearch_eq_some hk
  have hpaths := stepsIn_paths ht hm
  have halong : f.folded.Along (StepsIn P) := by
    refine PropertyGroup.along_foldOption (fun g hg d hd j x hx => ?_) hf
    obtain rfl : .single c = g := Option.some.inj (hq.symm.trans hg)
    obtain rfl : d = c := by
      simpa [PropertyGroup.single, PropertyGroup.leaves, Criterion.leavesOf, Criterion.leaves]
        using hd
    rw [resolver_foldName (hr.named m hm).1 (hr.named m hm).2 hc] at hx
    refine along_foldName (fun paths h path hp => hpaths path ?_) ?_ hx
    · refine List.mem_append_left _ (List.mem_append_left _ (List.mem_append_right _ ?_))
      rw [Option.mem_def.1 h]
      exact hp
    · rw [StepsIn, Catalog.fieldsOf_plain (by decide)]
      exact List.forall_mem_singleton.2 (ht _ (.inl (by decide)))
  have hrests := restsOn_assemble ht hm hw halong hassemble
  rcases hresidual with rfl | rfl
  · exact ⟨hrests.conditions, hrests.sorts⟩
  · exact hrests

omit ht in
theorem rerouted_eq_some {value : String} {g : PropertyGroup}
    (h : p.rerouted? value = .ok (some g)) :
    g = .single ⟨qualifiedNameProperty, .like, .text value⟩ := by
  obtain ⟨_, _, h⟩ := Attempt.bind_eq_ok.1 h
  simp only at h
  split at h
  · cases h
    rfl
  · cases h

theorem restsOn_planText {version : Option String} {value : String} {reported : StringProperties}
    (hd : ∀ m ∈ MappingTable.backed p.table.mappings, ∀ x ∈ m.simple, '.' ∉ x.backend.toList)
    (hP : ∀ ms, p.candidates q = .ok ms → ms ≠ [] →
      ∀ x, x ∉ (Assoc.find? (version.getD "") p.exclusions).getD [] → P x)
    (hw : q.window.property = none)
    (h : p.planText q value reported version operation = .ok plan) :
    ∀ n ∈ plan.searches, n.RestsOn P := by
  intro n hn
  obtain ⟨ms, hms, m, hm, k, hk, _, _, rfl⟩ := mem_planText h hn
  have hP := hP ms hms (List.ne_nil_of_mem hm)
  have hm := candidates_backed hms m hm
  suffices hrests : k.RestsOn P from ⟨hrests.conditions, hrests.sorts⟩
  obtain ⟨f, hf, hassemble⟩ := textSearch_eq_some hk
  refine restsOn_assemble ht hm hw (along_anyMatches ?_ hf) hassemble
  refine List.forall_mem_append.2 ⟨fun b hb => ?_, fun path hp => stepsIn_paths ht hm path ?_⟩
  · obtain ⟨hb, hkept⟩ := List.mem_filter.1 hb
    obtain ⟨x, hx, rfl⟩ := List.mem_map.1 hb
    rw [StepsIn, Catalog.fieldsOf_plain (hd m hm x hx)]
    refine List.forall_mem_singleton.2 (hP _ ?_)
    simpa using (Bool.and_eq_true_iff.1 hkept).2
  · exact List.mem_append_left _ (List.mem_append_right _ hp)

end Needed

end Planner

end MetaFed
