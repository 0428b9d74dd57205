import MetaFed.Proofs.Conjunction
import MetaFed.Proofs.Refused

/-!
What the conditions of one search say of a record. They are true of it where the conditions of the
mapping hold, what the property conditions came to holds, and the classifications are there that
the request asks for; where there is no search, no record is of that kind.
-/

namespace MetaFed

/-- How many of some items a group asks for. -/
def Criteria.Demands {α : Type} (criteria : Criteria) (P : α → Prop) (xs : List α) : Prop :=
  match criteria with
  | .all => ∀ x ∈ xs, P x
  | .any => ∃ x ∈ xs, P x
  | .none => ∀ x ∈ xs, ¬ P x

theorem Criteria.demands_iff_of_forall₂ {α β : Type} {P : α → Prop} {Q : β → Prop} {xs : List α}
    {ys : List β} (criteria : Criteria) (h : List.Forall₂ (fun x y => P x ↔ Q y) xs ys) :
    criteria.Demands P xs ↔ criteria.Demands Q ys := by
  induction h with
  | nil => cases criteria <;> simp [Demands]
  | cons hxy _ ih =>
      cases criteria with
      | all => simpa [Demands, hxy] using fun _ => ih
      | any => simpa [Demands, hxy] using or_congr_right ih
      | none => simpa [Demands, hxy] using fun _ => ih

variable {native : NativeCondition → Attempt Bool}

namespace Node

mutual

/-- The comparisons in a condition, without the groups they stand in. -/
def comparisons : Node → List NativeCondition
  | .leaf k => [k]
  | .group ns _ _ => comparisonsOf ns

def comparisonsOf : List Node → List NativeCondition
  | [] => []
  | n :: ns => comparisons n ++ comparisonsOf ns

end

mutual

theorem exists_holds_of_comparisons : ∀ n : Node,
    (∀ k ∈ n.comparisons, ∃ b, native k = .ok b) → ∃ b, n.holds native = .ok b
  | .leaf k, h => by
    obtain ⟨b, hb⟩ := h k (by simp [comparisons])
    exact ⟨_, by rw [holds, hb, Attempt.map_ok]⟩
  | .group ns matchAny negated, h => by
    obtain ⟨b, b', hany, hall⟩ := exists_of_comparisonsOf ns h
    simp only [holds, hany, hall]
    split
    · exact ⟨_, rfl⟩
    · split <;> exact ⟨_, rfl⟩

theorem exists_of_comparisonsOf : ∀ ns : List Node,
    (∀ k ∈ comparisonsOf ns, ∃ b, native k = .ok b) →
      ∃ b b', anyHolds native ns = .ok b ∧ allHold native ns = .ok b'
  | [], _ => ⟨false, true, rfl, rfl⟩
  | n :: ns, h => by
    obtain ⟨t, ht⟩ := exists_holds_of_comparisons n fun k hk => h k (List.mem_append_left _ hk)
    obtain ⟨b, b', hany, hall⟩ :=
      exists_of_comparisonsOf ns fun k hk => h k (List.mem_append_right _ hk)
    rw [anyHolds, allHold, ht, Attempt.ok_bind, Attempt.ok_bind, hany, hall]
    cases t with
    | false => exact ⟨b, false, rfl, rfl⟩
    | true => exact ⟨true, b', rfl, rfl⟩

end

theorem anyHolds_eq_ok {ns : List Node} {b : Bool} (h : anyHolds native ns = .ok b) :
    b = true ↔ ∃ n ∈ ns, n.holds native = .ok true := by
  induction ns with
  | nil =>
      cases h
      simp
  | cons n ns ih =>
      rw [anyHolds] at h
      obtain ⟨t, ht, h⟩ := Attempt.bind_eq_ok.1 h
      rw [List.exists_mem_cons_iff, ht]
      cases t with
      | true =>
          cases h
          simp
      | false => simpa using ih h

/-- Members that hold leave the truth of a conjunction to the others. -/
theorem allHold_append_of_forall {ns ns' : List Node} (h : ∀ n ∈ ns, n.holds native = .ok true) :
    allHold native (ns ++ ns') = allHold native ns' := by
  induction ns with
  | nil => rfl
  | cons n ns ih =>
      rw [List.forall_mem_cons] at h
      rw [List.cons_append, allHold, h.1, Attempt.ok_bind]
      exact ih h.2

end Node

namespace Folded

variable {f : Folded} {fs : List Folded} {b : Bool}

theorem exists_nodes (hn : fs.any isAlways = false) :
    (∃ n ∈ nodes fs, n.holds native = .ok true) ↔ ∃ f ∈ fs, f.holds native = .ok true := by
  induction fs with
  | nil => simp [nodes]
  | cons f fs ih =>
      rw [List.any_cons, Bool.or_eq_false_iff] at hn
      rw [List.exists_mem_cons_iff, ← ih hn.2]
      cases f with
      | node n => exact List.exists_mem_cons_iff _ _ _
      | const b =>
          obtain rfl : b = false := by simpa [isAlways] using hn.1
          have hnever : ¬ (const false).holds native = .ok true := by simp [holds]
          rw [nodes_const]
          exact (or_iff_right hnever).symm

theorem holds_node_all {ns : List Node} : (node (.all ns)).holds native = .ok true ↔
    ∀ n ∈ ns, n.holds native = .ok true := by
  rw [holds, Node.holds_all, Node.allHold_eq_true]

theorem holds_of_isAlways (h : f.isAlways = true) : f.holds native = .ok true := by
  cases f with
  | node n => cases h
  | const b =>
      obtain rfl : b = true := h
      rfl

theorem combine_any_eq_ok (h : (combine .any fs).holds native = .ok b) :
    b = true ↔ ∃ f ∈ fs, f.holds native = .ok true := by
  simp only [combine] at h
  split at h
  · rename_i ha
    obtain ⟨f, hf, halways⟩ := List.any_eq_true.1 ha
    cases h
    exact iff_of_true rfl ⟨f, hf, holds_of_isAlways halways⟩
  · rename_i ha
    rw [← exists_nodes (by simpa using ha)]
    split at h
    · rename_i hnodes
      cases h
      simp [hnodes]
    · rename_i n hnodes
      rw [hnodes]
      exact Node.anyHolds_eq_ok ((holds_single_any n).symm.trans h)
    · rename_i hne _
      exact Node.anyHolds_eq_ok ((Node.holds_any hne).symm.trans h)

theorem combine_none_eq_ok (h : (combine .none fs).holds native = .ok b) :
    b = true ↔ ∀ f ∈ fs, ¬ f.holds native = .ok true := by
  simp only [combine] at h
  split at h
  · rename_i ha
    obtain ⟨f, hf, halways⟩ := List.any_eq_true.1 ha
    cases h
    exact iff_of_false Bool.false_ne_true fun hall => hall f hf (holds_of_isAlways halways)
  · rename_i ha
    have hsome : (∃ n ∈ nodes fs, n.holds native = .ok true) ↔
        ∃ f ∈ fs, f.holds native = .ok true := exists_nodes (by simpa using ha)
    have hnone : (∀ f ∈ fs, ¬ f.holds native = .ok true) ↔
        ¬ ∃ n ∈ nodes fs, n.holds native = .ok true := by
      rw [hsome]
      push Not
      rfl
    rw [hnone]
    split at h
    · rename_i hnodes
      cases h
      simp [hnodes]
    · rename_i hne
      rw [holds, Node.holds_group_any hne] at h
      obtain ⟨found, hfound, rfl⟩ := Attempt.map_eq_ok.1 h
      rw [← Node.anyHolds_eq_ok hfound]
      cases found <;> simp

/-- A group of folded conditions that has a truth value is true where as many of them are as it
asks for. -/
theorem combine_eq_ok {criteria : Criteria} (h : (combine criteria fs).holds native = .ok b) :
    b = true ↔ criteria.Demands (fun f => f.holds native = .ok true) fs := by
  cases criteria with
  | all =>
      rw [Criteria.Demands, ← combine_all_eq_true, h, Except.ok.injEq]
  | any => exact combine_any_eq_ok h
  | none => exact combine_none_eq_ok h

end Folded

namespace Resolver

variable {backendFor : String → Option String} {c : PropertyCondition}

/-- What a condition comes to for a record whose properties are mapped in this way: the truth of
its comparison, or without a mapping whether it asks for an absent value. -/
def verdict (backendFor : String → Option String) (native : NativeCondition → Attempt Bool)
    (c : PropertyCondition) : Attempt Bool :=
  match backendFor c.property with
  | some b => do (Node.leaf (← c.compile b)).holds native
  | none => .ok (decide (c.operator = .isNull))

theorem through_respects {b : Bool} (h : verdict backendFor native c = .ok b) :
    (through backendFor).Respects native b c := by
  intro conjunctive f hf
  rw [through] at hf
  rw [verdict] at h
  cases hb : backendFor c.property with
  | none =>
      rw [hb] at h hf
      cases h
      cases hf
      exact ⟨⟨_, rfl, id, fun _ => rfl⟩, fun ha => nomatch ha⟩
  | some backend =>
      rw [hb] at h hf
      obtain ⟨k, hk, hf⟩ := Attempt.bind_eq_ok.1 hf
      obtain ⟨k', hk', h⟩ := Attempt.bind_eq_ok.1 h
      cases hk.symm.trans hk'
      cases hf
      exact ⟨⟨b, h, id, fun _ => rfl⟩, fun ha => nomatch ha⟩

theorem exists_through (h : ∀ b, backendFor c.property = some b → ∃ k, c.compile b = .ok k)
    (conjunctive : Bool) : ∃ f, through backendFor c conjunctive = .ok f := by
  rw [through]
  split
  · rename_i b hb
    obtain ⟨k, hk⟩ := h b hb
    rw [hk]
    exact ⟨_, rfl⟩
  · exact ⟨_, rfl⟩

theorem compile_of_verdict {found : Bool} (h : verdict backendFor native c = .ok found) (b : String)
    (hb : backendFor c.property = some b) : ∃ k, c.compile b = .ok k := by
  rw [verdict, hb] at h
  obtain ⟨k, hk, _⟩ := Attempt.bind_eq_ok.1 h
  exact ⟨k, hk⟩

theorem through_exact (c : PropertyCondition) (conjunctive : Bool) (f : Folding)
    (h : through backendFor c conjunctive = .ok f) : f.approximate = false := by
  rw [through] at h
  split at h
  · obtain ⟨k, _, h⟩ := Attempt.bind_eq_ok.1 h
    cases h
    rfl
  · cases h
    rfl

end Resolver

namespace Criterion

variable {resolve : Resolver}

mutual

theorem fold_exact (hr : ∀ c j f, resolve c j = .ok f → f.approximate = false) :
    ∀ (k : Criterion) (j : Bool) (f : Folding), k.fold resolve j = .ok f → f.approximate = false
  | .leaf c, j, f, h => hr c j f h
  | .group criteria ms, j, f, h => by
    rw [fold] at h
    split at h
    · cases h
      rfl
    · obtain ⟨fs, hfs, h⟩ := Attempt.bind_eq_ok.1 h
      cases h
      exact List.any_eq_false.2 fun f' hf' => by simpa using foldAll_exact hr ms _ fs hfs f' hf'

theorem foldAll_exact (hr : ∀ c j f, resolve c j = .ok f → f.approximate = false) :
    ∀ (ks : List Criterion) (j : Bool) (fs : List Folding), foldAll resolve j ks = .ok fs →
      ∀ f ∈ fs, f.approximate = false
  | [], j, fs, h => by
    cases h
    simp
  | k :: ks, j, fs, h => by
    rw [foldAll] at h
    obtain ⟨f, hf, h⟩ := Attempt.bind_eq_ok.1 h
    obtain ⟨fs', hfs', h⟩ := Attempt.bind_eq_ok.1 h
    cases h
    rw [List.forall_mem_cons]
    exact ⟨fold_exact hr k j f hf, foldAll_exact hr ks j fs' hfs'⟩

end

end Criterion

/-- No condition is a search pattern without native counterpart. -/
def PropertyCondition.HasNative (c : PropertyCondition) : Prop :=
  ∀ pattern, c.operator = .like → c.value = .text pattern →
    SearchPattern.classify pattern ≠ .general

theorem PropertyCondition.exists_compile {c : PropertyCondition} (h : c.HasNative)
    (backend : String) : ∃ k, c.compile backend = .ok k := by
  have hstring : ∃ k, PropertyOperator.string? backend c.operator c.value = .ok k := by
    unfold PropertyOperator.string?
    split
    · rename_i pattern ho hv
      split
      · exact ⟨_, rfl⟩
      · rename_i hgeneral
        exact absurd hgeneral (h pattern ho hv)
    · exact ⟨_, rfl⟩
    · exact ⟨_, rfl⟩
  unfold PropertyCondition.compile PropertyOperator.compile
  split
  · exact ⟨_, rfl⟩
  · exact ⟨_, rfl⟩
  · exact ⟨_, rfl⟩
  · obtain ⟨k, hk⟩ := hstring
    rw [hk]
    exact ⟨_, rfl⟩

namespace PropertyGroup

variable {backendFor : String → Option String} {o : Option PropertyGroup} {f : Folding}

/-- What conditions come to for a record; without any, the record meets them. -/
def verdict (backendFor : String → Option String) (native : NativeCondition → Attempt Bool) :
    Option PropertyGroup → Attempt Bool
  | none => .ok true
  | some g => g.toCriterion.holds (Resolver.verdict backendFor native)

theorem foldOption_through (hf : foldOption (Resolver.through backendFor) o = .ok f)
    (h : ∀ g, o = some g → ∀ c ∈ g.leaves, ∃ b, Resolver.verdict backendFor native c = .ok b) :
    f.folded.holds native = verdict backendFor native o := by
  cases o with
  | none =>
      cases hf
      rfl
  | some g =>
      obtain ⟨truth, htruth⟩ := Attempt.exists_told (h g rfl)
      have hl : g.toCriterion.leaves = g.leaves := by rw [toCriterion, Criterion.leaves, leaves]
      rw [← hl] at htruth
      obtain ⟨v, hv, ⟨b, hb, _, hexact⟩, _⟩ := Criterion.fold_covers g.toCriterion true f htruth
        (fun c hc => Resolver.through_respects (htruth c hc)) hf
      have hf' := Criterion.fold_exact Resolver.through_exact g.toCriterion true f hf
      rw [hb, hexact hf', verdict, hv]

theorem exists_foldOption {resolve : Resolver}
    (h : ∀ g, o = some g → ∀ c ∈ g.leaves, ∀ conjunctive, ∃ x, resolve c conjunctive = .ok x) :
    ∃ f, foldOption resolve o = .ok f := by
  refine Attempt.exists_of_fails (fails_foldOption o fun g hg c hc conjunctive => ?_)
  obtain ⟨x, hx⟩ := h g hg c hc conjunctive
  exact Attempt.fails_of_eq_ok hx

end PropertyGroup

namespace Planner

variable {p : Planner} {m : EntityMapping} {c : ClassificationCondition} {f g : Folded}
  {group : Option ClassificationGroup} {w : Window}

/-- A record shows the classification of a condition: the mapping has it, the record carries the
signal, and what the properties are asked for comes to something true. -/
def Shows (native : NativeCondition → Attempt Bool) (m : EntityMapping)
    (c : ClassificationCondition) : Prop :=
  ∃ k, m.classificationFor c.name = some k ∧ (presence k).holds native = .ok true ∧
    ∃ f, PropertyGroup.foldOption (Resolver.through k.backendFor) c.properties = .ok f ∧
      f.folded.holds native = .ok true

/-- A record is what a request asks for under one mapping: it meets the conditions of the mapping
and what the property conditions came to, and it shows as many classifications as are asked for. -/
structure Meets (native : NativeCondition → Attempt Bool) (m : EntityMapping) (f : Folded)
    (group : Option ClassificationGroup) : Prop where
  conditions : ∀ k ∈ m.typeConditions, (Node.leaf k).holds native = .ok true
  properties : f.holds native = .ok true
  classified : ∀ g, group = some g → g.members ≠ [] → g.criteria.Demands (Shows native m) g.members

theorem foldClassification_holds (h : p.foldClassification m c = .ok f) :
    f.holds native = .ok true ↔ Shows native m c := by
  obtain ⟨_, _, h⟩ := Attempt.bind_eq_ok.1 h
  rw [Shows]
  cases hk : m.classificationFor c.name with
  | none =>
      rw [hk] at h
      cases h
      exact iff_of_false (fun h => nomatch h) (fun h => nomatch h.choose_spec.1)
  | some k =>
      simp only [hk] at h
      obtain ⟨x, hx, h⟩ := Attempt.bind_eq_ok.1 h
      simp only [Option.some.injEq, exists_eq_left', hx, Except.ok.injEq]
      -- The signal is compared in any case, unless the properties can never be met.
      cases hfolded : x.folded with
      | const b =>
          cases b with
          | false =>
              rw [hfolded] at h
              cases h
              simp [Folded.holds]
          | true =>
              rw [hfolded] at h
              cases h
              rw [Folded.holds_node_all]
              simp [Folded.holds]
      | node n =>
          rw [hfolded] at h
          cases h
          rw [Folded.holds_node_all]
          simp [Folded.holds]

/-- What the conditions on classifications come to, where it has a truth value, is true of the
records that show as many classifications as are asked for. -/
theorem foldClassifications_holds {b : Bool} (h : p.foldClassifications m group = .ok g)
    (hb : g.holds native = .ok b) : b = true ↔ ∀ asked, group = some asked → asked.members ≠ [] →
      asked.criteria.Demands (Shows native m) asked.members := by
  cases group with
  | none =>
      cases h
      cases hb
      simp
  | some asked =>
      rw [foldClassifications] at h
      split at h
      · rename_i hempty
        cases h
        cases hb
        refine iff_of_true rfl fun _ e hne => ?_
        cases e
        exact absurd (List.isEmpty_iff.1 hempty) hne
      · rename_i hne
        obtain ⟨fs, hfs, h⟩ := Attempt.bind_eq_ok.1 h
        cases h
        have hshow : List.Forall₂ (fun c f => Shows native m c ↔ f.holds native = .ok true)
            asked.members fs :=
          (Attempt.mapM_eq_ok.1 hfs).imp fun c f hf => (foldClassification_holds hf).symm
        rw [Folded.combine_eq_ok hb, ← asked.criteria.demands_iff_of_forall₂ hshow]
        have hmembers : asked.members ≠ [] := fun e => hne (List.isEmpty_iff.2 e)
        constructor
        · rintro hd _ ⟨⟩ _
          exact hd
        · exact fun hd => hd asked rfl hmembers

theorem allHold_nodes_singleton (hg : g.isNever = false) :
    Node.allHold native (Folded.nodes [g]) = g.holds native := by
  match g with
  | .const true => rfl
  | .const false => cases hg
  | .node n => exact (Folded.holds_single_all n).symm

/-- The conditions of a search, where they have a truth value, are true of the records that the
request asks for. -/
theorem whereClause_meets {b : Bool} (h : p.foldClassifications m group = .ok g)
    (hf : f.isNever = false) (hg : g.isNever = false)
    (hb : (whereClause m f g).toNode.holds native = .ok b) :
    b = true ↔ Meets native m f group := by
  constructor
  · rintro rfl
    obtain ⟨hconditions, hproperties, hclassified⟩ := (holds_whereClause hf hg).1 hb
    exact ⟨hconditions, hproperties, (foldClassifications_holds h hclassified).1 rfl⟩
  · intro hm
    -- All but the classifications hold, so that these have the truth value of the whole.
    have hfirst : ∀ n ∈ m.typeConditions.map .leaf ++ f.conjuncts, n.holds native = .ok true := by
      rw [List.forall_mem_append, List.forall_mem_map, Folded.conjuncts_eq_true hf]
      exact ⟨hm.conditions, hm.properties⟩
    have hall : (whereClause m f g).toNode.holds native = g.holds native := by
      rw [← allHold_nodes_singleton hg, ← Node.allHold_append_of_forall hfirst]
      exact Node.holds_all _
    rw [hall] at hb
    exact (foldClassifications_holds h hb).2 hm.classified

theorem not_meets_of_isNever (h : p.foldClassifications m group = .ok g) (hg : g.isNever = true) :
    ¬ Meets native m f group := by
  intro hm
  have hnever : g.holds native = .ok false := Folded.holds_of_isNever hg
  have hfalse := foldClassifications_holds h hnever
  exact Bool.false_ne_true (hfalse.2 hm.classified)

theorem shows_iff {k : ClassificationMapping} (hk : m.classificationFor c.name = some k)
    (h : ∀ g, c.properties = some g → ∀ d ∈ g.leaves,
      ∃ b, Resolver.verdict k.backendFor native d = .ok b) :
    Shows native m c ↔ (presence k).holds native = .ok true ∧
      PropertyGroup.verdict k.backendFor native c.properties = .ok true := by
  obtain ⟨x, hx⟩ := PropertyGroup.exists_foldOption (o := c.properties) fun g hg d hd =>
    Resolver.exists_through fun b hb => by
      obtain ⟨found, hfound⟩ := h g hg d hd
      exact Resolver.compile_of_verdict hfound b hb
  rw [Shows, ← PropertyGroup.foldOption_through hx h]
  simp only [hk, hx, Option.some.injEq, Except.ok.injEq, exists_eq_left']

/-- The classifications are defined, and no condition on them is without native counterpart. -/
def Translates (p : Planner) (group : Option ClassificationGroup) : Prop :=
  ∀ g, group = some g → ∀ c ∈ g.members, p.table.checkClassification c.name = .ok () ∧
    ∀ props, c.properties = some props → ∀ d ∈ props.leaves, d.HasNative

theorem exists_foldClassifications_of_translates (h : p.Translates group) :
    ∃ g, p.foldClassifications m group = .ok g := by
  cases group with
  | none => exact ⟨_, rfl⟩
  | some asked =>
      have hone : ∀ c ∈ asked.members, ∃ f, p.foldClassification m c = .ok f := by
        intro c hc
        obtain ⟨hdefined, hnative⟩ := h asked rfl c hc
        rw [foldClassification, hdefined, Attempt.ok_bind]
        cases m.classificationFor c.name with
        | none => exact ⟨_, rfl⟩
        | some k =>
            have hleaves : ∀ g, c.properties = some g → ∀ d ∈ g.leaves,
                ∀ b, ∃ x, Resolver.through k.backendFor d b = .ok x := fun g hg d hd =>
              Resolver.exists_through fun b _ =>
                PropertyCondition.exists_compile (hnative g hg d hd) b
            obtain ⟨x, hx⟩ := PropertyGroup.exists_foldOption hleaves
            simp only [hx, Attempt.ok_bind]
            split <;> exact ⟨_, rfl⟩
      obtain ⟨fs, hfs⟩ := Attempt.exists_mapM hone
      rw [foldClassifications]
      split
      · exact ⟨_, rfl⟩
      · exact ⟨_, by rw [hfs, Attempt.ok_bind]⟩

/-- The conditions of a search mean the request. There is no search only where the properties or
the classifications came to a condition that never holds, and then no record is asked for.
Otherwise a record on which the conditions can be evaluated meets them just if it is asked for. -/
theorem assemble_means_request (p : Planner) (m : EntityMapping) (f : Folded)
    (group : Option ClassificationGroup) (w : Window) :
    (p.assemble m f group w = .ok none →
      (f.isNever = true ∨ ∃ g, p.foldClassifications m group = .ok g ∧ g.isNever = true) ∧
        ∀ (cat : Catalog) r, ¬ Meets (cat.holds r) m f group) ∧
    (∀ n, p.assemble m f group w = .ok (some n) → ∀ (cat : Catalog) r,
      (∀ b, n.conditions.toNode.holds (cat.holds r) = .ok b →
        (b = true ↔ Meets (cat.holds r) m f group)) ∧
      ((∀ k ∈ n.conditions.toNode.comparisons, ∃ b, cat.holds r k = .ok b) →
        ∃ b, n.conditions.toNode.holds (cat.holds r) = .ok b)) ∧
    (p.Translates group → (∃ ss, sortKeys m w = .ok ss) →
      ∃ o, p.assemble m f group w = .ok o) ∧
    ∀ (cat : Catalog) r c k, m.classificationFor c.name = some k →
      (∀ g, c.properties = some g → ∀ d ∈ g.leaves,
        ∃ b, Resolver.verdict k.backendFor (cat.holds r) d = .ok b) →
      (Shows (cat.holds r) m c ↔ (presence k).holds (cat.holds r) = .ok true ∧
        PropertyGroup.verdict k.backendFor (cat.holds r) c.properties = .ok true) := by
  refine ⟨fun h => ?_, fun n h cat r => ⟨fun b hb => ?_, ?_⟩, fun ht hs => ?_,
    fun cat r c k hk hd => shows_iff hk hd⟩
  · rcases assemble_cases h with ⟨_, hf⟩ | ⟨g, hg, ⟨_, hnever⟩ | ⟨_, _, _, _, hn⟩⟩
    · refine ⟨.inl hf, fun cat r hm => ?_⟩
      cases (Folded.holds_of_isNever hf).symm.trans hm.properties
    · exact ⟨.inr ⟨g, hg, hnever⟩, fun cat r => not_meets_of_isNever hg hnever⟩
    · cases hn
  · rcases assemble_cases h with ⟨hn, _⟩ | ⟨g, hg, ⟨hn, _⟩ | ⟨sorts, _, hf, hnever, hn⟩⟩
    · cases hn
    · cases hn
    · cases hn
      exact whereClause_meets hg hf hnever hb
  · exact Node.exists_holds_of_comparisons _
  · obtain ⟨g, hg⟩ := exists_foldClassifications_of_translates (m := m) ht
    obtain ⟨ss, hss⟩ := hs
    rw [assemble, hg, hss, Attempt.ok_bind]
    split
    · exact ⟨_, rfl⟩
    · split <;> exact ⟨_, rfl⟩

end Planner

namespace Sample

/-- Two alternatives, and so no group whose members could be added one by one. -/
def longOrRequired : Folded :=
  .node (.any [.compare "length" .gt (.int 10), .compare "allows_null_values" .eq (.bool false)])

/-- A primary key, or a level other than open and no owner, which is not mapped. -/
def keyOrSecret : ClassificationGroup :=
  ⟨[⟨"PrimaryKey", none⟩,
    ⟨"Confidentiality", some ⟨[.group .none [.leaf ⟨"level", .eq, .text "open"⟩],
      .leaf ⟨"owner", .isNull, .null⟩], .all⟩⟩], .any⟩

def requiredColumn (level : String) : Record :=
  { ref := ⟨"column-1", "database_column", some "ID"⟩,
    properties := [("allows_null_values", .bool false), ("confidentiality_level", .text level)] }

theorem keyOrSecret_assembled :
    (∃ n, planner.assemble MappingTable.Standard.column longOrRequired (some keyOrSecret) {} =
        .ok (some n) ∧
      Planner.Meets (Catalog.holds {} (requiredColumn "secret")) MappingTable.Standard.column
        longOrRequired (some keyOrSecret) ∧
      ¬ Planner.Meets (Catalog.holds {} (requiredColumn "open")) MappingTable.Standard.column
        longOrRequired (some keyOrSecret)) ∧
    planner.assemble MappingTable.Standard.host longOrRequired (some keyOrSecret) {} = .ok none ∧
      ∀ cat r, ¬ Planner.Meets (Catalog.holds cat r) MappingTable.Standard.host longOrRequired
        (some keyOrSecret) := by
  have hcolumn := Planner.assemble_means_request planner MappingTable.Standard.column
    longOrRequired (some keyOrSecret) {}
  have hhost := Planner.assemble_means_request planner MappingTable.Standard.host
    longOrRequired (some keyOrSecret) {}
  have hn : planner.assemble MappingTable.Standard.host longOrRequired (some keyOrSecret) {} =
    .ok none := rfl
  refine ⟨⟨_, rfl, ?_, ?_⟩, hn, (hhost.1 hn).2⟩
  · exact ((hcolumn.2.1 _ rfl {} (requiredColumn "secret")).1 true rfl).1 rfl
  · have hopen := (hcolumn.2.1 _ rfl {} (requiredColumn "open")).1 false rfl
    exact fun h => Bool.false_ne_true (hopen.2 h)

end Sample

end MetaFed
