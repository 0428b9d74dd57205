import MetaFed.Catalog
import MetaFed.Mapping.Standard
import MetaFed.Plan.Entities
import MetaFed.Proofs.Attempt

/-!
Folding keeps the meaning of a request. A folded group has the truth value that its members' truth
values give it, and an approximate one has a truth value that the group implies.
-/

namespace MetaFed

def Criteria.satisfied : Criteria → List Bool → Bool
  | .all, bs => bs.all id
  | .any, bs => bs.any id
  | .none, bs => !bs.any id

variable {native : NativeCondition → Attempt Bool}

namespace Node

theorem holds_all (ns : List Node) : (all ns).holds native = allHold native ns := by
  cases ns with
  | nil => rfl
  | cons n ns =>
      simp only [all, holds, List.isEmpty_cons, Bool.false_eq_true, if_false, Bool.bne_false]
      cases allHold native (n :: ns) <;> rfl

theorem holds_group_any {ns : List Node} (h : ns ≠ []) (negated : Bool) :
    (group ns true negated).holds native = (anyHolds native ns).map (· != negated) := by
  cases ns with
  | nil => exact absurd rfl h
  | cons n ns => rfl

theorem holds_any {ns : List Node} (h : ns ≠ []) : (any ns).holds native = anyHolds native ns := by
  rw [any, holds_group_any h]
  cases anyHolds native ns <;> simp [Except.map]

end Node

namespace Folded

@[simp] theorem nodes_const (b : Bool) (fs : List Folded) : nodes (.const b :: fs) = nodes fs := rfl

@[simp] theorem nodes_node (n : Node) (fs : List Folded) : nodes (.node n :: fs) = n :: nodes fs := rfl

theorem allHold_nodes {fs : List Folded} {bs : List Bool}
    (h : List.Forall₂ (fun f b => f.holds native = .ok b) fs bs) (hn : fs.any isNever = false) :
    Node.allHold native (nodes fs) = .ok (bs.all id) := by
  induction h with
  | nil => rfl
  | @cons f b fs bs hf _ ih =>
      simp only [List.any_cons, Bool.or_eq_false_iff] at hn
      cases f with
      | const t =>
          obtain rfl : t = b := by simpa [holds] using hf
          obtain rfl : t = true := by simpa [isNever] using hn.1
          simpa using ih hn.2
      | node n =>
          rw [nodes_node, Node.allHold, show n.holds native = .ok b from hf, Attempt.ok_bind]
          cases b with
          | false => rfl
          | true => simpa using ih hn.2

theorem anyHolds_nodes {fs : List Folded} {bs : List Bool}
    (h : List.Forall₂ (fun f b => f.holds native = .ok b) fs bs) (hn : fs.any isAlways = false) :
    Node.anyHolds native (nodes fs) = .ok (bs.any id) := by
  induction h with
  | nil => rfl
  | @cons f b fs bs hf _ ih =>
      simp only [List.any_cons, Bool.or_eq_false_iff] at hn
      cases f with
      | const t =>
          obtain rfl : t = b := by simpa [holds] using hf
          obtain rfl : t = false := by simpa [isAlways] using hn.1
          simpa using ih hn.2
      | node n =>
          rw [nodes_node, Node.anyHolds, show n.holds native = .ok b from hf, Attempt.ok_bind]
          cases b with
          | false => simpa using ih hn.2
          | true => rfl

theorem all_eq_false_of_never {fs : List Folded} {bs : List Bool}
    (h : List.Forall₂ (fun f b => f.holds native = .ok b) fs bs) (hn : fs.any isNever = true) :
    bs.all id = false := by
  induction h with
  | nil => simp at hn
  | @cons f b fs bs hf _ ih =>
      rcases Bool.or_eq_true_iff.1 (List.any_cons ▸ hn) with hf' | hfs
      · cases f with
        | const t => simp_all [holds, isNever]
        | node n => simp [isNever] at hf'
      · simp [ih hfs]

theorem any_eq_true_of_always {fs : List Folded} {bs : List Bool}
    (h : List.Forall₂ (fun f b => f.holds native = .ok b) fs bs) (hn : fs.any isAlways = true) :
    bs.any id = true := by
  induction h with
  | nil => simp at hn
  | @cons f b fs bs hf _ ih =>
      rcases Bool.or_eq_true_iff.1 (List.any_cons ▸ hn) with hf' | hfs
      · cases f with
        | const t => simp_all [holds, isAlways]
        | node n => simp [isAlways] at hf'
      · simp [ih hfs]

theorem holds_single_all (n : Node) : n.holds native = Node.allHold native [n] := by
  simp only [Node.allHold]
  cases n.holds native with
  | ok b => cases b <;> rfl
  | error e => rfl

theorem holds_single_any (n : Node) : n.holds native = Node.anyHolds native [n] := by
  simp only [Node.anyHolds]
  cases n.holds native with
  | ok b => cases b <;> rfl
  | error e => rfl

theorem combine_all_holds {fs : List Folded} {bs : List Bool}
    (h : List.Forall₂ (fun f b => f.holds native = .ok b) fs bs) :
    (combine .all fs).holds native = .ok (bs.all id) := by
  simp only [combine]
  split
  · rename_i hn
    rw [all_eq_false_of_never h hn]
    rfl
  · rename_i hn
    have hall := allHold_nodes h (by simpa using hn)
    split
    · rename_i he
      simpa [he, holds, Node.allHold] using hall
    · rename_i n he
      rw [← hall, he, ← holds_single_all]
      rfl
    · rw [holds, Node.holds_all, hall]

theorem combine_any_holds {fs : List Folded} {bs : List Bool}
    (h : List.Forall₂ (fun f b => f.holds native = .ok b) fs bs) :
    (combine .any fs).holds native = .ok (bs.any id) := by
  simp only [combine]
  split
  · rename_i hn
    rw [any_eq_true_of_always h hn]
    rfl
  · rename_i hn
    have hany := anyHolds_nodes h (by simpa using hn)
    split
    · rename_i he
      simpa [he, holds, Node.anyHolds] using hany
    · rename_i n he
      rw [← hany, he, ← holds_single_any]
      rfl
    · rename_i hne _
      rw [holds, Node.holds_any hne, hany]

theorem combine_none_holds {fs : List Folded} {bs : List Bool}
    (h : List.Forall₂ (fun f b => f.holds native = .ok b) fs bs) :
    (combine .none fs).holds native = .ok (!bs.any id) := by
  simp only [combine]
  split
  · rename_i hn
    rw [any_eq_true_of_always h hn]
    rfl
  · rename_i hn
    have hany := anyHolds_nodes h (by simpa using hn)
    split
    · rename_i he
      rw [he] at hany
      simp only [Node.anyHolds, Except.ok.injEq] at hany
      rw [← hany]
      rfl
    · rename_i hne
      rw [holds, Node.holds_group_any hne, hany]
      simp

/-- A combined group has the truth value of the group: constants that are left out do not change
it, and neither does a group that is left out for its only member. -/
theorem combine_holds (criteria : Criteria) {fs : List Folded} {bs : List Bool}
    (h : List.Forall₂ (fun f b => f.holds native = .ok b) fs bs) :
    (combine criteria fs).holds native = .ok (criteria.satisfied bs) := by
  cases criteria with
  | all => exact combine_all_holds h
  | any => exact combine_any_holds h
  | none => exact combine_none_holds h

end Folded

/-- A folded condition has a truth value. The condition it stands for implies it, and has the same
one unless the folding is approximate. -/
def Folding.Covers (native : NativeCondition → Attempt Bool) (f : Folding) (truth : Bool) : Prop :=
  ∃ b, f.folded.holds native = .ok b ∧ (truth = true → b = true) ∧
    (f.approximate = false → b = truth)

/-- A resolver folds a condition to one that covers it, and approximates it only where a surplus of
records is passed on. -/
def Resolver.Respects (resolve : Resolver) (native : NativeCondition → Attempt Bool) (truth : Bool)
    (c : PropertyCondition) : Prop :=
  ∀ conjunctive f, resolve c conjunctive = .ok f →
    f.Covers native truth ∧ (f.approximate = true → conjunctive = true)

theorem Criteria.satisfied_mono {criteria : Criteria} (hc : criteria ≠ .none) {vs bs : List Bool}
    (h : List.Forall₂ (fun v b => v = true → b = true) vs bs)
    (hv : criteria.satisfied vs = true) : criteria.satisfied bs = true := by
  induction h with
  | nil => exact hv
  | @cons v b vs bs hvb _ ih =>
      cases criteria with
      | all =>
          simp only [satisfied, List.all_cons, id_eq, Bool.and_eq_true] at hv ih ⊢
          exact ⟨hvb hv.1, ih hv.2⟩
      | any =>
          simp only [satisfied, List.any_cons, id_eq, Bool.or_eq_true] at hv ih ⊢
          exact hv.imp hvb ih
      | none => exact absurd rfl hc

theorem Folding.exists_values {fs : List Folding} {vs : List Bool}
    (h : List.Forall₂ (Folding.Covers native) fs vs) :
    ∃ bs, List.Forall₂ (fun f b => f.holds native = .ok b) (fs.map Folding.folded) bs ∧
      List.Forall₂ (fun v b => v = true → b = true) vs bs ∧
      (fs.any Folding.approximate = false → bs = vs) := by
  induction h with
  | nil => exact ⟨[], .nil, .nil, fun _ => rfl⟩
  | @cons f v fs vs hf _ ih =>
      obtain ⟨b, hb, himp, hexact⟩ := hf
      obtain ⟨bs, hbs, hmono, heq⟩ := ih
      refine ⟨b :: bs, .cons hb hbs, .cons himp hmono, fun ha => ?_⟩
      simp only [List.any_cons, Bool.or_eq_false_iff] at ha
      rw [hexact ha.1, heq ha.2]

theorem Folding.combine_covers {criteria : Criteria} {fs : List Folding} {vs : List Bool}
    (h : List.Forall₂ (Folding.Covers native) fs vs)
    (hc : fs.any Folding.approximate = true → criteria ≠ .none) :
    Folding.Covers native ⟨Folded.combine criteria (fs.map Folding.folded),
      fs.any Folding.approximate⟩ (criteria.satisfied vs) := by
  obtain ⟨bs, hbs, hmono, heq⟩ := exists_values h
  refine ⟨criteria.satisfied bs, Folded.combine_holds criteria hbs, fun hv => ?_, fun ha => ?_⟩
  · cases ha : fs.any Folding.approximate with
    | false => rw [heq ha, hv]
    | true => exact Criteria.satisfied_mono (hc ha) hmono hv
  · rw [heq ha]

namespace Criterion

variable {resolve : Resolver} {judge : PropertyCondition → Attempt Bool}
  {truth : PropertyCondition → Bool}

theorem holds_group {criteria : Criteria} {ms : List Criterion} {vs : List Bool}
    (hne : ms ≠ []) (hall : allHold judge ms = .ok (vs.all id))
    (hany : anyHolds judge ms = .ok (vs.any id)) :
    (group criteria ms).holds judge = .ok (criteria.satisfied vs) := by
  have he : ms.isEmpty = false := by simpa using hne
  cases criteria <;> simp [holds, he, hall, hany, Criteria.satisfied]

mutual

theorem fold_covers (m : Criterion) (conjunctive : Bool) (f : Folding)
    (hs : ∀ c ∈ m.leaves, judge c = .ok (truth c))
    (hr : ∀ c ∈ m.leaves, resolve.Respects native (truth c) c)
    (hf : m.fold resolve conjunctive = .ok f) :
    ∃ v, m.holds judge = .ok v ∧ f.Covers native v ∧ (f.approximate = true → conjunctive = true) := by
  -- The last part is what lets a negated group keep its meaning: its members are exact.
  cases m with
  | leaf c =>
      have hc : c ∈ (leaf c).leaves := by simp [leaves]
      exact ⟨truth c, hs c hc, hr c hc conjunctive f hf⟩
  | group criteria ms =>
      rw [fold] at hf
      split at hf
      · rename_i he
        obtain rfl : f = ⟨.const true, false⟩ := by simpa using hf.symm
        exact ⟨true, by simp [holds, he], ⟨true, rfl, id, fun _ => rfl⟩, by simp⟩
      · rename_i he
        obtain ⟨fs, hfs, hf⟩ := Attempt.bind_eq_ok.1 hf
        obtain rfl := Except.ok.inj hf
        obtain ⟨vs, hall, hany, hcov, hk⟩ := foldAll_covers ms _ fs hs hr hfs
        refine ⟨_, holds_group (by simpa using he) hall hany,
          Folding.combine_covers hcov fun ha hc => ?_, fun ha => ?_⟩
        · have := hk ha
          simp [hc, passesOn] at this
        · exact (Bool.and_eq_true_iff.1 (hk ha)).1

theorem foldAll_covers (ms : List Criterion) (conjunctive : Bool) (fs : List Folding)
    (hs : ∀ c ∈ leavesOf ms, judge c = .ok (truth c))
    (hr : ∀ c ∈ leavesOf ms, resolve.Respects native (truth c) c)
    (hf : foldAll resolve conjunctive ms = .ok fs) :
    ∃ vs, allHold judge ms = .ok (vs.all id) ∧ anyHolds judge ms = .ok (vs.any id) ∧
      List.Forall₂ (Folding.Covers native) fs vs ∧
      (fs.any Folding.approximate = true → conjunctive = true) := by
  -- Together with `fold_covers`, along the tree: the first member, then the others.
  cases ms with
  | nil =>
      obtain rfl : fs = [] := by simpa [foldAll] using hf.symm
      exact ⟨[], rfl, rfl, .nil, by simp⟩
  | cons m ms =>
      rw [foldAll] at hf
      obtain ⟨f, hm, hf⟩ := Attempt.bind_eq_ok.1 hf
      obtain ⟨fs', hms, hf⟩ := Attempt.bind_eq_ok.1 hf
      obtain rfl := Except.ok.inj hf
      have hmem (c : PropertyCondition) : c ∈ leavesOf (m :: ms) ↔ c ∈ m.leaves ∨ c ∈ leavesOf ms := by
        rw [leavesOf, List.mem_append]
      obtain ⟨v, hv, hcov, hk⟩ := fold_covers m conjunctive f
        (fun c hc => hs c ((hmem c).2 (.inl hc))) (fun c hc => hr c ((hmem c).2 (.inl hc))) hm
      obtain ⟨vs, hall, hany, hcovs, hks⟩ := foldAll_covers ms conjunctive fs'
        (fun c hc => hs c ((hmem c).2 (.inr hc))) (fun c hc => hr c ((hmem c).2 (.inr hc))) hms
      refine ⟨v :: vs, ?_, ?_, .cons hcov hcovs, fun ha => ?_⟩
      · rw [allHold, hv, Attempt.ok_bind]
        cases v <;> simp [hall]
      · rw [anyHolds, hv, Attempt.ok_bind]
        cases v <;> simp [hany]
      · rcases Bool.or_eq_true_iff.1 (List.any_cons ▸ ha) with ha | ha
        · exact hk ha
        · exact hks ha

end

end Criterion

namespace PropertyGroup

/-- What a group folds to is true of every record the group is true of, and of no other one unless
some condition was approximated. -/
theorem fold_implied (catalog : Catalog) (r : Record) (resolve : Resolver)
    (judge : PropertyCondition → Attempt Bool) (truth : PropertyCondition → Bool)
    (g : PropertyGroup) (f : Folding) (hj : ∀ c ∈ g.leaves, judge c = .ok (truth c))
    (hr : ∀ c ∈ g.leaves, resolve.Respects (catalog.holds r) (truth c) c)
    (hf : g.fold resolve = .ok f) :
    ∃ v b, g.toCriterion.holds judge = .ok v ∧ f.folded.holds (catalog.holds r) = .ok b ∧
      (v = true → b = true) ∧ (f.approximate = false → b = v) := by
  have hl : g.toCriterion.leaves = g.leaves := by rw [toCriterion, Criterion.leaves, leaves]
  obtain ⟨v, hv, ⟨b, hb, himp, hexact⟩, _⟩ :=
    Criterion.fold_covers g.toCriterion true f (hl ▸ hj) (hl ▸ hr) hf
  exact ⟨v, b, hv, hb, himp, hexact⟩

end PropertyGroup

namespace Sample

def glossaryTerm : Record :=
  { ref := ⟨"term-1", "term", some "Id"⟩, context := [⟨"cat-1", "category", some "Customer"⟩] }

def planner : Planner := ⟨MappingTable.standard, some "extern:", []⟩

def glossaryValues : Assoc String Value :=
  [("displayName", .text "Id"), ("qualifiedName", .text "TERM::Customer::Id")]

def nameEnd : PropertyCondition := ⟨"qualifiedName", .like, .text ".*\\QCustomer::Id\\E"⟩

def hasSummary : PropertyCondition := ⟨"summary", .notNull, .null⟩

/-- The qualified name has an end that the catalog can only approximate, and there is no summary. -/
def namedWithoutSummary : PropertyGroup :=
  ⟨[.group .any [.leaf nameEnd], .group .none [.leaf hasSummary]], .all⟩

theorem resolver_nameEnd :
    planner.resolver MappingTable.Standard.term nameEnd true =
      .ok ⟨.node (NameFold.name .eq "Id"), true⟩ := rfl

theorem resolver_nameEnd_refused :
    planner.resolver MappingTable.Standard.term nameEnd false = refuse (.functionNotSupported
      (.approximation "GlossaryTerm" ".*\\QCustomer::Id\\E")) := rfl

theorem resolver_hasSummary (conjunctive : Bool) :
    planner.resolver MappingTable.Standard.term hasSummary conjunctive =
      .ok ⟨.node (.compare "short_description" .isNotNull .null), false⟩ := rfl

theorem nameEnd_respects :
    (planner.resolver MappingTable.Standard.term).Respects (Catalog.holds {} glossaryTerm) true
      nameEnd := by
  intro conjunctive f h
  cases conjunctive with
  | false =>
      rw [resolver_nameEnd_refused] at h
      cases h
  | true =>
      rw [resolver_nameEnd] at h
      cases h
      exact ⟨⟨true, rfl, id, by simp⟩, fun _ => rfl⟩

theorem hasSummary_respects :
    (planner.resolver MappingTable.Standard.term).Respects (Catalog.holds {} glossaryTerm) false
      hasSummary := by
  intro conjunctive f h
  rw [resolver_hasSummary] at h
  cases h
  exact ⟨⟨false, rfl, id, fun _ => rfl⟩, by simp⟩

theorem leaves_namedWithoutSummary : namedWithoutSummary.leaves = [nameEnd, hasSummary] := by
  simp [namedWithoutSummary, PropertyGroup.leaves, Criterion.leavesOf, Criterion.leaves]

theorem fold_implied_namedWithoutSummary :
    ∃ f, namedWithoutSummary.fold (planner.resolver MappingTable.Standard.term) = .ok f ∧
      f.approximate = true ∧ namedWithoutSummary.matches glossaryValues = .ok true ∧
      f.folded.holds (Catalog.holds {} glossaryTerm) = .ok true := by
  refine ⟨_, rfl, rfl, rfl, ?_⟩
  obtain ⟨v, b, hv, hb, himp, _⟩ := PropertyGroup.fold_implied {} glossaryTerm
    (planner.resolver MappingTable.Standard.term) (PropertyCondition.holds glossaryValues)
    (fun c => c.property == "qualifiedName") namedWithoutSummary _
    (by simp only [leaves_namedWithoutSummary, List.forall_mem_cons]
        exact ⟨rfl, rfl, by simp⟩)
    (by simp only [leaves_namedWithoutSummary, List.forall_mem_cons]
        exact ⟨nameEnd_respects, hasSummary_respects, by simp⟩)
    rfl
  have ht : namedWithoutSummary.matches glossaryValues = .ok true := rfl
  obtain rfl : v = true := Except.ok.inj (hv.symm.trans ht)
  rw [← himp rfl]
  exact hb

end Sample

end MetaFed
