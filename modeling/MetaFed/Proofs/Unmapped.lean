import MetaFed.Plan.Entities
import MetaFed.Proofs.Evaluation
import MetaFed.Proofs.Folding
import MetaFed.Proofs.Links

/-!
A property without mapping holds no value. What a request comes to for a mapping is the same as if
the property were mapped to a catalog property that no record has, but for conditions that the
catalog finds to hold for an absent value although they are no test for null.
-/

namespace MetaFed

namespace NativeOperator

theorem exists_holds_nil (o : NativeOperator) (expected : Value) :
    ∃ b, o.holds [] expected = .ok b := by
  cases o with
  | memberOf => cases expected <;> simp [holds, holdsFor]
  | _ => simp [holds, holdsFor, ordered, textual, Value.isNull]

end NativeOperator

namespace PropertyCondition

variable {c : PropertyCondition} {backend : String} {k : NativeCondition}

/-- The catalog finds the condition to hold for an absent value. -/
def meetsAbsence (c : PropertyCondition) : Bool :=
  match c.operator, c.value with
  | .isNull, _ => true
  | .eq, v => v.isNull
  | .neq, v => !v.isNull
  | .like, v => v.isNull
  | .memberOf, .list vs => Value.null.isAmong vs
  | .memberOf, v => v.isNull
  | _, _ => false

theorem compile_holds_nil (h : c.compile backend = .ok k) :
    k.operator.holds [] k.value = .ok c.meetsAbsence := by
  obtain ⟨property, o, value⟩ := c
  cases PropertyOperator.compiles h with
  | comparison _ hn =>
      cases o <;> cases hn <;>
        simp [NativeOperator.holds, NativeOperator.holdsFor, NativeOperator.ordered, meetsAbsence,
          NativeCondition.of, Value.null_same, Value.isNull]
  | pattern hp =>
      rename_i kind
      cases kind <;> rfl
  | value hp => exact congrArg Except.ok (Value.null_same value)
  | member hs =>
      cases value with
      | list vs => exact absurd rfl (hs vs)
      | _ => simp [NativeOperator.holds, NativeOperator.holdsFor, NativeCondition.of, meetsAbsence,
               Value.isAmong, Value.null_same]
  | isNull | notNull | members => rfl

theorem compile_plain (h : c.compile backend = .ok k) :
    k.property = backend ∧ k.negated = false := by
  obtain ⟨property, o, value⟩ := c
  cases PropertyOperator.compiles h <;> exact ⟨rfl, rfl⟩

end PropertyCondition

namespace Node

variable {leaf leaf' : NativeCondition → Attempt Bool}

mutual

/-- What is decided stays as it is when more comparisons are. -/
theorem holds_of_holds (h : ∀ k b, leaf k = .ok b → leaf' k = .ok b) (n : Node) (b : Bool)
    (hn : n.holds leaf = .ok b) :
    n.holds leaf' = .ok b := by
  cases n with
  | leaf c =>
      rw [holds] at hn ⊢
      obtain ⟨t, ht, rfl⟩ := Attempt.map_eq_ok.1 hn
      rw [h c t ht, Attempt.map_ok]
  | group ns matchAny negated =>
      rw [holds] at hn ⊢
      obtain ⟨t, ht, rfl⟩ := Attempt.map_eq_ok.1 hn
      refine Attempt.map_eq_ok.2 ⟨t, ?_, rfl⟩
      split at ht <;> rename_i he
      · rw [if_pos he, ht]
      · rw [if_neg he]
        split at ht <;> rename_i hm
        · rw [if_pos hm, anyHolds_of_anyHolds h ns t ht]
        · rw [if_neg hm, allHold_of_allHold h ns t ht]

theorem anyHolds_of_anyHolds (h : ∀ k b, leaf k = .ok b → leaf' k = .ok b) (ns : List Node)
    (b : Bool) (hn : anyHolds leaf ns = .ok b) :
    anyHolds leaf' ns = .ok b := by
  cases ns with
  | nil => exact hn
  | cons n ns =>
      rw [anyHolds] at hn ⊢
      obtain ⟨t, ht, hn⟩ := Attempt.bind_eq_ok.1 hn
      rw [holds_of_holds h n t ht, Attempt.ok_bind]
      cases t with
      | false => exact anyHolds_of_anyHolds h ns b hn
      | true => exact hn

theorem allHold_of_allHold (h : ∀ k b, leaf k = .ok b → leaf' k = .ok b) (ns : List Node)
    (b : Bool) (hn : allHold leaf ns = .ok b) :
    allHold leaf' ns = .ok b := by
  cases ns with
  | nil => exact hn
  | cons n ns =>
      rw [allHold] at hn ⊢
      obtain ⟨t, ht, hn⟩ := Attempt.bind_eq_ok.1 hn
      rw [holds_of_holds h n t ht, Attempt.ok_bind]
      cases t with
      | false => exact hn
      | true => exact allHold_of_allHold h ns b hn

end

mutual

theorem exists_holds (h : ∀ k, ∃ b, leaf k = .ok b) (n : Node) :
    ∃ b, n.holds leaf = .ok b := by
  cases n with
  | leaf c =>
      obtain ⟨t, ht⟩ := h c
      exact ⟨_, by rw [holds, ht, Attempt.map_ok]⟩
  | group ns matchAny negated =>
      obtain ⟨s, hs⟩ := exists_anyHolds h ns
      obtain ⟨t, ht⟩ := exists_allHold h ns
      simp only [holds, hs, ht]
      split
      · exact ⟨_, rfl⟩
      · split <;> exact ⟨_, rfl⟩

theorem exists_anyHolds (h : ∀ k, ∃ b, leaf k = .ok b) (ns : List Node) :
    ∃ b, anyHolds leaf ns = .ok b := by
  cases ns with
  | nil => exact ⟨_, rfl⟩
  | cons n ns =>
      obtain ⟨t, ht⟩ := exists_holds h n
      obtain ⟨b, hb⟩ := exists_anyHolds h ns
      rw [anyHolds, ht, Attempt.ok_bind, hb]
      cases t <;> exact ⟨_, rfl⟩

theorem exists_allHold (h : ∀ k, ∃ b, leaf k = .ok b) (ns : List Node) :
    ∃ b, allHold leaf ns = .ok b := by
  cases ns with
  | nil => exact ⟨_, rfl⟩
  | cons n ns =>
      obtain ⟨t, ht⟩ := exists_holds h n
      obtain ⟨b, hb⟩ := exists_allHold h ns
      rw [allHold, ht, Attempt.ok_bind, hb]
      cases t <;> exact ⟨_, rfl⟩

end

end Node

namespace Folded

variable {leaf leaf' : NativeCondition → Attempt Bool}

theorem holds_of_holds (h : ∀ k b, leaf k = .ok b → leaf' k = .ok b) {f : Folded} {b : Bool}
    (hf : f.holds leaf = .ok b) : f.holds leaf' = .ok b := by
  cases f with
  | const t => exact hf
  | node n => exact Node.holds_of_holds h n b hf

theorem exists_holds (h : ∀ k, ∃ b, leaf k = .ok b) (f : Folded) : ∃ b, f.holds leaf = .ok b := by
  cases f with
  | const t => exact ⟨t, rfl⟩
  | node n => exact Node.exists_holds h n

end Folded

/-- Two foldings have the same truth value. -/
def Folding.Alike (native : NativeCondition → Attempt Bool) (f f' : Folding) : Prop :=
  ∃ b, f.folded.holds native = .ok b ∧ f'.folded.holds native = .ok b

namespace Criterion

variable {native : NativeCondition → Attempt Bool} {resolve resolve' : Resolver}

mutual

theorem fold_alike (m : Criterion) (conjunctive : Bool) (f f' : Folding)
    (hr : ∀ c ∈ m.leaves, ∀ j g g', resolve c j = .ok g → resolve' c j = .ok g' → g.Alike native g')
    (hf : m.fold resolve conjunctive = .ok f) (hf' : m.fold resolve' conjunctive = .ok f') :
    f.Alike native f' := by
  cases m with
  | leaf c => exact hr c (by simp [leaves]) conjunctive f f' hf hf'
  | group criteria ms =>
      rw [fold] at hf hf'
      split at hf
      · rename_i he
        rw [if_pos he] at hf'
        obtain rfl := Except.ok.inj hf
        obtain rfl := Except.ok.inj hf'
        exact ⟨true, rfl, rfl⟩
      · rename_i he
        rw [if_neg he] at hf'
        obtain ⟨fs, hfs, hf⟩ := Attempt.bind_eq_ok.1 hf
        obtain ⟨fs', hfs', hf'⟩ := Attempt.bind_eq_ok.1 hf'
        obtain rfl := Except.ok.inj hf
        obtain rfl := Except.ok.inj hf'
        obtain ⟨bs, hbs, hbs'⟩ := foldAll_alike ms _ fs fs' hr hfs hfs'
        exact ⟨_, Folded.combine_holds criteria hbs, Folded.combine_holds criteria hbs'⟩

theorem foldAll_alike (ms : List Criterion) (conjunctive : Bool) (fs fs' : List Folding)
    (hr : ∀ c ∈ leavesOf ms, ∀ j g g', resolve c j = .ok g → resolve' c j = .ok g' →
      g.Alike native g')
    (hf : foldAll resolve conjunctive ms = .ok fs)
    (hf' : foldAll resolve' conjunctive ms = .ok fs') :
    ∃ bs, List.Forall₂ (fun f b => f.holds native = .ok b) (fs.map Folding.folded) bs ∧
      List.Forall₂ (fun f b => f.holds native = .ok b) (fs'.map Folding.folded) bs := by
  cases ms with
  | nil =>
      obtain rfl := Except.ok.inj hf
      obtain rfl := Except.ok.inj hf'
      exact ⟨[], .nil, .nil⟩
  | cons m ms =>
      rw [foldAll] at hf hf'
      obtain ⟨f, hm, hf⟩ := Attempt.bind_eq_ok.1 hf
      obtain ⟨f', hm', hf'⟩ := Attempt.bind_eq_ok.1 hf'
      obtain ⟨gs, hms, hf⟩ := Attempt.bind_eq_ok.1 hf
      obtain ⟨gs', hms', hf'⟩ := Attempt.bind_eq_ok.1 hf'
      obtain rfl := Except.ok.inj hf
      obtain rfl := Except.ok.inj hf'
      have hmem (c : PropertyCondition) : c ∈ leavesOf (m :: ms) ↔ c ∈ m.leaves ∨ c ∈ leavesOf ms := by
        rw [leavesOf, List.mem_append]
      obtain ⟨b, hb, hb'⟩ := fold_alike m conjunctive f f'
        (fun c hc => hr c ((hmem c).2 (.inl hc))) hm hm'
      obtain ⟨bs, hbs, hbs'⟩ := foldAll_alike ms conjunctive gs gs'
        (fun c hc => hr c ((hmem c).2 (.inr hc))) hms hms'
      exact ⟨b :: bs, .cons hb hbs, .cons hb' hbs'⟩

end

end Criterion

namespace Catalog

variable {cat : Catalog} {r : Record} {path : String}

/-- No record has a value of the property at the end of a path. -/
def Bare (cat : Catalog) (r : Record) (path : String) : Prop :=
  ∀ x, x = r ∨ x ∈ cat.records.values → x.value ((Text.fieldsOf '.' path).getLastD "") = .null

theorem mem_follow {property : String} {rs xs : List Record}
    (h : cat.follow property rs = .ok xs) : ∀ x ∈ xs, x ∈ cat.records.values := by
  induction rs generalizing xs with
  | nil =>
      obtain rfl := Except.ok.inj h
      simp
  | cons y ys ih =>
      rw [follow] at h
      obtain ⟨refs, _, h⟩ := Attempt.bind_eq_ok.1 h
      obtain ⟨rest, hrest, h⟩ := Attempt.bind_eq_ok.1 h
      obtain rfl := Except.ok.inj h
      intro x hx
      rcases List.mem_append.1 hx with hx | hx
      · obtain ⟨ref, _, hfind⟩ := List.mem_filterMap.1 hx
        exact List.mem_map.2 ⟨_, Assoc.mem_of_find? hfind, rfl⟩
      · exact ih hrest x hx

theorem mem_followAll {hops : List String} {rs xs : List Record}
    (h : cat.followAll hops rs = .ok xs) : ∀ x ∈ xs, x ∈ rs ∨ x ∈ cat.records.values := by
  induction hops generalizing rs with
  | nil =>
      obtain rfl := Except.ok.inj h
      exact fun x hx => .inl hx
  | cons hop hops ih =>
      rw [followAll] at h
      obtain ⟨ys, hys, h⟩ := Attempt.bind_eq_ok.1 h
      exact fun x hx => .inr ((ih h x hx).elim (mem_follow hys x) id)

theorem Bare.valuesAlong_eq_nil (hb : cat.Bare r path) {vs : List Value}
    (h : cat.valuesAlong r path = .ok vs) : vs = [] := by
  rw [valuesAlong] at h
  obtain ⟨rs, hrs, h⟩ := Attempt.bind_eq_ok.1 h
  obtain rfl := Except.ok.inj h
  refine List.flatMap_eq_nil_iff.2 fun x hx => ?_
  have hx : x = r ∨ x ∈ cat.records.values :=
    (mem_followAll hrs x hx).imp_left List.mem_singleton.1
  rw [valuesOf, hb x hx]

/-- What the catalog says of a record; a comparison that it cannot make is one with an absent
value. -/
def settled (cat : Catalog) (r : Record) (k : NativeCondition) : Attempt Bool :=
  match cat.holds r k with
  | .ok b => .ok b
  | .error _ => k.operator.holds [] k.value

theorem settled_of_holds (k : NativeCondition) (b : Bool) (h : cat.holds r k = .ok b) :
    cat.settled r k = .ok b := by
  rw [settled, h]

theorem exists_settled (k : NativeCondition) : ∃ b, cat.settled r k = .ok b := by
  unfold settled
  split
  · exact ⟨_, rfl⟩
  · exact k.operator.exists_holds_nil k.value

theorem Bare.settled_eq (hb : cat.Bare r path) {k : NativeCondition} (hk : k.property = path) :
    cat.settled r k = k.operator.holds [] k.value := by
  unfold settled
  split
  · next b h =>
      rw [holds] at h
      obtain ⟨vs, hvs, h⟩ := Attempt.bind_eq_ok.1 h
      obtain rfl := hb.valuesAlong_eq_nil (hk ▸ hvs)
      exact h.symm
  · rfl

end Catalog

namespace EntityMapping

variable {m : EntityMapping} {s : SimpleProperty} {name : String}

/-- The mapping with one more simple property. -/
def withSimple (m : EntityMapping) (s : SimpleProperty) : EntityMapping :=
  { m with simple := m.simple ++ [s] }

theorem simpleFor_withSimple_of_ne (h : name ≠ s.abstract) :
    (m.withSimple s).simpleFor name = m.simpleFor name := by
  rw [simpleFor, withSimple, List.find?_append, simpleFor,
    List.find?_cons_of_neg (by simpa using Ne.symm h), List.find?_nil, Option.or_none]

theorem simpleFor_withSimple (h : m.simpleFor s.abstract = none) :
    (m.withSimple s).simpleFor s.abstract = some s := by
  rw [simpleFor] at h
  rw [simpleFor, withSimple, List.find?_append, h, Option.none_or,
    List.find?_cons_of_pos (by simp)]

theorem simpleFor_eq_none (h : name ∉ m.abstractProperties) : m.simpleFor name = none := by
  rw [simpleFor, List.find?_eq_none]
  intro p hp he
  exact h (List.mem_append_left _ (List.mem_map.2 ⟨p, hp, by simpa using he⟩))

theorem complexFor_eq_none (h : name ∉ m.abstractProperties) : m.complexFor name = none := by
  rw [complexFor, List.find?_eq_none]
  intro p hp he
  exact h (List.mem_append_right _ (List.mem_map.2 ⟨p, hp, by simpa using he⟩))

end EntityMapping

namespace Planner

variable {p : Planner} {m : EntityMapping} {s : SimpleProperty} {cat : Catalog} {r : Record}
  {c : PropertyCondition}

theorem resolver_withSimple_of_ne (h : c.property ≠ s.abstract) (conjunctive : Bool) :
    p.resolver (m.withSimple s) c conjunctive = p.resolver m c conjunctive := by
  rw [resolver, EntityMapping.simpleFor_withSimple_of_ne h]
  rfl

theorem resolver_alike (hm : s.abstract ∉ m.abstractProperties) (hb : cat.Bare r s.backend)
    (hc : c.property = s.abstract → c.meetsAbsence = decide (c.operator = .isNull))
    (conjunctive : Bool) (f f' : Folding) (hf : p.resolver m c conjunctive = .ok f)
    (hf' : p.resolver (m.withSimple s) c conjunctive = .ok f') : f.Alike (cat.settled r) f' := by
  by_cases h : c.property = s.abstract
  · -- On one side a constant, on the other a comparison that only ever sees an absent value.
    rw [resolver, h, EntityMapping.simpleFor_eq_none hm, EntityMapping.complexFor_eq_none hm] at hf
    rw [resolver, h,
      EntityMapping.simpleFor_withSimple (EntityMapping.simpleFor_eq_none hm)] at hf'
    obtain rfl := Except.ok.inj hf
    obtain ⟨k, hk, hf'⟩ := Attempt.bind_eq_ok.1 hf'
    obtain rfl := Except.ok.inj hf'
    obtain ⟨hprop, hneg⟩ := PropertyCondition.compile_plain hk
    refine ⟨decide (c.operator = .isNull), rfl, ?_⟩
    rw [Folded.holds, Node.holds, hb.settled_eq hprop, PropertyCondition.compile_holds_nil hk, hc h,
      Attempt.map_ok, hneg, Bool.bne_false]
  · rw [resolver_withSimple_of_ne h, hf] at hf'
    obtain rfl := Except.ok.inj hf'
    obtain ⟨b, hb⟩ := Folded.exists_holds (cat.exists_settled) f.folded
    exact ⟨b, hb, hb⟩

/-- What a request comes to for a mapping without the property is true of the same records as what
it comes to where the property is mapped to a catalog property that no record has, if each
condition on the property is a test for null or does not hold for an absent value. -/
theorem fold_withSimple {g : PropertyGroup} (hm : s.abstract ∉ m.abstractProperties)
    (hb : cat.Bare r s.backend)
    (hg : ∀ c ∈ g.leaves, c.property = s.abstract →
      c.meetsAbsence = decide (c.operator = .isNull))
    {f f' : Folding} (hf : g.fold (p.resolver m) = .ok f)
    (hf' : g.fold (p.resolver (m.withSimple s)) = .ok f') {b b' : Bool}
    (h : f.folded.holds (cat.holds r) = .ok b) (h' : f'.folded.holds (cat.holds r) = .ok b') :
    b = b' := by
  have hl : g.toCriterion.leaves = g.leaves := by
    rw [PropertyGroup.toCriterion, Criterion.leaves, PropertyGroup.leaves]
  obtain ⟨t, ht, ht'⟩ := Criterion.fold_alike g.toCriterion true f f'
    (fun c hc j x x' => resolver_alike hm hb (hg c (hl ▸ hc)) j x x') hf hf'
  have hb := (Folded.holds_of_holds cat.settled_of_holds h).symm.trans ht
  have hb' := (Folded.holds_of_holds cat.settled_of_holds h').symm.trans ht'
  rw [Except.ok.inj hb, Except.ok.inj hb']

end Planner

namespace Sample

def wiki : SimpleProperty := ⟨"wiki_page", "additionalProperties", false⟩

/-- Neither is there a wiki page of this address, nor does the term lack a summary of its own. -/
def unknownWiki : PropertyGroup :=
  ⟨[.group .none [.leaf ⟨"additionalProperties", .eq, .text "wiki/Id"⟩,
      .leaf ⟨"additionalProperties", .like, .text ".*\\QId\\E"⟩],
    .leaf ⟨"additionalProperties", .isNull, .null⟩, .leaf ⟨"summary", .isNull, .null⟩], .all⟩

def otherWiki : PropertyGroup :=
  ⟨[.leaf ⟨"additionalProperties", .neq, .text "wiki/Id"⟩], .all⟩

theorem bare_wiki : Catalog.Bare {} glossaryTerm wiki.backend := by
  rintro x (rfl | hx)
  · rfl
  · cases hx

theorem leaves_unknownWiki : unknownWiki.leaves =
    [⟨"additionalProperties", .eq, .text "wiki/Id"⟩,
      ⟨"additionalProperties", .like, .text ".*\\QId\\E"⟩,
      ⟨"additionalProperties", .isNull, .null⟩, ⟨"summary", .isNull, .null⟩] := by
  simp [unknownWiki, PropertyGroup.leaves, Criterion.leavesOf, Criterion.leaves]

theorem unknownWiki_folded_alike :
    ∃ f f', unknownWiki.fold (planner.resolver MappingTable.Standard.term) = .ok f ∧
      unknownWiki.fold (planner.resolver (MappingTable.Standard.term.withSimple wiki)) = .ok f' ∧
      f.folded.holds (Catalog.holds {} glossaryTerm) = .ok true ∧
      f'.folded.holds (Catalog.holds {} glossaryTerm) = .ok true := by
  obtain ⟨f', hf'⟩ : ∃ f', unknownWiki.fold
      (planner.resolver (MappingTable.Standard.term.withSimple wiki)) = .ok f' := ⟨_, rfl⟩
  obtain ⟨b, hb⟩ : ∃ b, f'.folded.holds (Catalog.holds {} glossaryTerm) = .ok b := by
    obtain rfl := Except.ok.inj hf'
    exact ⟨_, rfl⟩
  refine ⟨_, f', rfl, hf', rfl, ?_⟩
  have hg : ∀ c ∈ unknownWiki.leaves, c.property = wiki.abstract →
      c.meetsAbsence = decide (c.operator = .isNull) := by
    simp only [leaves_unknownWiki, List.forall_mem_cons]
    exact ⟨fun _ => rfl, fun _ => rfl, fun _ => rfl, fun _ => rfl, by simp⟩
  have := Planner.fold_withSimple (b := true) (by decide +kernel) bare_wiki hg rfl hf' rfl hb
  rw [hb, this]

/-- A term without a wiki page is found to have another one, but not where no property holds
its wiki page. -/
theorem otherWiki_folded_apart :
    ∃ f f', otherWiki.fold (planner.resolver MappingTable.Standard.term) = .ok f ∧
      otherWiki.fold (planner.resolver (MappingTable.Standard.term.withSimple wiki)) = .ok f' ∧
      f.folded.holds (Catalog.holds {} glossaryTerm) = .ok false ∧
      f'.folded.holds (Catalog.holds {} glossaryTerm) = .ok true :=
  ⟨_, _, rfl, rfl, rfl, rfl⟩

end Sample

end MetaFed
