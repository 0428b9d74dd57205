import MetaFed.Proofs.Plan
import MetaFed.Proofs.Told

/-!
Requests without a plan and identifiers that stand for nothing are refused, and the refusal is told
to the caller. Planning checks the patterns of a request before anything else, so that every
condition that a plan leaves to be checked has an answer.
-/

namespace MetaFed

open Attempt

variable {F : Failure → Prop}

namespace Criterion

section

variable {leaf : PropertyCondition → Attempt Bool}

mutual

theorem fails_holds : ∀ k : Criterion, (∀ c ∈ k.leaves, (leaf c).Fails F) → (k.holds leaf).Fails F
  | .leaf c, h => h c List.mem_cons_self
  | .group criteria ms, h => by
    unfold holds
    split
    · exact fails_ok true
    · cases criteria with
      | all => exact fails_allHold ms h
      | any => exact fails_anyHolds ms h
      | none => exact (fails_anyHolds ms h).map

theorem fails_anyHolds : ∀ ks : List Criterion, (∀ c ∈ leavesOf ks, (leaf c).Fails F) →
    (anyHolds leaf ks).Fails F
  | [], _ => fails_ok false
  | k :: ks, h => by
    refine (fails_holds k fun c hc => h c (List.mem_append_left _ hc)).bind fun b _ => ?_
    split
    · exact fails_ok true
    · exact fails_anyHolds ks fun c hc => h c (List.mem_append_right _ hc)

theorem fails_allHold : ∀ ks : List Criterion, (∀ c ∈ leavesOf ks, (leaf c).Fails F) →
    (allHold leaf ks).Fails F
  | [], _ => fails_ok true
  | k :: ks, h => by
    refine (fails_holds k fun c hc => h c (List.mem_append_left _ hc)).bind fun b _ => ?_
    split
    · exact fails_allHold ks fun c hc => h c (List.mem_append_right _ hc)
    · exact fails_ok false

end

end

section

variable {resolve : Resolver}

mutual

theorem fails_fold : ∀ (k : Criterion) (conjunctive : Bool),
    (∀ c ∈ k.leaves, ∀ b, (resolve c b).Fails F) → (k.fold resolve conjunctive).Fails F
  | .leaf c, conjunctive, h => h c List.mem_cons_self conjunctive
  | .group criteria ms, conjunctive, h => by
    rw [fold]
    split
    · exact fails_ok _
    · exact (fails_foldAll ms _ h).bind fun _ _ => fails_ok _

theorem fails_foldAll : ∀ (ks : List Criterion) (conjunctive : Bool),
    (∀ c ∈ leavesOf ks, ∀ b, (resolve c b).Fails F) → (foldAll resolve conjunctive ks).Fails F
  | [], _, _ => fails_ok []
  | k :: ks, conjunctive, h => by
    have hfirst := fails_fold k conjunctive fun c hc => h c (List.mem_append_left _ hc)
    have hrest := fails_foldAll ks conjunctive fun c hc => h c (List.mem_append_right _ hc)
    exact hfirst.bind fun _ _ => hrest.bind fun _ _ => fails_ok _

end

end

end Criterion

theorem PropertyGroup.fails_foldOption {resolve : Resolver} (o : Option PropertyGroup)
    (h : ∀ g, o = some g → ∀ c ∈ g.leaves, ∀ b, (resolve c b).Fails F) :
    (foldOption resolve o).Fails F := by
  cases o with
  | none => exact fails_ok _
  | some g => exact Criterion.fails_fold _ _ (h g rfl)

/-- A refusal is told, unless it is for reasons of configuration. -/
theorem Attempt.told_refuse {α : Type} {c : Cause}
    (h : Outcome.isMisconfigured (Refusal.of c []) = false) : Told (refuse c : Attempt α) :=
  told_refused h

theorem PropertyCondition.told_compile (backend : String) (c : PropertyCondition) :
    (c.compile backend).Told := by
  have hstring : (PropertyOperator.string? backend c.operator c.value).Told := by
    unfold PropertyOperator.string?
    split
    · split
      · exact fails_ok _
      · exact told_refuse rfl
    · exact fails_ok _
    · exact fails_ok _
  unfold PropertyCondition.compile PropertyOperator.compile
  split
  · exact fails_ok _
  · exact fails_ok _
  · exact fails_ok _
  · exact hstring.bind fun _ _ => fails_ok _

theorem Resolver.told_through (backendFor : String → Option String) (c : PropertyCondition)
    (b : Bool) : (Resolver.through backendFor c b).Told := by
  unfold Resolver.through
  split
  · exact (c.told_compile _).bind fun _ _ => fails_ok _
  · exact fails_ok _

namespace MappingTable

variable (t : MappingTable)

theorem told_checkType (name : String) : (t.checkType name).Told := by
  unfold checkType
  split
  · exact told_refuse rfl
  · split
    · exact told_refuse rfl
    · exact fails_ok ()

theorem told_checkTypes (names : List String) : (t.checkTypes names).Told := by
  induction names with
  | nil => exact fails_ok ()
  | cons n ns ih => exact (t.told_checkType n).bind fun _ _ => ih

theorem told_checkClassification (name : String) : (t.checkClassification name).Told := by
  unfold checkClassification
  split
  · exact fails_ok ()
  · exact told_refuse rfl

theorem told_expand (type : Option String) (within : List String) : (t.expand type within).Told := by
  refine (t.told_checkTypes within).bind fun _ _ => ?_
  cases type with
  | none => exact fails_ok _
  | some name =>
      refine (t.told_checkType name).bind fun _ _ => ?_
      simp only
      split
      · exact told_refuse rfl
      · split
        · exact told_refuse rfl
        · exact fails_ok _

theorem told_require (assetType : String) (mark : Option String) :
    (t.require assetType mark).Told := by
  unfold require
  split
  · exact fails_ok _
  · exact told_refused rfl

theorem told_relationshipsFor (type : Option String) : (t.relationshipsFor type).Told := by
  cases type with
  | none => exact fails_ok _
  | some name =>
      refine (t.told_checkType name).bind fun _ _ => ?_
      simp only
      split
      · exact told_refuse rfl
      · exact fails_ok _

end MappingTable

namespace Planner

theorem told_checkPresent (historical : Bool) : (checkPresent historical).Told := by
  cases historical with
  | false => exact fails_ok ()
  | true => exact told_refuse rfl

theorem told_checkText (value : String) : (checkText value).Told := by
  unfold checkText
  split
  · exact fails_ok ()
  · exact told_refuse rfl

theorem told_checkPattern (c : PropertyCondition) : (checkPattern c).Told := by
  unfold checkPattern
  split
  · split
    · exact fails_ok ()
    · exact told_refuse rfl
  · exact fails_ok ()

theorem told_checkPatterns (cs : List PropertyCondition) : (checkPatterns cs).Told := by
  induction cs with
  | nil => exact fails_ok ()
  | cons c cs ih => exact (told_checkPattern c).bind fun _ _ => ih

theorem told_checkRequest (historical : Bool) (o : Option PropertyGroup) :
    (checkRequest historical o).Told := by
  refine (told_checkPresent historical).bind fun _ _ => ?_
  cases o with
  | none => exact fails_ok ()
  | some g => exact told_checkPatterns g.leaves

theorem checkPattern_of_checkPatterns {cs : List PropertyCondition}
    (h : checkPatterns cs = .ok ()) : ∀ c ∈ cs, checkPattern c = .ok () := by
  induction cs with
  | nil => simp
  | cons c cs ih =>
      obtain ⟨_, hc, h⟩ := Attempt.bind_eq_ok.1 h
      exact List.forall_mem_cons.2 ⟨hc, ih h⟩

theorem checkPattern_of_checkRequest {historical : Bool} {o : Option PropertyGroup}
    (h : checkRequest historical o = .ok ()) {g : PropertyGroup} (hg : o = some g) :
    ∀ c ∈ g.leaves, checkPattern c = .ok () := by
  subst hg
  obtain ⟨_, _, h⟩ := Attempt.bind_eq_ok.1 h
  exact checkPattern_of_checkPatterns h

/-- Only a general pattern keeps a condition from having an answer. -/
theorem fails_holds {c : PropertyCondition} (h : checkPattern c = .ok ()) (v : Value) :
    (c.operator.holds v c.value).Fails F := by
  obtain ⟨property, o, expected⟩ := c
  cases o with
  | like =>
      cases expected with
      | text p =>
          have hmatches (t : String) : (SearchPattern.matchesText p t).Fails F := by
            unfold SearchPattern.matchesText
            split
            · exact fails_ok _
            · -- A general pattern would not have passed the check.
              rename_i hgeneral
              simp only [checkPattern, hgeneral, SearchPattern.isLiteral] at h
              cases h
          cases v with
          | null => exact fails_ok false
          | list vs => exact .anyM fun v _ => hmatches v.asText
          | _ => exact hmatches _
      | _ => cases v <;> exact fails_ok _
  | memberOf => cases expected <;> exact fails_ok _
  | _ => exact fails_ok _

theorem fails_matches {g : PropertyGroup} (h : ∀ c ∈ g.leaves, checkPattern c = .ok ())
    (values : Assoc String Value) : (g.matches values).Fails F :=
  Criterion.fails_holds g.toCriterion fun c hc => fails_holds (h c hc) _

variable (p : Planner) (s : EntitySearch) (m : EntityMapping)

theorem told_foldName (c : PropertyCondition) (conjunctive : Bool) :
    (p.foldName m c conjunctive).Told := by
  unfold foldName
  split
  · exact fails_ok _
  · exact fails_ok _
  · exact told_refuse rfl
  · split
    · exact fails_ok _
    · simp only
      split
      · exact told_refuse rfl
      · exact fails_ok _

theorem told_resolver {c : PropertyCondition} (h : checkPattern c = .ok ()) (conjunctive : Bool) :
    (p.resolver m c conjunctive).Told := by
  unfold resolver
  split
  · exact (c.told_compile _).bind fun _ _ => fails_ok _
  · exact fails_ok _
  · split
    · exact (fails_holds h _).bind fun _ _ => fails_ok _
    · split
      · exact (c.told_compile _).bind fun _ _ => fails_ok _
      · exact fails_ok _
    · exact p.told_foldName m c conjunctive

theorem told_foldClassification (k : ClassificationCondition) :
    (p.foldClassification m k).Told := by
  refine (p.table.told_checkClassification k.name).bind fun _ _ => ?_
  split
  · exact fails_ok _
  · rename_i x _
    have hfold : (PropertyGroup.foldOption (Resolver.through x.backendFor) k.properties).Told :=
      PropertyGroup.fails_foldOption _ fun _ _ c _ b => Resolver.told_through _ c b
    refine hfold.bind fun f _ => ?_
    split <;> exact fails_ok _

theorem told_foldClassifications (o : Option ClassificationGroup) :
    (p.foldClassifications m o).Told := by
  unfold foldClassifications
  split
  · exact fails_ok _
  · split
    · exact fails_ok _
    · exact Fails.bind (.mapM fun k _ => p.told_foldClassification m k) fun _ _ => fails_ok _

theorem told_sortKeys (w : Window) : (sortKeys m w).Told := by
  unfold sortKeys
  split
  · exact fails_ok _
  · exact fails_ok _
  · split
    · exact fails_ok _
    · exact told_refuse rfl

theorem told_assemble (f : Folded) (o : Option ClassificationGroup) (w : Window) :
    (p.assemble m f o w).Told := by
  unfold assemble
  split
  · exact fails_ok _
  · refine (p.told_foldClassifications m o).bind fun classified _ => ?_
    split
    · exact fails_ok _
    · exact (told_sortKeys m w).bind fun _ _ => fails_ok _

theorem told_entitySearch (h : ∀ g, s.properties = some g → ∀ c ∈ g.leaves, checkPattern c = .ok ()) :
    (p.entitySearch s m).Told := by
  have hfold : (PropertyGroup.foldOption (p.resolver m) s.properties).Told :=
    PropertyGroup.fails_foldOption _ fun g hg c hc b => p.told_resolver m (h g hg c hc) b
  exact hfold.bind fun f _ => (p.told_assemble m _ _ _).bind fun _ _ => fails_ok _

theorem told_candidates : (p.candidates s).Told := by
  have hshortcut : (p.shortcut? s).Told := by
    unfold shortcut?
    split
    · exact fails_ok _
    · refine (p.table.told_checkTypes _).bind fun _ _ => ?_
      split <;> exact fails_ok _
  refine hshortcut.bind fun o _ => ?_
  split
  · exact fails_ok _
  · exact p.table.told_expand _ _

theorem told_planEntities (operation : Option String) : (p.planEntities s operation).Told := by
  refine ((told_checkRequest _ _).within _).bind fun _ hcheck => ?_
  refine ((p.told_candidates s).within _).bind fun ms _ => ?_
  refine Fails.bind (.mapM fun m _ => p.told_entitySearch s m fun g hg => ?_) fun _ _ => fails_ok _
  exact checkPattern_of_checkRequest (Attempt.within_eq_ok.1 hcheck) hg

theorem told_rerouted? (value : String) : (p.rerouted? value).Told := by
  refine (told_checkText value).bind fun _ _ => ?_
  simp only
  split <;> exact fails_ok _

theorem told_anyMatches (paths : List String) (pattern : String) : (anyMatches paths pattern).Told :=
  Fails.bind (.mapM fun path _ => PropertyCondition.told_compile path ⟨path, .like, .text pattern⟩)
    fun _ _ => fails_ok _

theorem told_planText (value : String) (reported : StringProperties)
    (version operation : Option String) : (p.planText s value reported version operation).Told := by
  refine ((told_checkPresent _).within _).bind fun _ _ => ?_
  refine ((told_checkText value).within _).bind fun _ _ => ?_
  refine ((p.told_candidates s).within _).bind fun ms _ => ?_
  refine Fails.bind (.mapM fun m _ => ?_) fun _ _ => fails_ok _
  unfold textSearch
  split
  · exact fails_ok _
  · exact (told_anyMatches _ _).bind fun _ _ => p.told_assemble m _ _ _

theorem told_planRelationships (q : RelationshipSearch) (operation : Option String) :
    (p.planRelationships q operation).Told := by
  refine ((told_checkRequest _ _).within _).bind fun _ _ => ?_
  refine ((p.table.told_relationshipsFor _).within _).bind fun ks _ => ?_
  refine Fails.bind (.mapM fun k _ => Fails.bind ?_ fun _ _ => fails_ok _) fun _ _ => fails_ok _
  exact PropertyGroup.fails_foldOption _ fun _ _ c _ b => Resolver.told_through _ c b

theorem told_planRelationshipText (type : Option String) (value : String)
    (reported : StringProperties) (w : Window) (operation : Option String) :
    (p.planRelationshipText type value reported w operation).Told := by
  refine ((told_checkText value).within _).bind fun _ _ => ?_
  refine ((p.table.told_relationshipsFor _).within _).bind fun ks _ => ?_
  refine Fails.bind (.mapM fun k _ => ?_) fun _ _ => fails_ok _
  unfold relationshipTextSearch
  simp only
  split
  · exact fails_ok _
  · exact (told_anyMatches _ _).bind fun _ _ => fails_ok _

theorem told_levelAssetTypes (type operation : Option String) :
    (p.levelAssetTypes type operation).Told :=
  ((p.table.told_relationshipsFor type).within operation).bind fun _ _ => fails_ok _

end Planner

/-- What the searches of a plan leave to be checked has an answer. -/
def SearchPlan.Checkable (plan : SearchPlan) : Prop :=
  ∀ n ∈ plan.searches, ∀ g, n.residual = some g → ∀ c ∈ g.leaves, Planner.checkPattern c = .ok ()

namespace Planner

variable {p : Planner} {s : EntitySearch} {m : EntityMapping} {n : NativeSearch} {plan : SearchPlan}

theorem residual_of_assemble {f : Folded} {o : Option ClassificationGroup} {w : Window}
    (h : p.assemble m f o w = .ok (some n)) : n.residual = none := by
  obtain ⟨_, _, _, _, rfl⟩ := assemble_eq_some h
  rfl

theorem residual_of_entitySearch (h : p.entitySearch s m = .ok (some n)) :
    n.residual = none ∨ n.residual = s.properties := by
  obtain ⟨f, k, _, hk, rfl | rfl⟩ := entitySearch_eq_some h
  · exact .inr rfl
  · exact .inl (residual_of_assemble hk)

/-- Cutting a search to its leading hits leaves the same to be checked. -/
theorem residual_planEntities {operation : Option String}
    (h : p.planEntities s operation = .ok plan) :
    ∀ n ∈ plan.searches, n.residual = none ∨ n.residual = s.properties := by
  intro n hn
  obtain ⟨_, _, m, _, k, hk, _, _, rfl⟩ := mem_planEntities h hn
  have hresidual := residual_of_entitySearch hk
  exact hresidual

theorem residual_planText {value : String} {reported : StringProperties}
    {version operation : Option String}
    (h : p.planText s value reported version operation = .ok plan) :
    ∀ n ∈ plan.searches, n.residual = none := by
  intro n hn
  obtain ⟨_, _, m, _, k, hk, _, _, rfl⟩ := mem_planText h hn
  obtain ⟨f, _, hk⟩ := textSearch_eq_some hk
  have hresidual := residual_of_assemble hk
  exact hresidual

theorem checkable_planEntities {operation : Option String}
    (h : p.planEntities s operation = .ok plan) : plan.Checkable := by
  obtain ⟨_, hcheck, _⟩ := Attempt.bind_eq_ok.1 h
  intro n hn g hg
  rcases residual_planEntities h n hn with hnone | hsome
  · cases hnone.symm.trans hg
  · exact checkPattern_of_checkRequest (Attempt.within_eq_ok.1 hcheck) (hsome.symm.trans hg)

theorem checkable_planText {value : String} {reported : StringProperties}
    {version operation : Option String}
    (h : p.planText s value reported version operation = .ok plan) : plan.Checkable := by
  intro n hn g hg
  cases (residual_planText h n hn).symm.trans hg

end Planner

namespace Collection

variable (c : Collection)

theorem told_typeDef (name : String) : (c.typeDef name).Told := by
  unfold typeDef
  split
  · exact fails_ok _
  · exact told_refuse rfl

theorem told_coverage (name : String) : (c.coverage name).Told := by
  refine (c.told_typeDef name).bind fun t _ => ?_
  simp only
  split
  · exact fails_ok _
  · split <;> exact fails_ok _

theorem told_decodeEntity (guid : String) : (c.decodeEntity guid).Told := by
  unfold decodeEntity
  split
  · exact fails_ok _
  · exact told_refused rfl

theorem told_owner (guid : String) (id : EntityId) : (c.owner guid id).Told := by
  unfold owner
  split
  · exact told_refused rfl
  · exact c.table.told_require _ _

end Collection

theorem Scope.told_decodeRelationship (c : Scope) (guid : String) :
    (c.decodeRelationship guid).Told := by
  unfold Scope.decodeRelationship
  split
  · exact fails_ok _
  · exact told_refused rfl

end MetaFed
