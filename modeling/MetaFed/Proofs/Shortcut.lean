import MetaFed.Proofs.Find
import MetaFed.Proofs.Hierarchy
import MetaFed.Proofs.QualifiedName

/-!
A lone condition on the qualified name may lead to its mappings by the head of the name. The other
mappings find nothing, except where only the end of the name is known.
-/

namespace MetaFed

theorem filter_eq_toList_find? {α : Type} {p : α → Bool} {xs : List α}
    (h : xs.Pairwise fun a b => ¬(p a = true ∧ p b = true)) : xs.filter p = (xs.find? p).toList := by
  induction xs with
  | nil => rfl
  | cons x xs ih =>
      obtain ⟨hx, hxs⟩ := List.pairwise_cons.1 h
      by_cases hp : p x = true
      · have hnone : xs.filter p = [] :=
          List.filter_eq_nil_iff.2 fun y hy hpy => hx y hy ⟨hp, hpy⟩
        rw [List.filter_cons_of_pos hp, hnone, List.find?_cons_of_pos hp]
        rfl
      · rw [List.filter_cons_of_neg hp, ih hxs, List.find?_cons_of_neg hp]

namespace MappingTable

variable {t : MappingTable} {ms ns : List EntityMapping}

/-- Every mapping with records has a head that can be taken apart and a qualified name, and the
mapping of a type precedes those of its descendants. -/
structure Readable (t : MappingTable) : Prop where
  heads : ∀ m ∈ backed t.mappings,
    QualifiedName.parseHead? m.identityHead = some (m.assetType, m.mark)
  named : ∀ m ∈ backed t.mappings,
    m.simpleFor qualifiedNameProperty = none ∧ m.hasQualifiedName = true
  ordered : ∀ name, t.hierarchy.has name = true →
    backed (t.subtree name) =
      (backed t.mappings).filter fun m => t.hierarchy.isTypeOf m.abstractType name

theorem eq_of_map_abstractType (ht : t.Accepted) (hm : ∀ m ∈ ms, m ∈ t.mappings)
    (hn : ∀ n ∈ ns, n ∈ t.mappings)
    (h : ms.map EntityMapping.abstractType = ns.map EntityMapping.abstractType) : ms = ns := by
  induction ms generalizing ns with
  | nil => exact (List.map_eq_nil_iff.1 h.symm).symm
  | cons m ms ih =>
      obtain ⟨n, ns, rfl, hmn, hrest⟩ := List.map_eq_cons_iff.1 h.symm
      rw [ht.eq_of_abstractType (hn n List.mem_cons_self) (hm m List.mem_cons_self) hmn,
        ih (fun k hk => hm k (List.mem_cons_of_mem m hk))
          (fun k hk => hn k (List.mem_cons_of_mem n hk)) hrest.symm]

theorem readable_standard : standard.Readable := by
  refine ⟨?_, ?_, fun name hname => ?_⟩
  · decide +kernel
  · have h : ∀ m ∈ backed Standard.mappings,
        (m.simpleFor qualifiedNameProperty).isNone = true ∧ m.hasQualifiedName = true := by
      decide +kernel
    exact fun m hm => ⟨Option.isNone_iff_eq_none.1 (h m hm).1, (h m hm).2⟩
  · have h : ∀ name ∈ standard.hierarchy.names,
        (backed (standard.subtree name)).map EntityMapping.abstractType =
          ((backed standard.mappings).filter fun m =>
            standard.hierarchy.isTypeOf m.abstractType name).map EntityMapping.abstractType := by
      decide +kernel
    refine eq_of_map_abstractType accepted_standard (fun m hm => ?_) (fun m hm => ?_)
      (h name (TypeDef.mem_names_iff.2 hname))
    · exact mem_subtree (mem_backed.1 hm).1
    · exact (mem_backed.1 (List.mem_filter.1 hm).1).1

theorem forIdentity_toList (ht : t.Accepted) (assetType : String) (mark : Option String) :
    (t.forIdentity assetType mark).toList =
      (backed t.mappings).filter fun m =>
        m.assetType == assetType && m.mark == mark.filter (· ≠ "") := by
  refine (filter_eq_toList_find? ?_).symm
  refine (ht.pairwise.sublist List.filter_sublist).imp_of_mem fun {m n} hm hn h hboth => ?_
  simp only [Bool.and_eq_true, beq_iff_eq] at hboth
  exact h.2 (mem_backed.1 hm).2 (mem_backed.1 hn).2
    ⟨hboth.1.1.trans hboth.2.1.symm, hboth.1.2.trans hboth.2.2.symm⟩

theorem has_of_checkType {name : String} (h : t.checkType name = .ok ()) :
    t.hierarchy.has name = true := by
  rw [checkType] at h
  split at h
  · cases h
  · rename_i hn
    exact not_not.1 hn

theorem checkType_of_expand {name : String} {within : List String}
    (h : t.expand (some name) within = .ok ms) : t.checkType name = .ok () := by
  simp only [expand] at h
  obtain ⟨_, _, h⟩ := Attempt.bind_eq_ok.1 h
  obtain ⟨_, hn, _⟩ := Attempt.bind_eq_ok.1 h
  exact hn

end MappingTable

namespace Planner

open MappingTable

variable {p : Planner} {s : EntitySearch} {m : EntityMapping} {ms : List EntityMapping}
  {k : PropertyCondition} {kind : LiteralKind} {literal : String}

theorem filter_isEligible_backed (within : List String) (ms : List EntityMapping) :
    (ms.filter fun m => p.table.isEligible m within) =
      (backed ms).filter fun m => p.table.isEligible m within := by
  rw [backed, List.filter_filter]
  refine List.filter_congr fun m _ => ?_
  cases h : p.table.isEligible m within with
  | false => rfl
  | true => simp [not_isSentinel_of_isEligible h]

/-- Searching without a shortcut goes through the mappings that the request accepts, in the order
of the table. -/
theorem expand_eq_filter (hr : p.table.Readable) (h : p.table.expand s.type s.within = .ok ms) :
    ms = (backed p.table.mappings).filter (p.accepts s) := by
  rw [expand_eq_ok h, filter_isEligible_backed]
  cases htype : s.type with
  | none =>
      refine List.filter_congr fun m _ => ?_
      simp [accepts, htype]
  | some name =>
      rw [htype] at h
      rw [below, hr.ordered name (has_of_checkType (checkType_of_expand h)), List.filter_filter]
      refine List.filter_congr fun m _ => ?_
      simp [accepts, htype]

/-- The asset type that the end of a qualified name narrows a search to. -/
def tailType? (p : Planner) (kind : LiteralKind) (literal : String) : Option String :=
  match kind with
  | .endsWith =>
    ((QualifiedName.parse? literal true).map QualifiedName.assetType).filter fun a =>
      !(p.table.forAsset a).isEmpty
  | _ => none

def ofAsset (p : Planner) (assetType : String) (e : Entity) : Bool :=
  (p.table.forAbstract e.type).any fun m => m.assetType == assetType

theorem ofAsset_eq (ht : p.table.Accepted) (hm : m ∈ p.table.mappings) {e : Entity}
    (he : e.type = m.abstractType) (assetType : String) :
    p.ofAsset assetType e = (m.assetType == assetType) := by
  rw [ofAsset, he, ht.forAbstract_of_mem hm]
  rfl

/-- The mapping is of the asset type that the end of a qualified name narrows a search to, if it
does. -/
def spares (p : Planner) (kind : LiteralKind) (literal : String) (m : EntityMapping) : Bool :=
  (p.tailType? kind literal).all fun a => m.assetType == a

theorem tailType?_of_owners? (h : p.owners? kind literal = none) :
    p.tailType? kind literal = none := by
  cases kind with
  | endsWith =>
      simp only [owners?] at h
      rw [tailType?]
      cases hq : QualifiedName.parse? literal true with
      | none => rfl
      | some q =>
          cases hms : p.table.forAsset q.assetType with
          | nil => simp [hms]
          | cons m ms => simp [hq, hms] at h
  | _ => rfl

theorem exact_never (ht : p.table.Accepted) (hr : p.table.Readable)
    (hm : m ∈ backed p.table.mappings) {q : QualifiedName}
    (hq : QualifiedName.parse? literal false = some q)
    (hne : (m.assetType == q.assetType && m.mark == q.mark.filter (· ≠ "")) = false) :
    NameFold.exact m literal = NameFold.never := by
  have hhead : q.head ≠ m.identityHead := by
    intro e
    obtain ⟨head, hh⟩ := QualifiedName.exists_head_of_parse? hq
    have hparts := QualifiedName.parseHead?_headOf hh
    rw [QualifiedName.head] at e
    rw [e, hr.heads m hm] at hparts
    obtain ⟨ha, hk⟩ := Prod.mk.inj (Option.some.inj hparts)
    rw [← ha, ← hk, EntityMapping.filter_mark (ht.mark_ne (mem_backed.1 hm).1)] at hne
    simp at hne
  simp only [NameFold.exact, hq, if_pos hhead]

theorem startsWith_never (ht : p.table.Accepted) (hr : p.table.Readable)
    (hm : m ∈ backed p.table.mappings) {h s : List Char} {ss : List (List Char)}
    (hl : Text.segments literal.toList = (h, s :: ss)) {assetType : String} {mark : Option String}
    (hh : QualifiedName.parseHead? (String.ofList h) = some (assetType, mark))
    (hne : (m.assetType == assetType && m.mark == mark.filter (· ≠ "")) = false) :
    NameFold.startsWith m literal = NameFold.never := by
  have hhead : String.ofList h ≠ m.identityHead := by
    intro e
    rw [e, hr.heads m hm] at hh
    obtain ⟨rfl, rfl⟩ := Prod.mk.inj (Option.some.inj hh)
    rw [EntityMapping.filter_mark (ht.mark_ne (mem_backed.1 hm).1)] at hne
    simp at hne
  simp only [NameFold.startsWith, hl, List.map_cons, reduceCtorEq, if_false, if_pos hhead]

/-- The mappings that a name leads to are those of the asset type at its end, or else all those
that can have an entity of that name. -/
theorem owners_eq_filter (ht : p.table.Accepted) (hr : p.table.Readable)
    (h : p.owners? kind literal = some ms) :
    ∃ leads : EntityMapping → Bool, ms = (backed p.table.mappings).filter leads ∧
      ∀ m ∈ backed p.table.mappings, leads m = p.spares kind literal m ∨
        (leads m = false ∧ NameFold.fold m (.literal kind literal) = NameFold.never) := by
  -- A mapping that is left out by its mark or asset type alone has no record of such a name.
  cases kind with
  | exact =>
      obtain ⟨q, hq, rfl⟩ := Option.map_eq_some_iff.1 h
      refine ⟨_, forIdentity_toList ht q.assetType q.mark, fun m hm => ?_⟩
      cases hl : m.assetType == q.assetType && m.mark == q.mark.filter (· ≠ "") with
      | true => exact .inl rfl
      | false => exact .inr ⟨rfl, exact_never ht hr hm hq hl⟩
  | endsWith =>
      simp only [owners?] at h
      split at h
      · rename_i q hq
        split at h
        · cases h
        · rename_i hne
          cases h
          refine ⟨_, rfl, fun m _ => .inl ?_⟩
          have hasset : (p.table.forAsset q.assetType).isEmpty = false := by
            cases hms : p.table.forAsset q.assetType with
            | nil => exact absurd hms hne
            | cons m ms => rfl
          simp [spares, tailType?, hq, hasset]
      · cases h
  | startsWith =>
      simp only [owners?] at h
      split at h
      · cases h
      · rename_i head s ss hl
        obtain ⟨⟨assetType, mark⟩, hh, rfl⟩ := Option.map_eq_some_iff.1 h
        refine ⟨_, forIdentity_toList ht assetType mark, fun m hm => ?_⟩
        cases hle : m.assetType == assetType && m.mark == mark.filter (· ≠ "") with
        | true => exact .inl rfl
        | false => exact .inr ⟨rfl, startsWith_never ht hr hm hl hh hle⟩
  | contains => cases h

def nameFolding (p : Planner) (kind : LiteralKind) (literal : String) (m : EntityMapping) : Folding :=
  if p.isForeign literal then NameFold.never else NameFold.fold m (.literal kind literal)

theorem foldName_literal (hk : namePattern? k = some (.literal kind literal)) :
    p.foldName m k true = .ok (p.nameFolding kind literal m) := by
  have hop : k.operator = .eq ∨ k.operator = .like := by
    rw [namePattern?] at hk
    split at hk
    · rename_i h _
      exact .inl h
    · rename_i h _
      exact .inr h
    · cases hk
  rw [foldName, nameFolding, hk]
  rcases hop with h | h
  · simp only [h, literalText]
    split <;> simp
  · simp only [h, literalText]
    split <;> simp

theorem nameFolding_of_never {m : EntityMapping}
    (h : NameFold.fold m (.literal kind literal) = NameFold.never) :
    p.nameFolding kind literal m = NameFold.never := by
  rw [nameFolding, h, ite_self]

theorem resolver_foldName (hs : m.simpleFor qualifiedNameProperty = none)
    (hq : m.hasQualifiedName = true) (hp : k.property = qualifiedNameProperty)
    (conjunctive : Bool) : p.resolver m k conjunctive = p.foldName m k conjunctive := by
  rw [EntityMapping.hasQualifiedName, Option.any_eq_true] at hq
  obtain ⟨x, hx, hkind⟩ := hq
  simp only [resolver, hp, hs, hx, of_decide_eq_true hkind]

theorem resolver_name (hs : m.simpleFor qualifiedNameProperty = none)
    (hq : m.hasQualifiedName = true) (hp : k.property = qualifiedNameProperty)
    (hk : namePattern? k = some (.literal kind literal)) :
    p.resolver m k true = .ok (p.nameFolding kind literal m) := by
  rw [resolver_foldName hs hq hp]
  exact foldName_literal hk

end Planner

namespace PropertyGroup

def nested (k : PropertyCondition) : PropertyGroup :=
  ⟨[(single k).toCriterion], .all⟩

theorem combine_singleton (f : Folded) : Folded.combine .all [f] = f := by
  cases f with
  | const b => cases b <;> rfl
  | node n => rfl

theorem fold_single (resolve : Resolver) (k : PropertyCondition) :
    (single k).fold resolve = resolve k true := by
  simp only [fold, single, toCriterion, Criterion.fold, Criterion.foldAll, Criterion.passesOn,
    List.isEmpty_cons, Bool.false_eq_true, if_false, Bool.and_true]
  cases resolve k true with
  | error e => rfl
  | ok f => simp [combine_singleton]

theorem fold_nested (resolve : Resolver) (k : PropertyCondition) :
    (nested k).fold resolve = resolve k true := by
  simp only [fold, nested, single, toCriterion, Criterion.fold, Criterion.foldAll,
    Criterion.passesOn, List.isEmpty_cons, Bool.false_eq_true, if_false, Bool.and_true]
  cases resolve k true with
  | error e => rfl
  | ok f => simp [combine_singleton]

theorem matches_nested (k : PropertyCondition) (values : Assoc String Value) :
    (nested k).matches values = (single k).matches values := by
  simp only [PropertyGroup.matches, nested, single, toCriterion, Criterion.holds,
    Criterion.allHold, List.isEmpty_cons, Bool.false_eq_true, if_false]
  cases k.holds values with
  | error e => rfl
  | ok b => cases b <;> rfl

end PropertyGroup

/-- A request with some conditions on properties. -/
def EntitySearch.asking (q : EntitySearch) (g : PropertyGroup) : EntitySearch :=
  { q with properties := some g }

namespace Planner

open MappingTable PropertyGroup

variable {p : Planner} {q : EntitySearch} {ms ns : List EntityMapping} {k : PropertyCondition}
  {kind : LiteralKind} {literal : String}

theorem loneName?_single (hp : k.property = qualifiedNameProperty)
    (hk : namePattern? k = some (.literal kind literal)) :
    loneName? (some (single k)) = some (kind, literal) := by
  simp [loneName?, loneCondition?, single, hp, hk]

theorem accepts_asking (g : PropertyGroup) : p.accepts (q.asking g) = p.accepts q := rfl

theorem candidates_nested : p.candidates (q.asking (nested k)) = p.table.expand q.type q.within :=
  rfl

/-- A lone condition on the qualified name goes through some of the mappings of the request. Each
mapping left out is of another asset type than the end of the name, or has no entity of the name. -/
theorem candidates_single (ht : p.table.Accepted) (hr : p.table.Readable)
    (hp : k.property = qualifiedNameProperty)
    (hk : namePattern? k = some (.literal kind literal))
    (hms : p.candidates (q.asking (single k)) = .ok ms)
    (hns : p.table.expand q.type q.within = .ok ns) :
    ∃ leads : EntityMapping → Bool, ms = ns.filter leads ∧
      ∀ m ∈ ns, leads m = p.spares kind literal m ∨
        (leads m = false ∧ p.nameFolding kind literal m = NameFold.never) := by
  have hexpand := expand_eq_filter hr hns
  have hlone : loneName? (q.asking (single k)).properties = some (kind, literal) :=
    loneName?_single hp hk
  obtain ⟨o, ho, hms⟩ := Attempt.bind_eq_ok.1 hms
  simp only [shortcut?, hlone] at ho
  obtain ⟨_, _, ho⟩ := Attempt.bind_eq_ok.1 ho
  split at ho
  · -- The name is another repository's, so no mapping has an entity of it.
    rename_i hforeign
    cases ho
    cases hms
    refine ⟨fun _ => false, by simp, fun m _ => .inr ⟨rfl, ?_⟩⟩
    rw [nameFolding, if_pos hforeign]
  · cases hos : p.owners? kind literal with
    | none =>
        rw [hos] at ho
        cases ho
        have hsame : ms = ns := Except.ok.inj (hms.symm.trans hns)
        refine ⟨fun _ => true, by simp [hsame], fun m _ => .inl ?_⟩
        rw [spares, tailType?_of_owners? hos, Option.all_none]
    | some os =>
        rw [hos] at ho
        cases ho
        cases hms
        obtain ⟨leads, rfl, hleads⟩ := owners_eq_filter ht hr hos
        refine ⟨leads, ?_, fun m hm => ?_⟩
        · simp only [accepts_asking, hexpand, List.filter_filter]
          exact List.filter_congr fun m _ => Bool.and_comm _ _
        · rw [hexpand] at hm
          exact (hleads m (List.mem_filter.1 hm).1).imp_right fun h =>
            ⟨h.1, nameFolding_of_never h.2⟩

end Planner

namespace Collection

open Planner PropertyGroup MappingTable

variable {c : Collection} {s : Service} {q : EntitySearch} {m : EntityMapping}
  {k : PropertyCondition} {kind : LiteralKind} {literal : String}

theorem readEntity_nested (c : Scope) (m : EntityMapping) (k : PropertyCondition) :
    c.readEntity m (some (nested k)) = c.readEntity m (some (single k)) := by
  funext r
  simp only [Scope.readEntity, matches_nested]

theorem answer_residual (s : Service) (limit : Option Value) (n : NativeSearch)
    (residual : Option PropertyGroup) :
    (s.bounded limit).answer { n with residual } = (s.bounded limit).answer n := by
  cases limit <;> rfl

theorem entitiesOf_nested (c : Collection) (s : Service) (n : NativeSearch) (k : PropertyCondition) :
    (c.scope s).entitiesOf [{ n with residual := some (nested k) }] =
      (c.scope s).entitiesOf [{ n with residual := some (single k) }] := by
  have hn : (c.scope s).backend.answer { n with residual := some (nested k) } =
      (c.scope s).backend.answer n := answer_residual s c.settings.timeout n _
  have hs : (c.scope s).backend.answer { n with residual := some (single k) } =
      (c.scope s).backend.answer n := answer_residual s c.settings.timeout n _
  simp only [Scope.entitiesOf, Scope.gather, Scope.entityReader, readEntity_nested, hn, hs]

theorem entitySearch_asking {g : PropertyGroup} {f : Folding}
    (h : g.fold (c.planner.resolver m) = .ok f) :
    c.planner.entitySearch (q.asking g) m =
      c.planner.assemble m f.folded q.classifications q.window >>= fun n =>
        .ok (n.map fun n => if f.approximate then { n with residual := some g } else n) := by
  simp only [entitySearch, EntitySearch.asking, foldOption, h, Attempt.ok_bind]

theorem entitiesFor_nested {f : Folding} (h : c.planner.resolver m k true = .ok f) :
    c.entitiesFor s (q.asking (nested k)) m = c.entitiesFor s (q.asking (single k)) m := by
  rw [entitiesFor, entitiesFor, entitySearch_asking ((fold_nested _ k).trans h),
    entitySearch_asking ((fold_single _ k).trans h)]
  cases c.planner.assemble m f.folded q.classifications q.window with
  | error e => rfl
  | ok o =>
      cases o with
      | none => rfl
      | some n =>
          cases f.approximate with
          | false => rfl
          | true => exact entitiesOf_nested c s n k

theorem entitiesFor_never {f : Folding} (h : c.planner.resolver m k true = .ok f)
    (hnever : f.folded.isNever = true) : c.entitiesFor s (q.asking (single k)) m = .ok [] := by
  rw [entitiesFor, entitySearch_asking ((fold_single _ k).trans h), assemble, if_pos hnever]
  rfl

theorem type_of_mem_entitiesFor {xs : List Entity} (h : c.entitiesFor s q m = .ok xs) :
    ∀ e ∈ xs, e.type = m.abstractType := by
  obtain ⟨o, ho, hx⟩ := Attempt.bind_eq_ok.1 h
  cases o with
  | none =>
      cases hx
      simp
  | some n =>
      intro e he
      obtain ⟨k, hk, htype⟩ := Scope.type_of_mem_entitiesOf
        (.cons (entitySearch_isFor ho).1 .nil) hx e he
      rw [htype, List.mem_singleton.1 hk]

/-- Each mapping that a lone condition goes through gives the entities it gives for the condition in
a group of its own; each one left out would give none of those that are kept. -/
theorem lone_name_filter (ht : c.table.Accepted) (hr : c.table.Readable)
    (hp : k.property = qualifiedNameProperty)
    (hk : namePattern? k = some (.literal kind literal)) {st st' : SessionState}
    {plain nested' : List Entity}
    (hplain : (Session.runFrom st
      (c.findEntities s ((q.asking (single k)).withPage 0 0))).1 = .ok plain)
    (hnested : (Session.runFrom st'
      (c.findEntities s ((q.asking (nested k)).withPage 0 0))).1 = .ok nested') :
    plain = nested'.filter fun e =>
      (c.planner.tailType? kind literal).all fun a => c.planner.ofAsset a e := by
  obtain ⟨ms, xss, hms, hxss, rfl⟩ := mapM_of_findEntities ht hplain
  obtain ⟨ns, yss, hns, hyss, rfl⟩ := mapM_of_findEntities ht hnested
  have hexpand : c.planner.table.expand q.type q.within = .ok ns := candidates_nested ▸ hns
  obtain ⟨leads, rfl, hleads⟩ := candidates_single (p := c.planner) ht hr hp hk hms hexpand
  refine Attempt.flatten_filter hyss hxss fun m hm ys hys => ?_
  have hback := candidates_backed (p := c.planner) hns m hm
  have hres : c.planner.resolver m k true = .ok (c.planner.nameFolding kind literal m) :=
    resolver_name (hr.named m hback).1 (hr.named m hback).2 hp hk
  have hkept : ∀ e ∈ ys, ((c.planner.tailType? kind literal).all fun a =>
      c.planner.ofAsset a e) = c.planner.spares kind literal m := by
    intro e he
    have htype := type_of_mem_entitiesFor hys e he
    rw [spares]
    congr 1
    funext a
    exact ofAsset_eq (p := c.planner) ht (mem_backed.1 hback).1 htype a
  rw [List.filter_congr hkept]
  rw [entitiesFor_nested hres] at hys
  rcases hleads m hm with hl | ⟨hl, hnever⟩
  · -- The mapping is searched just if the end of the name spares its entities.
    rw [hl]
    cases c.planner.spares kind literal m with
    | true => simpa using hys
    | false => simp
  · rw [hnever] at hres
    rw [entitiesFor_never hres rfl] at hys
    cases hys
    simp [hl]

/-- A lone condition on the qualified name finds what it finds in a group of its own, without the
entities of other asset types where the end of the name tells one. -/
theorem lone_name_eq_nested (hc : c.table = MappingTable.standard)
    (hp : k.property = qualifiedNameProperty)
    (hk : namePattern? k = some (.literal kind literal)) {operation operation' : String}
    {plain nested' : List Entity}
    (hplain : (c.run operation
      (c.findEntities s ((q.asking (single k)).withPage 0 0))).1 = .ok (.value plain))
    (hnested : (c.run operation'
      (c.findEntities s ((q.asking (nested k)).withPage 0 0))).1 = .ok (.value nested')) :
    plain =
      match c.planner.tailType? kind literal with
      | none => nested'
      | some assetType => nested'.filter (c.planner.ofAsset assetType) := by
  have ht : c.table.Accepted := hc ▸ MappingTable.accepted_standard
  have hr : c.table.Readable := hc ▸ MappingTable.readable_standard
  rw [lone_name_filter ht hr hp hk (run_eq_value.1 hplain) (run_eq_value.1 hnested)]
  cases c.planner.tailType? kind literal with
  | none => simp
  | some a => simp

end Collection

namespace Sample

def capitalHost : Record := { ref := ⟨"host-3", "host", some "HOST"⟩ }

def hostedDatabase : Record :=
  { ref := ⟨"database-2", "database", some "sales"⟩,
    properties := [("host", .reference capitalHost.ref)], context := [capitalHost.ref] }

def hostedService : Service := { catalog := (({} : Catalog).put capitalHost).put hostedDatabase }

def nameEndsWith (literal : String) : PropertyCondition :=
  ⟨qualifiedNameProperty, .like, .text (SearchPattern.build .endsWith literal)⟩

def databaseRequest : EntitySearch := { type := some "Database" }

/-- The databases that conditions find, as an operation answers them. -/
def databases (g : PropertyGroup) : Attempt (Outcome (List Entity)) :=
  (collection.run "find_entities"
    (collection.findEntities hostedService ((databaseRequest.asking g).withPage 0 0))).1

theorem guids_endsWith_single :
    guidsOf (databases (.single (nameEndsWith "HOST::sales"))) = some [] := by
  decide +kernel

theorem guids_endsWith_nested :
    guidsOf (databases (.nested (nameEndsWith "HOST::sales"))) =
      some ["e:home-1::database:database-2"] := by
  decide +kernel

/-- The name of the host looks like the head of a qualified name, and so only hosts are searched. -/
theorem database_left_out : ∃ plain nested',
    databases (.single (nameEndsWith "HOST::sales")) = .ok (.value plain) ∧
      databases (.nested (nameEndsWith "HOST::sales")) = .ok (.value nested') ∧
      ¬ ∀ e, e ∈ nested' → e ∈ plain := by
  obtain ⟨plain, hp, hpg⟩ := exists_of_guidsOf guids_endsWith_single
  obtain ⟨nested', hn, hng⟩ := exists_of_guidsOf guids_endsWith_nested
  refine ⟨plain, nested', hp, hn, fun h => ?_⟩
  have hempty : plain = [] := List.map_eq_nil_iff.1 hpg
  subst hempty
  cases nested' with
  | nil => cases hng
  | cons e es => exact List.not_mem_nil (h e List.mem_cons_self)

theorem guids_head_single :
    guidsOf (databases (.single (nameEndsWith "DATABASE::HOST::sales"))) =
      some ["e:home-1::database:database-2"] := by
  decide +kernel

theorem guids_head_nested :
    guidsOf (databases (.nested (nameEndsWith "DATABASE::HOST::sales"))) =
      some ["e:home-1::database:database-2"] := by
  decide +kernel

theorem lone_name_eq_nested_databases : ∃ plain nested',
    plain.map Entity.guid = ["e:home-1::database:database-2"] ∧
      databases (.nested (nameEndsWith "DATABASE::HOST::sales")) = .ok (.value nested') ∧
      plain = nested'.filter (collection.planner.ofAsset "database") := by
  obtain ⟨plain, hp, hpg⟩ := exists_of_guidsOf guids_head_single
  obtain ⟨nested', hn, _⟩ := exists_of_guidsOf guids_head_nested
  have htail : collection.planner.tailType? .endsWith "DATABASE::HOST::sales" = some "database" := by
    decide +kernel
  have hk : Planner.namePattern? (nameEndsWith "DATABASE::HOST::sales") =
      some (.literal .endsWith "DATABASE::HOST::sales") := rfl
  have h := Collection.lone_name_eq_nested (c := collection) (s := hostedService)
    (q := databaseRequest) rfl rfl hk hp hn
  rw [htail] at h
  exact ⟨plain, nested', hpg, hn, h⟩

end Sample

end MetaFed
