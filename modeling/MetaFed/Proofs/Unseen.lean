import MetaFed.Proofs.FreeText
import MetaFed.Proofs.Inspected
import MetaFed.Proofs.Storage

/-!
Free-text searches on two catalogs that differ in properties that are excluded only. No condition
looks at these, no sort key and no name of an entity, so that the same entities are found in the
same order, or the search fails in the same way.
-/

namespace MetaFed

section Sorting

variable {α β : Type} {R : α → β → Prop} {le : α → α → Bool} {le' : β → β → Bool} {xs : List α}
  {ys : List β}

theorem forall₂_insertBy (hle : ∀ a b a' b', R a b → R a' b' → le a a' = le' b b') {x : α} {y : β}
    (hxy : R x y) (h : List.Forall₂ R xs ys) :
    List.Forall₂ R (insertBy le x xs) (insertBy le' y ys) := by
  induction h with
  | nil => exact .cons hxy .nil
  | @cons x' y' xs ys hxy' hxs ih =>
      rw [insertBy, insertBy, hle x y x' y' hxy hxy']
      split
      · exact .cons hxy (.cons hxy' hxs)
      · exact .cons hxy' ih

theorem forall₂_sortBy (hle : ∀ a b a' b', R a b → R a' b' → le a a' = le' b b')
    (h : List.Forall₂ R xs ys) : List.Forall₂ R (sortBy le xs) (sortBy le' ys) := by
  induction h with
  | nil => exact .nil
  | cons hxy _ ih => exact forall₂_insertBy hle hxy ih

theorem forall₂_page (start size : Nat) (h : List.Forall₂ R xs ys) :
    List.Forall₂ R (page start size xs) (page start size ys) := by
  rw [page, page]
  split
  · exact List.forall₂_drop start h
  · exact List.forall₂_take size (List.forall₂_drop start h)

end Sorting

/-- Two catalogs that differ in values of properties only, and agree in the properties of a kind. -/
structure Catalog.AgreesOn (P : String → Prop) (cat cat' : Catalog) : Prop where
  records : List.Forall₂ (fun e e' => e.1 = e'.1 ∧ e.2.AgreesOn P e'.2) cat.records cat'.records
  stringProperties : cat.stringProperties = cat'.stringProperties
  version : cat.version = cat'.version

theorem Record.AgreesOn.project {P : String → Prop} {r r' : Record} (h : r.AgreesOn P r')
    (wanted : List String) : (r.project wanted).AgreesOn P (r'.project wanted) := by
  rw [Record.project, Record.project]
  split
  · exact h
  · refine ⟨h.bare, fun p hp => ?_⟩
    cases hw : wanted.contains p with
    | true => rw [Assoc.find?_filter hw, Assoc.find?_filter hw, h.find? p hp]
    | false => rw [Assoc.find?_filter_of_neg hw, Assoc.find?_filter_of_neg hw]

namespace Catalog

variable {P : String → Prop} {r r' : Record} {rs rs' : List Record} {k : SortKey}

theorem valuesOf_congr {property : String} (hp : P property) (h : r.AgreesOn P r') :
    valuesOf property r = valuesOf property r' := by
  rw [valuesOf, valuesOf, h.value hp]

theorem keyOrder?_congr {s s' : Record} (hk : P k.property) (hr : r.AgreesOn P r')
    (hs : s.AgreesOn P s') : keyOrder? (r.value k.property) (s.value k.property) =
      keyOrder? (r'.value k.property) (s'.value k.property) := by
  rw [hr.value hk, hs.value hk]

theorem isComparable_congr (hk : P k.property)
    (h : List.Forall₂ (Record.AgreesOn P) rs rs') : isComparable k rs = isComparable k rs' := by
  have hall {us us' : List Record} (hus : List.Forall₂ (Record.AgreesOn P) us us')
      {told told' : Record → Bool} (htold : ∀ r r', r.AgreesOn P r' → told r = told' r') :
      us.all told = us'.all told' := by
    induction hus with
    | nil => rfl
    | cons hr _ ih => rw [List.all_cons, List.all_cons, htold _ _ hr, ih]
  refine hall h fun r r' hr => hall h fun s s' hs => ?_
  rw [keyOrder?_congr hk hr hs]

theorem alike_sortByKeys {ks : List SortKey} (hks : ∀ k ∈ ks, P k.property)
    (h : List.Forall₂ (Record.AgreesOn P) rs rs') :
    Attempt.Alike Eq (List.Forall₂ (Record.AgreesOn P)) (sortByKeys ks rs)
      (sortByKeys ks rs') := by
  induction ks with
  | nil => exact .ok h
  | cons k ks ih =>
      obtain ⟨hk, hks⟩ := List.forall_mem_cons.1 hks
      refine (ih hks).bind fun us us' hus => ?_
      rw [sortByKey, sortByKey, isComparable_congr hk hus]
      split
      · refine .ok (forall₂_sortBy (fun r r' s s' hr hs => ?_) hus)
        rw [precedes, precedes, keyOrder?_congr hk hr hs, keyOrder?_congr hk hs hr]
      · exact .error rfl

namespace AgreesOn

variable {cat cat' : Catalog} (h : cat.AgreesOn P cat')

include h

theorem find? (id : String) : Option.Rel (Record.AgreesOn P) (cat.find? id) (cat'.find? id) := by
  obtain ⟨hrecords, _, _⟩ := h
  rw [Catalog.find?, Catalog.find?]
  generalize cat.records = m at hrecords ⊢
  generalize cat'.records = m' at hrecords ⊢
  induction hrecords with
  | nil => exact .none
  | cons he _ ih =>
      rw [Assoc.find?, Assoc.find?, he.1]
      split
      · exact .some he.2
      · exact ih

theorem forall₂_found (refs : List Reference) : List.Forall₂ (Record.AgreesOn P)
    (refs.filterMap fun x => cat.find? x.id) (refs.filterMap fun x => cat'.find? x.id) := by
  induction refs with
  | nil => exact .nil
  | cons x refs ih =>
      have hfound := h.find? x.id
      rw [List.filterMap_cons, List.filterMap_cons]
      generalize cat.find? x.id = o at hfound ⊢
      generalize cat'.find? x.id = o' at hfound ⊢
      cases hfound with
      | none => exact ih
      | some hr => exact .cons hr ih

theorem alike_follow {property : String} (hp : P property)
    (hrs : List.Forall₂ (Record.AgreesOn P) rs rs') :
    Attempt.Alike Eq (List.Forall₂ (Record.AgreesOn P)) (cat.follow property rs)
      (cat'.follow property rs') := by
  induction hrs with
  | nil => exact .ok .nil
  | cons hr _ ih =>
      rw [follow, follow, hr.references hp]
      exact (Attempt.Alike.refl _).bind_eq fun refs => ih.bind fun us us' hus =>
        .ok (List.rel_append (h.forall₂_found refs) hus)

theorem alike_followAll {hops : List String} (hhops : ∀ hop ∈ hops, P hop)
    (hrs : List.Forall₂ (Record.AgreesOn P) rs rs') :
    Attempt.Alike Eq (List.Forall₂ (Record.AgreesOn P)) (cat.followAll hops rs)
      (cat'.followAll hops rs') := by
  induction hops generalizing rs rs' with
  | nil => exact .ok hrs
  | cons hop hops ih =>
      obtain ⟨hhop, hhops⟩ := List.forall_mem_cons.1 hhops
      exact (h.alike_follow hhop hrs).bind fun us us' hus => ih hhops hus

theorem valuesAlong {path : String} (hpath : StepsIn P path) (hr : r.AgreesOn P r') :
    cat.valuesAlong r path = cat'.valuesAlong r' path := by
  have hne : Text.fieldsOf '.' path ≠ [] := by simp [Text.fieldsOf]
  have hlast : P ((Text.fieldsOf '.' path).getLastD "") := by
    rw [List.getLastD_eq_getLast?, List.getLast?_eq_some_getLast hne]
    exact hpath _ (List.getLast_mem hne)
  have hfollowed := h.alike_followAll (fun hop hhop => hpath hop (List.dropLast_subset _ hhop))
    (.cons hr .nil)
  rw [Catalog.valuesAlong, Catalog.valuesAlong]
  generalize cat.followAll _ [r] = a at hfollowed ⊢
  generalize cat'.followAll _ [r'] = a' at hfollowed ⊢
  cases hfollowed with
  | error he => rw [he]
  | ok hus =>
      refine congrArg Except.ok ?_
      induction hus with
      | nil => rfl
      | cons hu _ ih => rw [List.flatMap_cons, List.flatMap_cons, valuesOf_congr hlast hu, ih]

theorem holds {k : NativeCondition} (hk : StepsIn P k.property) (hr : r.AgreesOn P r') :
    cat.holds r k = cat'.holds r' k := by
  rw [Catalog.holds, Catalog.holds, h.valuesAlong hk hr]

theorem alike_matching {types : List String} {conditions : Node}
    (hc : conditions.Along (StepsIn P)) (hrs : List.Forall₂ (Record.AgreesOn P) rs rs') :
    Attempt.Alike Eq (List.Forall₂ (Record.AgreesOn P)) (cat.matching types conditions rs)
      (cat'.matching types conditions rs') := by
  induction hrs with
  | nil => exact .ok .nil
  | @cons r r' rs rs' hr _ ih =>
      have hholds : conditions.holds (cat.holds r) = conditions.holds (cat'.holds r') :=
        conditions.holds_congr fun k hk => h.holds (hc k hk) hr
      have hrest (found : Bool) : Attempt.Alike Eq (List.Forall₂ (Record.AgreesOn P))
          (cat.matching types conditions rs >>= fun us => .ok (if found then r :: us else us))
          (cat'.matching types conditions rs' >>= fun us =>
            .ok (if found then r' :: us else us)) := by
        refine ih.bind fun us us' hus => .ok ?_
        cases found with
        | true => exact .cons hr hus
        | false => exact hus
      rw [matching, matching, hr.type, hholds]
      split
      · exact (Attempt.Alike.refl _).bind_eq hrest
      · exact hrest false

theorem alike_search {n : NativeSearch} (hn : n.RestsOn P) :
    Attempt.Alike Eq (List.Forall₂ (Record.AgreesOn P)) (cat.search n) (cat'.search n) := by
  have hvalues : List.Forall₂ (Record.AgreesOn P) cat.records.values cat'.records.values :=
    List.forall₂_map_left_iff.2 (List.forall₂_map_right_iff.2 (h.records.imp fun _ _ he => he.2))
  refine (h.alike_matching hn.conditions hvalues).bind fun us us' hus => ?_
  refine (alike_sortByKeys hn.sorts hus).bind fun us us' hus => .ok ?_
  refine List.forall₂_map_left_iff.2 (List.forall₂_map_right_iff.2 ?_)
  exact (forall₂_page n.start n.pageSize hus).imp fun _ _ hr => hr.project n.properties

end AgreesOn

end Catalog

namespace Record.AgreesOn

variable {P : String → Prop} {r r' : Record} (h : r.AgreesOn P r')

include h

/-- A value that is missing is told by the properties that are required. -/
theorem alike_putSimple {ps : List SimpleProperty}
    (hps : ∀ p ∈ ps, p.required = true → P p.backend) (vs vs' : Assoc String Value) :
    Attempt.Alike Eq (fun _ _ => True) (r.putSimple ps vs) (r'.putSimple ps vs') := by
  induction ps generalizing vs vs' with
  | nil => exact .ok trivial
  | cons p ps ih =>
      obtain ⟨hp, hps⟩ := List.forall_mem_cons.1 hps
      rw [putSimple, putSimple]
      cases hrequired : p.required with
      | true =>
          rw [h.value (hp hrequired)]
          simp only [if_true]
          split
          · exact .error rfl
          · exact ih hps _ _
      | false =>
          -- The values may differ, and one of them may be absent, but what follows is the same.
          simp only [Bool.false_eq_true, if_false]
          split <;> split <;> exact ih hps _ _

theorem alike_putComplex {ps : List ComplexProperty} (mark : Option String)
    (hps : ∀ p ∈ ps, ∀ n ∈ p.reads, P n) (vs vs' : Assoc String Value) :
    Attempt.Alike Eq (fun _ _ => True) (r.putComplex mark ps vs) (r'.putComplex mark ps vs') := by
  induction ps generalizing vs vs' with
  | nil => exact .ok trivial
  | cons p ps ih =>
      obtain ⟨hp, hps⟩ := List.forall_mem_cons.1 hps
      rw [putComplex, putComplex, h.complexValue hp]
      refine (Attempt.Alike.refl _).bind_eq fun v => ?_
      split
      · split
        · exact .error rfl
        · exact ih hps _ _
      · exact ih hps _ _

end Record.AgreesOn

/-- Two entities have the same identifier and the same qualified name. -/
structure Entity.Namesakes (e e' : Entity) : Prop where
  guid : e.guid = e'.guid
  name : e.read qualifiedNameProperty = e'.read qualifiedNameProperty

namespace Entity

variable {P : String → Prop} {r r' : Record} {m : EntityMapping} {home : String}

theorem alike_ofRecord (h : r.AgreesOn P r') (hm : ∀ p ∈ m.needs, P p)
    (hn : m.abstractProperties.Nodup) (hq : m.hasQualifiedName = true) :
    Attempt.Alike Eq Namesakes (ofRecord home m r) (ofRecord home m r') := by
  simp only [EntityMapping.needs, List.mem_append, List.mem_map, List.mem_flatMap,
    List.mem_filter] at hm
  have hreads : ∀ x ∈ m.complex, ∀ p ∈ x.reads, P p := fun x hx p hp =>
    hm p (.inl (.inl (.inr ⟨x, hx, hp⟩)))
  have hmapped : Attempt.Alike Eq (fun _ _ => True) (r.mapped m.simple m.complex m.mark)
      (r'.mapped m.simple m.complex m.mark) :=
    (h.alike_putSimple (fun x hx hrequired => hm _ (.inr ⟨x, ⟨hx, hrequired⟩, rfl⟩)) [] []).bind
      fun vs vs' _ => h.alike_putComplex m.mark hreads vs vs'
  have hclassified : classificationsOf r m.classifications = classificationsOf r' m.classifications :=
    classificationsOf_congr h fun k hk p hp => hm p (.inl (.inr ⟨k, hk, hp⟩))
  -- That both entities can be made comes first; then their identifiers and names are compared.
  have hends : Attempt.Alike Eq (fun _ _ => True) (ofRecord home m r) (ofRecord home m r') := by
    rw [ofRecord, ofRecord, hclassified, h.ref]
    exact hmapped.bind fun _ _ _ => (Attempt.Alike.refl _).bind_eq fun _ =>
      (Attempt.Alike.refl _).bind_eq fun _ => .ok trivial
  generalize ho : ofRecord home m r = o at hends ⊢
  generalize ho' : ofRecord home m r' = o' at hends ⊢
  cases hends with
  | error hf => exact .error hf
  | ok =>
      have hguid := guid_of_ofRecord ho
      rw [h.ref, guid_of_ofRecord ho'] at hguid
      rw [EntityMapping.hasQualifiedName, Option.any_eq_true] at hq
      obtain ⟨x, hx, _⟩ := hq
      have hname : x.abstract = qualifiedNameProperty := by simpa using List.find?_some hx
      have hx := List.mem_of_find?_eq_some hx
      have hread := read_of_mem_complex hn hx ho
      rw [h.complexValue (hreads x hx), read_of_mem_complex hn hx ho', hname] at hread
      exact .ok ⟨(Except.ok.inj hguid).symm, (Except.ok.inj hread).symm⟩

theorem alike_ofRecord? (h : r.AgreesOn P r') (hm : ∀ p ∈ m.needs, P p)
    (hn : m.abstractProperties.Nodup) (hq : m.hasQualifiedName = true) :
    Attempt.Alike Eq (Option.Rel Namesakes) (ofRecord? home m r) (ofRecord? home m r') := by
  have hends : Attempt.Alike Eq Namesakes (ofRecord home m r) (ofRecord home m r') :=
    alike_ofRecord h hm hn hq
  rw [ofRecord?, ofRecord?]
  generalize ofRecord home m r = o at hends ⊢
  generalize ofRecord home m r' = o' at hends ⊢
  cases hends with
  | ok he => exact .ok (.some he)
  | error hf =>
      subst hf
      split
      · next heq => cases heq
      · exact .ok .none
      · next heq =>
        cases heq
        exact .error rfl

/-- Entities that callers know by the same identifier. -/
def SameGuid (e e' : Entity) : Prop := e.guid = e'.guid

end Entity

theorem PropertyGroup.matches_single_congr {k : PropertyCondition} {vs vs' : Assoc String Value}
    (h : (Assoc.find? k.property vs).getD .null = (Assoc.find? k.property vs').getD .null) :
    (single k).matches vs = (single k).matches vs' := by
  simp only [PropertyGroup.matches, single, toCriterion, Criterion.holds, Criterion.allHold,
    PropertyCondition.holds, h]

/-- Two backends are alike in what rests on properties of a kind. -/
structure Backend.Resembles (P : String → Prop) (b b' : Backend) : Prop where
  outage : b'.outage = b.outage
  search : ∀ n, n.RestsOn P →
    Attempt.Alike Eq (List.Forall₂ (Record.AgreesOn P)) (b.search n) (b'.search n)
  stringProperties : b'.stringProperties = b.stringProperties
  version : b'.version = b.version

theorem Service.resembles_bounded {P : String → Prop} {s : Service} {cat : Catalog}
    (h : s.catalog.AgreesOn P cat) (limit : Option Value) :
    (s.bounded limit).Resembles P ({ s with catalog := cat }.bounded limit) where
  outage := outage_withCatalog s cat limit
  search := by
    intro n hn
    have hends := h.alike_search hn
    rw [search_bounded_eq, search_bounded_eq]
    generalize s.catalog.search n = a at hends ⊢
    generalize cat.search n = a' at hends ⊢
    cases hends with
    | ok hrs => exact .ok hrs
    | error hf => exact .error (congrArg _ hf)
  stringProperties := by
    rw [stringProperties_bounded, stringProperties_bounded]
    funext t
    rw [Catalog.reported, Catalog.reported, h.stringProperties]
  version := by rw [version_bounded, version_bounded, h.version]

namespace Session

variable {α β γ δ : Type} {R : α → β → Prop} {S : γ → δ → Prop}

/-- Two parts of sessions end alike, whatever was done before them. -/
def EndAlike (R : α → β → Prop) (m : Session α) (m' : Session β) : Prop :=
  ∀ st st', Attempt.Alike Eq R (runFrom st m).1 (runFrom st' m').1

theorem endAlike_of_yields {m : Session α} {m' : Session β} {a : Attempt α} {b : Attempt β}
    (hm : m.Yields a) (hm' : m'.Yields b) (h : Attempt.Alike Eq R a b) : EndAlike R m m' := by
  intro st st'
  rw [hm st, hm' st']
  exact h

theorem endAlike_same (a : Attempt α) : EndAlike Eq (ofAttempt a) (ofAttempt a) :=
  endAlike_of_yields (yields_ofAttempt a) (yields_ofAttempt a) (.refl a)

theorem EndAlike.bind {m : Session α} {m' : Session β} {f : α → Session γ} {f' : β → Session δ}
    (hm : EndAlike R m m') (hf : ∀ a b, R a b → EndAlike S (f a) (f' b)) :
    EndAlike S (m >>= f) (m' >>= f') := by
  intro st st'
  have hm := hm st st'
  rw [runFrom_bind, runFrom_bind]
  rcases hrun : runFrom st m with ⟨a, st₁⟩
  rcases hrun' : runFrom st' m' with ⟨b, st₁'⟩
  rw [hrun, hrun'] at hm
  cases hm with
  | ok hab => exact hf _ _ hab st₁ st₁'
  | error he => exact .error he

theorem EndAlike.bind_eq {m m' : Session α} {f : α → Session γ} {f' : α → Session δ}
    (hm : EndAlike Eq m m') (hf : ∀ a, EndAlike S (f a) (f' a)) :
    EndAlike S (m >>= f) (m' >>= f') :=
  hm.bind fun a _ h => h ▸ hf a

theorem endAlike_ofAttempt_bind {a : Attempt α} {f : α → Session γ} {f' : α → Session δ}
    (h : ∀ x, a = .ok x → EndAlike S (f x) (f' x)) :
    EndAlike S (ofAttempt a >>= f) (ofAttempt a >>= f') := by
  cases a with
  | ok x => exact h x rfl
  | error e => exact fun _ _ => .error rfl

end Session

namespace Backend.Resembles

open Session

variable {P : String → Prop} {b b' : Backend} (hb : b.Resembles P b')

include hb

theorem entry_eq (e : Endpoint) : b'.entry e = b.entry e := by
  rw [entry, entry, hb.outage]

theorem alike_answer {n : NativeSearch} (hn : n.RestsOn P) :
    Attempt.Alike Eq (List.Forall₂ (Record.AgreesOn P)) (b.answer n) (b'.answer n) := by
  rw [answer, answer, hb.entry_eq]
  exact (Attempt.Alike.refl _).bind_eq fun _ => hb.search n hn

theorem endAlike_enter (e : Endpoint) : EndAlike Eq (b.enter e) (b'.enter e) :=
  endAlike_of_yields (b.yields_enter e) (b'.yields_enter e) (.of_eq (hb.entry_eq e).symm)

theorem endAlike_reportedFor (ts : List String) :
    EndAlike Eq (Collection.reportedFor b ts) (Collection.reportedFor b' ts) := by
  induction ts with
  | nil => exact endAlike_same (.ok [])
  | cons t ts ih =>
      have hasked : EndAlike Eq (b.askStringProperties t) (b'.askStringProperties t) := by
        refine (hb.endAlike_enter .stringProperties).bind_eq fun _ => ?_
        rw [hb.stringProperties]
        exact endAlike_same (.ok _)
      exact hasked.bind_eq fun names => ih.bind_eq fun rest => endAlike_same (.ok _)

theorem endAlike_askVersion :
    EndAlike (fun v v' => v = v' ∧ v = b.version) b.askVersion b'.askVersion := by
  refine (hb.endAlike_enter .version).bind_eq fun _ => ?_
  rw [hb.version]
  exact endAlike_of_yields (yields_pure _) (yields_pure _) (.ok ⟨rfl, rfl⟩)

end Backend.Resembles

namespace Scope

variable {P : String → Prop} {c : Scope} {m : EntityMapping} {residual : Option PropertyGroup}
  {r r' : Record} {α : Type} {R : α → α → Prop} {read : Record → Attempt (List α)}
  {hits hits' : List Record}

theorem alike_readEntity (h : r.AgreesOn P r') (hm : ∀ p ∈ m.needs, P p)
    (hn : m.abstractProperties.Nodup) (hq : m.hasQualifiedName = true)
    (hresidual : ∀ g ∈ residual, ∃ k, g = .single k ∧ k.property = qualifiedNameProperty) :
    Attempt.Alike Eq (List.Forall₂ Entity.SameGuid) (c.readEntity m residual r)
      (c.readEntity m residual r') := by
  refine (Entity.alike_ofRecord? h hm hn hq).bind fun o o' ho => ?_
  cases ho with
  | none => exact .ok .nil
  | @some e e' he =>
      cases residual with
      | none => exact .ok (.cons he.guid .nil)
      | some g =>
          obtain ⟨k, rfl, hk⟩ := hresidual g rfl
          have hmatches : (PropertyGroup.single k).matches e.properties =
              (PropertyGroup.single k).matches e'.properties :=
            PropertyGroup.matches_single_congr (hk ▸ he.name)
          simp only [hmatches]
          refine (Attempt.Alike.refl _).bind_eq fun found => .ok ?_
          cases found with
          | true => exact .cons he.guid .nil
          | false => exact .nil

theorem alike_collect (hhits : List.Forall₂ (Record.AgreesOn P) hits hits')
    (hread : ∀ r r', r.AgreesOn P r' → Attempt.Alike Eq (List.Forall₂ R) (read r) (read r'))
    (room : Option Nat) :
    Attempt.Alike Eq (List.Forall₂ R) (collect read room hits) (collect read room hits') := by
  induction hhits generalizing room with
  | nil => exact .ok .nil
  | cons hr _ ih =>
      rw [collect, collect]
      refine (hread _ _ hr).bind fun xs xs' hxs => ?_
      rw [hxs.length_eq]
      simp only
      split
      · exact .ok hxs
      · exact (ih _).bind fun ys ys' hys => .ok (List.rel_append hxs hys)

theorem alike_gather {c : Scope} {b : Backend} (hb : c.backend.Resembles P b) {R : α → α → Prop}
    {read : NativeSearch → Option (Record → Attempt (List α))} {ns : List NativeSearch}
    (hns : ∀ n ∈ ns, n.RestsOn P ∧ ∀ f ∈ read n, ∀ r r', r.AgreesOn P r' →
      Attempt.Alike Eq (List.Forall₂ R) (f r) (f r')) (room : Option Nat) :
    Attempt.Alike Eq (List.Forall₂ R) (c.gather read room ns)
      ((c.withBackend b).gather read room ns) := by
  induction ns generalizing room with
  | nil => exact .ok .nil
  | cons n ns ih =>
      obtain ⟨⟨hn, hread⟩, hns⟩ := List.forall_mem_cons.1 hns
      rw [gather, gather]
      split
      · exact .ok .nil
      · cases hf : read n with
        | none => exact ih hns room
        | some f =>
            refine (hb.alike_answer hn).bind fun hits hits' hhits => ?_
            refine (alike_collect hhits (hread f hf) room).bind fun xs xs' hxs => ?_
            rw [hxs.length_eq]
            exact (ih hns _).bind fun ys ys' hys => .ok (List.rel_append hxs hys)

end Scope

namespace Outcome

variable {α β : Type}

/-- The outcome with something told of its value instead. -/
def map (f : α → β) : Outcome α → Outcome β
  | .value x => .value (f x)
  | .failure r => .failure r

theorem guids_ofAttempt (operation home : String) {a a' : Attempt (List Entity)}
    (h : Attempt.Alike Eq (List.Forall₂ Entity.SameGuid) a a') :
    (ofAttempt operation home a).map (map (List.map Entity.guid)) =
      (ofAttempt operation home a').map (map (List.map Entity.guid)) := by
  cases h with
  | error hf => rw [hf]
  | ok hes =>
      have hguids : List.Forall₂ (· = ·) (List.map Entity.guid _) (List.map Entity.guid _) :=
        List.forall₂_map_left_iff.2 (List.forall₂_map_right_iff.2 hes)
      rw [List.forall₂_eq_eq_eq] at hguids
      exact congrArg (fun gs => Except.ok (value gs)) hguids

end Outcome

namespace Collection

open Session MappingTable

variable {c : Collection} {s : Service} {cat : Catalog} {P : String → Prop} {p : SearchPlan}
  {q : EntitySearch}

/-- A plan rests on properties of a kind, and leaves nothing but qualified names to be checked. -/
structure Blind (c : Collection) (P : String → Prop) (p : SearchPlan) : Prop where
  sound : c.planner.Sound p
  rests : ∀ n ∈ p.searches, n.RestsOn P
  residual : ∀ n ∈ p.searches, ∀ g ∈ n.residual,
    ∃ k, g = .single k ∧ k.property = qualifiedNameProperty

section

variable (ht : c.table.Accepted) (hr : c.table.Readable) (hneeds : ∀ x, c.table.Needs x → P x)

include ht hneeds

section Plans

variable (hw : q.window.property = none)

include hw

include hr in
/-- A search for a qualified name does not look at what no mapping needs. -/
theorem blind_planEntities {k : PropertyCondition} (hk : k.property = qualifiedNameProperty)
    {operation : Option String} (hp : c.planner.planEntities
      { q with properties := some (.single k) } operation = .ok p) : c.Blind P p where
  sound := Planner.planEntities_sound ht hp
  rests := by
    have hsame : ({ q with properties := some (.single k) } : EntitySearch).window.property = none :=
      hw
    exact Planner.restsOn_planEntities hneeds hr hk rfl hsame hp
  residual := by
    intro n hn g hg
    rcases Planner.residual_planEntities hp n hn with hnone | hsome
    · cases hnone.symm.trans hg
    · exact ⟨k, Option.some.inj (hg.symm.trans hsome), hk⟩

/-- A search for another text looks at what the release includes besides. -/
theorem blind_planText (hd : ∀ m ∈ backed c.table.mappings, m.Direct) {version : String}
    (hP : ∀ x, x ∉ c.excluded version → P x) {ms : List EntityMapping}
    (hms : c.planner.candidates q = .ok ms) {release operation : Option String}
    (hrelease : ms ≠ [] → release = some version) {value : String} {reported : StringProperties}
    (hp : c.planner.planText q value reported release operation = .ok p) : c.Blind P p where
  sound := Planner.planText_sound ht hp
  rests := by
    refine Planner.restsOn_planText hneeds (fun m hm => (hd m hm).copied) ?_ hw hp
    intro ms' hms' hne
    obtain rfl : ms = ms' := Except.ok.inj (hms.symm.trans hms')
    rw [hrelease hne]
    exact hP
  residual := by
    intro n hn g hg
    cases (Planner.residual_planText hp n hn).symm.trans hg

end Plans

variable (h : s.catalog.AgreesOn P cat)

include hr h

theorem alike_windowOf (hp : c.Blind P p) : Attempt.Alike Eq (List.Forall₂ Entity.SameGuid)
    (c.windowOf s p) (c.windowOf { s with catalog := cat } p) := by
  have hb : (c.scope s).backend.Resembles P (c.scope { s with catalog := cat }).backend :=
    Service.resembles_bounded h c.settings.timeout
  -- The two scopes are named here, since unification would compare their backends instead.
  have hscope : c.scope { s with catalog := cat } =
      (c.scope s).withBackend (c.scope { s with catalog := cat }).backend := rfl
  have hreader (b : Backend) :
      ((c.scope s).withBackend b).entityReader = (c.scope s).entityReader := rfl
  rw [windowOf, windowOf, hscope, hreader]
  refine (Scope.alike_gather hb (fun n hn => ⟨hp.rests n hn, fun f hf r r' hrr => ?_⟩) _).bind
    fun xs xs' hxs => .ok (forall₂_page p.skip p.pageSize hxs)
  obtain ⟨m, hm, hfor⟩ := hp.sound.isFor n hn
  rw [Scope.entityReader_of_isFor hfor] at hf
  cases hf
  refine Scope.alike_readEntity hrr (fun x hx => hneeds x (.inr ⟨m, hm, hx⟩)) ?_
    (hr.named m hm).2 (hp.residual n hn)
  exact EntityMapping.nodup_abstractProperties (ht.checked m (mem_backed.1 hm).1)

theorem endAlike_runEntities (hp : c.Blind P p) : EndAlike (List.Forall₂ Entity.SameGuid)
    ((c.scope s).runEntities p) ((c.scope { s with catalog := cat }).runEntities p) :=
  endAlike_of_yields ((c.scope s).yields_run _ p) (Scope.yields_run _ _ p)
    (alike_windowOf ht hr hneeds h hp)

theorem endAlike_findByText (hd : ∀ m ∈ backed c.table.mappings, m.Direct)
    (hP : ∀ x, x ∉ c.excluded s.catalog.version → P x) (value : String)
    (hw : q.window.property = none) :
    EndAlike (List.Forall₂ Entity.SameGuid) (c.findByText s value q)
      (c.findByText { s with catalog := cat } value q) := by
  have hb : (c.scope s).backend.Resembles P (c.scope { s with catalog := cat }).backend :=
    Service.resembles_bounded h c.settings.timeout
  have hrun {p : SearchPlan} (hp : c.Blind P p) := endAlike_runEntities ht hr hneeds h hp
  refine (endAlike_same _).bind_eq fun _ => endAlike_ofAttempt_bind fun o ho => ?_
  cases o with
  | some g =>
      obtain rfl := Planner.rerouted_eq_some ho
      exact endAlike_ofAttempt_bind fun _ hp =>
        hrun (blind_planEntities ht hr hneeds hw rfl hp)
  | none =>
      refine endAlike_ofAttempt_bind fun ms hms =>
        (hb.endAlike_reportedFor _).bind_eq fun reported => ?_
      have hplanned {release : Option String}
          (hrelease : ms ≠ [] → release = some s.catalog.version) := endAlike_ofAttempt_bind
        fun p (hp : c.planner.planText q value reported release none = .ok p) =>
          hrun (blind_planText ht hneeds hw hd hP hms hrelease hp)
      cases ms with
      | nil =>
          -- The release is not asked for, but nothing is searched either.
          exact hplanned fun hne => absurd rfl hne
      | cons m ms =>
          refine hb.endAlike_askVersion.bind fun v v' ⟨hsame, hv⟩ => ?_
          subst hsame
          exact hplanned fun _ => congrArg some (hv.trans (Service.version_bounded _))

end

/-- A free-text search does not tell what the release excludes: on two catalogs that differ in the
values of excluded properties only, none of which a mapping needs, it finds the same entities in the
same order or is refused in the same way. -/
theorem text_search_blind (hc : c.table = MappingTable.standard)
    (h : s.catalog.AgreesOn (fun x => x ∉ c.excluded s.catalog.version ∨ c.table.Needs x) cat)
    (value : String) {q : EntitySearch} (hw : q.window.property = none) :
    (c.answer { s with catalog := cat } (.findByText value q)).1.map
        (Outcome.map (List.map Entity.guid)) =
      (c.answer s (.findByText value q)).1.map (Outcome.map (List.map Entity.guid)) := by
  have ht : c.table.Accepted := hc ▸ accepted_standard
  have hr : c.table.Readable := hc ▸ readable_standard
  have hd : ∀ m ∈ backed c.table.mappings, m.Direct := hc ▸ direct_standard
  rw [answer_eq, answer_eq]
  exact (Outcome.guids_ofAttempt _ _
    (endAlike_findByText ht hr (fun _ => .inr) h hd (fun _ => .inl) value hw {} {})).symm

end Collection

namespace Sample

open MappingTable.Standard

/-- The catalog of the sales service with another text for what the release excludes. -/
def reworded : Catalog :=
  salesService.catalog.put { ref := ⟨"term-1", "term", some "Margin"⟩
                             properties := [("long_description", .text "Salesforce turnover")] }

theorem agreesOn_reworded : salesService.catalog.AgreesOn
    (fun x => x ∉ collection.excluded "11.7.0.2" ∨ collection.table.Needs x) reworded where
  records := by
    refine .cons ⟨rfl, .refl _ _⟩ (.cons ⟨rfl, .refl _ _⟩ (.cons ⟨rfl, .refl _ _⟩
      (.cons ⟨rfl, .refl _ _⟩ (.cons ⟨rfl, rfl, fun x hx => ?_⟩ .nil))))
    have hne : "long_description" ≠ x := by
      rintro rfl
      have hterm : term ∈ MappingTable.backed MappingTable.standard.mappings :=
        MappingTable.mem_backed.2 ⟨by simp [MappingTable.standard, mappings], rfl⟩
      refine hx.elim (fun h => h (by decide)) ?_
      exact MappingTable.not_needs_of_copied term hterm (optional "long_description" "description")
        (by decide) rfl
    exact (if_neg hne).trans (if_neg hne).symm
  stringProperties := rfl
  version := rfl

/-- The entities that a text is found in are the same, although it is in what is excluded. -/
theorem sales_found_reworded : salesService.catalog.AgreesOn
    (fun x => x ∉ collection.excluded "11.7.0.2" ∨ collection.table.Needs x) reworded ∧
    ((reworded.find? "term-1").map fun r => (r.value "long_description").isLike ".*Sales.*") =
      some true ∧
    (collection.answer { salesService with catalog := reworded }
        (.findByText ".*Sales.*" {})).1.map (Outcome.map (List.map Entity.guid)) =
      .ok (.value ["e:home-1::host:host-1", "e:home-1::database:database-1"]) := by
  refine ⟨agreesOn_reworded, by decide +kernel, ?_⟩
  rw [Collection.text_search_blind (c := collection) rfl agreesOn_reworded ".*Sales.*" rfl]
  have hguids : guidsOf (collection.answer salesService (.findByText ".*Sales.*" {})).1 =
      some ["e:home-1::host:host-1", "e:home-1::database:database-1"] := by
    decide +kernel
  obtain ⟨es, hes, hguids⟩ := exists_of_guidsOf hguids
  rw [hes, ← hguids]
  rfl

end Sample

end MetaFed
