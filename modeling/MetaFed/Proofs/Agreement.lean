import MetaFed.Link
import MetaFed.Proofs.Cache

/-!
What is made of a record depends on its system fields and on the properties that the mapping reads.
Records that agree in these make the same entity and yield the same links.
-/

namespace MetaFed

theorem Assoc.find?_filter {α β : Type} [DecidableEq α] {k : α} {keep : α → Bool}
    (hk : keep k = true) (m : Assoc α β) :
    Assoc.find? k (m.filter fun e => keep e.1) = Assoc.find? k m := by
  induction m with
  | nil => rfl
  | cons e m ih =>
      by_cases he : e.1 = k
      · subst he
        simp [hk, find?]
      · cases hkeep : keep e.1 <;> simp [hkeep, find?, he, ih]

theorem Assoc.find?_filter_of_neg {α β : Type} [DecidableEq α] {k : α} {keep : α → Bool}
    (hk : keep k = false) (m : Assoc α β) : Assoc.find? k (m.filter fun e => keep e.1) = none := by
  induction m with
  | nil => rfl
  | cons e m ih =>
      by_cases he : e.1 = k
      · rw [List.filter_cons_of_neg (by simp [he, hk])]
        exact ih
      · cases hkeep : keep e.1 <;> simp [hkeep, find?, he, ih]

theorem Assoc.find?_filter_eq_none {α β : Type} [DecidableEq α] {k : α} {m : Assoc α β}
    (h : Assoc.find? k m = none) (keep : α → Bool) :
    Assoc.find? k (m.filter fun e => keep e.1) = none := by
  cases hk : keep k with
  | true => rw [find?_filter hk, h]
  | false => exact find?_filter_of_neg hk m

/-- Properties that a computed property is made of. -/
def ComplexProperty.reads (p : ComplexProperty) : List String :=
  match p.kind with
  | .qualifiedName => [Record.nameProperty]
  | .literal => []
  | .referenceName => p.backend.toList

namespace Record

/-- Two records that differ in properties only, and agree in those of a kind. -/
structure AgreesOn (P : String → Prop) (r r' : Record) : Prop where
  bare : { r with properties := [] } = { r' with properties := [] }
  find? : ∀ p, P p → Assoc.find? p r.properties = Assoc.find? p r'.properties

namespace AgreesOn

variable {P Q : String → Prop} {r r' : Record} {p : String} {mark : Option String}

theorem refl (P : String → Prop) (r : Record) : r.AgreesOn P r := ⟨rfl, fun _ _ => rfl⟩

theorem symm (h : r.AgreesOn P r') : r'.AgreesOn P r :=
  ⟨h.bare.symm, fun p hp => (h.find? p hp).symm⟩

theorem trans {r'' : Record} (h : r.AgreesOn P r') (h' : r'.AgreesOn P r'') : r.AgreesOn P r'' :=
  ⟨h.bare.trans h'.bare, fun p hp => (h.find? p hp).trans (h'.find? p hp)⟩

theorem mono (h : r.AgreesOn P r') (hQ : ∀ p, Q p → P p) : r.AgreesOn Q r' :=
  ⟨h.bare, fun p hp => h.find? p (hQ p hp)⟩

theorem ref (h : r.AgreesOn P r') : r.ref = r'.ref := by
  have href := congrArg Record.ref h.bare
  exact href

theorem id (h : r.AgreesOn P r') : r.id = r'.id := congrArg Reference.id h.ref

theorem type (h : r.AgreesOn P r') : r.type = r'.type := congrArg Reference.type h.ref

theorem contextNames (h : r.AgreesOn P r') : r.contextNames = r'.contextNames := by
  have hnames := congrArg Record.contextNames h.bare
  exact hnames

theorem references (h : r.AgreesOn P r') (hp : P p) : r.references p = r'.references p := by
  rw [Record.references, Record.references, h.find? p hp]

theorem value (h : r.AgreesOn P r') (hp : P p) : r.value p = r'.value p := by
  have hcreated := congrArg Record.createdOn h.bare
  have hmodified := congrArg Record.modifiedOn h.bare
  simp only at hcreated hmodified
  by_cases hn : p = nameProperty
  · subst hn
    simp only [Record.value, h.id, h.type, h.ref, hcreated, hmodified, h.find? _ hp]
  · simp only [Record.value, h.id, h.type, hcreated, hmodified, if_neg hn, h.find? p hp]

theorem qualifiedName (h : r.AgreesOn P r') (hp : P nameProperty) (assetType : Option String) :
    r.qualifiedName assetType mark = r'.qualifiedName assetType mark := by
  simp only [Record.qualifiedName, h.value hp, h.type, h.contextNames]

theorem complexValue (h : r.AgreesOn P r') {p : ComplexProperty} (hp : ∀ n ∈ p.reads, P n) :
    r.complexValue p mark = r'.complexValue p mark := by
  rw [ComplexProperty.reads] at hp
  rw [Record.complexValue, Record.complexValue]
  cases hk : p.kind with
  | qualifiedName =>
      rw [hk] at hp
      simp only [h.qualifiedName (hp _ List.mem_cons_self)]
  | literal => rfl
  | referenceName =>
      rw [hk] at hp
      cases hb : p.backend with
      | none => rfl
      | some b =>
          rw [hb] at hp
          simp only [h.references (hp b List.mem_cons_self)]

end AgreesOn

section

variable {P : String → Prop} {r r' : Record} {wanted : List String} {p : String}

theorem putSimple_congr {ps : List SimpleProperty}
    (h : ∀ p ∈ ps, r.value p.backend = r'.value p.backend) (vs : Assoc String Value) :
    r.putSimple ps vs = r'.putSimple ps vs := by
  induction ps generalizing vs with
  | nil => rfl
  | cons p ps ih =>
      have hrest := ih fun q hq => h q (List.mem_cons_of_mem p hq)
      simp only [putSimple, h p List.mem_cons_self, hrest]

theorem putComplex_congr {ps : List ComplexProperty} {mark : Option String}
    (h : ∀ p ∈ ps, r.complexValue p mark = r'.complexValue p mark) (vs : Assoc String Value) :
    r.putComplex mark ps vs = r'.putComplex mark ps vs := by
  induction ps generalizing vs with
  | nil => rfl
  | cons p ps ih =>
      have hrest := ih fun q hq => h q (List.mem_cons_of_mem p hq)
      simp only [putComplex, h p List.mem_cons_self, hrest]

theorem AgreesOn.mapped (h : r.AgreesOn P r') {simple : List SimpleProperty}
    {complex : List ComplexProperty} (hs : ∀ p ∈ simple, P p.backend)
    (hc : ∀ p ∈ complex, ∀ n ∈ p.reads, P n) (mark : Option String) :
    r.mapped simple complex mark = r'.mapped simple complex mark := by
  rw [Record.mapped, Record.mapped, putSimple_congr fun p hp => h.value (hs p hp)]
  refine congrArg (_ >>= ·) (funext fun vs => putComplex_congr (fun p hp => ?_) vs)
  exact h.complexValue (hc p hp)

theorem AgreesOn.copied (h : r.AgreesOn P r') {simple : List SimpleProperty}
    (hs : ∀ p ∈ simple, P p.backend) (mark : Option String) :
    r.mapped simple [] mark = r'.mapped simple [] mark := by
  refine h.mapped hs ?_ mark
  rintro _ ⟨⟩

/-- A record with some of its properties agrees with the whole one in these and in those that the
whole one does not have. -/
theorem agreesOn_project_or_absent (r : Record) (wanted : List String) :
    (r.project wanted).AgreesOn (fun p => p ∈ wanted ∨ Assoc.find? p r.properties = none) r := by
  rw [project]
  split
  · exact .refl _ r
  · refine ⟨rfl, fun p hp => ?_⟩
    rcases hp with hp | hnone
    · exact Assoc.find?_filter (List.contains_iff_mem.2 hp) r.properties
    · rw [hnone]
      exact Assoc.find?_filter_eq_none hnone _

theorem agreesOn_project (r : Record) (wanted : List String) :
    (r.project wanted).AgreesOn (· ∈ wanted) r :=
  (r.agreesOn_project_or_absent wanted).mono fun _ => .inl

theorem references_project (h : p ∈ wanted) :
    (r.project wanted).references p = r.references p := (r.agreesOn_project wanted).references h

end

end Record

namespace ClassificationMapping

variable {P : String → Prop} {r r' : Record} {k : ClassificationMapping}

theorem applies_congr (h : r.AgreesOn P r') (hk : ∀ p ∈ k.projected, P p) :
    k.applies r = k.applies r' := by
  rw [applies, applies, h.value (hk _ List.mem_cons_self)]

theorem values_congr (h : r.AgreesOn P r') (hk : ∀ p ∈ k.projected, P p) :
    k.values r = k.values r' :=
  h.copied (fun _ hp => hk _ (List.mem_cons_of_mem _ (List.mem_map_of_mem hp))) none

end ClassificationMapping

/-- No property goes without a name. -/
def Record.Named (r : Record) : Prop :=
  Assoc.find? "" r.properties = none

/-- Properties that the entity of a record is made of. -/
def EntityMapping.reads (m : EntityMapping) : List String :=
  m.simple.map SimpleProperty.backend ++ m.complex.flatMap ComplexProperty.reads
    ++ m.classifications.flatMap ClassificationMapping.projected

/-- Every property that is made of the names of references is told which property holds them. -/
def EntityMapping.NamesGiven (m : EntityMapping) : Prop :=
  ∀ p ∈ m.complex, p.kind = .referenceName → p.backend ≠ some ""

namespace EntityMapping

variable {m : EntityMapping} {p : String}

/-- A mapping asks for every property that it reads, but for one without a name. -/
theorem mem_projected_of_reads (hp : p ∈ m.reads) (hn : m.NamesGiven ∨ p ≠ "") :
    p ∈ m.projected := by
  rw [projected, mem_firsts, List.mem_append, List.mem_append, List.mem_append]
  rw [reads, List.mem_append, List.mem_append] at hp
  rcases hp with (hp | hp) | hp
  · exact .inl (.inl (.inl (List.mem_cons_of_mem _ hp)))
  · obtain ⟨q, hq, hp⟩ := List.mem_flatMap.1 hp
    rw [ComplexProperty.reads] at hp
    cases hk : q.kind with
    | qualifiedName =>
        rw [hk] at hp
        obtain rfl := List.mem_singleton.1 hp
        exact .inl (.inl (.inl List.mem_cons_self))
    | literal =>
        rw [hk] at hp
        cases hp
    | referenceName =>
        rw [hk] at hp
        have hb := Option.mem_toList.1 hp
        have hne : p ≠ "" := hn.elim (fun hg e => hg q hq hk (e ▸ hb)) fun h => h
        refine .inl (.inl (.inr (List.mem_filter.2 ⟨?_, decide_eq_true hne⟩)))
        exact List.mem_filterMap.2 ⟨q, hq, hb⟩
  · exact .inl (.inr hp)

end EntityMapping

namespace Entity

variable {P : String → Prop} {r r' : Record} {m : EntityMapping}

theorem classificationsOf_congr (h : r.AgreesOn P r') {ks : List ClassificationMapping}
    (hk : ∀ k ∈ ks, ∀ p ∈ k.projected, P p) : classificationsOf r ks = classificationsOf r' ks := by
  have hfilter : ks.filter (·.applies r) = ks.filter (·.applies r') :=
    List.filter_congr fun k hmem => ClassificationMapping.applies_congr h (hk k hmem)
  rw [classificationsOf, classificationsOf, hfilter]
  refine Attempt.mapM_congr fun k hmem => ?_
  rw [ClassificationMapping.values_congr h (hk k (List.mem_filter.1 hmem).1)]

theorem ofRecord_congr (h : r.AgreesOn P r') (hm : ∀ p ∈ m.reads, P p) (home : String) :
    ofRecord home m r = ofRecord home m r' := by
  simp only [EntityMapping.reads, List.mem_append, List.mem_map, List.mem_flatMap] at hm
  have hmapped := h.mapped (fun q hq => hm _ (.inl (.inl ⟨q, hq, rfl⟩)))
    (fun q hq p hp => hm p (.inl (.inr ⟨q, hq, hp⟩))) m.mark
  have hclassified := classificationsOf_congr h fun k hk p hp => hm p (.inr ⟨k, hk, hp⟩)
  have hon := congrArg Record.createdOn h.bare
  have hby := congrArg Record.createdBy h.bare
  have hmon := congrArg Record.modifiedOn h.bare
  have hmby := congrArg Record.modifiedBy h.bare
  simp only at hon hby hmon hmby
  simp only [ofRecord, hmapped, hclassified, h.ref, hon, hby, hmon, hmby]

theorem ofRecord?_congr (h : r.AgreesOn P r') (hm : ∀ p ∈ m.reads, P p) (home : String) :
    ofRecord? home m r = ofRecord? home m r' := by
  rw [ofRecord?, ofRecord?, ofRecord_congr h hm]

end Entity

namespace RelationshipMapping

variable {P : String → Prop} {r r' : Record} {k : RelationshipMapping}

/-- The property that references from end two are read from, if there is one. -/
def readsTwo (k : RelationshipMapping) : List String :=
  if isGiven k.two.navigation then [k.two.navigationName] else []

/-- Properties that the links of a record are read from, at one end or at every end it can play. -/
def reads (k : RelationshipMapping) (e : Option End) : List String :=
  match k.kind, e with
  | .self, _ => []
  | .level, _ =>
    [k.one.navigationName, k.two.navigationName] ++ k.properties.map SimpleProperty.backend
  | .reference, some .one => [k.one.navigationName]
  | .reference, some .two => k.readsTwo
  | .reference, none => k.one.navigationName :: k.readsTwo

theorem selfLinks_congr (h : r.AgreesOn P r') : k.selfLinks r = k.selfLinks r' := by
  simp only [selfLinks, h.type, h.ref]

theorem levelLinks_congr (h : r.AgreesOn P r') (hone : P k.one.navigationName)
    (htwo : P k.two.navigationName) (hp : ∀ p ∈ k.properties, P p.backend) :
    k.levelLinks r = k.levelLinks r' := by
  have hmapped := h.copied hp none
  simp only [levelLinks, h.type, h.ref, h.references hone, h.references htwo, hmapped]

theorem linksFromOne_congr (h : r.AgreesOn P r') (hone : P k.one.navigationName) :
    k.linksFromOne r = k.linksFromOne r' := by
  simp only [linksFromOne, h.type, h.ref, h.references hone]

theorem mem_readsTwo {p : String} (h : p ∈ k.readsTwo) :
    isGiven k.two.navigation = true ∧ p = k.two.navigationName := by
  rw [readsTwo] at h
  split at h
  · rename_i hg
    exact ⟨hg, List.mem_singleton.1 h⟩
  · cases h

theorem linksFromTwo_congr (h : r.AgreesOn P r') (htwo : ∀ p ∈ k.readsTwo, P p) :
    k.linksFromTwo r = k.linksFromTwo r' := by
  rw [readsTwo] at htwo
  by_cases hg : isGiven k.two.navigation = true
  · rw [if_pos hg] at htwo
    simp only [linksFromTwo, h.type, h.ref, h.references (htwo _ List.mem_cons_self)]
  · rw [linksFromTwo, linksFromTwo, if_pos (.inr hg), if_pos (.inr hg)]

theorem links_congr (h : r.AgreesOn P r') {e : Option End} (hk : ∀ p ∈ k.reads e, P p) :
    k.links r e = k.links r' e := by
  cases hkind : k.kind with
  | self => simp only [links, hkind, selfLinks_congr h]
  | level =>
      simp only [reads, hkind, List.mem_append, List.mem_map] at hk
      have hprop (p : SimpleProperty) (hp : p ∈ k.properties) : P p.backend :=
        hk _ (.inr ⟨p, hp, rfl⟩)
      simp only [links, hkind]
      exact levelLinks_congr h (hk _ (.inl (by simp))) (hk _ (.inl (by simp))) hprop
  | reference =>
      simp only [reads, hkind] at hk
      simp only [links, hkind]
      cases e with
      | none =>
          simp only [linksFromOne_congr h (hk _ List.mem_cons_self),
            linksFromTwo_congr h fun p hp => hk p (List.mem_cons_of_mem _ hp)]
      | some e =>
          cases e with
          | one => exact linksFromOne_congr h (hk _ List.mem_cons_self)
          | two => exact linksFromTwo_congr h hk

end RelationshipMapping

end MetaFed
