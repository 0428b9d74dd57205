import MetaFed.Proofs.Asked
import MetaFed.Proofs.Parallel
import MetaFed.Proofs.Resolve

/-!
Every operation does the same on two backends that differ in no property it reads, until a call of
the second one fails.
-/

namespace MetaFed

theorem forall₂_filter {α β : Type} {R : α → β → Prop} {p : α → Bool} {q : β → Bool} {xs : List α}
    {ys : List β} (h : List.Forall₂ R xs ys) (hpq : ∀ x y, R x y → q y = p x) :
    List.Forall₂ (fun x y => R x y ∧ p x = true) (xs.filter p) (ys.filter q) := by
  induction h with
  | nil => exact .nil
  | @cons x y xs ys hxy _ ih =>
      rw [List.filter_cons, List.filter_cons, hpq x y hxy]
      split
      · exact .cons ⟨hxy, by assumption⟩ ih
      · exact ih

/-- A search finds the relationships of a mapping, with the properties that they are read from. -/
structure NativeSearch.IsForLinks (n : NativeSearch) (k : RelationshipMapping) : Prop where
  mapping : n.relationshipMapping = some k
  properties : n.properties = firsts (Record.nameProperty :: Planner.yieldProperties k)

namespace Planner

variable {p : Planner} {plan : SearchPlan} {k : RelationshipMapping} {n : NativeSearch}

theorem relationshipSearch_isForLinks {f : Folded} (h : relationshipSearch k f = some n) :
    n.IsForLinks k := by
  rw [relationshipSearch] at h
  split at h
  · cases h
  · cases h
    exact ⟨rfl, rfl⟩

def SoundForLinks (p : Planner) (plan : SearchPlan) : Prop :=
  ∀ n ∈ plan.searches, ∃ k ∈ p.table.relationships, n.IsForLinks k

theorem Surveys.sound {type : Option String} (h : p.Surveys type plan) : p.SoundForLinks plan := by
  intro n hn
  obtain ⟨k, hk, f, hf⟩ := h.exists_mapping hn
  exact ⟨k, hk, relationshipSearch_isForLinks hf⟩

theorem Sound.isFor (h : p.Sound plan) :
    ∀ n ∈ plan.searches, ∃ m ∈ MappingTable.backed p.table.mappings, n.IsFor m := by
  obtain ⟨ms, hfor, _, hms⟩ := h
  intro n hn
  obtain ⟨m, hm, hn⟩ := exists_left_of_mem hfor hn
  exact ⟨m, hms m hm, hn⟩

end Planner

namespace Scope

open Session Divergence

def withBackend (c : Scope) (b : Backend) : Scope := { c with backend := b }

variable {α : Type} {d : Divergence} {c : Scope} {b : Backend}

@[simp] theorem withBackend_table : (c.withBackend b).table = c.table := rfl

theorem collect_congr {R : Record → Record → Prop} {read : Record → Attempt (List α)}
    {hits hits' : List Record} (h : List.Forall₂ R hits hits')
    (hread : ∀ r r', R r r' → read r = read r') (room : Option Nat) : collect read room hits = collect read room hits' := by
  induction h generalizing room with
  | nil => rfl
  | cons hr _ ih => simp only [collect, hread _ _ hr, ih]

section Links

variable {k : RelationshipMapping} {m : EntityMapping} {r r' : Record} {ps : List String}

variable (hb : c.backend.Follows d b)
include hb

theorem tracks_levelLinks (hk : ∀ p ∈ k.reads none, p ∈ k.levelProperties ∨ d.shared p)
    (recordId : String) (e : End) (refs : List Reference) :
    d.Tracks Eq (c.levelLinks k recordId e refs)
      ((c.withBackend b).levelLinks k recordId e refs) := by
  induction refs with
  | nil => exact tracks_pure rfl
  | cons x xs ih =>
      rw [levelLinks, levelLinks]
      have hrest (found : List Link) := ih.bind_eq fun rest => tracks_pure (R := Eq)
        (rfl : found.filter (fun l => (atEnd e l).id == recordId) ++ rest = _)
      refine (hb.tracks_lookUp x.id k.levelProperties).bind fun o o' ho => ?_
      cases ho with
      | none => exact (tracks_pure rfl).bind_eq hrest
      | some hr =>
          simp only [RelationshipMapping.links_congr hr hk]
          exact (tracks_same _).bind_eq hrest

theorem tracks_reverseLinks (hk : k.kind = .reference) (recordId : String) :
    d.Tracks Eq (c.reverseLinks k recordId) ((c.withBackend b).reverseLinks k recordId) := by
  refine (hb.tracks_runSearch (reverseSearch k recordId)).bind fun hits hits' hhits => ?_
  have hlinks : collect (fun r => k.links r (some .one)) none hits =
      collect (fun r => k.links r (some .one)) none hits' := by
    refine collect_congr hhits (fun r r' hr => RelationshipMapping.links_congr hr ?_) none
    intro p hp
    simp only [RelationshipMapping.reads, hk] at hp
    exact .inl (List.mem_cons_of_mem _ hp)
  rw [hlinks]
  exact (tracks_same _).bind_eq fun ls => tracks_pure rfl

theorem tracks_linksAt (hk : ∀ p ∈ k.reads none, p ∈ k.levelProperties ∨ d.shared p)
    (hr : d.Same ps r r') {e : End} (hp : ∀ p ∈ k.readsAt e, p ∈ ps ∨ d.shared p) :
    d.Tracks Eq (c.linksAt k r e) ((c.withBackend b).linksAt k r' e) := by
  rw [linksAt, linksAt]
  cases hkind : k.kind with
  | self =>
      have hlinks : k.links r none = k.links r' none := by
        refine RelationshipMapping.links_congr hr ?_
        intro p hp
        simp only [RelationshipMapping.reads, hkind] at hp
        cases hp
      simp only [hlinks]
      exact tracks_same _
  | level =>
      simp only [RelationshipMapping.readsAt, hkind] at hp
      simp only [hr.references (hp _ List.mem_cons_self), hr.id]
      exact (tracks_same _).bind_eq fun refs => tracks_levelLinks hb hk r'.id e refs
  | reference =>
      simp only [RelationshipMapping.readsAt, hkind] at hp
      simp only [RelationshipMapping.links_congr hr hp, hr.id]
      split
      · exact tracks_same _
      · exact tracks_reverseLinks hb hkind r'.id

variable (ht : c.table.Asks d.shared)
include ht

theorem tracks_linksOf (hm : m ∈ MappingTable.backed c.table.mappings)
    (hr : d.Same m.projected r r') (htype : r.type = m.assetType) (type : Option String) :
    d.Tracks Eq (c.linksOf m r type) ((c.withBackend b).linksOf m r' type) := by
  have hparts : (c.withBackend b).partsOf m r' type = c.partsOf m r type := by
    rw [partsOf, partsOf, hr.type]
    rfl
  rw [linksOf, linksOf, hparts]
  refine Tracks.bind_eq (Tracks.mapM_eq ?_) fun ls => tracks_pure rfl
  rintro ⟨k, e⟩ hp
  obtain ⟨hk, hplay⟩ := mem_partsOf hp
  rw [htype] at hplay
  exact tracks_linksAt hb (ht.level k (MappingTable.mem_relationships hm hk)) hr
    (ht.part m hm k hk e hplay)

theorem tracks_relationshipsOf (hm : m ∈ MappingTable.backed c.table.mappings)
    (hr : d.Same m.projected r r') (htype : r.type = m.assetType) (type : Option String) :
    d.Tracks Eq (c.relationshipsOf m r type) ((c.withBackend b).relationshipsOf m r' type) := by
  refine (tracks_linksOf hb ht hm hr htype type).bind_eq fun ls => ?_
  exact (tracks_same _).bind_eq fun rs => tracks_pure rfl

end Links

section Resolve

variable {guid : String} {i : RelationshipId} {ms : List RelationshipMapping}
  {m : RelationshipMapping} {x x' y y' : Record}

variable (hb : c.backend.Follows d b)
include hb

theorem tracks_endRecord (ref : RecordRef) (ps : List String) :
    d.Tracks (fun r r' => d.Same ps r r' ∧ r.type = ref.assetType)
      (c.endRecord guid ref ps) ((c.withBackend b).endRecord guid ref ps) := by
  refine (hb.tracks_lookUp ref.recordId ps).bind fun o o' ho => ?_
  cases ho with
  | none => exact tracks_throw _
  | some hr =>
      simp only [← hr.type]
      split
      · exact tracks_pure ⟨hr, by assumption⟩
      · exact tracks_throw _

variable (ht : c.table.Asks d.shared)
include ht

theorem tracks_linksOfLevel (hms : ms ⊆ c.table.relationships) :
    d.Tracks Eq (c.linksOfLevel guid i ms) ((c.withBackend b).linksOfLevel guid i ms) := by
  refine (tracks_endRecord hb i.one _).bind fun r r' ⟨hr, _⟩ => ?_
  have hlinks : ∀ m ∈ ms, m.links r none = m.links r' none := by
    intro m hm
    refine RelationshipMapping.links_congr hr fun p hp => ?_
    exact (ht.level m (hms hm) p hp).imp_left fun hp => List.mem_flatMap.2 ⟨m, hm, hp⟩
  rw [Attempt.mapM_congr hlinks]
  exact tracks_same _

theorem tracks_linksOfPair (hm : m ∈ ms) (hx : d.Same (c.propertiesFor x.type ms) x x')
    (hy : d.Same (c.propertiesFor y.type ms) y y') :
    d.Tracks Eq (c.linksOfPair x y m) ((c.withBackend b).linksOfPair x' y' m) := by
  have howner : (c.withBackend b).ownerOfOne m = c.ownerOfOne m := rfl
  rw [linksOfPair, linksOfPair, howner]
  cases ho : c.ownerOfOne m with
  | none => exact tracks_pure rfl
  | some owner =>
      obtain ⟨hbacked, hasset, _⟩ := mem_of_ownerOfOne ho
      have hpair : List.Forall₂ (fun r r' => d.Same (c.propertiesFor r.type ms) r r')
          [x, y] [x', y'] := .cons hx (.cons hy .nil)
      have hplayed := forall₂_filter (p := fun r => decide (r.type = m.one.assetType))
        (q := fun r => decide (r.type = m.one.assetType)) hpair fun r r' hr => by rw [hr.type]
      refine Tracks.bind (R := List.Forall₂ Eq) (Tracks.mapM (hplayed.imp fun r r' h => ?_)) ?_
      · have htype := of_decide_eq_true h.2
        have hr : d.Same owner.projected r r' := h.1.mono (htype ▸ projected_subset hm ho)
        exact tracks_linksOf hb ht hbacked hr (htype.trans hasset.symm) (some m.type)
      · intro ls ls' hls
        rw [List.forall₂_eq_eq_eq] at hls
        exact tracks_pure (congrArg List.flatten hls)

theorem tracks_linksOfEnds :
    d.Tracks Eq (c.linksOfEnds guid i) ((c.withBackend b).linksOfEnds guid i) := by
  refine (tracks_endRecord hb i.one _).bind fun x x' ⟨hx, hxtype⟩ => ?_
  refine (tracks_endRecord hb i.two _).bind fun y y' ⟨hy, hytype⟩ => ?_
  have hrest (ms : List RelationshipMapping)
      (hx : d.Same (c.propertiesFor i.one.assetType ms) x x')
      (hy : d.Same (c.propertiesFor i.two.assetType ms) y y') :
      d.Tracks Eq
        (ms.mapM (c.linksOfPair x y) >>= fun ls => pure (ls.flatten.filter (·.involves x.id)))
        (ms.mapM ((c.withBackend b).linksOfPair x' y') >>= fun ls =>
          pure (ls.flatten.filter (·.involves x'.id))) := by
    rw [← hxtype] at hx
    rw [← hytype] at hy
    have hpairs := Tracks.mapM_eq fun m hm => tracks_linksOfPair hb ht (m := m) hm hx hy
    refine hpairs.bind_eq fun ls => ?_
    rw [hx.id]
    exact tracks_pure rfl
  cases hempty : ((c.table.relationshipsBetween i.type i.one.assetType i.two.assetType).filter
      fun m => !m.isLevel).isEmpty with
  | true =>
      simp only [withBackend_table, hempty, if_true, hx.type, hy.type]
      exact (tracks_throw _).bind_eq fun _ => hrest _ hx hy
  | false =>
      simp only [withBackend_table, hempty, Bool.false_eq_true, if_false]
      exact hrest _ hx hy

theorem tracks_derived (guid : String) (i : RelationshipId) :
    d.Tracks Eq (c.derived guid i) ((c.withBackend b).derived guid i) := by
  rw [derived, derived]
  have hlevel : (c.withBackend b).levelMappings = c.levelMappings := rfl
  simp only [hlevel]
  split
  · exact tracks_linksOfLevel hb ht (List.filter_subset_self _)
  · exact tracks_linksOfEnds hb ht

omit hb ht in
theorem firstRelationship_withBackend (ls : List Link) :
    (c.withBackend b).firstRelationship ls = c.firstRelationship ls := by
  induction ls with
  | nil => rfl
  | cons l ls ih =>
      rw [firstRelationship, firstRelationship, ih]
      rfl

theorem tracks_resolve (guid : String) :
    d.Tracks Eq (c.resolve guid) ((c.withBackend b).resolve guid) := by
  refine (tracks_same _).bind_eq fun i => ?_
  refine (tracks_derived hb ht guid i).bind_eq fun ls => ?_
  refine (tracks_same _).bind_eq fun candidates => ?_
  simp only [firstRelationship_withBackend]
  refine (tracks_same _).bind_eq fun o => ?_
  cases o with
  | none => exact tracks_throw _
  | some x => exact tracks_pure rfl

end Resolve

section Run

variable {p : SearchPlan} {read : NativeSearch → Option (Record → Attempt (List α))}

variable (hb : c.backend.Follows d b)
include hb

theorem tracks_collectAll {ns : List NativeSearch}
    (hread : ∀ n ∈ ns, ∀ f, read n = some f → ∀ r r', d.Same n.properties r r' → f r = f r')
    (room : Option Nat) :
    d.Tracks Eq (c.collectAll read room ns) ((c.withBackend b).collectAll read room ns) := by
  induction ns generalizing room with
  | nil => exact tracks_pure rfl
  | cons n ns ih =>
      have ih (room : Option Nat) := ih (fun k hk => hread k (List.mem_cons_of_mem n hk)) room
      rw [collectAll, collectAll]
      split
      · exact tracks_pure rfl
      · cases hf : read n with
        | none => exact ih room
        | some f =>
            refine (hb.tracks_runSearch n).bind fun hits hits' hhits => ?_
            rw [collect_congr hhits (hread n List.mem_cons_self f hf) room]
            refine (tracks_same _).bind_eq fun xs => ?_
            exact (ih _).bind_eq fun rest => tracks_pure rfl

theorem tracks_run
    (hread : ∀ n ∈ p.searches, ∀ f, read n = some f →
      ∀ r r', d.Same n.properties r r' → f r = f r') :
    d.Tracks Eq (c.run read p) ((c.withBackend b).run read p) :=
  (tracks_collectAll hb hread (room p)).bind_eq fun _ => tracks_pure rfl

variable (ht : c.table.Asks d.shared)
include ht

theorem tracks_runEntities
    (hp : ∀ n ∈ p.searches, ∃ m ∈ MappingTable.backed c.table.mappings, n.IsFor m) :
    d.Tracks Eq (c.runEntities p) ((c.withBackend b).runEntities p) := by
  refine tracks_run hb fun n hn f hf r r' hr => ?_
  obtain ⟨m, hm, hfor⟩ := hp n hn
  rw [hfor.mapping, Option.map_some] at hf
  cases hf
  rw [hfor.properties] at hr
  rw [readEntity, readEntity, Entity.ofRecord?_congr hr (ht.entity m hm)]

theorem tracks_runRelationships
    (hp : ∀ n ∈ p.searches, ∃ k ∈ c.table.relationships, n.IsForLinks k) :
    d.Tracks Eq (c.runRelationships p) ((c.withBackend b).runRelationships p) := by
  refine tracks_run hb fun n hn f hf r r' hr => ?_
  obtain ⟨k, hk, hfor⟩ := hp n hn
  rw [hfor.mapping, Option.map_some] at hf
  cases hf
  rw [hfor.properties] at hr
  have hasked {p : String} (hp : p ∈ Planner.yieldProperties k ∨ d.shared p) :
      p ∈ firsts (Record.nameProperty :: Planner.yieldProperties k) ∨ d.shared p :=
    hp.imp_left fun hp => mem_firsts.2 (List.mem_cons_of_mem _ hp)
  have hlinks (e : Option End) (he : ∀ p ∈ k.reads e, p ∈ Planner.yieldProperties k ∨ d.shared p) :
      k.links r e = k.links r' e := RelationshipMapping.links_congr hr fun p hp => hasked (he p hp)
  rw [readRelationships, readRelationships]
  cases hkind : k.kind with
  | self =>
      simp only
      rw [hlinks none (by simp [RelationshipMapping.reads, hkind])]
  | level =>
      simp only
      rw [hlinks none (by simpa [Planner.yieldProperties, hkind] using ht.level k hk)]
  | reference =>
      simp only
      rw [hlinks (some .one) (by simp [RelationshipMapping.reads, Planner.yieldProperties, hkind])]

end Run

end Scope

namespace Collection

open Session Divergence

variable {d : Divergence} {c : Collection} {α σ σ' : Type} [Provider σ] [Provider σ'] {s : σ}
  {s' : σ'}

/-- A record as both backends give it, for the mapping that owns it. -/
structure SameOwned (d : Divergence) (t : MappingTable) (p p' : EntityMapping × Record) : Prop where
  mapping : p'.1 = p.1
  backed : p.1 ∈ MappingTable.backed t.mappings
  type : p.2.type = p.1.assetType
  record : d.Same p.1.projected p.2 p'.2

variable (hb : (c.scope s).backend.Follows d (c.scope s').backend)
include hb

theorem tracks_entityRecord (guid : String) :
    d.Tracks (SameOwned d c.table) (c.entityRecord s guid) (c.entityRecord s' guid) := by
  refine (tracks_same _).bind_eq fun id => tracks_ofAttempt_bind fun m hm => ?_
  obtain ⟨hbacked, hasset⟩ := mem_of_owner hm
  refine (hb.tracks_lookUp id.recordId m.projected).bind fun o o' ho => ?_
  cases ho with
  | none => exact tracks_throw _
  | some hr =>
      simp only [← hr.type]
      split
      · rename_i htype
        exact tracks_pure ⟨rfl, hbacked, htype.trans hasset.symm, hr⟩
      · exact tracks_throw _

theorem tracks_reportedFor (ts : List String) : d.Tracks Eq
    (reportedFor (c.scope s).backend ts) (reportedFor (c.scope s').backend ts) := by
  induction ts with
  | nil => exact tracks_pure rfl
  | cons t ts ih =>
      refine (hb.tracks_askStringProperties t).bind_eq fun names => ?_
      exact ih.bind_eq fun rest => tracks_pure rfl

variable (hasks : c.table.Asks d.shared)
include hasks

theorem tracks_entity (guid : String) : d.Tracks Eq (c.entity s guid) (c.entity s' guid) := by
  refine (tracks_entityRecord hb guid).bind ?_
  rintro ⟨m, r⟩ ⟨_, r'⟩ ⟨rfl, hbacked, _, hr⟩
  have hentity := Entity.ofRecord?_congr hr (hasks.entity _ hbacked) c.home
  simp only at hentity ⊢
  rw [hentity]
  refine (tracks_same _).bind_eq fun o => ?_
  cases o with
  | none => exact tracks_throw _
  | some e => exact tracks_pure rfl

theorem tracks_knownEntity (guid : String) :
    d.Tracks Eq (c.knownEntity s guid) (c.knownEntity s' guid) :=
  tracks_ifKnown (fun _ _ => rfl) (tracks_entity hb hasks guid)

theorem tracks_relationship (guid : String) :
    d.Tracks Eq (c.relationship s guid) (c.relationship s' guid) :=
  Scope.tracks_resolve hb hasks guid

theorem tracks_knownRelationship (guid : String) :
    d.Tracks Eq (c.knownRelationship s guid) (c.knownRelationship s' guid) :=
  tracks_ifKnown (fun _ _ => rfl) (tracks_relationship hb hasks guid)

theorem tracks_relationshipsOf (guid : String) (type : Option String) :
    d.Tracks Eq (c.relationshipsOf s guid type) (c.relationshipsOf s' guid type) := by
  have hlisted : d.Tracks Eq
      (c.entityRecord s guid >>= fun p => (c.scope s).relationshipsOf p.1 p.2 type)
      (c.entityRecord s' guid >>= fun p => (c.scope s').relationshipsOf p.1 p.2 type) := by
    refine (tracks_entityRecord hb guid).bind ?_
    rintro ⟨m, r⟩ ⟨_, r'⟩ ⟨rfl, hbacked, htype, hr⟩
    exact Scope.tracks_relationshipsOf hb hasks hbacked hr htype type
  rw [relationshipsOf, relationshipsOf]
  cases type with
  | none => exact hlisted
  | some t => exact (tracks_same _).bind_eq fun _ => hlisted

theorem tracks_relationshipPage (guid : String) (type : Option String) (w : Window)
    (historical : Bool) : d.Tracks Eq (c.relationshipPage s guid type w historical)
      (c.relationshipPage s' guid type w historical) := by
  refine (tracks_same _).bind_eq fun _ => ?_
  exact (tracks_relationshipsOf hb hasks guid type).bind_eq fun rs => tracks_pure rfl

theorem tracks_explore (f : NeighborFilter) (guid : String) (rs : List Relationship)
    (g : Neighborhood) : d.Tracks Eq (c.explore s f guid g rs) (c.explore s' f guid g rs) := by
  induction rs generalizing g with
  | nil => exact tracks_pure rfl
  | cons r rs ih =>
      rw [explore, explore]
      cases c.neighbor? f guid r with
      | none => exact ih g
      | some n =>
          have hneighbor : d.Tracks Eq (c.neighborEntity s g.entities n.guid)
              (c.neighborEntity s' g.entities n.guid) := by
            rw [neighborEntity, neighborEntity]
            split
            · exact tracks_pure rfl
            · exact tracks_knownEntity hb hasks n.guid
          refine hneighbor.bind_eq fun o => ?_
          cases o with
          | none => exact ih g
          | some e => exact ih _

theorem tracks_neighborhood (guid : String) (f : NeighborFilter) (historical : Bool)
    (level : Value) : d.Tracks Eq (c.neighborhood s guid f historical level)
      (c.neighborhood s' guid f historical level) := by
  have hexplored : d.Tracks Eq
      (ofAttempt (c.table.checkTypes (f.entityTypes ++ f.relationshipTypes)) >>= fun _ =>
        c.relationshipsOf s guid none >>= fun rs => c.explore s f guid {} rs)
      (ofAttempt (c.table.checkTypes (f.entityTypes ++ f.relationshipTypes)) >>= fun _ =>
        c.relationshipsOf s' guid none >>= fun rs => c.explore s' f guid {} rs) := by
    refine (tracks_same _).bind_eq fun _ => ?_
    exact (tracks_relationshipsOf hb hasks guid none).bind_eq fun rs =>
      tracks_explore hb hasks f guid rs {}
  refine (tracks_same _).bind_eq fun _ => ?_
  split
  · exact (tracks_throw _).bind_eq fun _ => hexplored
  · exact hexplored

theorem tracks_findRelationships (q : RelationshipSearch) :
    d.Tracks Eq (c.findRelationships s q) (c.findRelationships s' q) :=
  tracks_ofAttempt_bind fun _ hp =>
    Scope.tracks_runRelationships hb hasks (Planner.planRelationships_surveys hp).sound

theorem tracks_findRelationshipsByText (type : Option String) (value : String) (w : Window)
    (historical : Bool) : d.Tracks Eq (c.findRelationshipsByText s type value w historical)
      (c.findRelationshipsByText s' type value w historical) := by
  refine (tracks_same _).bind_eq fun _ => ?_
  refine (tracks_same _).bind_eq fun ts => ?_
  refine (tracks_reportedFor hb ts).bind_eq fun reported => ?_
  exact tracks_ofAttempt_bind fun p hp =>
    Scope.tracks_runRelationships hb hasks (Planner.planRelationshipText_surveys hp).sound

variable (ht : c.table.Accepted)
include ht

theorem tracks_findEntities (q : EntitySearch) :
    d.Tracks Eq (c.findEntities s q) (c.findEntities s' q) :=
  tracks_ofAttempt_bind fun _ hp =>
    Scope.tracks_runEntities hb hasks (Planner.planEntities_sound ht hp).isFor

theorem tracks_findByText (value : String) (q : EntitySearch) :
    d.Tracks Eq (c.findByText s value q) (c.findByText s' value q) := by
  refine (tracks_same _).bind_eq fun _ => (tracks_same _).bind_eq fun o => ?_
  cases o with
  | some g => exact tracks_findEntities hb hasks ht _
  | none =>
      refine (tracks_same _).bind_eq fun ms => ?_
      refine (tracks_reportedFor hb _).bind_eq fun reported => ?_
      have hplanned (version : Option String) : d.Tracks Eq
          (ofAttempt (c.planner.planText q value reported version none) >>= (c.scope s).runEntities)
          (ofAttempt (c.planner.planText q value reported version none) >>=
            (c.scope s').runEntities) :=
        tracks_ofAttempt_bind fun p hp =>
          Scope.tracks_runEntities hb hasks (Planner.planText_sound ht hp).isFor
      cases ms.isEmpty with
      | true => exact hplanned none
      | false => exact hb.tracks_askVersion.bind_eq fun v => hplanned (some v)

/-- Every operation does the same on both backends, unless a call of the second one fails. -/
theorem tracks_work (o : Operation α) : d.Tracks Eq (c.work s o) (c.work s' o) := by
  cases o with
  | findEntities q => exact tracks_findEntities hb hasks ht q
  | findByProperty q => exact tracks_findEntities hb hasks ht q
  | findClassified name properties q =>
      exact (tracks_same _).bind_eq fun _ => tracks_findEntities hb hasks ht _
  | findByText value q => exact tracks_findByText hb hasks ht value q
  | entity guid => exact tracks_entity hb hasks guid
  | knownEntity guid => exact tracks_knownEntity hb hasks guid
  | relationships guid type w historical =>
      exact tracks_relationshipPage hb hasks guid type w historical
  | neighborhood guid f historical level =>
      exact tracks_neighborhood hb hasks guid f historical level
  | relationship guid => exact tracks_relationship hb hasks guid
  | knownRelationship guid => exact tracks_knownRelationship hb hasks guid
  | findRelationships q => exact tracks_findRelationships hb hasks q
  | findRelationshipsByText type value w historical =>
      exact tracks_findRelationshipsByText hb hasks type value w historical
  | typeDef name => exact tracks_same _
  | coverage name => exact tracks_same _

/-- An operation answers the same on both backends, or the second one fails a call that ends it. -/
theorem answer_cases (o : Operation α) :
    (c.answer s' o = c.answer s o ∧ d.Quiet (c.answer s' o).2) ∨
      ∃ e x es, d.faults e = some x ∧ d.Quiet es ∧ c.answer s' o =
        (Outcome.ofAttempt o.name c.home (refuse (.backend e.name (some x))),
          es ++ [.called e]) := by
  have hwork := tracks_work hb hasks ht o {} {} parallel_empty
  rw [answer, answer, run, run]
  rcases hrun : runFrom {} (c.work s o) with ⟨a, st⟩
  rcases hrun' : runFrom {} (c.work s' o) with ⟨a', st'⟩
  rw [hrun, hrun'] at hwork
  rcases hwork with ⟨hend, hevents, hquiet, _⟩ | ⟨e, x, es, hx, hq, hevents, hend⟩
  · simp only at hevents hend ⊢
    rw [hevents]
    refine .inl ⟨?_, hquiet⟩
    cases hend with
    | ok h => rw [h]
    | error h => rw [h]
  · simp only at hevents hend ⊢
    rw [hevents, hend]
    exact .inr ⟨e, x, es, hx, hq, rfl⟩

omit hb hasks in
/-- What an operation answers depends on what its calls are served by. -/
theorem answer_congr (h : (c.scope s').backend = (c.scope s).backend) (o : Operation α) :
    c.answer s' o = c.answer s o := by
  have hfollows : (c.scope s).backend.Follows ⟨fun _ => True, fun _ => none⟩
      (c.scope s').backend := h ▸ .refl _ _
  rcases answer_cases hfollows (MappingTable.asks_of_shared fun _ => trivial) ht o with
    ⟨heq, _⟩ | ⟨_, _, _, hx, _⟩
  · exact heq
  · cases hx

end Collection

end MetaFed
