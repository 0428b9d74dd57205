import MetaFed.Proofs.Outages
import MetaFed.Proofs.Refused
import MetaFed.Proofs.WellFormed

/-!
Operations end with outcomes. Over a backend that serves every call, from a catalog whose references
have types and ids, every part of a session ends with a result or with a refusal that is told to the
caller. Only a record that stands for a relationship and lacks a property that it has to have can
end an operation in another way.
-/

namespace MetaFed

open Attempt

namespace Session

variable {α β γ : Type} {cat : Catalog} {m : Session α} {P : α → Prop} {Q : β → Prop}

/-- A part of a session ends with a result like this, or with a refusal that is told to the caller,
in every state in which the fetched records are those of the catalog, and leaves such a state
behind. -/
def Tells (cat : Catalog) (m : Session α) (P : α → Prop) : Prop :=
  ∀ s, s.Faithful cat →
    ∃ r s', r.Told ∧ (∀ a, r = .ok a → P a) ∧ s'.Faithful cat ∧ runFrom s m = (r, s')

theorem Gives.tells (h : Gives cat m P) : Tells cat m P := by
  intro s hs
  obtain ⟨a, s', ha, hs', hrun⟩ := h s hs
  refine ⟨.ok a, s', fails_ok a, ?_, hs', hrun⟩
  rintro _ ⟨⟩
  exact ha

theorem Answers.tells {r : Attempt α} (h : Answers cat m r) (hr : r.Told)
    (hP : ∀ a, r = .ok a → P a) : Tells cat m P := by
  intro s hs
  obtain ⟨s', hs', hrun⟩ := h s hs
  exact ⟨r, s', hr, hP, hs', hrun⟩

theorem tells_pure {a : α} (h : P a) : Tells cat (pure a) P := (gives_pure h).tells

theorem tells_ofAttempt {r : Attempt α} (hr : r.Told) (hP : ∀ a, r = .ok a → P a) :
    Tells cat (ofAttempt r) P := (answers_ofAttempt r).tells hr hP

theorem tells_throw {f : Failure} (hf : f.Told) : Tells cat (throw f) P :=
  tells_ofAttempt (r := .error f) (fails_error hf) fun _ h => nomatch h

theorem Tells.imp {P' : α → Prop} (hm : Tells cat m P) (h : ∀ a, P a → P' a) : Tells cat m P' := by
  intro s hs
  obtain ⟨r, s', hr, hP, hs', hrun⟩ := hm s hs
  exact ⟨r, s', hr, fun a ha => h a (hP a ha), hs', hrun⟩

theorem Tells.bind {f : α → Session β} (hm : Tells cat m P) (hf : ∀ a, P a → Tells cat (f a) Q) :
    Tells cat (m >>= f) Q := by
  intro s hs
  obtain ⟨r, s', hr, hP, hs', hrun⟩ := hm s hs
  cases r with
  | ok a =>
      rw [runFrom_bind_ok hrun]
      exact hf a (hP a rfl) s' hs'
  | error e =>
      refine ⟨.error e, s', fails_error (hr e rfl), by rintro _ ⟨⟩, hs', ?_⟩
      rw [runFrom_bind, hrun]

theorem tells_ofAttempt_bind {r : Attempt α} {f : α → Session β} (hr : r.Told)
    (hf : ∀ a, r = .ok a → Tells cat (f a) Q) : Tells cat (ofAttempt r >>= f) Q :=
  (tells_ofAttempt (P := fun a => r = .ok a) hr fun _ h => h).bind hf

theorem Tells.mapM {f : γ → Session α} {xs : List γ} (h : ∀ x ∈ xs, Tells cat (f x) P) :
    Tells cat (xs.mapM f) fun ys => ∀ y ∈ ys, P y := by
  induction xs with
  | nil => exact tells_pure (by simp)
  | cons x xs ih =>
      rw [List.mapM_cons]
      refine (h x List.mem_cons_self).bind fun y hy => ?_
      refine (ih fun z hz => h z (List.mem_cons_of_mem x hz)).bind fun ys hys => ?_
      exact tells_pure (List.forall_mem_cons.2 ⟨hy, hys⟩)

theorem Tells.ifKnown (hm : Tells cat m P) (missing : Cause → Bool) :
    Tells cat (Collection.ifKnown missing m) fun _ => True := by
  intro s hs
  obtain ⟨r, s', hr, _, hs', hrun⟩ := hm s hs
  rw [Collection.runFrom_ifKnown, hrun]
  cases r with
  | ok a => exact ⟨_, s', fails_ok _, fun _ _ => trivial, hs', rfl⟩
  | error f =>
      cases f with
      | fault x => exact (hr _ rfl).elim
      | refused x =>
          refine ⟨_, s', ?_, fun _ _ => trivial, hs', rfl⟩
          split
          · exact fails_ok none
          · exact fails_error (hr _ rfl)

end Session

open Session

/-- The backend serves every call: it looks records up in the catalog, and a search finds records of
the catalog, with the properties asked for, or is refused. -/
structure Backend.Working (b : Backend) (cat : Catalog) : Prop where
  available : ∀ e, b.outage e = none
  record : b.record = cat.fetch
  refuses : ∀ n, (b.search n).Told
  finds : ∀ n hits, b.search n = .ok hits → ∀ r ∈ hits, cat.Part n.properties r

/-- A service that is fast enough and has no failing calls works when it is bounded. -/
theorem Service.working_bounded {s : Service} {limit : Option Value} (hlimit : s.Meets limit)
    (hnone : s.failures = []) : (s.bounded limit).Working s.catalog where
  available e := by
    have hserved : s.failure? e = none := by
      rw [failure?, hnone]
      rfl
    simp only [bounded_eq_reporting hlimit, Backend.reporting, backend, hserved, Option.map_none]
  record := funext fun id => funext fun wanted => record_bounded id wanted
  refuses n := by
    rw [bounded_eq_reporting hlimit, Backend.reporting]
    cases h : s.catalog.search n with
    | ok hits => simpa only [backend, h] using fails_ok hits
    | error f =>
        simpa only [backend, h] using
          fails_error ((s.catalog.native_search n f h).told_report .search)
  finds n hits h r hr := by
    obtain ⟨r', hr', rfl, _⟩ := Catalog.mem_search (search_bounded.1 h) r hr
    exact ⟨r', hr', _, List.Subset.refl _, rfl⟩

namespace Backend

variable {b : Backend} {cat : Catalog} (hb : b.Working cat)
include hb

theorem Working.tells_lookUp (id : String) (wanted : List String) :
    Tells cat (b.lookUp id wanted) fun o => ∀ r, o = some r → cat.Part wanted r := by
  refine ((gives_lookUp (hb.available .record) hb.record id wanted).tells).imp ?_
  rintro _ ⟨ps, hps, rfl⟩ r hr
  obtain ⟨r', hr', rfl⟩ := Option.map_eq_some_iff.1 hr
  exact ⟨r', List.mem_map_of_mem (Assoc.mem_of_find? hr'), ps, hps, rfl⟩

theorem Working.tells_runSearch (n : NativeSearch) :
    Tells cat (b.runSearch n) fun hits => ∀ r ∈ hits, cat.Part n.properties r := by
  refine (answers_runSearch n).tells ?_ fun hits h => ?_
  · rw [answer, b.entry_eq_ok.2 (hb.available .search)]
    exact hb.refuses n
  · exact hb.finds n hits (b.answer_eq_ok.1 h).2

theorem Working.tells_enter (e : Endpoint) : Tells cat (b.enter e) fun _ => True :=
  (answers_enter e).tells (fails_of_eq_ok (b.entry_eq_ok.2 (hb.available e))) fun _ _ => trivial

theorem Working.tells_reportedFor (ts : List String) :
    Tells cat (Collection.reportedFor b ts) fun _ => True := by
  induction ts with
  | nil => exact tells_pure trivial
  | cons t ts ih =>
      refine ((hb.tells_enter .stringProperties).bind fun _ _ => tells_pure trivial).bind
        (P := fun _ => True) fun names _ => ?_
      exact ih.bind fun _ _ => tells_pure trivial

theorem Working.tells_askVersion : Tells cat b.askVersion fun _ => True :=
  (hb.tells_enter .version).bind fun _ _ => tells_pure trivial

end Backend

namespace Scope

variable {c : Scope} {cat : Catalog} {k : RelationshipMapping} {m : EntityMapping} {r : Record}
  {α : Type} {wanted : List String}

theorem fails_collect {F : Failure → Prop} {read : Record → Attempt (List α)} {rs : List Record}
    (h : ∀ r ∈ rs, (read r).Fails F) (room : Option Nat) : (collect read room rs).Fails F := by
  induction rs generalizing room with
  | nil => exact fails_ok []
  | cons r rs ih =>
      refine (h r List.mem_cons_self).bind fun xs _ => ?_
      simp only
      split
      · exact fails_ok xs
      · exact (ih (fun r' hr' => h r' (List.mem_cons_of_mem r hr')) _).bind fun _ _ => fails_ok _

/-- Well-formed records are read as entities, if what is left to be checked has an answer. -/
theorem exists_readEntity (hh : c.home ≠ "") (hr : r.WellFormed) (m : EntityMapping)
    {residual : Option PropertyGroup} (hg : ∀ g, residual = some g → ∀ d ∈ g.leaves,
      Planner.checkPattern d = .ok ()) : ∃ xs, c.readEntity m residual r = .ok xs := by
  obtain ⟨o, ho⟩ := Entity.exists_ofRecord? hh hr m
  rw [readEntity, ho, ok_bind]
  cases o with
  | none => exact ⟨[], rfl⟩
  | some e =>
      cases residual with
      | none => exact ⟨[e], rfl⟩
      | some g =>
          obtain ⟨b, hb⟩ := exists_of_fails (Planner.fails_matches (hg g rfl) e.properties)
          exact ⟨if b = true then [e] else [], by simp only [hb, ok_bind]⟩

theorem exists_readRelationships (hh : c.home ≠ "")
    (h : ∀ e, ∃ ls, k.links r e = .ok ls ∧ ∀ l ∈ ls, l.WellFormed) :
    ∃ xs, c.readRelationships k r = .ok xs := by
  have hmade (e : Option End) :
      ∃ xs, (k.links r e >>= Link.relationships c.home c.table) = .ok xs := by
    obtain ⟨ls, hls, hall⟩ := h e
    obtain ⟨xs, hxs⟩ := Link.exists_relationships hh hall c.table
    exact ⟨xs, by rw [hls, ok_bind, hxs]⟩
  exact hmade _

variable (hb : c.backend.Working cat)
include hb

theorem tells_collectAll {read : NativeSearch → Option (Record → Attempt (List α))}
    {ns : List NativeSearch} (hread : ∀ n ∈ ns, ∀ f, read n = some f →
      ∀ r, cat.Part n.properties r → (f r).Told) (room : Option Nat) :
    Tells cat (c.collectAll read room ns) fun _ => True := by
  induction ns generalizing room with
  | nil => exact tells_pure trivial
  | cons n ns ih =>
      have ih (room : Option Nat) := ih (fun n' hn' => hread n' (List.mem_cons_of_mem n hn')) room
      rw [collectAll]
      split
      · exact tells_pure trivial
      · cases hf : read n with
        | none => exact ih room
        | some f =>
            refine (hb.tells_runSearch n).bind fun hits hhits => ?_
            have hcollect := fails_collect (fun r hr =>
              hread n List.mem_cons_self f hf r (hhits r hr)) room
            refine tells_ofAttempt_bind hcollect fun xs _ => ?_
            exact (ih _).bind fun _ _ => tells_pure trivial

variable (hw : cat.WellFormed)
include hw

theorem tells_runEntities {p : SearchPlan} (hh : c.home ≠ "") (hp : p.Checkable) :
    Tells cat (c.runEntities p) fun _ => True := by
  refine (tells_collectAll hb (fun n hn f hf r hr => ?_) _).bind fun _ _ => tells_pure trivial
  obtain ⟨m, _, rfl⟩ := Option.map_eq_some_iff.1 hf
  obtain ⟨xs, hxs⟩ := exists_readEntity hh (hr.wellFormed hw) m (hp n hn)
  exact fails_of_eq_ok hxs

theorem tells_levelLinks (hk : k.Usable cat) (recordId : String) (e : End)
    (refs : List Reference) :
    Tells cat (c.levelLinks k recordId e refs) fun ls => ∀ l ∈ ls, l.WellFormed := by
  induction refs with
  | nil => exact tells_pure (by simp)
  | cons x xs ih =>
      have hrest (found : List Link) (hfound : ∀ l ∈ found, l.WellFormed) :
          Tells cat (c.levelLinks k recordId e xs >>= fun rest =>
              pure (found.filter (fun l => (atEnd e l).id == recordId) ++ rest))
            fun ls => ∀ l ∈ ls, l.WellFormed :=
        ih.bind fun rest hrest => tells_pure (List.forall_mem_append.2
          ⟨fun l hl => hfound l (List.mem_of_mem_filter hl), hrest⟩)
      rw [levelLinks]
      refine (hb.tells_lookUp x.id k.levelProperties).bind fun o ho => ?_
      cases o with
      | none => exact hrest [] (by simp)
      | some r =>
          obtain ⟨ls, hls, hall⟩ := hk.exists_links hw (ho r rfl) (fun _ => List.Subset.refl _) none
          simp only [hls]
          exact hrest ls hall

theorem tells_reverseLinks (hk : k.Usable cat) (hkind : k.kind = .reference) (recordId : String) :
    Tells cat (c.reverseLinks k recordId) fun ls => ∀ l ∈ ls, l.WellFormed := by
  refine (hb.tells_runSearch _).bind fun hits hhits => ?_
  have hlinks : ∀ r ∈ hits, ∃ ls, k.links r (some .one) = .ok ls ∧ ∀ l ∈ ls, l.WellFormed :=
    fun r hr => hk.exists_links hw (hhits r hr) (by simp [hkind]) (some .one)
  obtain ⟨us, hus⟩ := exists_collect fun r hr => (hlinks r hr).imp fun _ => And.left
  rw [hus]
  refine tells_pure fun l hl => ?_
  obtain ⟨r, hr, ls, hls, hl⟩ := (mem_collect hus).1 (List.mem_of_mem_filter hl)
  obtain ⟨ls', hls', hall⟩ := hlinks r hr
  cases hls.symm.trans hls'
  exact hall l hl

theorem tells_linksAt (hk : k.Usable cat) (hr : cat.Part wanted r) (e : End) :
    Tells cat (c.linksAt k r e) fun ls => ∀ l ∈ ls, l.WellFormed := by
  have hlinks (hkind : k.kind ≠ .level) (e : Option End) :
      Tells cat (ofAttempt (k.links r e)) fun ls => ∀ l ∈ ls, l.WellFormed := by
    obtain ⟨ls, hls, hall⟩ := hk.exists_links hw hr (fun h => absurd h hkind) e
    rw [hls]
    exact tells_pure hall
  rw [linksAt]
  cases hkind : k.kind with
  | self => exact hlinks (by simp [hkind]) none
  | level =>
      obtain ⟨refs, hrefs, _⟩ := (hr.wellFormed hw).refers ((k.atEnd e).link.getD "")
      simp only [hrefs]
      exact tells_levelLinks hb hw hk r.id e refs
  | reference =>
      simp only
      split
      · exact hlinks (by simp [hkind]) (some e)
      · exact tells_reverseLinks hb hw hk hkind r.id

theorem tells_linksOf (hm : ∀ k ∈ m.relationships, k.Usable cat) (hr : cat.Part wanted r)
    (type : Option String) :
    Tells cat (c.linksOf m r type) fun ls => ∀ l ∈ ls, l.WellFormed := by
  refine (Tells.mapM fun p hp => tells_linksAt hb hw (hm p.1 (mem_partsOf hp).1) hr p.2).bind ?_
  exact fun lss hlss => tells_pure (List.forall_mem_flatten.2 hlss)

theorem tells_relationshipsOf (hh : c.home ≠ "") (hm : ∀ k ∈ m.relationships, k.Usable cat)
    (hr : cat.Part wanted r) (type : Option String) :
    Tells cat (c.relationshipsOf m r type) fun _ => True := by
  refine (tells_linksOf hb hw hm hr type).bind fun ls hls => ?_
  obtain ⟨rs, hrs⟩ := Link.exists_relationships hh hls c.table
  rw [hrs]
  exact tells_pure trivial

omit hw in
theorem tells_endRecord (guid : String) (ref : RecordRef) (ps : List String) :
    Tells cat (c.endRecord guid ref ps) (cat.Part ps) := by
  refine (hb.tells_lookUp ref.recordId ps).bind fun o ho => ?_
  cases o with
  | none => exact tells_throw rfl
  | some r =>
      simp only
      split
      · exact tells_pure (ho r rfl)
      · exact tells_throw rfl

theorem tells_linksOfLevel {ms : List RelationshipMapping} (hms : ∀ m ∈ ms, m.Usable cat)
    (guid : String) (i : RelationshipId) :
    Tells cat (c.linksOfLevel guid i ms) fun ls => ∀ l ∈ ls, l.WellFormed := by
  refine (tells_endRecord hb guid i.one _).bind fun r hr => ?_
  obtain ⟨lss, hlss, hall⟩ := exists_flatten_mapM (P := Link.WellFormed) fun m hm =>
    (hms m hm).exists_links hw hr (fun _ _ hp => List.mem_flatMap.2 ⟨m, hm, hp⟩) none
  rw [hlss]
  exact tells_pure hall

variable (hv : ∀ k ∈ c.table.relationships, k.Usable cat)
include hv

theorem tells_linksOfPair {ps qs : List String} {x y : Record} (hx : cat.Part ps x)
    (hy : cat.Part qs y) (k : RelationshipMapping) :
    Tells cat (c.linksOfPair x y k) fun ls => ∀ l ∈ ls, l.WellFormed := by
  rw [linksOfPair]
  cases ho : c.ownerOfOne k with
  | none => exact tells_pure (by simp)
  | some owner =>
      have hlisted : ∀ k' ∈ owner.relationships, k'.Usable cat := fun k' hk' =>
        hv k' (MappingTable.mem_relationships (mem_of_ownerOfOne ho).1 hk')
      refine (Tells.mapM (P := fun ls => ∀ l ∈ ls, l.WellFormed) fun r hr => ?_).bind ?_
      · rcases List.mem_cons.1 (List.mem_filter.1 hr).1 with rfl | hr
        · exact tells_linksOf hb hw hlisted hx _
        · exact tells_linksOf hb hw hlisted (List.mem_singleton.1 hr ▸ hy) _
      · exact fun lss hlss => tells_pure (List.forall_mem_flatten.2 hlss)

theorem tells_linksOfEnds (guid : String) (i : RelationshipId) :
    Tells cat (c.linksOfEnds guid i) fun ls => ∀ l ∈ ls, l.WellFormed := by
  refine (tells_endRecord hb guid i.one _).bind fun x hx => ?_
  refine (tells_endRecord hb guid i.two _).bind fun y hy => ?_
  have hrest (ms : List RelationshipMapping) :
      Tells cat (ms.mapM (c.linksOfPair x y) >>= fun lss =>
        pure (lss.flatten.filter (·.involves x.id))) fun ls => ∀ l ∈ ls, l.WellFormed := by
    refine (Tells.mapM fun k _ => tells_linksOfPair hb hw hv hx hy k).bind fun lss hlss => ?_
    have hall := List.forall_mem_flatten.2 hlss
    exact tells_pure fun l hl => hall l (List.mem_of_mem_filter hl)
  simp only
  split
  · -- The refusal stands before the links are read, which the session then never comes to.
    have hnone : (c.notMapped i.type x.type y.type).Told := rfl
    exact (tells_throw (P := fun _ => True) hnone).bind fun _ _ => hrest _
  · exact hrest _

theorem tells_derived (guid : String) (i : RelationshipId) :
    Tells cat (c.derived guid i) fun ls => ∀ l ∈ ls, l.WellFormed := by
  rw [derived]
  split
  · exact tells_linksOfLevel hb hw (fun m hm => hv m (List.mem_filter.1 hm).1) guid i
  · exact tells_linksOfEnds hb hw hv guid i

omit hb hw hv in
theorem exists_firstRelationship_of_wellFormed (hh : c.home ≠ "") {ls : List Link}
    (h : ∀ l ∈ ls, l.WellFormed) : ∃ o, c.firstRelationship ls = .ok o := by
  induction ls with
  | nil => exact ⟨none, rfl⟩
  | cons l ls ih =>
      obtain ⟨o, ho⟩ := (h l List.mem_cons_self).exists_relationship? hh c.table
      rw [firstRelationship, ho, ok_bind]
      cases o with
      | none => exact ih fun l' hl' => h l' (List.mem_cons_of_mem l hl')
      | some x => exact ⟨some x, rfl⟩

theorem tells_resolve (hh : c.home ≠ "") (guid : String) :
    Tells cat (c.resolve guid) fun _ => True := by
  refine tells_ofAttempt_bind (c.told_decodeRelationship guid) fun i _ => ?_
  refine (tells_derived hb hw hv guid i).bind fun ls hls => ?_
  obtain ⟨ids, hids⟩ := exists_identified fun l hl => (hls l hl).exists_identity c.home
  have hselected : ∀ l ∈ select i ids, l.WellFormed := by
    intro l hl
    obtain ⟨j, hj, _⟩ := exists_of_mem_select hl
    exact hls l ((mem_identified hids).1 hj).1
  obtain ⟨o, ho⟩ := exists_firstRelationship_of_wellFormed hh hselected
  rw [hids]
  refine (tells_pure (P := (ids = ·)) rfl).bind ?_
  rintro _ rfl
  rw [ho]
  cases o with
  | none => exact tells_throw rfl
  | some x => exact tells_pure trivial

theorem tells_runRelationships {p : SearchPlan} (hh : c.home ≠ "")
    (hp : ∀ n ∈ p.searches, ∃ k ∈ c.table.relationships, n.IsForLinks k) :
    Tells cat (c.runRelationships p) fun _ => True := by
  refine (tells_collectAll hb (fun n hn f hf r hr => ?_) _).bind fun _ _ => tells_pure trivial
  obtain ⟨k, hk, hfor⟩ := hp n hn
  rw [hfor.mapping, Option.map_some] at hf
  cases hf
  have hread (hkind : k.kind = .level) : k.levelProperties ⊆ n.properties := by
    intro q hq
    rw [hfor.properties, mem_firsts, Planner.yieldProperties, hkind]
    exact List.mem_cons_of_mem _ hq
  obtain ⟨xs, hxs⟩ := exists_readRelationships hh ((hv k hk).exists_links hw hr hread)
  exact fails_of_eq_ok hxs

end Scope

/-- The operation derives relationships from records. -/
def Operation.readsLinks {α : Type} : Operation α → Bool
  | .relationships .. => true
  | .neighborhood .. => true
  | .relationship _ => true
  | .knownRelationship _ => true
  | .findRelationships _ => true
  | .findRelationshipsByText .. => true
  | _ => false

namespace Collection

variable {c : Collection} {cat : Catalog} {σ α : Type} [Provider σ] {s : σ}

theorem tells_run {work : Session α} {P : α → Prop} (h : Tells cat work P) (operation : String) :
    ∃ x, (c.run operation work).1 = .ok x := by
  obtain ⟨r, st, hr, _, _, hrun⟩ := h {} (SessionState.faithful_empty cat)
  rw [run, hrun]
  exact hr.exists_outcome operation c.home

variable (hb : (c.scope s).backend.Working cat)
include hb

theorem tells_entityRecord (guid : String) : Tells cat (c.entityRecord s guid) fun p =>
    p.1 ∈ MappingTable.backed c.table.mappings ∧ cat.Part p.1.projected p.2 := by
  refine tells_ofAttempt_bind (c.told_decodeEntity guid) fun id _ => ?_
  refine tells_ofAttempt_bind (c.told_owner guid id) fun m hm => ?_
  refine (hb.tells_lookUp id.recordId m.projected).bind fun o ho => ?_
  cases o with
  | none => exact tells_throw rfl
  | some r =>
      simp only
      split
      · exact tells_pure ⟨(mem_of_owner hm).1, ho r rfl⟩
      · exact tells_throw rfl

variable (hw : cat.WellFormed) (hh : c.home ≠ "")
include hw hh

theorem tells_entity (guid : String) : Tells cat (c.entity s guid) fun _ => True := by
  refine (tells_entityRecord hb guid).bind fun p hp => ?_
  obtain ⟨o, ho⟩ := Entity.exists_ofRecord? hh (hp.2.wellFormed hw) p.1
  simp only [ho]
  cases o with
  | none => exact tells_throw rfl
  | some e => exact tells_pure trivial

theorem tells_findEntities (q : EntitySearch) : Tells cat (c.findEntities s q) fun _ => True :=
  tells_ofAttempt_bind (c.planner.told_planEntities q none) fun _ hp =>
    Scope.tells_runEntities hb hw hh (Planner.checkable_planEntities hp)

theorem tells_findByText (value : String) (q : EntitySearch) :
    Tells cat (c.findByText s value q) fun _ => True := by
  refine tells_ofAttempt_bind (Planner.told_checkPresent q.historical) fun _ _ => ?_
  refine tells_ofAttempt_bind (c.planner.told_rerouted? value) fun o _ => ?_
  cases o with
  | some g => exact tells_findEntities hb hw hh _
  | none =>
      refine tells_ofAttempt_bind (c.planner.told_candidates q) fun ms _ => ?_
      refine (hb.tells_reportedFor _).bind fun reported _ => ?_
      have hplanned (version : Option String) : Tells cat
          (ofAttempt (c.planner.planText q value reported version none) >>=
            (c.scope s).runEntities) fun _ => True :=
        tells_ofAttempt_bind (c.planner.told_planText q value reported version none) fun _ hp =>
          Scope.tells_runEntities hb hw hh (Planner.checkable_planText hp)
      cases ms.isEmpty with
      | true => exact hplanned none
      | false => exact hb.tells_askVersion.bind fun v _ => hplanned (some v)

variable (hv : ∀ k ∈ c.table.relationships, k.Usable cat)
include hv

theorem tells_relationshipsOf (guid : String) (type : Option String) :
    Tells cat (c.relationshipsOf s guid type) fun _ => True := by
  have hlisted : Tells cat
      (c.entityRecord s guid >>= fun p => (c.scope s).relationshipsOf p.1 p.2 type)
        fun _ => True := by
    refine (tells_entityRecord hb guid).bind fun p hp => ?_
    have husable : ∀ k ∈ p.1.relationships, k.Usable cat :=
      fun k hk => hv k (MappingTable.mem_relationships hp.1 hk)
    exact Scope.tells_relationshipsOf hb hw hh husable hp.2 type
  rw [relationshipsOf]
  cases type with
  | none => exact hlisted
  | some t => exact tells_ofAttempt_bind (c.table.told_relationshipsFor _) fun _ _ => hlisted

omit hv in
theorem tells_explore (f : NeighborFilter) (guid : String) (rs : List Relationship)
    (g : Neighborhood) : Tells cat (c.explore s f guid g rs) fun _ => True := by
  induction rs generalizing g with
  | nil => exact tells_pure trivial
  | cons r rs ih =>
      rw [explore]
      cases c.neighbor? f guid r with
      | none => exact ih g
      | some n =>
          have hneighbor : Tells cat (c.neighborEntity s g.entities n.guid) fun _ => True := by
            rw [neighborEntity]
            split
            · exact tells_pure trivial
            · exact (tells_entity hb hw hh n.guid).ifKnown _
          refine hneighbor.bind fun o _ => ?_
          cases o with
          | none => exact ih g
          | some e => exact ih _

theorem tells_neighborhood (guid : String) (f : NeighborFilter) (historical : Bool)
    (level : Value) : Tells cat (c.neighborhood s guid f historical level) fun _ => True := by
  have hexplored : Tells cat
      (ofAttempt (c.table.checkTypes (f.entityTypes ++ f.relationshipTypes)) >>= fun _ =>
        c.relationshipsOf s guid none >>= fun rs => c.explore s f guid {} rs) fun _ => True := by
    refine tells_ofAttempt_bind (c.table.told_checkTypes _) fun _ _ => ?_
    exact (tells_relationshipsOf hb hw hh hv guid none).bind fun rs _ =>
      tells_explore hb hw hh f guid rs {}
  refine tells_ofAttempt_bind (Planner.told_checkPresent historical) fun _ _ => ?_
  split
  · have hdistance : (Failure.ofCause (.functionNotSupported (.distance level))).Told := rfl
    exact (tells_throw (P := fun _ => True) hdistance).bind fun _ _ => hexplored
  · exact hexplored

theorem tells_findRelationshipsByText (type : Option String) (value : String) (w : Window)
    (historical : Bool) :
    Tells cat (c.findRelationshipsByText s type value w historical) fun _ => True := by
  refine tells_ofAttempt_bind (Planner.told_checkPresent historical) fun _ _ => ?_
  refine tells_ofAttempt_bind (c.planner.told_levelAssetTypes type none) fun ts _ => ?_
  refine (hb.tells_reportedFor ts).bind fun reported _ => ?_
  refine tells_ofAttempt_bind (c.planner.told_planRelationshipText _ _ _ _ _) fun p hp => ?_
  exact Scope.tells_runRelationships hb hw hv hh (Planner.planRelationshipText_surveys hp).sound

omit hv in
/-- Every operation ends with a result or a refusal, if the relationships that it may derive can be
derived. -/
theorem tells_work (o : Operation α)
    (hv : o.readsLinks = true → ∀ k ∈ c.table.relationships, k.Usable cat) :
    Tells cat (c.work s o) fun _ => True := by
  cases o with
  | findEntities q => exact tells_findEntities hb hw hh q
  | findByProperty q => exact tells_findEntities hb hw hh q
  | findClassified name properties q =>
      exact tells_ofAttempt_bind (c.table.told_checkClassification name) fun _ _ =>
        tells_findEntities hb hw hh _
  | findByText value q => exact tells_findByText hb hw hh value q
  | entity guid => exact tells_entity hb hw hh guid
  | knownEntity guid => exact (tells_entity hb hw hh guid).ifKnown _
  | relationships guid type w historical =>
      refine tells_ofAttempt_bind (Planner.told_checkPresent historical) fun _ _ => ?_
      exact (tells_relationshipsOf hb hw hh (hv rfl) guid type).bind fun _ _ => tells_pure trivial
  | neighborhood guid f historical level =>
      exact tells_neighborhood hb hw hh (hv rfl) guid f historical level
  | relationship guid => exact Scope.tells_resolve hb hw (hv rfl) hh guid
  | knownRelationship guid => exact (Scope.tells_resolve hb hw (hv rfl) hh guid).ifKnown _
  | findRelationships q =>
      exact tells_ofAttempt_bind (c.planner.told_planRelationships q none) fun _ hp =>
        Scope.tells_runRelationships hb hw (hv rfl) hh (Planner.planRelationships_surveys hp).sound
  | findRelationshipsByText type value w historical =>
      exact tells_findRelationshipsByText hb hw hh (hv rfl) type value w historical
  | typeDef name => exact tells_ofAttempt (c.told_typeDef name) fun _ _ => trivial
  | coverage name => exact tells_ofAttempt (c.told_coverage name) fun _ _ => trivial

end Collection

end MetaFed
