import MetaFed.Proofs.Reordered

/-!
Searches and the order in which records are stored. Every search of a plan ends its sort keys with
the record's id, so that every operation that searches does the same on two catalogs that hold the
same records in different orders, unless the conditions of a search fail on several of them.
-/

namespace MetaFed

namespace Planner

variable {p : Planner} {plan : SearchPlan} {n : NativeSearch} {m : EntityMapping} {w : Window}

theorem settled_of_sortKeys {ks : List SortKey} (h : sortKeys m w = .ok ks) :
    ∃ ks', ks = ks' ++ [.byId] := by
  rw [sortKeys] at h
  split at h
  · cases h
    exact ⟨[_], rfl⟩
  · cases h
    exact ⟨[], rfl⟩
  · split at h
    · cases h
      exact ⟨[_], rfl⟩
    · cases h

theorem assemble_settled {f : Folded} {g : Option ClassificationGroup}
    (h : p.assemble m f g w = .ok (some n)) : n.Settled := by
  obtain ⟨_, _, _, hsorts, rfl⟩ := assemble_eq_some h
  exact settled_of_sortKeys hsorts

theorem entitySearch_settled {q : EntitySearch} (h : p.entitySearch q m = .ok (some n)) :
    n.Settled := by
  obtain ⟨f, k, _, hk, rfl | rfl⟩ := entitySearch_eq_some h
  · have hsettled : k.Settled := assemble_settled hk
    exact hsettled
  · exact assemble_settled hk

theorem relationshipSearch_settled {k : RelationshipMapping} {f : Folded}
    (h : relationshipSearch k f = some n) : n.Settled := by
  rw [relationshipSearch] at h
  split at h
  · cases h
  · cases h
    exact ⟨[], rfl⟩

theorem planEntities_settled {q : EntitySearch} {operation : Option String}
    (h : p.planEntities q operation = .ok plan) : ∀ n ∈ plan.searches, n.Settled := by
  intro n hn
  obtain ⟨_, _, m, _, k, hk, _, _, rfl⟩ := mem_planEntities h hn
  have hsettled : k.Settled := entitySearch_settled hk
  exact hsettled

theorem planText_settled {q : EntitySearch} {value : String} {reported : StringProperties}
    {version operation : Option String}
    (h : p.planText q value reported version operation = .ok plan) :
    ∀ n ∈ plan.searches, n.Settled := by
  intro n hn
  obtain ⟨_, _, m, _, k, hk, _, _, rfl⟩ := mem_planText h hn
  obtain ⟨f, _, hk⟩ := textSearch_eq_some hk
  have hsettled : k.Settled := assemble_settled hk
  exact hsettled

theorem Surveys.settled {type : Option String} (h : p.Surveys type plan) :
    ∀ n ∈ plan.searches, n.Settled := by
  intro n hn
  obtain ⟨k, _, f, hf⟩ := h.exists_mapping hn
  exact relationshipSearch_settled hf

end Planner

namespace Catalog

variable {cat cat' : Catalog} {α β : Type}

/-- How a search ends whose conditions fail. -/
def failed (x : Fault) : Attempt α := refuse (.backend Endpoint.search.name (some x))

/-- Two results of sessions whose last search failed in different ways on two records. -/
def Clash (cat : Catalog) (es : List Event) (a a' : Attempt α) : Prop :=
  ∃ n x x', .searched n ∈ es ∧ x ≠ x' ∧ cat.FailsWith n x ∧ cat.FailsWith n x' ∧
    a = failed x ∧ a' = failed x'

/-- The ends of two runs, after a log of earlier events: they are the same unless a search clashes,
and the searches that were run since are settled. -/
structure Coincide (cat : Catalog) (es : List Event) (p p' : Attempt α × SessionState) : Prop where
  state : p'.2 = p.2
  settled : ∀ n, .searched n ∈ p.2.events → .searched n ∈ es ∨ n.Settled
  result : p'.1 = p.1 ∨ cat.Clash p.2.events p.1 p'.1

/-- Two parts of sessions do the same from every state on, up to a clash. -/
def Agrees (cat : Catalog) (m m' : Session α) : Prop :=
  ∀ st, cat.Coincide st.events (Session.runFrom st m) (Session.runFrom st m')

open Session

theorem coincide_refl {es : List Event} {p : Attempt α × SessionState}
    (h : ∀ n, .searched n ∈ p.2.events → .searched n ∈ es ∨ n.Settled) : cat.Coincide es p p :=
  ⟨rfl, h, .inl rfl⟩

theorem agrees_ofAttempt (a : Attempt α) : cat.Agrees (ofAttempt a) (ofAttempt a) := by
  intro st
  rw [runFrom_ofAttempt]
  exact coincide_refl fun n hn => .inl hn

theorem agrees_pure (a : α) : cat.Agrees (pure a) (pure a) := agrees_ofAttempt (.ok a)

theorem agrees_note {e : Event} (h : ∀ n, e = .searched n → n.Settled) :
    cat.Agrees (note e) (note e) := by
  intro st
  refine coincide_refl fun n hn => ?_
  rcases List.mem_append.1 hn with hn | hn
  · exact .inl hn
  · exact .inr (h n (List.mem_singleton.1 hn).symm)

theorem Agrees.bind {m m' : Session α} {f f' : α → Session β} (hm : cat.Agrees m m')
    (hf : ∀ a, cat.Agrees (f a) (f' a)) : cat.Agrees (m >>= f) (m' >>= f') := by
  intro st
  have hm := hm st
  rw [runFrom_bind, runFrom_bind]
  rcases hrun : runFrom st m with ⟨a, st₁⟩
  rcases hrun' : runFrom st m' with ⟨a', st₁'⟩
  rw [hrun, hrun'] at hm
  obtain ⟨hstate, hsettled, hresult⟩ := hm
  obtain rfl : st₁' = st₁ := hstate
  rcases hresult with hend | ⟨n, x, x', hn, hne, hx, hx', hend, hend'⟩
  · obtain rfl : a' = a := hend
    cases a' with
    | ok a =>
        obtain ⟨hstate', hsettled', hresult'⟩ := hf a st₁'
        exact ⟨hstate', fun n hn => (hsettled' n hn).elim (hsettled n) .inr, hresult'⟩
    | error e => exact coincide_refl hsettled
  · -- After a clash both sessions are over.
    cases hend
    cases hend'
    exact ⟨rfl, hsettled, .inr ⟨n, x, x', hn, hne, hx, hx', rfl, rfl⟩⟩

theorem agrees_ofAttempt_bind {a : Attempt α} {f f' : α → Session β}
    (h : ∀ x, a = .ok x → cat.Agrees (f x) (f' x)) :
    cat.Agrees (ofAttempt a >>= f) (ofAttempt a >>= f') := by
  cases a with
  | ok x => exact h x rfl
  | error e => exact agrees_ofAttempt (.error e)

end Catalog

/-- Two backends are the same but for the order in which a catalog of records is searched. -/
structure Backend.Reorders (cat : Catalog) (b b' : Backend) : Prop where
  outage : b'.outage = b.outage
  search : ∀ n, n.Settled → b'.search n = b.search n ∨ ∃ x x', x ≠ x' ∧ cat.FailsWith n x ∧
    cat.FailsWith n x' ∧ b.search n = Catalog.failed x ∧ b'.search n = Catalog.failed x'
  stringProperties : b'.stringProperties = b.stringProperties
  version : b'.version = b.version

/-- The outages of a bounded service, in terms that do not show its catalog. -/
theorem Service.outage_bounded (s : Service) (limit : Option Value) (e : Endpoint) :
    (s.bounded limit).outage e =
      (limit.elim (s.failure? e) fun t => s.outageWithin t e).map fun o : Outage =>
        ⟨Backend.report e o.failure, o.noticed⟩ := by
  cases limit with
  | none => rfl
  | some t => rfl

theorem Service.outage_withCatalog (s : Service) (cat : Catalog) (limit : Option Value) :
    ({ s with catalog := cat }.bounded limit).outage = (s.bounded limit).outage := by
  funext e
  rw [outage_bounded, outage_bounded]
  rfl

theorem Service.search_bounded_eq (s : Service) (limit : Option Value) (n : NativeSearch) :
    (s.bounded limit).search n =
      match s.catalog.search n with
      | .ok rs => .ok rs
      | .error f => .error (Backend.report .search f) := by
  cases limit with
  | none => rfl
  | some t => rfl

theorem Service.reorders_bounded {s : Service} {cat : Catalog} (h : s.catalog.Reorders cat)
    (limit : Option Value) :
    (s.bounded limit).Reorders s.catalog ({ s with catalog := cat }.bounded limit) where
  outage := outage_withCatalog s cat limit
  search := by
    intro n hn
    rw [search_bounded_eq, search_bounded_eq]
    rcases h.search_cases hn with heq | ⟨x, x', hne, hx, hx', heq, heq'⟩
    · rw [heq]
      exact .inl rfl
    · rw [heq, heq']
      exact .inr ⟨x, x', hne, hx, hx',
        congrArg Except.error (Backend.report_of_ordinary hx.ordinary .search),
        congrArg Except.error (Backend.report_of_ordinary hx'.ordinary .search)⟩
  stringProperties := by
    have hreported : cat.reported = s.catalog.reported := by
      funext t
      rw [Catalog.reported, Catalog.reported, h.stringProperties]
    cases limit with
    | none => exact hreported
    | some t => exact hreported
  version := by
    cases limit with
    | none => exact h.version
    | some t => exact h.version

namespace Backend.Reorders

open Session Catalog

variable {cat : Catalog} {b b' : Backend} {n : NativeSearch} (hb : b.Reorders cat b')
include hb

theorem agrees_enter (e : Endpoint) : cat.Agrees (b.enter e) (b'.enter e) := by
  have hnote : cat.Agrees (note (.called e)) (note (.called e)) := by
    refine agrees_note ?_
    rintro _ ⟨⟩
  rw [enter, enter, hb.outage]
  cases b.outage e with
  | none => exact hnote
  | some o =>
      simp only
      split
      · exact hnote.bind fun _ => agrees_ofAttempt (.error o.failure)
      · exact agrees_ofAttempt (.error o.failure)

theorem agrees_runSearch (hn : n.Settled) : cat.Agrees (b.runSearch n) (b'.runSearch n) := by
  refine (hb.agrees_enter .search).bind fun _ st => ?_
  have hnoted (a : Attempt (List Record)) :
      runFrom st (note (.searched n) >>= fun _ => ofAttempt a) =
        (a, { st with events := st.events ++ [.searched n] }) := by
    rw [runFrom_bind]
    exact runFrom_ofAttempt _ a
  have hlogged : Event.searched n ∈ st.events ++ [.searched n] :=
    List.mem_append_right _ List.mem_cons_self
  rw [hnoted, hnoted]
  refine ⟨rfl, fun k hk => ?_, ?_⟩
  · rcases List.mem_append.1 hk with hk | hk
    · exact .inl hk
    · cases List.mem_singleton.1 hk
      exact .inr hn
  · exact (hb.search n hn).imp_right fun ⟨x, x', h⟩ => ⟨n, x, x', hlogged, h⟩

theorem agrees_askStringProperties (assetType : String) :
    cat.Agrees (b.askStringProperties assetType) (b'.askStringProperties assetType) := by
  refine (hb.agrees_enter .stringProperties).bind fun _ => ?_
  rw [hb.stringProperties]
  exact agrees_pure _

theorem agrees_askVersion : cat.Agrees b.askVersion b'.askVersion := by
  refine (hb.agrees_enter .version).bind fun _ => ?_
  rw [hb.version]
  exact agrees_pure _

theorem agrees_reportedFor (ts : List String) :
    cat.Agrees (Collection.reportedFor b ts) (Collection.reportedFor b' ts) := by
  induction ts with
  | nil => exact agrees_pure []
  | cons t ts ih =>
      exact (hb.agrees_askStringProperties t).bind fun names => ih.bind fun rest => agrees_pure _

end Backend.Reorders

namespace Scope

open Session Catalog

variable {α : Type} {cat : Catalog} {c : Scope} {b : Backend} {p : SearchPlan}
  {read : NativeSearch → Option (Record → Attempt (List α))} (hb : c.backend.Reorders cat b)
include hb

theorem agrees_collectAll {ns : List NativeSearch} (hns : ∀ n ∈ ns, n.Settled)
    (room : Option Nat) :
    cat.Agrees (c.collectAll read room ns) ((c.withBackend b).collectAll read room ns) := by
  induction ns generalizing room with
  | nil => exact agrees_pure []
  | cons n ns ih =>
      obtain ⟨hn, hns⟩ := List.forall_mem_cons.1 hns
      rw [collectAll, collectAll]
      split
      · exact agrees_pure []
      · split
        · exact ih hns room
        · refine (hb.agrees_runSearch hn).bind fun hits => ?_
          refine (agrees_ofAttempt _).bind fun xs => ?_
          exact (ih hns _).bind fun rest => agrees_pure _

theorem agrees_run (hp : ∀ n ∈ p.searches, n.Settled) :
    cat.Agrees (c.run read p) ((c.withBackend b).run read p) :=
  (agrees_collectAll hb hp (room p)).bind fun _ => agrees_pure _

theorem agrees_runEntities (hp : ∀ n ∈ p.searches, n.Settled) :
    cat.Agrees (c.runEntities p) ((c.withBackend b).runEntities p) :=
  agrees_run hb hp

theorem agrees_runRelationships (hp : ∀ n ∈ p.searches, n.Settled) :
    cat.Agrees (c.runRelationships p) ((c.withBackend b).runRelationships p) :=
  agrees_run hb hp

end Scope

/-- The operation searches for entities or relationships. -/
def Operation.isSearch {α : Type} : Operation α → Bool
  | .findEntities _ | .findByProperty _ | .findClassified .. | .findByText .. => true
  | .findRelationships _ | .findRelationshipsByText .. => true
  | _ => false

namespace Collection

open Session Catalog

variable {c : Collection} {α : Type} {cat : Catalog} {s : Service}

section Agrees

variable (h : s.catalog.Reorders cat)
include h

theorem reorders_scope :
    (c.scope s).backend.Reorders s.catalog (c.scope { s with catalog := cat }).backend :=
  Service.reorders_bounded h c.settings.timeout

theorem agrees_findEntities (q : EntitySearch) :
    s.catalog.Agrees (c.findEntities s q) (c.findEntities { s with catalog := cat } q) :=
  agrees_ofAttempt_bind fun _ hp =>
    Scope.agrees_runEntities (reorders_scope h) (Planner.planEntities_settled hp)

theorem agrees_findByText (value : String) (q : EntitySearch) :
    s.catalog.Agrees (c.findByText s value q) (c.findByText { s with catalog := cat } value q) := by
  have hb := reorders_scope (c := c) h
  refine (agrees_ofAttempt _).bind fun _ => (agrees_ofAttempt _).bind fun o => ?_
  cases o with
  | some g => exact agrees_findEntities h _
  | none =>
      refine (agrees_ofAttempt _).bind fun ms => (hb.agrees_reportedFor _).bind fun reported => ?_
      have hplanned (version : Option String) := agrees_ofAttempt_bind fun p
        (hp : c.planner.planText q value reported version none = .ok p) =>
          Scope.agrees_runEntities hb (Planner.planText_settled hp)
      cases ms.isEmpty with
      | true => exact hplanned none
      | false => exact hb.agrees_askVersion.bind fun v => hplanned (some v)

theorem agrees_findRelationships (q : RelationshipSearch) :
    s.catalog.Agrees (c.findRelationships s q) (c.findRelationships { s with catalog := cat } q) :=
  agrees_ofAttempt_bind fun _ hp =>
    Scope.agrees_runRelationships (reorders_scope h) (Planner.planRelationships_surveys hp).settled

theorem agrees_findRelationshipsByText (type : Option String) (value : String) (w : Window)
    (historical : Bool) : s.catalog.Agrees (c.findRelationshipsByText s type value w historical)
      (c.findRelationshipsByText { s with catalog := cat } type value w historical) := by
  have hb := reorders_scope (c := c) h
  refine (agrees_ofAttempt _).bind fun _ => (agrees_ofAttempt _).bind fun ts => ?_
  refine (hb.agrees_reportedFor ts).bind fun reported => ?_
  exact agrees_ofAttempt_bind fun _ hp =>
    Scope.agrees_runRelationships hb (Planner.planRelationshipText_surveys hp).settled

theorem agrees_work {o : Operation α} (ho : o.isSearch = true) :
    s.catalog.Agrees (c.work s o) (c.work { s with catalog := cat } o) := by
  cases o with
  | findEntities q => exact agrees_findEntities h q
  | findByProperty q => exact agrees_findEntities h q
  | findClassified name properties q =>
      exact (agrees_ofAttempt _).bind fun _ => agrees_findEntities h _
  | findByText value q => exact agrees_findByText h value q
  | findRelationships q => exact agrees_findRelationships h q
  | findRelationshipsByText type value w historical =>
      exact agrees_findRelationshipsByText h type value w historical
  | entity | knownEntity | relationships | neighborhood | relationship | knownRelationship
  | typeDef | coverage => cases ho

end Agrees

theorem answer_eq (c : Collection) (s : Service) (o : Operation α) : c.answer s o =
    (Outcome.ofAttempt o.name c.home (runFrom {} (c.work s o)).1,
      (runFrom {} (c.work s o)).2.events) := by
  rw [answer, run]

/-- A search answers the same whatever the order of the records in the catalog, and runs the same
native searches. If the conditions of one of them fail in different ways on two records, the answer
may tell either failure. The hits of a native search are in the lexicographic order of its keys, the
last of which is the id. -/
theorem answer_reordered (c : Collection) (s : Service) (h : s.catalog.Reorders cat)
    {o : Operation α} (ho : o.isSearch = true) :
    (c.answer { s with catalog := cat } o).2 = (c.answer s o).2 ∧
    ((c.answer { s with catalog := cat } o).1 = (c.answer s o).1 ∨
      ∃ n x x', .searched n ∈ (c.answer s o).2 ∧ x ≠ x' ∧
        s.catalog.FailsWith n x ∧ s.catalog.FailsWith n x' ∧
        (c.answer s o).1 = Outcome.ofAttempt o.name c.home (failed x) ∧
        (c.answer { s with catalog := cat } o).1 = Outcome.ofAttempt o.name c.home (failed x')) ∧
    ∀ n, .searched n ∈ (c.answer s o).2 → n.Settled ∧ ∀ rs, s.catalog.found n = .ok rs →
      s.catalog.search n =
        .ok ((page n.start n.pageSize rs).map fun r => r.project n.properties) ∧
      (SortKey.Suit n.sorts rs → rs.Pairwise (SortKey.Precede n.sorts)) := by
  have hends := agrees_work (c := c) h ho {}
  rw [answer_eq, answer_eq]
  generalize runFrom {} (c.work s o) = p at hends ⊢
  generalize runFrom {} (c.work { s with catalog := cat } o) = p' at hends ⊢
  obtain ⟨hstate, hsettled, hresult⟩ := hends
  refine ⟨congrArg SessionState.events hstate, ?_, fun n hn => ?_⟩
  · refine hresult.imp (congrArg (Outcome.ofAttempt o.name c.home)) ?_
    rintro ⟨n, x, x', hn, hne, hx, hx', hend, hend'⟩
    exact ⟨n, x, x', hn, hne, hx, hx', congrArg (Outcome.ofAttempt o.name c.home) hend,
      congrArg (Outcome.ofAttempt o.name c.home) hend'⟩
  · have hsettled : n.Settled := (hsettled n hn).resolve_left List.not_mem_nil
    refine ⟨hsettled, fun rs hrs => ⟨?_, found_ordered h.keyed hsettled hrs⟩⟩
    rw [search_eq, hrs, Attempt.map_ok]

end Collection

namespace Sample

def searchesOf (es : List Event) : List NativeSearch :=
  es.filterMap fun
    | .searched n => some n
    | _ => none

theorem mem_searchesOf {n : NativeSearch} {es : List Event} :
    n ∈ searchesOf es ↔ .searched n ∈ es := by
  rw [searchesOf, List.mem_filterMap]
  constructor
  · rintro ⟨⟨⟩, hmem, ⟨⟩⟩
    exact hmem
  · exact fun hmem => ⟨_, hmem, rfl⟩

def stored (rs : List Record) : Service := { catalog := Catalog.filled {} rs }

/-- A database with a value for the system that it runs on. -/
def databaseOn (n : String) (system : Value) : Record :=
  { ref := ⟨"database-" ++ n, "database", some n⟩, properties := [("dbms", system)] }

/-- Three databases, of which the last one does not tell its system. -/
def systems : List Record :=
  [databaseOn "1" (.text "db2"), databaseOn "2" (.text "db2"), databaseOn "3" .null]

/-- The second page of the databases, those without a system first. -/
def bySystem : Operation (List Entity) :=
  .findEntities { type := some "Database", window := ⟨1, 2, some "type", some .propertyDescending⟩ }

theorem guids_bySystem : guidsOf (collection.answer (stored systems) bySystem).1 =
    some ["e:home-1::database:database-1", "e:home-1::database:database-2"] := by
  decide +kernel

theorem found_bySystem : ∃ n ∈ searchesOf (collection.answer (stored systems) bySystem).2,
    n.sorts = [⟨"dbms", false⟩, .byId] ∧
    ((stored systems).catalog.found n).toOption.map
        (fun rs => (rs.map Record.id, decide (SortKey.Suit n.sorts rs))) =
      some (["database-3", "database-1", "database-2"], true) := by
  decide +kernel

/-- The databases are found in one order, whichever of them was stored first. -/
theorem answer_reordered_bySystem :
    (stored systems).catalog.Reorders (stored systems.reverse).catalog ∧
    collection.answer (stored systems.reverse) bySystem =
      collection.answer (stored systems) bySystem ∧
    ∃ n rs, .searched n ∈ (collection.answer (stored systems) bySystem).2 ∧
      n.sorts = [⟨"dbms", false⟩, .byId] ∧ (stored systems).catalog.found n = .ok rs ∧
      rs.map Record.id = ["database-3", "database-1", "database-2"] ∧
      rs.Pairwise (SortKey.Precede n.sorts) := by
  have horder : (stored systems).catalog.Reorders (stored systems.reverse).catalog :=
    Catalog.reorders_filled Catalog.keyed_empty (List.reverse_perm systems) (by decide)
  obtain ⟨hlog, hsame, hsearches⟩ := Collection.answer_reordered collection (stored systems) horder
    (o := bySystem) rfl
  obtain ⟨n, hn, hsorts, hfound⟩ := found_bySystem
  obtain ⟨rs, hrs, hids⟩ := Option.map_eq_some_iff.1 hfound
  obtain ⟨es, hes, _⟩ := exists_of_guidsOf guids_bySystem
  have hrs : (stored systems).catalog.found n = .ok rs := by
    cases hf : (stored systems).catalog.found n with
    | ok us =>
        rw [hf] at hrs
        exact congrArg Except.ok (Option.some.inj hrs)
    | error f =>
        rw [hf] at hrs
        cases hrs
  obtain ⟨hids, hsuit⟩ := Prod.mk.inj hids
  have hn := mem_searchesOf.1 hn
  refine ⟨horder, Prod.ext (hsame.resolve_right ?_) hlog, n, rs, hn, hsorts, hrs, hids,
    ((hsearches n hn).2 rs hrs).2 (of_decide_eq_true hsuit)⟩
  rintro ⟨_, _, _, _, _, _, _, hfailed, _⟩
  cases hes.symm.trans hfailed

/-- A database whose system is a number and whose steward is no reference. -/
def misreferenced : Record :=
  { ref := ⟨"database-2", "database", some "2"⟩,
    properties :=
      [("dbms", .int 6), ("steward", .dict [("_id", .int 1), ("_type", .text "user")])] }

/-- The databases of a steward on a system that is above a number. -/
def stewarded : Operation (List Entity) :=
  .findEntities
    { type := some "Database",
      properties := some ⟨[.leaf ⟨"type", .gt, .int 5⟩, .leaf ⟨"owner", .eq, .text "x"⟩], .all⟩ }

def textFirst : List Record := [databaseOn "1" (.text "db2"), misreferenced]

/-- The fault of the call that a refusal tells about. -/
def toldFault {α : Type} : Attempt (Outcome α) → Option Fault
  | .ok (.failure ⟨.backend _ x, _, _, _⟩) => x
  | _ => none

/-- The search tells the failure of the database that was stored first. -/
theorem fault_of_first_stored : collection.table.Accepted ∧
    (stored textFirst).catalog.Reorders (stored textFirst.reverse).catalog ∧
    stewarded.isSearch = true ∧
    (collection.answer (stored textFirst.reverse) stewarded).1 ≠
      (collection.answer (stored textFirst) stewarded).1 := by
  have hfirst : toldFault (collection.answer (stored textFirst) stewarded).1 =
      some .incomparable := by
    decide +kernel
  have hsecond : toldFault (collection.answer (stored textFirst.reverse) stewarded).1 =
      some .illFormed := by
    decide +kernel
  refine ⟨MappingTable.accepted_standard, Catalog.reorders_filled Catalog.keyed_empty
    (List.reverse_perm textFirst) (by decide), rfl, fun h => ?_⟩
  rw [h, hfirst] at hsecond
  cases hsecond

end Sample

end MetaFed
