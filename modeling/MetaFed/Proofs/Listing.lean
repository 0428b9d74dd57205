import MetaFed.Proofs.Links

/-!
What an entity is linked to: listing its relationships answers with the relationships that the
catalog has for its record, whatever the session fetched before.
-/

namespace MetaFed

namespace Scope

open Session

variable {c : Scope} {cat : Catalog} {k : RelationshipMapping} {m : EntityMapping} {r : Record}
  {e : End} {type : Option String}

/-- The backend looks records up in the catalog, and finds what the catalog finds. -/
structure Reads (c : Scope) (cat : Catalog) : Prop where
  outage : c.backend.outage .record = none
  record : c.backend.record = cat.fetch
  search : ∀ n hits, c.backend.answer n = .ok hits → cat.search n = .ok hits

/-- The links for which the record of a reference stands; none if it does not exist. -/
def standing (cat : Catalog) (k : RelationshipMapping) (x : Reference) : Attempt (List Link) :=
  match cat.find? x.id with
  | none => .ok []
  | some r => k.links r none

/-- The links at a record of the records that stand for relationships. -/
def levelLinked (cat : Catalog) (k : RelationshipMapping) (recordId : String) (e : End) :
    List Reference → Attempt (List Link)
  | [] => .ok []
  | x :: xs => do
    let found ← standing cat k x
    let rest ← levelLinked cat k recordId e xs
    .ok (found.filter (fun l => (atEnd e l).id == recordId) ++ rest)

/-- The links of the records that a search finds to refer to a record. -/
def reverseLinked (c : Scope) (k : RelationshipMapping) (recordId : String) :
    Attempt (List Link) := do
  let hits ← c.backend.answer (reverseSearch k recordId)
  let ls ← collect (fun r => k.links r (some .one)) none hits
  .ok (ls.filter fun l => l.two.id == recordId)

/-- The links of a record at an end, without a session. -/
def linkedAt (c : Scope) (cat : Catalog) (k : RelationshipMapping) (r : Record) (e : End) :
    Attempt (List Link) :=
  match k.kind with
  | .self => k.links r none
  | .level => do levelLinked cat k r.id e (← r.references ((k.atEnd e).link.getD ""))
  | .reference =>
    if e = .one ∨ isGiven (k.atEnd e).navigation then k.links r (some e)
    else c.reverseLinked k r.id

theorem answers_levelLinks (hc : c.Reads cat) (hv : k.fault? = none) (hk : k.kind = .level)
    (recordId : String) (e : End) (refs : List Reference) :
    Answers cat (c.levelLinks k recordId e refs) (levelLinked cat k recordId e refs) := by
  induction refs with
  | nil => exact answers_pure []
  | cons x xs ih =>
      rw [levelLinks, levelLinked]
      have hrest (found : List Link) := ih.bind fun rest _ =>
        answers_pure (found.filter (fun l => (atEnd e l).id == recordId) ++ rest)
      refine Backend.answers_lookUp_bind hc.outage hc.record fun ps hps => ?_
      rw [Catalog.fetch, standing]
      cases cat.find? x.id with
      | none => exact (answers_pure []).bind fun found _ => hrest found
      | some r =>
          rw [Option.map_some]
          simp only [RelationshipMapping.links_project_level hv hk hps]
          exact (answers_ofAttempt _).bind fun found _ => hrest found

theorem answers_reverseLinks (recordId : String) :
    Answers cat (c.reverseLinks k recordId) (c.reverseLinked k recordId) := by
  refine (c.backend.answers_runSearch _).bind fun hits _ => ?_
  exact (answers_ofAttempt _).bind fun ls _ => answers_pure _

theorem answers_linksAt (hc : c.Reads cat) (hv : k.fault? = none) (r : Record) (e : End) :
    Answers cat (c.linksAt k r e) (c.linkedAt cat k r e) := by
  rw [linksAt, linkedAt]
  cases hk : k.kind with
  | self => exact answers_ofAttempt _
  | level => exact (answers_ofAttempt _).bind fun refs _ => answers_levelLinks hc hv hk r.id e refs
  | reference =>
      simp only
      split
      · exact answers_ofAttempt _
      · exact answers_reverseLinks r.id

theorem exists_levelLinked_of (h : ∀ x, ∃ us, standing cat k x = .ok us) (recordId : String)
    (e : End) (refs : List Reference) : ∃ ls, levelLinked cat k recordId e refs = .ok ls := by
  induction refs with
  | nil => exact ⟨[], rfl⟩
  | cons x refs ih =>
      obtain ⟨found, hfound⟩ := h x
      obtain ⟨rest, hrest⟩ := ih
      rw [levelLinked, hfound, hrest]
      exact ⟨_, rfl⟩

theorem mem_levelLinked {recordId : String} {refs : List Reference} {ls : List Link}
    (h : levelLinked cat k recordId e refs = .ok ls) {l : Link} :
    l ∈ ls ↔ (atEnd e l).id = recordId ∧ ∃ x ∈ refs, ∃ r, cat.find? x.id = some r ∧
      ∃ us, k.links r none = .ok us ∧ l ∈ us := by
  induction refs generalizing ls with
  | nil =>
      cases h
      simp
  | cons x xs ih =>
      rw [levelLinked] at h
      obtain ⟨us, hus, h⟩ := Attempt.bind_eq_ok.1 h
      obtain ⟨vs, hvs, h⟩ := Attempt.bind_eq_ok.1 h
      cases h
      rw [List.mem_append, ih hvs, List.mem_filter, beq_iff_eq, List.exists_mem_cons_iff]
      rw [standing] at hus
      cases hf : cat.find? x.id with
      | none =>
          rw [hf] at hus
          cases hus
          simp
      | some r =>
          rw [hf] at hus
          simp only [Option.some.injEq, exists_eq_left', hus, Except.ok.injEq]
          tauto

/-- The links of a record in all the parts it plays, without a session. -/
def linked (c : Scope) (cat : Catalog) (m : EntityMapping) (r : Record) (type : Option String) :
    Attempt (List Link) := do
  .ok (← (c.partsOf m r type).mapM fun p => c.linkedAt cat p.1 r p.2).flatten

theorem mem_partsOf {p : RelationshipMapping × End} (h : p ∈ c.partsOf m r type) :
    p.1 ∈ m.relationships ∧ (p.1.atEnd p.2).isPlayedBy r.type m.mark = true := by
  obtain ⟨k, hk, hp⟩ := List.mem_flatMap.1 h
  obtain ⟨e, he, rfl⟩ := List.mem_map.1 hp
  exact ⟨(List.mem_filter.1 hk).1, (List.mem_filter.1 he).2⟩

theorem mem_partsOf_iff : (k, e) ∈ c.partsOf m r type ↔ k ∈ m.relationships ∧
    (type.all fun t => c.table.hierarchy.isTypeOf k.type t) = true ∧
      (k.atEnd e).isPlayedBy r.type m.mark = true := by
  have hend : e ∈ [End.one, End.two] := by cases e <;> simp
  simp only [partsOf, List.mem_flatMap, List.mem_map, List.mem_filter, Prod.mk.injEq,
    RelationshipMapping.endsFor]
  constructor
  · rintro ⟨k', ⟨hk, ht⟩, e', ⟨_, he⟩, rfl, rfl⟩
    exact ⟨hk, ht, he⟩
  · rintro ⟨hk, ht, he⟩
    exact ⟨k, ⟨hk, ht⟩, e, ⟨hend, he⟩, rfl, rfl⟩

theorem partsOf_project (ps : List String) :
    c.partsOf m (r.project ps) type = c.partsOf m r type := by
  simp only [partsOf, Record.project_type]

theorem answers_linksOf (hc : c.Reads cat) (hv : ∀ k ∈ m.relationships, k.fault? = none)
    (r : Record) (type : Option String) :
    Answers cat (c.linksOf m r type) (c.linked cat m r type) := by
  rw [linksOf, linked]
  refine (Answers.mapM fun p hp => ?_).bind fun lss _ => answers_pure lss.flatten
  exact answers_linksAt hc (hv p.1 (mem_partsOf hp).1) r p.2

/-- The relationships of a record in all the parts it plays, without a session. -/
def related (c : Scope) (cat : Catalog) (m : EntityMapping) (r : Record) (type : Option String) :
    Attempt (List Relationship) := do
  let ls ← c.linked cat m r type
  .ok (distinct (← Link.relationships c.home c.table ls))

theorem answers_relationshipsOf (hc : c.Reads cat) (hv : ∀ k ∈ m.relationships, k.fault? = none)
    (r : Record) (type : Option String) :
    Answers cat (c.relationshipsOf m r type) (c.related cat m r type) :=
  (answers_linksOf hc hv r type).bind fun _ _ =>
    (answers_ofAttempt _).bind fun rs _ => answers_pure (distinct rs)

section Distinct

variable {x : Relationship} {rs : List Relationship}

theorem mem_foldl_distinct (rs seen : List Relationship)
    (h : x ∈ rs.foldl (fun seen r => if seen.any (·.guid == r.guid) then seen else seen ++ [r]) seen) :
    x ∈ seen ∨ x ∈ rs := by
  induction rs generalizing seen with
  | nil => exact .inl h
  | cons r rs ih =>
      rw [List.foldl_cons] at h
      rcases ih _ h with h | h
      · split at h
        · exact .inl h
        · rcases List.mem_append.1 h with h | h
          · exact .inl h
          · exact .inr (List.mem_cons.2 (.inl (List.mem_singleton.1 h)))
      · exact .inr (List.mem_cons_of_mem r h)

theorem mem_of_mem_distinct (h : x ∈ distinct rs) : x ∈ rs :=
  (mem_foldl_distinct rs [] h).resolve_left List.not_mem_nil

theorem exists_foldl_distinct (rs seen : List Relationship) (h : x ∈ rs ∨ ∃ y ∈ seen, y.guid = x.guid) :
    ∃ y ∈ rs.foldl (fun seen r => if seen.any (·.guid == r.guid) then seen else seen ++ [r]) seen,
      y.guid = x.guid := by
  induction rs generalizing seen with
  | nil => exact h.resolve_left List.not_mem_nil
  | cons r rs ih =>
      rw [List.foldl_cons]
      refine ih _ ?_
      rcases h with h | ⟨y, hy, hg⟩
      · rcases List.mem_cons.1 h with rfl | h
        · right
          split
          · rename_i hany
            obtain ⟨y, hy, hg⟩ := List.any_eq_true.1 hany
            exact ⟨y, hy, beq_iff_eq.1 hg⟩
          · exact ⟨x, List.mem_append_right _ List.mem_cons_self, rfl⟩
        · exact .inl h
      · right
        split
        · exact ⟨y, hy, hg⟩
        · exact ⟨y, List.mem_append_left _ hy, hg⟩

theorem exists_mem_distinct (h : x ∈ rs) : ∃ y ∈ distinct rs, y.guid = x.guid :=
  exists_foldl_distinct rs [] (.inl h)

end Distinct

theorem mem_relationships {home : String} {t : MappingTable} {ls : List Link}
    {rs : List Relationship} (h : Link.relationships home t ls = .ok rs) {x : Relationship} :
    x ∈ rs ↔ ∃ l ∈ ls, l.relationship? home t = .ok (some x) := by
  obtain ⟨os, hos, h⟩ := Attempt.bind_eq_ok.1 h
  cases h
  rw [Attempt.mapM_eq_ok] at hos
  clear h
  induction hos with
  | nil => simp
  | @cons l o ls os ho _ ih =>
      rw [List.filterMap_cons, List.exists_mem_cons_iff, ho, ← ih, Except.ok.injEq]
      cases o with
      | none => simp
      | some y => simp [eq_comm]

theorem mem_linked {ls : List Link} (h : c.linked cat m r type = .ok ls) {l : Link} :
    l ∈ ls ↔ ∃ p ∈ c.partsOf m r type, ∃ us, c.linkedAt cat p.1 r p.2 = .ok us ∧ l ∈ us := by
  obtain ⟨lss, hlss, h⟩ := Attempt.bind_eq_ok.1 h
  cases h
  exact Attempt.mem_flatten_mapM hlss

theorem related_eq_ok {rs : List Relationship} : c.related cat m r type = .ok rs ↔
    ∃ ls xs, c.linked cat m r type = .ok ls ∧ Link.relationships c.home c.table ls = .ok xs ∧
      rs = distinct xs := by
  simp only [related, Attempt.bind_eq_ok, Except.ok.injEq, eq_comm (b := rs), exists_and_left]

theorem exists_linkedAt_of_related {rs : List Relationship} (h : c.related cat m r type = .ok rs)
    {p : RelationshipMapping × End} (hp : p ∈ c.partsOf m r type) :
    ∃ ls, c.linkedAt cat p.1 r p.2 = .ok ls := by
  obtain ⟨ls, _, hls, _⟩ := related_eq_ok.1 h
  obtain ⟨lss, hlss, _⟩ := Attempt.bind_eq_ok.1 hls
  obtain ⟨us, _, hus⟩ := Attempt.exists_of_mapM hlss hp
  exact ⟨us, hus⟩

/-- Every relationship of a link of the record is listed, under its identifier. -/
theorem exists_listed_of_link {rs : List Relationship} (h : c.related cat m r type = .ok rs)
    {p : RelationshipMapping × End} (hp : p ∈ c.partsOf m r type) {us : List Link}
    (hus : c.linkedAt cat p.1 r p.2 = .ok us) {l : Link} (hl : l ∈ us) {x : Relationship}
    (hrel : l.relationship? c.home c.table = .ok (some x)) : ∃ y ∈ rs, y.guid = x.guid := by
  obtain ⟨ls, xs, hls, hxs, rfl⟩ := related_eq_ok.1 h
  exact exists_mem_distinct ((mem_relationships hxs).2
    ⟨l, (mem_linked hls).2 ⟨p, hp, us, hus, hl⟩, hrel⟩)

end Scope

theorem MappingTable.mem_relationships {t : MappingTable} {m : EntityMapping}
    (hm : m ∈ backed t.mappings) {k : RelationshipMapping} (hk : k ∈ m.relationships) :
    k ∈ t.relationships := by
  rw [relationships, relationshipsOf, mem_firsts]
  exact List.mem_flatMap.2 ⟨m, hm, hk⟩

theorem MappingTable.Accepted.has_type {t : MappingTable} (ht : t.Accepted)
    {k : RelationshipMapping} (hk : k ∈ t.relationships) : t.hierarchy.has k.type = true := by
  rw [relationships, relationshipsOf, mem_firsts] at hk
  obtain ⟨m, hm, hk⟩ := List.mem_flatMap.1 hk
  obtain ⟨before, hf⟩ := exists_mappingFault? ht.mappingsFault?_eq_none (mem_backed.1 hm).1
  exact has_of_mappingFault? hf hk

theorem MappingTable.Accepted.isTypeOf_self {t : MappingTable} (ht : t.Accepted)
    {k : RelationshipMapping} (hk : k ∈ t.relationships) :
    t.hierarchy.isTypeOf k.type k.type = true := by
  rw [Hierarchy.isTypeOf, if_pos rfl]
  exact ht.has_type hk

/-- The mappings between two asset types that have no records of their own. -/
theorem MappingTable.mem_plain_between {t : MappingTable} {k : RelationshipMapping}
    {type a b : String} : k ∈ (t.relationshipsBetween type a b).filter (fun m => !m.isLevel) ↔
      k ∈ t.relationships ∧ k.isLevel = false ∧ k.type = type ∧ k.connects a b = true := by
  rw [List.mem_filter, relationshipsBetween, List.mem_filter, Bool.and_eq_true, beq_iff_eq,
    Bool.not_eq_true']
  tauto

/-- The property that a record at an end is followed through. -/
def RelationshipMapping.leading (k : RelationshipMapping) (e : End) : Option String :=
  if k.isLevel then (k.atEnd e).link else (k.atEnd e).navigation

theorem EntityMapping.mem_projected {m : EntityMapping} (hm : m.mark ≠ some "")
    {k : RelationshipMapping} (hk : k ∈ m.relationships) {e : End}
    (hplay : (k.atEnd e).isPlayedBy m.assetType m.mark = true)
    (hgiven : isGiven (k.leading e) = true) : (k.leading e).getD "" ∈ m.projected := by
  rw [EndMapping.isPlayedBy, filter_mark hm, Bool.and_eq_true, beq_iff_eq, beq_iff_eq] at hplay
  rw [isGiven, Option.any_eq_true] at hgiven
  obtain ⟨p, hp, hne⟩ := hgiven
  have hend : p ∈ m.endProperty k (k.atEnd e) := by
    rw [RelationshipMapping.leading] at hp
    rw [endProperty, if_neg (by simp [hplay]), hp]
    simpa using hne
  rw [projected, mem_firsts, hp]
  refine List.mem_append_right _ (List.mem_flatMap.2 ⟨k, hk, ?_⟩)
  cases e with
  | one => exact List.mem_append_left _ hend
  | two => exact List.mem_append_right _ hend

namespace Collection

open Session

variable {α : Type} {c : Collection} {s : Service} {guid : String} {m : EntityMapping}
  {r : Record} {a : α}

theorem reads_scope (h : (c.scope s).backend.outage .record = none) :
    (c.scope s).Reads s.catalog :=
  ⟨h, funext fun id => funext fun wanted => Service.record_bounded id wanted,
    fun _ _ ha => (Service.answer_bounded.1 ha).2⟩

theorem mem_of_owner {id : EntityId} (h : c.owner guid id = .ok m) :
    m ∈ MappingTable.backed c.table.mappings ∧ m.assetType = id.assetType := by
  rw [owner] at h
  split at h
  · cases h
  · simp only [MappingTable.require] at h
    split at h
    · rename_i n hn
      cases h
      obtain ⟨hm, ha, _⟩ := MappingTable.forIdentity_eq_some hn
      exact ⟨hm, ha⟩
    · cases h

/-- An identifier is that of the entity of a record of the catalog under a mapping. -/
def Names (c : Collection) (s : Service) (guid : String) (o : Origin) : Prop :=
  ∃ id, c.decodeEntity guid = .ok id ∧ c.owner guid id = .ok o.mapping ∧
    s.catalog.find? id.recordId = some o.record ∧ o.record.type = id.assetType

theorem Names.owned {o : Origin} (h : c.Names s guid o) : o.Owned c.table := by
  obtain ⟨id, _, howner, _, htype⟩ := h
  obtain ⟨hm, ha⟩ := mem_of_owner howner
  exact ⟨hm, htype.trans ha.symm⟩

theorem Names.mem_values (hk : s.catalog.Keyed) {o : Origin} (h : c.Names s guid o) :
    o.record ∈ s.catalog.records.values := by
  obtain ⟨id, _, _, hfind, _⟩ := h
  exact (hk.find?_eq_some.1 hfind).1

theorem names_of_identity (ht : c.table.Accepted)
    (hd : ∀ m ∈ c.table.mappings, m.assetType ≠ c.settings.defaultAssetType)
    (hk : s.catalog.Keyed) {o : Origin} (ho : o.Owned c.table)
    (hr : o.record ∈ s.catalog.records.values)
    (hg : (o.mapping.identity c.home o.record.ref).guid = .ok guid) : c.Names s guid o := by
  have hmark := ht.mark_ne (MappingTable.mem_backed.1 ho.backed).1
  rw [Origin.identity_eq hmark] at hg
  refine ⟨⟨c.home, o.record.type, o.record.id, o.mapping.mark⟩, ?_,
    owner_eq ht hd ho.backed ho.type rfl, hk.find?_eq_some.2 ⟨hr, rfl⟩, rfl⟩
  rw [decodeEntity, EntityId.decode_guid hmark hg (some c.home) (by simp)]
  rfl

theorem exists_of_entityRecord {st : SessionState} {p : EntityMapping × Record}
    (h : runFrom {} (c.entityRecord s guid) = (.ok p, st)) :
    (c.scope s).Reads s.catalog ∧ st.Faithful s.catalog ∧ ∃ o, c.Names s guid o ∧
      ∃ ps, o.mapping.projected ⊆ ps ∧ p = (o.mapping, o.record.project ps) := by
  rw [entityRecord] at h
  obtain ⟨id, hid, h⟩ := runFrom_ofAttempt_bind_eq_ok.1 h
  obtain ⟨m, hm, h⟩ := runFrom_ofAttempt_bind_eq_ok.1 h
  have hout : (c.scope s).backend.outage .record = none := by
    obtain ⟨found, s₁, hlook, _⟩ := runFrom_bind_eq_ok.1 (congrArg Prod.fst h)
    exact Backend.outage_eq_none_of_lookUp rfl (congrArg Prod.fst hlook)
  have hreads := reads_scope hout
  obtain ⟨ps, s₁, hps, hs₁, hlook⟩ := Backend.exists_runFrom_lookUp hreads.outage hreads.record
    (SessionState.faithful_empty _) id.recordId m.projected
  rw [runFrom_bind_ok hlook] at h
  cases hf : s.catalog.find? id.recordId with
  | none =>
      rw [Catalog.fetch, hf] at h
      cases h
  | some r =>
      rw [Catalog.fetch, hf, Option.map_some] at h
      simp only [Record.project_type] at h
      split at h
      · rename_i ht
        cases h
        exact ⟨hreads, hs₁, ⟨m, r⟩, ⟨id, hid, hm, hf, ht⟩, ps, hps, rfl⟩
      · cases h

theorem exists_runFrom_entityRecord (hreads : (c.scope s).Reads s.catalog) {o : Origin}
    (hn : c.Names s guid o) : ∃ ps st, o.mapping.projected ⊆ ps ∧ st.Faithful s.catalog ∧
      runFrom {} (c.entityRecord s guid) = (.ok (o.mapping, o.record.project ps), st) := by
  obtain ⟨id, hid, howner, hfind, htype⟩ := hn
  obtain ⟨ps, st, hps, hst, hlook⟩ := Backend.exists_runFrom_lookUp hreads.outage hreads.record
    (SessionState.faithful_empty _) id.recordId o.mapping.projected
  refine ⟨ps, st, hps, hst, ?_⟩
  rw [entityRecord, hid, runFrom_bind_ok (runFrom_ofAttempt {} _), howner,
    runFrom_bind_ok (runFrom_ofAttempt {} _), runFrom_bind_ok hlook, Catalog.fetch, hfind]
  simp [htype]

theorem mem_sequenced {w : Window} {rs : List Relationship} {x : Relationship} :
    x ∈ sequenced w rs ↔ x ∈ rs := by
  rw [sequenced]
  split
  · exact mem_sortBy
  · exact Iff.rfl
  · exact mem_sortBy
  · exact mem_sortBy

theorem runFrom_relationshipsOf_eq_ok {σ : Type} [Provider σ] {s : σ} {st st' : SessionState}
    {type : Option String} {xs : List Relationship} : runFrom st (c.relationshipsOf s guid type) = (.ok xs, st') ↔
      (type.isSome = true → ∃ ks, c.table.relationshipsFor type = .ok ks) ∧
        runFrom st (c.entityRecord s guid >>= fun p =>
          (c.scope s).relationshipsOf p.1 p.2 type) = (.ok xs, st') := by
  cases type with
  | none =>
      simp only [relationshipsOf, Option.isSome_none, Bool.false_eq_true, if_false,
        false_imp_iff, true_and]
  | some t =>
      simp only [relationshipsOf, Option.isSome_some, if_true, runFrom_ofAttempt_bind_eq_ok,
        true_imp_iff, exists_and_right]

/-- A page of the relationships of an entity is one of those of its record. -/
theorem exists_of_relationshipPage (hv : ∀ k ∈ c.table.relationships, k.fault? = none)
    {type : Option String} {w : Window} {historical : Bool} {rs : List Relationship}
    (h : (runFrom {} (c.relationshipPage s guid type w historical)).1 = .ok rs) :
    (c.scope s).Reads s.catalog ∧ ∃ o, c.Names s guid o ∧
      ∃ ps xs, o.mapping.projected ⊆ ps ∧
        (c.scope s).related s.catalog o.mapping (o.record.project ps) type = .ok xs ∧
        rs = page w.start w.pageSize (sequenced w xs) := by
  rw [relationshipPage, checkPresent] at h
  obtain ⟨_, s₀, hpresent, h⟩ := runFrom_bind_eq_ok.1 h
  rw [runFrom_ofAttempt] at hpresent
  obtain rfl := congrArg Prod.snd hpresent
  obtain ⟨xs, s₁, hlist, h⟩ := runFrom_bind_eq_ok.1 h
  cases h
  obtain ⟨_, hrun⟩ := runFrom_relationshipsOf_eq_ok.1 hlist
  obtain ⟨p, s₂, hentity, hrun⟩ := runFrom_bind_eq_ok.1 (congrArg Prod.fst hrun)
  obtain ⟨hreads, hs₂, o, hn, ps, hps, rfl⟩ := exists_of_entityRecord hentity
  have hvalid : ∀ k ∈ o.mapping.relationships, k.fault? = none := fun k hk =>
    hv k (MappingTable.mem_relationships hn.owned.backed hk)
  obtain ⟨_, _, hanswer⟩ := Scope.answers_relationshipsOf hreads hvalid (o.record.project ps) type
    s₂ hs₂
  rw [hanswer] at hrun
  exact ⟨hreads, o, hn, ps, xs, hps, hrun, rfl⟩

theorem runFrom_relationshipPage (hreads : (c.scope s).Reads s.catalog)
    (hv : ∀ k ∈ c.table.relationships, k.fault? = none) {type : Option String}
    (htype : type.isSome = true → ∃ ks, c.table.relationshipsFor type = .ok ks)
    {o : Origin} (hn : c.Names s guid o) {xs : List Relationship}
    (hrel : ∀ ps, o.mapping.projected ⊆ ps →
      (c.scope s).related s.catalog o.mapping (o.record.project ps) type = .ok xs) (w : Window) :
    (runFrom {} (c.relationshipPage s guid type w false)).1 =
      .ok (page w.start w.pageSize (sequenced w xs)) := by
  have hvalid : ∀ k ∈ o.mapping.relationships, k.fault? = none := fun k hk =>
    hv k (MappingTable.mem_relationships hn.owned.backed hk)
  obtain ⟨ps, s₁, hps, hs₁, hentity⟩ := exists_runFrom_entityRecord hreads hn
  obtain ⟨s₂, _, hanswer⟩ := Scope.answers_relationshipsOf hreads hvalid (o.record.project ps) type
    s₁ hs₁
  rw [hrel ps hps] at hanswer
  have hlist : runFrom {} (c.relationshipsOf s guid type) = (.ok xs, s₂) := by
    refine runFrom_relationshipsOf_eq_ok.2 ⟨htype, ?_⟩
    rw [runFrom_bind_ok hentity]
    exact hanswer
  have hpresent : runFrom {} (checkPresent false) = (.ok (), {}) := rfl
  rw [relationshipPage, runFrom_bind_ok hpresent, runFrom_bind_ok hlist]
  rfl

end Collection

end MetaFed
