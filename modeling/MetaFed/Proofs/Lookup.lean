import MetaFed.Collection.Lookup
import MetaFed.Proofs.Find
import MetaFed.Proofs.Firsts
import MetaFed.Proofs.Guid

/-!
Entities that a search finds are the ones that their identifiers stand for.
-/

namespace MetaFed

theorem pairwise_of_forall₂ {α β : Type} {R : α → β → Prop} {P : α → α → Prop} {Q : β → β → Prop}
    {xs : List α} {ys : List β} (h : List.Forall₂ R xs ys) (hp : xs.Pairwise P)
    (hq : ∀ a ∈ xs, ∀ b ∈ xs, P a b → ∀ x y, R a x → R b y → Q x y) : ys.Pairwise Q := by
  induction h with
  | nil => exact .nil
  | @cons a x xs ys hx hxs ih =>
      obtain ⟨ha, hp⟩ := List.pairwise_cons.1 hp
      refine List.pairwise_cons.2 ⟨fun y hy => ?_, ih hp fun b hb c hc =>
        hq b (List.mem_cons_of_mem a hb) c (List.mem_cons_of_mem a hc)⟩
      obtain ⟨b, hb, hr⟩ := exists_left_of_mem hxs hy
      exact hq a List.mem_cons_self b (List.mem_cons_of_mem a hb) (ha b hb) x y hx hr

namespace Service

variable {s : Service} {limit : Option Value}

theorem outage_eq_none (hf : s.failures = []) {e : Endpoint} (e' : Endpoint)
    (h : (s.bounded limit).outage e = none) : (s.bounded limit).outage e' = none := by
  have hno (e : Endpoint) : s.failure? e = none := by rw [failure?, hf]; rfl
  cases limit with
  | none => simp [bounded, backend, Backend.reporting, hno]
  | some t =>
      simp only [bounded, Backend.reporting, Option.map_eq_none_iff, outageWithin] at h ⊢
      split at h
      · cases h
      rename_i hpositive
      split at h
      · cases h
      rename_i hfast
      rw [if_neg hpositive, if_neg hfast]
      exact hno e'

theorem record_bounded (id : String) (wanted : List String) :
    (s.bounded limit).record id wanted = s.catalog.fetch id wanted := by
  cases limit <;> rfl

end Service

namespace Backend

open Session

variable {b : Backend}

theorem runFrom_fetch (h : b.outage .record = none) (s : SessionState) (id : String)
    (properties : List String) :
    ∃ s', runFrom s (b.fetch id properties) = (.ok (b.record id properties), s') := by
  rw [fetch, enter, h]
  exact ⟨_, rfl⟩

theorem runFrom_lookUp (h : b.outage .record = none) (id : String) (properties : List String) :
    ∃ s, runFrom {} (b.lookUp id properties) = (.ok (b.record id (firsts properties)), s) := by
  rw [lookUp, runFrom_bind_ok (show runFrom {} get = (.ok {}, {}) from rfl)]
  change ∃ s, runFrom {} (updateCache ObjectCache.miss >>= fun _ =>
    b.fetch id (firsts properties) >>= fun r =>
      updateCache (fun c => c.keep id ⟨r, firsts properties⟩) >>= fun _ => pure r) = _
  obtain ⟨s, hs⟩ := runFrom_fetch h { cache := ObjectCache.miss {} } id (firsts properties)
  rw [runFrom_bind_ok (show runFrom {} (updateCache ObjectCache.miss) =
    (.ok (), { cache := ObjectCache.miss {} }) from rfl), runFrom_bind_ok hs]
  exact ⟨_, rfl⟩

end Backend

namespace Origin

variable {t : MappingTable} {home : String} {a b : Origin} {x y : Entity}

structure Owned (t : MappingTable) (o : Origin) : Prop where
  backed : o.mapping ∈ MappingTable.backed t.mappings
  type : o.record.type = o.mapping.assetType

theorem identity_eq {m : EntityMapping} (hm : m.mark ≠ some "") (r : Reference) :
    m.identity home r = ⟨home, r.type, r.id, m.mark⟩ := by
  rw [EntityMapping.identity, EntityId.of, Guid.bind_markOf hm]

theorem guid_ne (ht : t.Accepted) (ha : a.Owned t) (hb : b.Owned t) (hab : a.Apart b)
    (hx : a.Makes home x) (hy : b.Makes home y) : x.guid ≠ y.guid := by
  intro e
  have hgx := Entity.guid_of_ofRecord hx
  have hgy := Entity.guid_of_ofRecord hy
  have hma := ht.mark_ne (MappingTable.mem_backed.1 ha.backed).1
  have hmb := ht.mark_ne (MappingTable.mem_backed.1 hb.backed).1
  rw [identity_eq hma] at hgx
  rw [identity_eq hmb, ← e] at hgy
  have hid := EntityId.eq_of_guid_eq hma hmb hgx hgy
  rw [EntityId.mk.injEq] at hid
  obtain ⟨_, htype, hrecord, hmark⟩ := hid
  have hasset : a.mapping.assetType = b.mapping.assetType :=
    ha.type.symm.trans (htype.trans hb.type)
  have hm := ht.eq_of_identity ha.backed hb.backed hasset hmark
  exact hab (by rw [hm]) hrecord

end Origin

namespace Collection

open Session

variable {c : Collection} {s : Service} {guid : String} {id : EntityId} {m : EntityMapping}

theorem owner_eq (ht : c.table.Accepted)
    (hd : ∀ m ∈ c.table.mappings, m.assetType ≠ c.settings.defaultAssetType)
    (hm : m ∈ MappingTable.backed c.table.mappings) (ha : id.assetType = m.assetType)
    (hk : id.mark = m.mark) : c.owner guid id = .ok m := by
  have hne := hd m (MappingTable.mem_backed.1 hm).1
  simp only [owner, MappingTable.require, ha, if_neg hne, hk, ht.forIdentity_of_mem hm]

/-- Looking up the identifier of an entity that is made of a record of the catalog gives that
entity. -/
theorem runFrom_entity (ht : c.table.Accepted)
    (hd : ∀ m ∈ c.table.mappings, m.assetType ≠ c.settings.defaultAssetType)
    (hk : s.catalog.Keyed) (ho : (c.scope s).backend.outage .record = none)
    (hm : m ∈ MappingTable.backed c.table.mappings) {r : Record} (hr : r ∈ s.catalog.records.values)
    (htype : r.type = m.assetType) {e : Entity}
    (he : Entity.ofRecord c.home m (r.project m.projected) = .ok e) :
    ∃ s', runFrom {} (c.entity s e.guid) = (.ok e, s') := by
  have hmark := ht.mark_ne (MappingTable.mem_backed.1 hm).1
  have hg := Entity.guid_of_ofRecord he
  rw [Origin.identity_eq hmark, Record.project_ref] at hg
  have hdecode : c.decodeEntity e.guid = .ok ⟨c.home, r.type, r.id, m.mark⟩ := by
    rw [decodeEntity, EntityId.decode_guid hmark hg (some c.home) (by simp)]
    rfl
  have howner : c.owner e.guid ⟨c.home, r.type, r.id, m.mark⟩ = .ok m :=
    owner_eq ht hd hm htype rfl
  have hrecord : (c.scope s).backend.record r.id (firsts m.projected) =
      some (r.project m.projected) := by
    rw [show firsts m.projected = m.projected from firsts_firsts _]
    exact (Service.record_bounded r.id m.projected).trans (hk.fetch_eq hr m.projected)
  obtain ⟨s', hlook⟩ := Backend.runFrom_lookUp ho r.id m.projected
  rw [hrecord] at hlook
  have hown : runFrom {} (c.entityRecord s e.guid) = (.ok (m, r.project m.projected), s') := by
    rw [entityRecord, hdecode, runFrom_bind_ok (runFrom_ofAttempt {} _), howner,
      runFrom_bind_ok (runFrom_ofAttempt {} _), runFrom_bind_ok hlook]
    simp
  rw [entity, runFrom_bind_ok hown]
  simp only [Entity.ofRecord?_eq_some.2 he]
  exact ⟨s', rfl⟩

theorem exists_record_of_isHit {ns : List NativeSearch} {o : Origin}
    (h : (c.scope s).IsHit ns o) : (c.scope s).backend.outage .search = none ∧
      ∃ r ∈ s.catalog.records.values, r.type = o.mapping.assetType ∧
        o.record = r.project o.mapping.projected := by
  obtain ⟨n, _, hfor, hits, ha, ho⟩ := h
  obtain ⟨hout, hsearch⟩ := Service.answer_bounded.1 ha
  obtain ⟨r, hr, hproject, htype⟩ := Catalog.mem_search hsearch o.record ho
  rw [hfor.types, List.mem_singleton] at htype
  exact ⟨hout, r, hr, htype, hfor.properties ▸ hproject⟩

theorem nodup_answer (hk : s.catalog.Keyed) {n : NativeSearch} {hits : List Record}
    (h : (c.scope s).backend.answer n = .ok hits) : (hits.map Record.id).Nodup :=
  Catalog.nodup_search hk (Service.answer_bounded.1 h).2

/-- Searching and looking up agree: the entities a search finds have different identifiers, and each
is what looking up its identifier gives. -/
theorem entity_of_found (c : Collection) (s : Service) (ht : c.table.Accepted)
    (hd : ∀ m ∈ c.table.mappings, m.assetType ≠ c.settings.defaultAssetType)
    (hk : s.catalog.Keyed) (hf : s.failures = []) (search lookUp : String)
    {work : Session (List Entity)} (hw : c.FindsEntities s work) {found : List Entity}
    (h : (c.run search work).1 = .ok (.value found)) :
    (found.map Entity.guid).Nodup ∧
      ∀ e ∈ found, (c.run lookUp (c.entity s e.guid)).1 = .ok (.value e) := by
  obtain ⟨p, ⟨ms, hfor, hdistinct, hbacked⟩, hwindow⟩ := hw.sound ht (run_eq_value.1 h)
  obtain ⟨xs, hx, hpage⟩ := Attempt.bind_eq_ok.1 hwindow
  cases hpage
  obtain ⟨os, hmade, hhit, hapart⟩ := Scope.gather_made hfor hx
  have hsub := Catalog.page_sublist p.skip p.pageSize xs
  have howned : ∀ o ∈ os, o.Owned c.table := by
    intro o ho
    obtain ⟨_, r, _, htype, hr⟩ := exists_record_of_isHit (hhit o ho).2
    exact ⟨hbacked o.mapping (hhit o ho).1, by rw [hr, Record.project_type, htype]⟩
  constructor
  · refine (hsub.map Entity.guid).nodup (List.pairwise_map.2 ?_)
    refine pairwise_of_forall₂ hmade (hapart hdistinct fun n _ hits => nodup_answer hk) ?_
    intro a ha b hb hab x y hx hy
    exact Origin.guid_ne ht (howned a ha) (howned b hb) hab hx hy
  · intro e he
    obtain ⟨o, ho, hmakes⟩ := exists_left_of_mem hmade (hsub.subset he)
    obtain ⟨hout, r, hr, htype, hproject⟩ := exists_record_of_isHit (hhit o ho).2
    rw [Origin.Makes, hproject] at hmakes
    obtain ⟨s', hrun⟩ := runFrom_entity ht hd hk (Service.outage_eq_none hf .record hout)
      (howned o ho).backed hr htype hmakes
    rw [run_eq_value, hrun]

end Collection

namespace Sample

theorem keyed_assetService : assetService.catalog.Keyed :=
  Catalog.keyed_put (Catalog.keyed_put (Catalog.keyed_put Catalog.keyed_empty _) _) _

theorem guids_assetRequest :
    guidsOf (collection.run "find_entities" (collection.findEntities assetService assetRequest)).1 =
      some ["e:home-1::host:host-2", "e:home-1::database:database-1"] := by
  decide +kernel

theorem entity_of_found_assets : ∃ found : List Entity,
    found.map Entity.guid = ["e:home-1::host:host-2", "e:home-1::database:database-1"] ∧
      ∀ e ∈ found,
        (collection.run "get_entity_detail" (collection.entity assetService e.guid)).1 =
          .ok (.value e) := by
  obtain ⟨found, hf, hg⟩ := exists_of_guidsOf guids_assetRequest
  have h := Collection.entity_of_found collection assetService MappingTable.accepted_standard
    (by decide +kernel) keyed_assetService rfl "find_entities" "get_entity_detail"
    (.byCondition assetRequest) hf
  exact ⟨found, hg, h.2⟩

end Sample

end MetaFed
