import MetaFed.Proofs.Listing
import MetaFed.Proofs.RelationshipGuid

/-!
The identity of a link stands for its two records, without their order: two links of a mapping share
one only if they lead to and fro between two records of one kind.
-/

namespace MetaFed

/-- The entity that a record reference stands for. -/
def RecordRef.entity (a : RecordRef) (home : String) : EntityId :=
  ⟨home, a.assetType, a.recordId, a.mark⟩

namespace Link

variable {l l' : Link} {home : String} {i i' : RelationshipId} {x : Reference}

/-- The records that the identity is made of have an id and an asset type. -/
def Complete (l : Link) : Prop :=
  match l.level with
  | some x => x.type ≠ "" ∧ x.id ≠ ""
  | none => (l.one.type ≠ "" ∧ l.one.id ≠ "") ∧ l.two.type ≠ "" ∧ l.two.id ≠ ""

theorem exists_ref {type id : String} (h : type ≠ "" ∧ id ≠ "") (mark : Option String) :
    ∃ a, RecordRef.of type id mark = .ok a :=
  ⟨⟨type, id, mark.bind Guid.markOf, h.1, h.2, by cases mark <;> simp [Guid.markOf_ne]⟩,
    RecordRef.of_eq_ok.2 ⟨h, rfl, rfl, rfl⟩⟩

theorem identity_level (h : l.level = some x) : l.identity home = .ok i ↔
    ∃ a, RecordRef.of x.type x.id none = .ok a ∧
      RelationshipId.of home l.mapping.type a a true = i := by
  simp only [identity, h, Attempt.bind_eq_ok, Except.ok.injEq]

theorem identity_plain (h : l.level = none) : l.identity home = .ok i ↔
    ∃ a b, l.oneRef = .ok a ∧ l.twoRef = .ok b ∧
      RelationshipId.of home l.mapping.type a b false = i := by
  simp only [identity, h, Attempt.bind_eq_ok, Except.ok.injEq, exists_and_left]

theorem exists_identity (hl : l.Complete) (home : String) : ∃ i, l.identity home = .ok i := by
  rw [Complete] at hl
  cases h : l.level with
  | some x =>
      rw [h] at hl
      obtain ⟨a, ha⟩ := exists_ref hl none
      exact ⟨_, (identity_level h).2 ⟨a, ha, rfl⟩⟩
  | none =>
      rw [h] at hl
      obtain ⟨a, ha⟩ := exists_ref hl.1 l.mapping.one.mark
      obtain ⟨b, hb⟩ := exists_ref hl.2 l.mapping.two.mark
      exact ⟨_, (identity_plain h).2 ⟨a, b, ha, hb, rfl⟩⟩

theorem identity_data (h : l.identity home = .ok i) :
    i.home = home ∧ i.type = l.mapping.type ∧ i.level = l.level.isSome := by
  cases hl : l.level with
  | some x =>
      obtain ⟨a, _, rfl⟩ := (identity_level hl).1 h
      exact ⟨RelationshipId.home_of .., RelationshipId.type_of .., RelationshipId.level_of ..⟩
  | none =>
      obtain ⟨a, b, _, _, rfl⟩ := (identity_plain hl).1 h
      exact ⟨RelationshipId.home_of .., RelationshipId.type_of .., RelationshipId.level_of ..⟩

theorem ends_of_level (hl : l.level = some x) (h : l.identity home = .ok i) :
    ∃ a, i.ends = s(a, a) ∧ a.assetType = x.type ∧ a.recordId = x.id := by
  obtain ⟨a, ha, rfl⟩ := (identity_level hl).1 h
  obtain ⟨_, htype, hid, _⟩ := RecordRef.of_eq_ok.1 ha
  exact ⟨a, RelationshipId.ends_of .., htype, hid⟩

theorem ends_of_plain (hl : l.level = none) (h : l.identity home = .ok i) :
    ∃ a b, l.oneRef = .ok a ∧ l.twoRef = .ok b ∧ i.ends = s(a, b) := by
  obtain ⟨a, b, ha, hb, rfl⟩ := (identity_plain hl).1 h
  exact ⟨a, b, ha, hb, RelationshipId.ends_of ..⟩

theorem exists_guid (hh : home ≠ "") (htype : l.mapping.type ≠ "") (hi : l.identity home = .ok i) :
    ∃ guid, i.guid = .ok guid := by
  obtain ⟨hhome, hi_type, _⟩ := identity_data hi
  exact ⟨_, RelationshipId.guid_eq_ok.2 ⟨⟨hhome ▸ hh, hi_type ▸ htype⟩, rfl⟩⟩

section Relationship

variable {t : MappingTable} {a b : RecordRef} {m : EntityMapping} {r : Relationship}

theorem identity_eq_entity {mark : Option String} (ha : RecordRef.of x.type x.id mark = .ok a)
    (hm : t.forIdentity x.type a.mark = some m) : m.identity home x = a.entity home := by
  obtain ⟨_, htype, hid, _⟩ := RecordRef.of_eq_ok.1 ha
  obtain ⟨_, _, hmark⟩ := MappingTable.forIdentity_eq_some hm
  have hne : a.mark.filter (· ≠ "") = a.mark := by
    cases h : a.mark with
    | none => rfl
    | some p =>
        have hp : p ≠ "" := fun e => a.complete.2.2 (by rw [h, e])
        simp [hp]
  rw [EntityMapping.identity, EntityId.of, hmark, hne, Guid.bind_markOf a.complete.2.2,
    RecordRef.entity, htype, hid]

/-- A relationship carries the identity of its link, and its ends are the entities of the two
records. -/
theorem relationship?_eq_some (h : l.relationship? home t = .ok (some r)) :
    ∃ a b i, l.oneRef = .ok a ∧ l.twoRef = .ok b ∧ l.identity home = .ok i ∧
      i.guid = .ok r.guid ∧ r.type = l.mapping.type ∧
      (a.entity home).guid = .ok r.one.guid ∧ (b.entity home).guid = .ok r.two.guid := by
  obtain ⟨a, ha, h⟩ := Attempt.bind_eq_ok.1 h
  obtain ⟨b, hb, h⟩ := Attempt.bind_eq_ok.1 h
  split at h
  · rename_i m n hm hn
    simp only [Attempt.bind_eq_ok, EntityProxy.ofReference] at h
    obtain ⟨i, hi, guid, hguid, one, ⟨g₁, hg₁, hone⟩, two, ⟨g₂, hg₂, htwo⟩, h⟩ := h
    cases hone
    cases htwo
    cases h
    rw [identity_eq_entity ha hm] at hg₁
    rw [identity_eq_entity hb hn] at hg₂
    exact ⟨a, b, i, ha, hb, hi, hguid, rfl, hg₁, hg₂⟩
  · cases h

theorem guid_entity (hh : home ≠ "") (a : RecordRef) :
    (a.entity home).guid = .ok (Guid.join (a.entity home).parts) :=
  EntityId.guid_eq_ok.2 ⟨⟨hh, a.complete.1, a.complete.2.1⟩, rfl⟩

theorem exists_relationship (hh : home ≠ "") (htype : l.mapping.type ≠ "") (hl : l.Complete)
    (ha : l.oneRef = .ok a) (hb : l.twoRef = .ok b)
    (hone : (t.forIdentity l.one.type a.mark).isSome = true)
    (htwo : (t.forIdentity l.two.type b.mark).isSome = true) :
    ∃ r, l.relationship? home t = .ok (some r) := by
  obtain ⟨m, hm⟩ := Option.isSome_iff_exists.1 hone
  obtain ⟨n, hn⟩ := Option.isSome_iff_exists.1 htwo
  obtain ⟨i, hi⟩ := exists_identity hl home
  obtain ⟨guid, hguid⟩ := exists_guid hh htype hi
  simp only [relationship?, ha, hb, hm, hn, hi, hguid, EntityProxy.ofReference,
    identity_eq_entity ha hm, identity_eq_entity hb hn, guid_entity hh, Attempt.ok_bind]
  exact ⟨_, rfl⟩

end Relationship

end Link

/-- A link that a mapping yields from a record of a catalog. -/
def Catalog.Derives (cat : Catalog) (k : RelationshipMapping) (l : Link) : Prop :=
  ∃ r ∈ cat.records.values, ∃ e ls, k.links r e = .ok ls ∧ l ∈ ls

namespace RelationshipMapping

variable {k : RelationshipMapping} {r : Record} {e : Option End} {ls : List Link} {l l' : Link}
  {cat : Catalog}

/-- A link between records of the asset types of the ends, for which no record of its own stands. -/
structure Joins (k : RelationshipMapping) (l : Link) : Prop where
  mapping : l.mapping = k
  level : l.level = none
  one : l.one.type = k.one.assetType
  two : l.two.type = k.two.assetType

/-- A link is one between two records, or a record stands for it that stands for no other link. -/
theorem joins_or_levelLinks (hv : k.fault? = none) (h : k.links r e = .ok ls) (hl : l ∈ ls) :
    (k.isLevel = false ∧ k.Joins l) ∨ (k.isLevel = true ∧ k.levelLinks r = .ok [l]) := by
  have hplain (hk : k.kind ≠ .level) : k.isLevel = false := by simpa [isLevel] using hk
  rcases links_cases h hl with ⟨hk, hl⟩ | ⟨hk, hlevel⟩ | ⟨hk, ⟨us, hus, hl⟩ | ⟨us, hus, hl⟩⟩
  · obtain ⟨htype, rfl⟩ := mem_selfLinks hl
    exact .inl ⟨hplain (by simp [hk]), rfl, rfl, htype, htype.trans (ends_of_self hv hk).1⟩
  · obtain ⟨_, rfl, _⟩ := mem_levelLinks hlevel hl
    exact .inr ⟨isLevel_iff.2 hk, hlevel⟩
  · obtain ⟨htype, _, _, x, _, hx, rfl⟩ := mem_linksFromOne hus hl
    exact .inl ⟨hplain (by simp [hk]), rfl, rfl, htype, hx⟩
  · obtain ⟨htype, _, _, x, _, hx, rfl⟩ := mem_linksFromTwo hus hl
    exact .inl ⟨hplain (by simp [hk]), rfl, rfl, hx, htype⟩

/-- Links between the same records in the same parts. -/
def SameEnds (l l' : Link) : Prop :=
  l.one.id = l'.one.id ∧ l.two.id = l'.two.id

/-- Links to and fro between two records, where nothing but the direction tells the ends apart. -/
def Reverses (k : RelationshipMapping) (l l' : Link) : Prop :=
  k.isLevel = false ∧ k.one.assetType = k.two.assetType ∧ k.one.mark = k.two.mark ∧
    l'.one.id = l.two.id ∧ l'.two.id = l.one.id

instance : Decidable (SameEnds l l') := inferInstanceAs (Decidable (_ ∧ _))

instance : Decidable (k.Reverses l l') := inferInstanceAs (Decidable (_ ∧ _ ∧ _ ∧ _ ∧ _))

variable {home : String} {i i' : RelationshipId}

/-- Links between two records share an identity just where their records are the same, if need be
the other way round. -/
theorem Joins.ends_eq_iff (hone : k.one.mark ≠ some "") (htwo : k.two.mark ≠ some "")
    (h : k.Joins l) (h' : k.Joins l') (hi : l.identity home = .ok i)
    (hi' : l'.identity home = .ok i') : i.ends = i'.ends ↔ SameEnds l l' ∨
      (k.one.assetType = k.two.assetType ∧ k.one.mark = k.two.mark ∧
        l'.one.id = l.two.id ∧ l'.two.id = l.one.id) := by
  obtain ⟨a, b, ha, hb, hends⟩ := Link.ends_of_plain h.level hi
  obtain ⟨a', b', ha', hb', hends'⟩ := Link.ends_of_plain h'.level hi'
  rw [Link.oneRef, h.mapping, RecordRef.of_eq_ok_of_mark hone, h.one] at ha
  rw [Link.twoRef, h.mapping, RecordRef.of_eq_ok_of_mark htwo, h.two] at hb
  rw [Link.oneRef, h'.mapping, RecordRef.of_eq_ok_of_mark hone, h'.one] at ha'
  rw [Link.twoRef, h'.mapping, RecordRef.of_eq_ok_of_mark htwo, h'.two] at hb'
  obtain ⟨_, hat, hai, ham⟩ := ha
  obtain ⟨_, hbt, hbi, hbm⟩ := hb
  obtain ⟨_, hat', hai', ham'⟩ := ha'
  obtain ⟨_, hbt', hbi', hbm'⟩ := hb'
  -- The ends are an unordered pair: they are equal in their order, or crossed.
  rw [hends, hends', Sym2.eq_iff]
  refine or_congr ⟨?_, ?_⟩ ⟨?_, ?_⟩
  · rintro ⟨rfl, rfl⟩
    exact ⟨hai.symm.trans hai', hbi.symm.trans hbi'⟩
  · rintro ⟨h₁, h₂⟩
    exact ⟨RecordRef.ext_of_data (hat.trans hat'.symm) ((hai.trans h₁).trans hai'.symm)
      (ham.trans ham'.symm), RecordRef.ext_of_data (hbt.trans hbt'.symm)
      ((hbi.trans h₂).trans hbi'.symm) (hbm.trans hbm'.symm)⟩
  · rintro ⟨rfl, rfl⟩
    exact ⟨hat.symm.trans hbt', ham.symm.trans hbm', hai'.symm.trans hbi, hbi'.symm.trans hai⟩
  · rintro ⟨ht, hm, h₁, h₂⟩
    exact ⟨RecordRef.ext_of_data (hat.trans (ht.trans hbt'.symm))
      ((hai.trans h₂.symm).trans hbi'.symm) (ham.trans (hm.trans hbm'.symm)),
      RecordRef.ext_of_data (hbt.trans (ht.symm.trans hat'.symm))
      ((hbi.trans h₁.symm).trans hai'.symm) (hbm.trans (hm.symm.trans ham'.symm))⟩

end RelationshipMapping

namespace Catalog

variable {cat : Catalog} {k : RelationshipMapping} {l l' : Link} {home : String}
  {i i' : RelationshipId}

theorem Derives.mapping (h : cat.Derives k l) : l.mapping = k := by
  obtain ⟨_, _, _, _, hls, hl⟩ := h
  exact RelationshipMapping.mapping_of_links hls hl

theorem eq_of_levelLinks (hk : cat.Keyed) {r r' : Record} (hr : r ∈ cat.records.values)
    (hr' : r' ∈ cat.records.values) (h : k.levelLinks r = .ok [l]) (h' : k.levelLinks r' = .ok [l'])
    (hi : l.identity home = .ok i) (hi' : l'.identity home = .ok i') (he : i.ends = i'.ends) :
    l = l' := by
  obtain ⟨_, _, _, _, _, _, _, _, _, hl⟩ := RelationshipMapping.mem_levelLinks h List.mem_cons_self
  obtain ⟨_, _, _, _, _, _, _, _, _, hl'⟩ := RelationshipMapping.mem_levelLinks h' List.mem_cons_self
  obtain ⟨a, ha, _, hid⟩ := Link.ends_of_level (x := r.ref) (by rw [hl]) hi
  obtain ⟨a', ha', _, hid'⟩ := Link.ends_of_level (x := r'.ref) (by rw [hl']) hi'
  rw [ha, ha'] at he
  have haa : a = a' := (Sym2.eq_iff.1 he).elim And.left And.left
  have hrr : r = r' := hk.eq_of_id hr hr' (hid.symm.trans ((congrArg _ haa).trans hid'))
  rw [hrr] at h
  rw [h] at h'
  simpa using h'

/-- Links of a mapping that differ in an end share an identity only if they are the reverse of each
other and nothing but the direction tells their ends apart. -/
theorem Derives.identity_eq_iff (hk : cat.Keyed) (hv : k.fault? = none) (hone : k.one.mark ≠ some "")
    (htwo : k.two.mark ≠ some "") (h : cat.Derives k l) (h' : cat.Derives k l')
    (hi : l.identity home = .ok i) (hi' : l'.identity home = .ok i')
    (hne : ¬RelationshipMapping.SameEnds l l') : i = i' ↔ k.Reverses l l' := by
  obtain ⟨r, hr, e, ls, hls, hl⟩ := h
  obtain ⟨r', hr', e', ls', hls', hl'⟩ := h'
  rcases RelationshipMapping.joins_or_levelLinks hv hls hl with ⟨hp, hj⟩ | ⟨hlevel, hone'⟩
  · rcases RelationshipMapping.joins_or_levelLinks hv hls' hl' with ⟨_, hj'⟩ | ⟨hlevel, _⟩
    · obtain ⟨hh, ht, hf⟩ := Link.identity_data hi
      obtain ⟨hh', ht', hf'⟩ := Link.identity_data hi'
      rw [hj.mapping, ← hj'.mapping] at ht
      rw [hj.level, ← hj'.level] at hf
      -- Identities of one mapping differ in their ends at most, and these have no direction.
      have hends : i = i' ↔ i.ends = i'.ends :=
        ⟨congrArg _, RelationshipId.eq_of_ends_eq (hh.trans hh'.symm) (ht.trans ht'.symm)
          (hf.trans hf'.symm)⟩
      rw [hends, RelationshipMapping.Joins.ends_eq_iff hone htwo hj hj' hi hi',
        RelationshipMapping.Reverses]
      simp [hne, hp]
    · rw [hp] at hlevel
      cases hlevel
  · rcases RelationshipMapping.joins_or_levelLinks hv hls' hl' with ⟨hp, _⟩ | ⟨_, htwo'⟩
    · rw [hp] at hlevel
      cases hlevel
    · constructor
      · rintro rfl
        have hsame := eq_of_levelLinks hk hr hr' hone' htwo' hi hi' rfl
        exact absurd (hsame ▸ ⟨rfl, rfl⟩) hne
      · rintro ⟨hp, _⟩
        rw [hp] at hlevel
        cases hlevel

end Catalog

namespace Scope

variable {c : Scope} {cat : Catalog} {k : RelationshipMapping} {r : Record} {e : End}
  {ps : List String} {ls : List Link} {l : Link}

theorem derives_of_links (hkind : k.kind = .reference) (hr : r ∈ cat.records.values)
    (hw : (k.atEnd e).navigationName ∈ ps) (h : k.links (r.project ps) (some e) = .ok ls)
    (hl : l ∈ ls) : cat.Derives k l ∧ (atEnd e l).id = r.id := by
  cases e with
  | one =>
      simp only [RelationshipMapping.links, hkind] at h
      rw [RelationshipMapping.linksFromOne_project hw] at h
      obtain ⟨_, _, _, x, _, _, hlink⟩ := RelationshipMapping.mem_linksFromOne h hl
      refine ⟨⟨r, hr, some .one, ls, ?_, hl⟩, by rw [hlink]; rfl⟩
      simp only [RelationshipMapping.links, hkind]
      exact h
  | two =>
      simp only [RelationshipMapping.links, hkind] at h
      rw [RelationshipMapping.linksFromTwo_project hw] at h
      obtain ⟨_, _, _, x, _, _, hlink⟩ := RelationshipMapping.mem_linksFromTwo h hl
      refine ⟨⟨r, hr, some .two, ls, ?_, hl⟩, by rw [hlink]; rfl⟩
      simp only [RelationshipMapping.links, hkind]
      exact h

/-- The links of a record at an end are links that records of the catalog yield, with the record at
that end. -/
theorem derives_of_linkedAt (hk : cat.Keyed) (hc : c.Reads cat) (hv : k.fault? = none)
    (hr : r ∈ cat.records.values) (hw : isGiven (k.leading e) = true → (k.leading e).getD "" ∈ ps)
    (h : c.linkedAt cat k (r.project ps) e = .ok ls) (hl : l ∈ ls) :
    cat.Derives k l ∧ (atEnd e l).id = r.id := by
  rw [linkedAt] at h
  cases hkind : k.kind with
  | self =>
      simp only [hkind, RelationshipMapping.links] at h
      cases h
      obtain ⟨htype, hlink⟩ := RelationshipMapping.mem_selfLinks hl
      rw [Record.project_type] at htype
      rw [Record.project_ref] at hlink
      refine ⟨⟨r, hr, none, k.selfLinks r, by simp only [RelationshipMapping.links, hkind], ?_⟩, ?_⟩
      · rw [RelationshipMapping.selfLinks, if_pos htype, hlink]
        exact List.mem_singleton_self _
      · rw [hlink]
        cases e <;> rfl
  | level =>
      simp only [hkind] at h
      obtain ⟨refs, _, h⟩ := Attempt.bind_eq_ok.1 h
      obtain ⟨hid, x, _, r', hf, us, hus, hl⟩ := (mem_levelLinked h).1 hl
      rw [Record.project_id] at hid
      exact ⟨⟨r', (hk.find?_eq_some.1 hf).1, none, us, hus, hl⟩, hid⟩
  | reference =>
      have hleading : k.leading e = (k.atEnd e).navigation := by
        rw [RelationshipMapping.leading, if_neg (by simp [RelationshipMapping.isLevel, hkind])]
      simp only [hkind] at h
      split at h
      · rename_i hdirect
        have hgiven : isGiven (k.atEnd e).navigation = true := by
          rcases hdirect with rfl | hgiven
          · exact RelationshipMapping.given_of_reference hv hkind
          · exact hgiven
        rw [hleading] at hw
        exact derives_of_links hkind hr (hw hgiven) h hl
      · -- Without a property to follow, the links are read from the records at end one.
        rename_i hreverse
        obtain rfl : e = .two := by
          cases e with
          | one => exact absurd (.inl rfl) hreverse
          | two => rfl
        obtain ⟨hits, ha, h⟩ := Attempt.bind_eq_ok.1 h
        obtain ⟨us, hus, h⟩ := Attempt.bind_eq_ok.1 h
        cases h
        obtain ⟨hl, hid⟩ := List.mem_filter.1 hl
        rw [Record.project_id, beq_iff_eq] at hid
        obtain ⟨r', hr', vs, hvs, hl⟩ := (mem_collect hus).1 hl
        obtain ⟨r'', hr'', rfl, _⟩ := Catalog.mem_search (hc.search _ hits ha) r' hr'
        have hread : (k.atEnd .one).navigationName ∈ (reverseSearch k (r.project ps).id).properties :=
          List.mem_cons_of_mem _ List.mem_cons_self
        exact ⟨(derives_of_links hkind hr'' hread hvs hl).1, hid⟩

end Scope

namespace Collection

variable {c : Collection} {s : Service}

/-- Links of a mapping that differ in an end have different identities, but for links to and fro
between two records where nothing but the direction tells the ends apart; listing the relationships
of an entity leaves out only those of its links whose identity it has already. -/
theorem links_told_apart (ht : c.table.Accepted)
    (hv : ∀ k ∈ c.table.relationships, k.checked = .ok k) (hk : s.catalog.Keyed)
    (hh : c.home ≠ "") :
    (∀ k ∈ c.table.relationships, k.type ≠ "" → ∀ l l', s.catalog.Derives k l →
      s.catalog.Derives k l' → l.Complete → l'.Complete → ¬RelationshipMapping.SameEnds l l' →
        ∃ i i' g g', l.identity c.home = .ok i ∧ l'.identity c.home = .ok i' ∧
          i.guid = .ok g ∧ i'.guid = .ok g' ∧
          (i = i' ↔ k.Reverses l l') ∧ (g = g' ↔ k.Reverses l l')) ∧
    ∀ operation guid type w historical rs, w.start = 0 → w.pageSize = 0 →
      (c.run operation (c.relationshipPage s guid type w historical)).1 = .ok (.value rs) →
        ∃ o, c.Names s guid o ∧ ∃ ps, o.mapping.projected ⊆ ps ∧
          ∀ p ∈ (c.scope s).partsOf o.mapping o.record type, ∃ ls,
            (c.scope s).linkedAt s.catalog p.1 (o.record.project ps) p.2 = .ok ls ∧
            ∀ l ∈ ls, s.catalog.Derives p.1 l ∧ (Scope.atEnd p.2 l).id = o.record.id ∧
              ∀ x, l.relationship? c.home c.table = .ok (some x) →
                (∃ i, l.identity c.home = .ok i ∧ i.guid = .ok x.guid) ∧
                  ∃ y ∈ rs, y.guid = x.guid := by
  have hfault : ∀ k ∈ c.table.relationships, k.fault? = none := fun k hk =>
    RelationshipMapping.fault?_of_checked (hv k hk)
  constructor
  · intro k hkt htype l l' hl hl' hc hc' hne
    obtain ⟨i, hi⟩ := Link.exists_identity hc c.home
    obtain ⟨i', hi'⟩ := Link.exists_identity hc' c.home
    have hiff := hl.identity_eq_iff hk (hfault k hkt) (ht.mark_ne_of_end hkt .one)
      (ht.mark_ne_of_end hkt .two) hl' hi hi' hne
    obtain ⟨g, hg⟩ := Link.exists_guid hh (hl.mapping ▸ htype) hi
    obtain ⟨g', hg'⟩ := Link.exists_guid hh (hl'.mapping ▸ htype) hi'
    refine ⟨i, i', g, g', hi, hi', hg, hg', hiff, Iff.trans ⟨fun e => ?_, fun e => ?_⟩ hiff⟩
    · exact RelationshipId.eq_of_guid_eq (e ▸ hg) hg'
    · rw [e, hg'] at hg
      exact (Except.ok.inj hg).symm
  · intro operation guid type w historical rs h0 h1 h
    obtain ⟨hreads, o, hn, ps, xs, hps, hrel, rfl⟩ :=
      exists_of_relationshipPage hfault (run_eq_value.1 h)
    refine ⟨o, hn, ps, hps, fun p hp => ?_⟩
    obtain ⟨hmem, hplay⟩ := Scope.mem_partsOf hp
    have hkt := MappingTable.mem_relationships hn.owned.backed hmem
    rw [hn.owned.type] at hplay
    have hread (hgiven : isGiven (p.1.leading p.2) = true) : (p.1.leading p.2).getD "" ∈ ps :=
      hps (EntityMapping.mem_projected
        (ht.mark_ne (MappingTable.mem_backed.1 hn.owned.backed).1) hmem hplay hgiven)
    -- The page was read off a part of the record, so its links are taken from that part.
    rw [← Scope.partsOf_project ps] at hp
    obtain ⟨ls, hls⟩ := Scope.exists_linkedAt_of_related hrel hp
    refine ⟨ls, hls, fun l hl => ?_⟩
    obtain ⟨hderives, hid⟩ := Scope.derives_of_linkedAt hk hreads (hfault p.1 hkt)
      (hn.mem_values hk) hread hls hl
    refine ⟨hderives, hid, fun x hx => ⟨?_, ?_⟩⟩
    · obtain ⟨_, _, i, _, _, hi, hguid, _⟩ := Link.relationship?_eq_some hx
      exact ⟨i, hi, hguid⟩
    · obtain ⟨y, hy, hguid⟩ := Scope.exists_listed_of_link hrel hp hls hl hx
      refine ⟨y, ?_, hguid⟩
      rw [page, if_pos h1, h0, List.drop_zero]
      exact mem_sequenced.2 hy

end Collection

theorem MappingTable.checked_relationships : ∀ k ∈ standard.relationships, k.checked = .ok k := by
  have hf : ∀ k ∈ standard.relationships, k.fault?.isNone = true := by decide +kernel
  exact fun k hk => RelationshipMapping.checked_of_fault? (Option.isNone_iff_eq_none.1 (hf k hk))

namespace Sample

open MappingTable.Standard

def columnRef (n : String) : Reference := ⟨"column-" ++ n, "database_column", some n⟩

/-- A column that refers to some columns and is referred to by others. -/
def linkedColumn (n : String) (out back : List String) : Record :=
  { ref := columnRef n,
    properties :=
      [("defined_foreign_key_references", .list (out.map fun m => .reference (columnRef m))),
        ("defined_foreign_key_referenced_by", .list (back.map fun m => .reference (columnRef m)))] }

def columnOne : Record := linkedColumn "1" ["2", "3"] ["2"]

def columnTwo : Record := linkedColumn "2" ["1"] ["1"]

def columnThree : Record := linkedColumn "3" [] ["1"]

def columnService : Service :=
  { catalog := ((({} : Catalog).put columnOne).put columnTwo).put columnThree }

/-- The foreign key from one column to another. -/
def keyLink (m n : String) : Link :=
  { mapping := foreignKey, one := columnRef m, two := columnRef n }

theorem keyed_columnService : columnService.catalog.Keyed :=
  Catalog.keyed_put (Catalog.keyed_put (Catalog.keyed_put Catalog.keyed_empty _) _) _

theorem derives_one_two : columnService.catalog.Derives foreignKey (keyLink "1" "2") :=
  ⟨columnOne, List.mem_cons_self, some .one, [keyLink "1" "2", keyLink "1" "3"], rfl,
    List.mem_cons_self⟩

theorem derives_one_three : columnService.catalog.Derives foreignKey (keyLink "1" "3") :=
  ⟨columnOne, List.mem_cons_self, some .one, [keyLink "1" "2", keyLink "1" "3"], rfl,
    List.mem_cons_of_mem _ List.mem_cons_self⟩

theorem derives_two_one : columnService.catalog.Derives foreignKey (keyLink "2" "1") :=
  ⟨columnTwo, List.mem_cons_of_mem _ List.mem_cons_self, some .one, [keyLink "2" "1"], rfl,
    List.mem_cons_self⟩

theorem foreignKey_mem : foreignKey ∈ MappingTable.standard.relationships := by decide +kernel

def relationshipGuids : Attempt (Outcome (List Relationship)) → Option (List String)
  | .ok (.value rs) => some (rs.map Relationship.guid)
  | _ => none

theorem exists_of_relationshipGuids {a : Attempt (Outcome (List Relationship))} {guids : List String}
    (h : relationshipGuids a = some guids) :
    ∃ rs, a = .ok (.value rs) ∧ rs.map Relationship.guid = guids := by
  match a with
  | .ok (.value rs) => exact ⟨rs, rfl, Option.some.inj h⟩
  | .ok (.failure _) => cases h
  | .error _ => cases h

/-- What listing the foreign keys of a column answers. -/
def foreignKeys (guid : String) : Attempt (Outcome (List Relationship)) :=
  (collection.run "get_relationships_for_entity"
    (collection.relationshipPage columnService guid (some "ForeignKey") {} false)).1

theorem guids_foreignKeys : relationshipGuids (foreignKeys "e:home-1::database_column:column-1") =
    some ["r:home-1:ForeignKey:0::database_column:column-1::database_column:column-2",
      "r:home-1:ForeignKey:0::database_column:column-1::database_column:column-3"] := by
  decide +kernel

/-- The foreign keys from one column to another and back are one relationship, and of the three
foreign keys of the first column two are listed. -/
theorem foreignKeys_share_identity : MappingTable.standard.Accepted ∧
    foreignKey ∈ MappingTable.standard.relationships ∧ columnService.catalog.Keyed ∧
    columnService.catalog.Derives foreignKey (keyLink "1" "2") ∧
    columnService.catalog.Derives foreignKey (keyLink "2" "1") ∧
    ¬RelationshipMapping.SameEnds (keyLink "1" "2") (keyLink "2" "1") ∧
    (∃ i, (keyLink "1" "2").identity "home-1" = .ok i ∧
      (keyLink "2" "1").identity "home-1" = .ok i) ∧
    relationshipGuids (foreignKeys "e:home-1::database_column:column-1") =
      some ["r:home-1:ForeignKey:0::database_column:column-1::database_column:column-2",
        "r:home-1:ForeignKey:0::database_column:column-1::database_column:column-3"] :=
  ⟨MappingTable.accepted_standard, foreignKey_mem, keyed_columnService, derives_one_two,
    derives_two_one, by decide, ⟨_, rfl, rfl⟩, guids_foreignKeys⟩

/-- The foreign keys of one column to two others have different identifiers. -/
theorem foreignKeys_told_apart : ∃ g g' : String, g ≠ g' ∧
    (∃ i, (keyLink "1" "2").identity "home-1" = .ok i ∧ i.guid = .ok g) ∧
    (∃ i, (keyLink "1" "3").identity "home-1" = .ok i ∧ i.guid = .ok g') ∧
    ∃ rs, foreignKeys "e:home-1::database_column:column-1" = .ok (.value rs) ∧
      ∃ o, collection.Names columnService "e:home-1::database_column:column-1" o := by
  obtain ⟨hapart, hlisted⟩ := Collection.links_told_apart (c := collection) (s := columnService)
    MappingTable.accepted_standard MappingTable.checked_relationships keyed_columnService (by decide)
  obtain ⟨i, i', g, g', hi, hi', hg, hg', _, hiff⟩ := hapart foreignKey foreignKey_mem (by decide)
    _ _ derives_one_two derives_one_three ⟨by decide, by decide⟩ ⟨by decide, by decide⟩ (by decide)
  obtain ⟨rs, hrs, _⟩ := exists_of_relationshipGuids guids_foreignKeys
  obtain ⟨o, ho, _⟩ := hlisted _ _ _ {} false rs rfl rfl hrs
  exact ⟨g, g', fun e => absurd (hiff.1 e) (by decide), ⟨i, hi, hg⟩, ⟨i', hi', hg'⟩, rs, hrs, o, ho⟩

end Sample

end MetaFed
