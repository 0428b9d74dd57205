import MetaFed.Proofs.Consistent

/-!
The relationships of the links that a consistent catalog holds. Every such link has one, and its
identifier says which records are at its ends, whichever mapping the link is of.
-/

namespace MetaFed

namespace Link

variable {l : Link} {k : RelationshipMapping} {a b : Record} {level : Option Record}

theorem oneRef_of_bare (h : l.bare = k.between a b level) :
    l.oneRef = RecordRef.of a.type a.id k.one.mark := by
  have hbare : l.bare.oneRef = l.oneRef := rfl
  rw [← hbare, h]
  rfl

theorem twoRef_of_bare (h : l.bare = k.between a b level) :
    l.twoRef = RecordRef.of b.type b.id k.two.mark := by
  have hbare : l.bare.twoRef = l.twoRef := rfl
  rw [← hbare, h]
  rfl

theorem level_of_bare (h : l.bare = k.between a b level) :
    l.level.map Reference.bare = level.map (·.ref.bare) := congrArg Link.level h

theorem complete_bare : l.bare.Complete ↔ l.Complete := by
  cases l with
  | mk mapping one two level properties => cases level <;> rfl

end Link

/-- A catalog holds a link for a table. -/
def Catalog.Held (cat : Catalog) (t : MappingTable) (l : Link) : Prop :=
  ∃ k ∈ t.relationships, ∃ a b level, cat.Holds k a b level ∧ l.bare = k.between a b level

namespace Catalog.Holds

variable {cat : Catalog} {t : MappingTable} {k k' : RelationshipMapping} {a b a' b' : Record}
  {level level' : Option Record} {l l' : Link} {home : String} {x x' : Relationship}
  {i : RelationshipId}

theorem level_cases (h : cat.Holds k a b level) :
    (k.isLevel = false ∧ level = none) ∨ (k.kind = .level ∧ ∃ r ∈ cat.records.values,
      level = some r ∧ some r.type = k.levelType ∧ r.RefersTo k.one.navigationName a ∧
        r.RefersTo k.two.navigationName b) := by
  cases hk : k.kind with
  | self => exact .inl ⟨by simp [RelationshipMapping.isLevel, hk], ((stores_self hk).1 h.stored).1⟩
  | reference =>
      exact .inl ⟨by simp [RelationshipMapping.isLevel, hk], ((stores_reference hk).1 h.stored).1⟩
  | level => exact .inr ⟨rfl, (stores_level hk).1 h.stored⟩

theorem named (hl : t.Linked) (hc : cat.Consistent t) (hk : k ∈ t.relationships)
    (h : cat.Holds k a b level) : (a.type ≠ "" ∧ a.id ≠ "") ∧ b.type ≠ "" ∧ b.id ≠ "" := by
  have hends := (hl.named k hk).2
  exact ⟨⟨h.one.2 ▸ hends .one, hc.identified a h.one.1⟩, h.two.2 ▸ hends .two,
    hc.identified b h.two.1⟩

theorem complete (hl : t.Linked) (hc : cat.Consistent t) (hk : k ∈ t.relationships)
    (h : cat.Holds k a b level) (hb : l.bare = k.between a b level) : l.Complete := by
  rw [← Link.complete_bare, hb]
  rcases h.level_cases with ⟨_, rfl⟩ | ⟨hkind, r, hr, rfl, ht, _⟩
  · exact h.named hl hc hk
  · refine ⟨fun he => ?_, hc.identified r hr⟩
    have hgiven := (RelationshipMapping.given_of_level (hl.valid k hk) hkind).1
    rw [← ht, show r.type = "" from he] at hgiven
    exact absurd hgiven (by decide)

theorem exists_refs (ht : t.Accepted) (hl : t.Linked) (hc : cat.Consistent t)
    (hk : k ∈ t.relationships) (h : cat.Holds k a b level) (hb : l.bare = k.between a b level) :
    ∃ p q, l.oneRef = .ok p ∧ l.twoRef = .ok q ∧
      (p.assetType = a.type ∧ p.recordId = a.id ∧ p.mark = k.one.mark) ∧
      (q.assetType = b.type ∧ q.recordId = b.id ∧ q.mark = k.two.mark) := by
  obtain ⟨hone, htwo⟩ := h.named hl hc hk
  obtain ⟨p, hp⟩ := Link.exists_ref hone k.one.mark
  obtain ⟨q, hq⟩ := Link.exists_ref htwo k.two.mark
  exact ⟨p, q, (Link.oneRef_of_bare hb).trans hp, (Link.twoRef_of_bare hb).trans hq,
    ((RecordRef.of_eq_ok_of_mark (ht.mark_ne_of_end hk .one)).1 hp).2,
    ((RecordRef.of_eq_ok_of_mark (ht.mark_ne_of_end hk .two)).1 hq).2⟩

theorem exists_relationship (ht : t.Accepted) (hl : t.Linked) (hc : cat.Consistent t)
    (hk : k ∈ t.relationships) (hh : home ≠ "") (h : cat.Holds k a b level)
    (hb : l.bare = k.between a b level) : ∃ x, l.relationship? home t = .ok (some x) := by
  have howned (e : End) : (t.forIdentity (k.atEnd e).assetType (k.atEnd e).mark).isSome = true := by
    obtain ⟨m, hm, ha, hmark⟩ := ht.exists_owner hk e
    rw [← ha, ← hmark, ht.forIdentity_of_mem hm]
    rfl
  obtain ⟨p, q, hp, hq, ⟨_, _, hp_mark⟩, _, _, hq_mark⟩ := h.exists_refs ht hl hc hk hb
  have hone : l.one.type = k.one.assetType := (congrArg (fun l => l.one.type) hb).trans h.one.2
  have htwo : l.two.type = k.two.assetType := (congrArg (fun l => l.two.type) hb).trans h.two.2
  have hmapping : l.mapping = k := congrArg Link.mapping hb
  refine Link.exists_relationship hh ?_ (h.complete hl hc hk hb) hp hq ?_ ?_
  · rw [hmapping]
    exact (hl.named k hk).1
  · rw [hone, hp_mark]
    exact howned .one
  · rw [htwo, hq_mark]
    exact howned .two

theorem eq_of_level {r : Record} (hl : t.Linked) (hc : cat.Consistent t) (hk : k ∈ t.relationships)
    (hk' : k' ∈ t.relationships) (htype : k.type = k'.type) (h : cat.Holds k a b (some r))
    (h' : cat.Holds k' a' b' (some r)) : k = k' ∧ a = a' ∧ b = b' := by
  rcases h.level_cases with ⟨_, hnone⟩ | ⟨hkind, r₁, hr, hlevel, ht, ha, hb⟩
  · cases hnone
  rcases h'.level_cases with ⟨_, hnone⟩ | ⟨_, r₂, _, hlevel', ht', ha', hb'⟩
  · cases hnone
  cases hlevel
  cases hlevel'
  obtain rfl : k = k' := hl.unique k hk k' hk' (RelationshipMapping.isLevel_iff.2 hkind) htype
    (ht.symm.trans ht')
  -- The record points to one record at each end.
  obtain ⟨_, _, _, _, _, hone⟩ := hc.refersTo_iff hk hkind hr ht .one
  obtain ⟨_, _, _, _, _, htwo⟩ := hc.refersTo_iff hk hkind hr ht .two
  exact ⟨rfl, ((hone a h.one.1).1 ha).trans ((hone a' h'.one.1).1 ha').symm,
    ((htwo b h.two.1).1 hb).trans ((htwo b' h'.two.1).1 hb').symm⟩

section Shared

variable (hc : cat.Consistent t) (h : cat.Holds k a b level) (h' : cat.Holds k' a' b' level')
  (hb : l.bare = k.between a b level) (hb' : l'.bare = k'.between a' b' level')
  (hi : l.identity home = .ok i) (hi' : l'.identity home = .ok i)

include hb hb' hi hi' in
theorem type_eq_of_identity : k.type = k'.type := by
  have hmapping : l.mapping = k := congrArg Link.mapping hb
  have hmapping' : l'.mapping = k' := congrArg Link.mapping hb'
  rw [← hmapping, ← hmapping', ← (Link.identity_data hi).2.1, (Link.identity_data hi').2.1]

include hc h h' hb hb' hi hi' in
/-- One record stands for links that share an identity, or none does. -/
theorem level_eq_of_identity : level = level' := by
  have hlevel := Link.level_of_bare hb
  have hlevel' := Link.level_of_bare hb'
  have hflag : level.isSome = level'.isSome := by
    have hsome := congrArg Option.isSome hlevel
    have hsome' := congrArg Option.isSome hlevel'
    rw [Option.isSome_map, Option.isSome_map] at hsome hsome'
    rw [← hsome, ← hsome', ← (Link.identity_data hi).2.2, (Link.identity_data hi').2.2]
  match level, level' with
  | none, none => rfl
  | some r, some r' =>
      obtain ⟨x, hx, hr⟩ := Option.map_eq_some_iff.1 hlevel
      obtain ⟨x', hx', hr'⟩ := Option.map_eq_some_iff.1 hlevel'
      obtain ⟨p, hends, _, hid⟩ := Link.ends_of_level hx hi
      obtain ⟨p', hends', _, hid'⟩ := Link.ends_of_level hx' hi'
      have hsame : p = p' := (Sym2.eq_iff.1 (hends.symm.trans hends')).elim And.left And.left
      have hrid : x.bare.id = r.ref.bare.id := congrArg Reference.id hr
      have hrid' : x'.bare.id = r'.ref.bare.id := congrArg Reference.id hr'
      have hids : r.id = r'.id :=
        hrid.symm.trans (hid.symm.trans ((congrArg _ hsame).trans (hid'.trans hrid')))
      rcases h.level_cases with ⟨_, hnone⟩ | ⟨_, _, hr, hlevel, _⟩
      · cases hnone
      rcases h'.level_cases with ⟨_, hnone⟩ | ⟨_, _, hr', hlevel', _⟩
      · cases hnone
      cases hlevel
      cases hlevel'
      rw [hc.keyed.eq_of_id hr hr' hids]

include hc h h' hb hb' hi hi' in
theorem refs_eq_of_identity (hl : t.Linked) (hk : k ∈ t.relationships) (hk' : k' ∈ t.relationships)
    {p q p' q' : RecordRef} (hp : l.oneRef = .ok p) (hq : l.twoRef = .ok q)
    (hp' : l'.oneRef = .ok p') (hq' : l'.twoRef = .ok q') : s(p, q) = s(p', q') := by
  obtain rfl := level_eq_of_identity hc h h' hb hb' hi hi'
  cases level with
  | none =>
      have hnone : l.level = none := Option.map_eq_none_iff.1 (Link.level_of_bare hb)
      have hnone' : l'.level = none := Option.map_eq_none_iff.1 (Link.level_of_bare hb')
      obtain ⟨_, _, h₁, h₂, hends⟩ := Link.ends_of_plain hnone hi
      obtain ⟨_, _, h₁', h₂', hends'⟩ := Link.ends_of_plain hnone' hi'
      cases hp.symm.trans h₁
      cases hq.symm.trans h₂
      cases hp'.symm.trans h₁'
      cases hq'.symm.trans h₂'
      exact hends.symm.trans hends'
  | some r =>
      -- The identity names this record only, so the ends come from the record.
      obtain ⟨rfl, rfl, rfl⟩ :=
        eq_of_level hl hc hk hk' (type_eq_of_identity hb hb' hi hi') h h'
      obtain ⟨hone, htwo⟩ := Link.refs_congr (hb.trans hb'.symm)
      cases hp.symm.trans (hone.trans hp')
      cases hq.symm.trans (htwo.trans hq')
      rfl

end Shared

end Catalog.Holds

namespace Catalog.Held

variable {cat : Catalog} {t : MappingTable} {l : Link} {home : String}

theorem exists_identity (hl : t.Linked) (hc : cat.Consistent t) (h : cat.Held t l) (home : String) :
    ∃ i, l.identity home = .ok i := by
  obtain ⟨k, hk, a, b, level, hholds, hb⟩ := h
  exact Link.exists_identity (hholds.complete hl hc hk hb) home

theorem exists_relationship (ht : t.Accepted) (hl : t.Linked) (hc : cat.Consistent t) (hh : home ≠ "")
    (h : cat.Held t l) : ∃ x, l.relationship? home t = .ok (some x) := by
  obtain ⟨k, hk, a, b, level, hholds, hb⟩ := h
  exact hholds.exists_relationship ht hl hc hk hh hb

/-- Relationships with one identifier are of one type and have the same ends. -/
theorem ends_eq_of_guid_eq {l' : Link} {x x' : Relationship} (hl : t.Linked) (hc : cat.Consistent t)
    (h : cat.Held t l) (h' : cat.Held t l') (hx : l.relationship? home t = .ok (some x))
    (hx' : l'.relationship? home t = .ok (some x')) (hguid : x.guid = x'.guid) :
    x.type = x'.type ∧ s(x.one.guid, x.two.guid) = s(x'.one.guid, x'.two.guid) := by
  obtain ⟨k, hk, a, b, level, h, hb⟩ := h
  obtain ⟨k', hk', a', b', level', h', hb'⟩ := h'
  obtain ⟨p, q, i, hp, hq, hi, hg, htype, hone, htwo⟩ := Link.relationship?_eq_some hx
  obtain ⟨p', q', i', hp', hq', hi', hg', htype', hone', htwo'⟩ := Link.relationship?_eq_some hx'
  obtain rfl := RelationshipId.eq_of_guid_eq hg (hguid ▸ hg')
  refine ⟨?_, ?_⟩
  · rw [htype, htype', ← (Link.identity_data hi).2.1, (Link.identity_data hi').2.1]
  · have hrefs := Holds.refs_eq_of_identity hc h h' hb hb' hi hi' hl hk hk' hp hq hp' hq'
    rcases Sym2.eq_iff.1 hrefs with ⟨rfl, rfl⟩ | ⟨rfl, rfl⟩
    · rw [Except.ok.inj (hone.symm.trans hone'), Except.ok.inj (htwo.symm.trans htwo')]
    · rw [Except.ok.inj (hone.symm.trans htwo'), Except.ok.inj (htwo.symm.trans hone')]
      exact Sym2.eq_swap

end Catalog.Held

end MetaFed
