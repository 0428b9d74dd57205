import MetaFed.Proofs.LinkIdentity

/-!
Catalogs that hold the links of a mapping table consistently: references name records, forward and
reverse references mirror each other, and a record that stands for a link is listed at both its
ends. In such a catalog a link is found from either of its ends.
-/

namespace MetaFed

/-- Properties that stand for fields of a record. -/
def Record.systemProperties : List String :=
  [idProperty, "_type", createdProperty, modifiedProperty, nameProperty]

/-- A table whose relationships can be told from both ends, and by the types of the records that
stand for them. -/
structure MappingTable.Linked (t : MappingTable) : Prop where
  valid : ∀ k ∈ t.relationships, k.fault? = none
  known : ∀ k ∈ t.relationships, t.checkType k.type = .ok ()
  named : ∀ k ∈ t.relationships, k.type ≠ "" ∧ ∀ e, (k.atEnd e).assetType ≠ ""
  /-- The owner of an end lists the relationship. -/
  listed : ∀ k ∈ t.relationships, ∀ e, ∃ m ∈ backed t.mappings,
    m.assetType = (k.atEnd e).assetType ∧ m.mark = (k.atEnd e).mark ∧ k ∈ m.relationships
  followed : ∀ k ∈ t.relationships, k.kind ≠ .self → ∀ e, isGiven (k.leading e) = true
  optional : ∀ k ∈ t.relationships, ∀ p ∈ k.properties, p.required = false
  unique : ∀ k ∈ t.relationships, ∀ k' ∈ t.relationships, k.isLevel = true → k.type = k'.type →
    k.levelType = k'.levelType → k = k'
  apart : ∀ k ∈ t.relationships, ∀ k' ∈ t.relationships, k.isLevel = false → k.type = k'.type →
    k'.levelType ≠ some k.one.assetType
  plain : ∀ k ∈ t.relationships, k.isLevel = false → k.levelType = none
  /-- What end one is followed through is a property of its own, and no path. -/
  direct : ∀ k ∈ t.relationships, k.kind = .reference →
    k.one.navigationName ∉ Record.systemProperties ∧ '.' ∉ k.one.navigationName.toList

namespace MappingTable

theorem forall_end {P : End → Prop} (h : P .one ∧ P .two) : ∀ e, P e := by
  intro e
  cases e with
  | one => exact h.1
  | two => exact h.2

theorem linked_standard : standard.Linked where
  valid k hk := RelationshipMapping.fault?_of_checked (checked_relationships k hk)
  known := by
    have h : ∀ k ∈ standard.relationships,
        standard.hierarchy.has k.type = true ∧ k.type ∉ standard.unsupported := by decide +kernel
    intro k hk
    rw [checkType, if_neg (not_not.2 (h k hk).1), if_neg (h k hk).2]
  named := by
    have h : ∀ k ∈ standard.relationships,
        k.type ≠ "" ∧ k.one.assetType ≠ "" ∧ k.two.assetType ≠ "" := by decide +kernel
    exact fun k hk => ⟨(h k hk).1, forall_end (h k hk).2⟩
  listed := by
    have h : ∀ k ∈ standard.relationships,
        (∃ m ∈ backed standard.mappings,
          m.assetType = k.one.assetType ∧ m.mark = k.one.mark ∧ k ∈ m.relationships) ∧
        ∃ m ∈ backed standard.mappings,
          m.assetType = k.two.assetType ∧ m.mark = k.two.mark ∧ k ∈ m.relationships := by
      decide +kernel
    exact fun k hk => forall_end (h k hk)
  followed := by
    have h : ∀ k ∈ standard.relationships, k.kind ≠ .self →
        isGiven (k.leading .one) = true ∧ isGiven (k.leading .two) = true := by decide +kernel
    exact fun k hk hs => forall_end (h k hk hs)
  optional := by decide +kernel
  unique := by decide +kernel
  apart := by decide +kernel
  plain := by decide +kernel
  direct := by decide +kernel

end MappingTable

section Decidable

instance {α : Type} {a : Attempt α} {P : α → Prop} [DecidablePred P] :
    Decidable (∃ x, a = .ok x ∧ P x) :=
  match a with
  | .ok x => decidable_of_iff (P x) (by simp)
  | .error _ => isFalse (by simp)

instance {P : End → Prop} [DecidablePred P] : Decidable (∀ e, P e) :=
  decidable_of_iff (P .one ∧ P .two) ⟨MappingTable.forall_end, fun h => ⟨h .one, h .two⟩⟩

end Decidable

/-- A record refers to another one through a property. -/
def Record.RefersTo (r : Record) (property : String) (r' : Record) : Prop :=
  ∃ refs, r.references property = .ok refs ∧ ∃ x ∈ refs, x.id = r'.id

instance {r r' : Record} {property : String} : Decidable (r.RefersTo property r') :=
  inferInstanceAs (Decidable (∃ refs, r.references property = .ok refs ∧ ∃ x ∈ refs, x.id = r'.id))

/-- The properties that hold the references of a mapping, after the asset types of the records
that have them. -/
def RelationshipMapping.holders (k : RelationshipMapping) : List (String × String) :=
  match k.kind with
  | .self => []
  | .reference =>
    [(k.one.assetType, k.one.navigationName), (k.two.assetType, k.two.navigationName)]
  | .level =>
    [(k.levelType.getD "", k.one.navigationName), (k.levelType.getD "", k.two.navigationName),
      (k.one.assetType, k.one.link.getD ""), (k.two.assetType, k.two.link.getD "")]

/-- A catalog that holds the links of a table consistently. -/
structure Catalog.Consistent (cat : Catalog) (t : MappingTable) : Prop where
  keyed : cat.Keyed
  identified : ∀ r ∈ cat.records.values, r.id ≠ ""
  /-- Every reference names a record and carries its type. -/
  resolved : ∀ k ∈ t.relationships, ∀ h ∈ k.holders, ∀ r ∈ cat.records.values, r.type = h.1 →
    ∃ refs, r.references h.2 = .ok refs ∧
      ∀ x ∈ refs, ∃ r' ∈ cat.records.values, r'.id = x.id ∧ r'.type = x.type
  /-- Forward and reverse references mirror each other. -/
  mirrored : ∀ k ∈ t.relationships, k.kind = .reference →
    ∀ a ∈ cat.records.values, ∀ b ∈ cat.records.values,
      a.type = k.one.assetType → b.type = k.two.assetType →
        (a.RefersTo k.one.navigationName b ↔ b.RefersTo k.two.navigationName a)
  /-- A record that stands for a link points to one record at each end, which lists it. -/
  pointed : ∀ k ∈ t.relationships, k.kind = .level → ∀ r ∈ cat.records.values,
    some r.type = k.levelType → ∀ e, ∃ a ∈ cat.records.values, a.type = (k.atEnd e).assetType ∧
      (∃ refs, r.references (k.atEnd e).navigationName = .ok refs ∧ refs ≠ [] ∧
        ∀ x ∈ refs, x.id = a.id) ∧
      a.RefersTo ((k.atEnd e).link.getD "") r

/-- The reference without the name that the catalog embeds. -/
def Reference.bare (x : Reference) : Reference := { x with name := none }

namespace Link

variable {l l' : Link} {home : String}

/-- What identifies a link and its ends. -/
def bare (l : Link) : Link :=
  { l with one := l.one.bare, two := l.two.bare, level := l.level.map Reference.bare,
           properties := [] }

theorem identity_bare (l : Link) (home : String) : l.bare.identity home = l.identity home := by
  cases l with
  | mk mapping one two level properties => cases level <;> rfl

theorem identity_congr (h : l.bare = l'.bare) (home : String) :
    l.identity home = l'.identity home := by
  rw [← identity_bare l, h, identity_bare]

theorem refs_congr (h : l.bare = l'.bare) : l.oneRef = l'.oneRef ∧ l.twoRef = l'.twoRef := by
  have hone : l.bare.oneRef = l.oneRef := rfl
  have htwo : l.bare.twoRef = l.twoRef := rfl
  rw [← hone, ← htwo, h]
  exact ⟨rfl, rfl⟩

end Link

namespace RelationshipMapping

variable {k : RelationshipMapping} {r : Record} {ls : List Link}

theorem linksFromOne_eq_ok (ht : r.type = k.one.assetType) : k.linksFromOne r = .ok ls ↔
    ∃ refs, r.references k.one.navigationName = .ok refs ∧
      ls = (refs.filter (·.type = k.two.assetType)).map fun x =>
        { mapping := k, one := r.ref, two := x } := by
  simp only [linksFromOne, ht, ne_eq, not_true_eq_false, if_false, Attempt.bind_eq_ok,
    Except.ok.injEq, eq_comm (b := ls)]

theorem linksFromTwo_eq_ok (ht : r.type = k.two.assetType)
    (hg : isGiven k.two.navigation = true) : k.linksFromTwo r = .ok ls ↔
    ∃ refs, r.references k.two.navigationName = .ok refs ∧
      ls = (refs.filter (·.type = k.one.assetType)).map fun x =>
        { mapping := k, one := x, two := r.ref } := by
  simp only [linksFromTwo, ht, hg, ne_eq, not_true_eq_false, or_self, if_false, Attempt.bind_eq_ok,
    Except.ok.injEq, eq_comm (b := ls)]

/-- The end that links are read from; without one they are read from all of a record. -/
def origin (k : RelationshipMapping) : Option End :=
  match k.kind with
  | .reference => some .one
  | _ => none

theorem leading_of_reference (hk : k.kind = .reference) (e : End) :
    k.leading e = (k.atEnd e).navigation := by
  rw [leading, if_neg (by simp [isLevel, hk])]

theorem leading_of_level (hk : k.kind = .level) (e : End) : k.leading e = (k.atEnd e).link := by
  rw [leading, if_pos (by simp [isLevel, hk])]

/-- The link between two records, and the record that stands for it, without the names that the
catalog embeds. -/
def between (k : RelationshipMapping) (a b : Record) (level : Option Record) : Link :=
  { mapping := k, one := a.ref.bare, two := b.ref.bare, level := level.map (·.ref.bare) }

end RelationshipMapping

/-- How a mapping stores the link between two records. -/
def Catalog.Stores (cat : Catalog) (k : RelationshipMapping) (a b : Record) :
    Option Record → Prop :=
  match k.kind with
  | .self => fun level => level = none ∧ a = b
  | .reference => fun level => level = none ∧ a.RefersTo k.one.navigationName b
  | .level => fun level => ∃ r ∈ cat.records.values, level = some r ∧ some r.type = k.levelType ∧
      r.RefersTo k.one.navigationName a ∧ r.RefersTo k.two.navigationName b

/-- A catalog links two records under a mapping, by a record that stands for the link if the
mapping has such records. -/
structure Catalog.Holds (cat : Catalog) (k : RelationshipMapping) (a b : Record)
    (level : Option Record) : Prop where
  one : a ∈ cat.records.values ∧ a.type = k.one.assetType
  two : b ∈ cat.records.values ∧ b.type = k.two.assetType
  stored : cat.Stores k a b level

namespace Catalog

variable {cat : Catalog} {t : MappingTable} {k : RelationshipMapping} {r a b : Record} {e : End}
  {l : Link} {ls : List Link} {level : Option Record}

/-- The record at an end of a link. -/
def atEnd (e : End) (a b : Record) : Record :=
  match e with
  | .one => a
  | .two => b

/-- A link that the catalog holds for a record at an end. -/
def HeldAt (cat : Catalog) (k : RelationshipMapping) (e : End) (r : Record) (l : Link) : Prop :=
  ∃ a b level, cat.Holds k a b level ∧ atEnd e a b = r ∧ l = k.between a b level

/-- A link that the catalog holds for the record it is read from. -/
def HeldFrom (cat : Catalog) (k : RelationshipMapping) (r : Record) (l : Link) : Prop :=
  ∃ a b level, cat.Holds k a b level ∧ level.getD a = r ∧ l = k.between a b level

theorem stores_self (hk : k.kind = .self) : cat.Stores k a b level ↔ level = none ∧ a = b := by
  simp only [Stores, hk]

theorem stores_reference (hk : k.kind = .reference) : cat.Stores k a b level ↔
    level = none ∧ a.RefersTo k.one.navigationName b := by
  simp only [Stores, hk]

theorem stores_level (hk : k.kind = .level) : cat.Stores k a b level ↔
    ∃ r ∈ cat.records.values, level = some r ∧ some r.type = k.levelType ∧
      r.RefersTo k.one.navigationName a ∧ r.RefersTo k.two.navigationName b := by
  simp only [Stores, hk]

namespace Consistent

section Read

variable (hc : cat.Consistent t) (hk : k ∈ t.relationships) (hr : r ∈ cat.records.values)

include hc hk hr

theorem exists_references (hkind : k.kind = .reference) (ht : r.type = (k.atEnd e).assetType) :
    ∃ refs, r.references (k.atEnd e).navigationName = .ok refs ∧
      ∀ x ∈ refs, ∃ r' ∈ cat.records.values, r'.id = x.id ∧ r'.type = x.type := by
  refine hc.resolved k hk ((k.atEnd e).assetType, (k.atEnd e).navigationName) ?_ r hr ht
  rw [RelationshipMapping.holders, hkind]
  cases e with
  | one => exact List.mem_cons_self
  | two => exact List.mem_cons_of_mem _ List.mem_cons_self

theorem exists_pointers (hkind : k.kind = .level) (ht : some r.type = k.levelType) (e : End) :
    ∃ refs, r.references (k.atEnd e).navigationName = .ok refs ∧
      ∀ x ∈ refs, ∃ r' ∈ cat.records.values, r'.id = x.id ∧ r'.type = x.type := by
  refine hc.resolved k hk (k.levelType.getD "", (k.atEnd e).navigationName) ?_ r hr
    (by rw [← ht]; rfl)
  rw [RelationshipMapping.holders, hkind]
  cases e with
  | one => exact List.mem_cons_self
  | two => exact List.mem_cons_of_mem _ List.mem_cons_self

theorem exists_listing (hkind : k.kind = .level) (ht : r.type = (k.atEnd e).assetType) :
    ∃ refs, r.references ((k.atEnd e).link.getD "") = .ok refs ∧
      ∀ x ∈ refs, ∃ r' ∈ cat.records.values, r'.id = x.id ∧ r'.type = x.type := by
  refine hc.resolved k hk ((k.atEnd e).assetType, (k.atEnd e).link.getD "") ?_ r hr ht
  rw [RelationshipMapping.holders, hkind]
  cases e with
  | one => exact List.mem_cons_of_mem _ (List.mem_cons_of_mem _ List.mem_cons_self)
  | two =>
      exact List.mem_cons_of_mem _ (List.mem_cons_of_mem _ (List.mem_cons_of_mem _
        List.mem_cons_self))

end Read

theorem bare_eq (hc : cat.Consistent t) {x : Reference} {r r' : Record}
    (hr : r ∈ cat.records.values) (hr' : r' ∈ cat.records.values) (hid : x.id = r.id)
    (hid' : r'.id = x.id) (htype : r'.type = x.type) : x.bare = r.ref.bare := by
  obtain rfl := hc.keyed.eq_of_id hr' hr (hid'.trans hid)
  rw [Reference.bare, Reference.bare, hid, ← htype]
  rfl

/-- The references of a type that a record holds name the records of the type that it refers to. -/
theorem exists_referred (hc : cat.Consistent t) (hk : k ∈ t.relationships)
    (hkind : k.kind = .reference) (hr : r ∈ cat.records.values)
    (ht : r.type = (k.atEnd e).assetType) (type : String) :
    ∃ refs, r.references (k.atEnd e).navigationName = .ok refs ∧
      ∀ x, (∃ y ∈ refs, y.type = type ∧ y.bare = x) ↔ ∃ r' ∈ cat.records.values,
        r'.type = type ∧ r.RefersTo (k.atEnd e).navigationName r' ∧ r'.ref.bare = x := by
  obtain ⟨refs, hrefs, hresolved⟩ := hc.exists_references hk hr hkind ht
  refine ⟨refs, hrefs, fun x => ⟨?_, ?_⟩⟩
  · rintro ⟨y, hy, htype, rfl⟩
    obtain ⟨r', hr', hid, htype'⟩ := hresolved y hy
    exact ⟨r', hr', htype'.trans htype, ⟨refs, hrefs, y, hy, hid.symm⟩,
      (hc.bare_eq hr' hr' hid.symm hid htype').symm⟩
  · rintro ⟨r', hr', htype, ⟨refs', hrefs', y, hy, hid⟩, rfl⟩
    obtain rfl : refs = refs' := Except.ok.inj (hrefs.symm.trans hrefs')
    obtain ⟨r'', hr'', hid', htype'⟩ := hresolved y hy
    have hbare := hc.bare_eq hr' hr'' hid hid' htype'
    exact ⟨y, hy, (congrArg Reference.type hbare).trans htype, hbare⟩

theorem exists_linksFromOne (hc : cat.Consistent t) (hk : k ∈ t.relationships)
    (hkind : k.kind = .reference) (hr : r ∈ cat.records.values) (ht : r.type = k.one.assetType) :
    ∃ ls, k.linksFromOne r = .ok ls ∧ ∀ x, x ∈ ls.map Link.bare ↔ cat.HeldAt k .one r x := by
  obtain ⟨refs, hrefs, hreferred⟩ :=
    hc.exists_referred (e := .one) hk hkind hr ht k.two.assetType
  refine ⟨_, (RelationshipMapping.linksFromOne_eq_ok ht).2 ⟨refs, hrefs, rfl⟩, fun x => ?_⟩
  simp only [List.map_map, List.mem_map, List.mem_filter, Function.comp_apply,
    decide_eq_true_eq]
  constructor
  · rintro ⟨y, ⟨hy, htype⟩, rfl⟩
    obtain ⟨b, hb, hb_type, hrefers, hbare⟩ := (hreferred y.bare).1 ⟨y, hy, htype, rfl⟩
    refine ⟨r, b, none, ⟨⟨hr, ht⟩, ⟨hb, hb_type⟩, ?_⟩, rfl, ?_⟩
    · exact (stores_reference hkind).2 ⟨rfl, hrefers⟩
    · simp only [Link.bare, RelationshipMapping.between, hbare]
      rfl
  · rintro ⟨a, b, level, ⟨_, ⟨hb, hb_type⟩, hstored⟩, rfl, rfl⟩
    obtain ⟨rfl, hrefers⟩ := (stores_reference hkind).1 hstored
    obtain ⟨y, hy, htype, hbare⟩ := (hreferred b.ref.bare).2 ⟨b, hb, hb_type, hrefers, rfl⟩
    refine ⟨y, ⟨hy, htype⟩, ?_⟩
    simp only [Link.bare, RelationshipMapping.between, hbare]
    rfl

theorem exists_linksFromTwo (hc : cat.Consistent t) (hk : k ∈ t.relationships)
    (hkind : k.kind = .reference) (hg : isGiven k.two.navigation = true)
    (hr : r ∈ cat.records.values) (ht : r.type = k.two.assetType) :
    ∃ ls, k.linksFromTwo r = .ok ls ∧ ∀ x, x ∈ ls.map Link.bare ↔ cat.HeldAt k .two r x := by
  obtain ⟨refs, hrefs, hreferred⟩ :=
    hc.exists_referred (e := .two) hk hkind hr ht k.one.assetType
  -- A link is stored at end one: what end two refers to is what mirrors it.
  have hmirrored {a : Record} (ha : a ∈ cat.records.values) (ha_type : a.type = k.one.assetType) :=
    hc.mirrored k hk hkind a ha r hr ha_type ht
  refine ⟨_, (RelationshipMapping.linksFromTwo_eq_ok ht hg).2 ⟨refs, hrefs, rfl⟩, fun x => ?_⟩
  simp only [List.map_map, List.mem_map, List.mem_filter, Function.comp_apply,
    decide_eq_true_eq]
  constructor
  · rintro ⟨y, ⟨hy, htype⟩, rfl⟩
    obtain ⟨a, ha, ha_type, hrefers, hbare⟩ := (hreferred y.bare).1 ⟨y, hy, htype, rfl⟩
    refine ⟨a, r, none, ⟨⟨ha, ha_type⟩, ⟨hr, ht⟩, ?_⟩, rfl, ?_⟩
    · exact (stores_reference hkind).2 ⟨rfl, (hmirrored ha ha_type).2 hrefers⟩
    · simp only [Link.bare, RelationshipMapping.between, hbare]
      rfl
  · rintro ⟨a, b, level, ⟨⟨ha, ha_type⟩, _, hstored⟩, rfl, rfl⟩
    obtain ⟨rfl, hrefers⟩ := (stores_reference hkind).1 hstored
    obtain ⟨y, hy, htype, hbare⟩ := (hreferred a.ref.bare).2
      ⟨a, ha, ha_type, (hmirrored ha ha_type).1 hrefers, rfl⟩
    refine ⟨y, ⟨hy, htype⟩, ?_⟩
    simp only [Link.bare, RelationshipMapping.between, hbare]
    rfl

theorem refersTo_iff (hc : cat.Consistent t) (hk : k ∈ t.relationships) (hkind : k.kind = .level)
    (hr : r ∈ cat.records.values) (ht : some r.type = k.levelType) (e : End) :
    ∃ a ∈ cat.records.values, a.type = (k.atEnd e).assetType ∧
      (∃ x xs, r.references (k.atEnd e).navigationName = .ok (x :: xs) ∧ x.bare = a.ref.bare) ∧
      a.RefersTo ((k.atEnd e).link.getD "") r ∧
      ∀ b ∈ cat.records.values, r.RefersTo (k.atEnd e).navigationName b ↔ b = a := by
  obtain ⟨a, ha, htype, ⟨refs, hrefs, hne, hall⟩, hlists⟩ := hc.pointed k hk hkind r hr ht e
  obtain ⟨refs', hrefs', hresolved⟩ := hc.exists_pointers hk hr hkind ht e
  obtain rfl : refs = refs' := Except.ok.inj (hrefs.symm.trans hrefs')
  match refs with
  | [] => exact absurd rfl hne
  | x :: xs =>
      obtain ⟨r', hr', hid', htype'⟩ := hresolved x List.mem_cons_self
      have hid := hall x List.mem_cons_self
      refine ⟨a, ha, htype, ⟨x, xs, hrefs, hc.bare_eq ha hr' hid hid' htype'⟩, hlists,
        fun b hb => ⟨?_, ?_⟩⟩
      · rintro ⟨refs, hrefs', y, hy, hyid⟩
        obtain rfl : x :: xs = refs := Except.ok.inj (hrefs.symm.trans hrefs')
        exact hc.keyed.eq_of_id hb ha (hyid.symm.trans (hall y hy))
      · rintro rfl
        exact ⟨_, hrefs, x, List.mem_cons_self, hid⟩

theorem exists_levelLinks (hl : t.Linked) (hc : cat.Consistent t) (hk : k ∈ t.relationships)
    (hkind : k.kind = .level) (hr : r ∈ cat.records.values) :
    ∃ ls, k.levelLinks r = .ok ls ∧ ∀ x, x ∈ ls.map Link.bare ↔ cat.HeldFrom k r x := by
  by_cases ht : some r.type = k.levelType
  · obtain ⟨a, ha, ha_type, ⟨y, ys, hys, hy⟩, _, ha_only⟩ := hc.refersTo_iff hk hkind hr ht .one
    obtain ⟨b, hb, hb_type, ⟨z, zs, hzs, hz⟩, _, hb_only⟩ := hc.refersTo_iff hk hkind hr ht .two
    -- The properties of the link are optional, so reading them cannot fail.
    obtain ⟨properties, hp⟩ := Record.exists_putSimple (r := r) (hl.optional k hk) []
    simp only [RelationshipMapping.atEnd] at hys hzs ha_only hb_only
    refine ⟨[{ mapping := k, one := y, two := z, level := some r.ref, properties }], ?_,
      fun x => ?_⟩
    · simp only [RelationshipMapping.levelLinks, if_neg (not_not.2 ht), hys, hzs, Record.mapped,
        hp, Attempt.ok_bind]
      rfl
    · have hbare : Link.bare { mapping := k, one := y, two := z, level := some r.ref, properties } =
          k.between a b (some r) := by
        simp only [Link.bare, RelationshipMapping.between, hy, hz]
        rfl
      rw [List.map_singleton, List.mem_singleton, hbare]
      constructor
      · rintro rfl
        refine ⟨a, b, some r, ⟨⟨ha, ha_type⟩, ⟨hb, hb_type⟩, ?_⟩, rfl, rfl⟩
        exact (stores_level hkind).2
          ⟨r, hr, rfl, ht, (ha_only a ha).2 rfl, (hb_only b hb).2 rfl⟩
      · rintro ⟨a', b', level, ⟨⟨ha', _⟩, ⟨hb', _⟩, hstored⟩, hlevel, rfl⟩
        obtain ⟨r', _, rfl, _, h₁, h₂⟩ := (stores_level hkind).1 hstored
        obtain rfl : r' = r := hlevel
        rw [(ha_only a' ha').1 h₁, (hb_only b' hb').1 h₂]
  · -- Only records of the mapping's own asset type stand for its links.
    refine ⟨[], if_pos ht, fun x => ⟨fun h => by simp at h, ?_⟩⟩
    rintro ⟨a, b, level, ⟨_, _, hstored⟩, hlevel, rfl⟩
    obtain ⟨r', _, rfl, ht', _⟩ := (stores_level hkind).1 hstored
    exact absurd (hlevel ▸ ht') ht

theorem heldFrom_iff_heldAt (hkind : k.kind ≠ .level) {x : Link} :
    cat.HeldFrom k r x ↔ cat.HeldAt k .one r x := by
  refine exists₃_congr fun a b level => and_congr_right fun h => and_congr_left fun _ => ?_
  have hlevel : level = none := by
    cases hk : k.kind with
    | self => exact ((stores_self hk).1 h.stored).1
    | reference => exact ((stores_reference hk).1 h.stored).1
    | level => exact absurd hk hkind
  rw [hlevel]
  rfl

theorem mem_selfLinks_iff (hv : k.fault? = none) (hkind : k.kind = .self)
    (hr : r ∈ cat.records.values) (e : End) (x : Link) :
    x ∈ (k.selfLinks r).map Link.bare ↔ cat.HeldAt k e r x := by
  have htypes := (RelationshipMapping.ends_of_self hv hkind).1
  constructor
  · intro h
    obtain ⟨l, hl, rfl⟩ := List.mem_map.1 h
    obtain ⟨ht, rfl⟩ := RelationshipMapping.mem_selfLinks hl
    refine ⟨r, r, none, ⟨⟨hr, ht⟩, ⟨hr, ht.trans htypes⟩, (stores_self hkind).2 ⟨rfl, rfl⟩⟩, ?_, rfl⟩
    cases e <;> rfl
  · rintro ⟨a, b, level, ⟨⟨_, ht⟩, _, hstored⟩, hend, rfl⟩
    obtain ⟨rfl, rfl⟩ := (stores_self hkind).1 hstored
    obtain rfl : a = r := by cases e <;> exact hend
    rw [RelationshipMapping.selfLinks, if_pos ht]
    exact List.mem_singleton.2 rfl

theorem exists_links (hl : t.Linked) (hc : cat.Consistent t) (hk : k ∈ t.relationships)
    (hr : r ∈ cat.records.values) :
    ∃ ls, k.links r k.origin = .ok ls ∧ ∀ x, x ∈ ls.map Link.bare ↔ cat.HeldFrom k r x := by
  cases hkind : k.kind with
  | self =>
      refine ⟨k.selfLinks r, by simp only [RelationshipMapping.links, hkind], fun x => ?_⟩
      rw [heldFrom_iff_heldAt (by simp [hkind])]
      exact mem_selfLinks_iff (hl.valid k hk) hkind hr .one x
  | level =>
      obtain ⟨ls, hls, hmem⟩ := hc.exists_levelLinks hl hk hkind hr
      exact ⟨ls, by simp only [RelationshipMapping.links, hkind, hls], hmem⟩
  | reference =>
      simp only [RelationshipMapping.links, RelationshipMapping.origin, hkind,
        heldFrom_iff_heldAt (show k.kind ≠ .level by simp [hkind])]
      by_cases ht : r.type = k.one.assetType
      · exact hc.exists_linksFromOne hk hkind hr ht
      · refine ⟨[], if_pos ht, fun x => ⟨fun h => by simp at h, ?_⟩⟩
        rintro ⟨a, b, level, ⟨⟨_, ha⟩, _⟩, rfl, _⟩
        exact absurd ha ht

end Consistent

end Catalog

namespace Scope

variable {c : Scope} {cat : Catalog} {k : RelationshipMapping} {r : Record} {e : End}
  {t : MappingTable} {ps : List String}

theorem linkedAt_project (hl : t.Linked) (hk : k ∈ t.relationships)
    (hw : isGiven (k.leading e) = true → (k.leading e).getD "" ∈ ps) :
    c.linkedAt cat k (r.project ps) e = c.linkedAt cat k r e := by
  cases hkind : k.kind with
  | self =>
      simp only [linkedAt, hkind, RelationshipMapping.links, RelationshipMapping.selfLinks,
        Record.project_type, Record.project_ref]
  | level =>
      have hread := hw (hl.followed k hk (by simp [hkind]) e)
      rw [RelationshipMapping.leading_of_level hkind] at hread
      simp only [linkedAt, hkind, Record.project_id, Record.references_project hread]
  | reference =>
      have hgiven := hl.followed k hk (by simp [hkind]) e
      have hread := hw hgiven
      rw [RelationshipMapping.leading_of_reference hkind] at hgiven hread
      simp only [linkedAt, hkind, hgiven, or_true, if_true]
      cases e with
      | one =>
          simp only [RelationshipMapping.links, hkind]
          exact RelationshipMapping.linksFromOne_project hread
      | two =>
          simp only [RelationshipMapping.links, hkind]
          exact RelationshipMapping.linksFromTwo_project hread

theorem exists_levelLinked (hl : t.Linked) (hc : cat.Consistent t) (hk : k ∈ t.relationships)
    (hkind : k.kind = .level) (recordId : String) (e : End) (refs : List Reference) :
    ∃ ls, levelLinked cat k recordId e refs = .ok ls := by
  refine exists_levelLinked_of (fun x => ?_) recordId e refs
  rw [standing]
  cases hf : cat.find? x.id with
  | none => exact ⟨[], rfl⟩
  | some r =>
      obtain ⟨ls, hls, _⟩ := hc.exists_levelLinks hl hk hkind (hc.keyed.find?_eq_some.1 hf).1
      exact ⟨ls, by simp only [RelationshipMapping.links, hkind, hls]⟩

theorem id_atEnd_of_bare {l : Link} {a b : Record} {level : Option Record}
    (h : l.bare = k.between a b level) : (atEnd e l).id = (Catalog.atEnd e a b).id := by
  cases e with
  | one => exact congrArg (fun l => l.one.id) h
  | two => exact congrArg (fun l => l.two.id) h

theorem exists_linkedAt (hl : t.Linked) (hc : cat.Consistent t) (hk : k ∈ t.relationships)
    (hr : r ∈ cat.records.values) (ht : r.type = (k.atEnd e).assetType) :
    ∃ ls, c.linkedAt cat k r e = .ok ls ∧ ∀ x, x ∈ ls.map Link.bare ↔ cat.HeldAt k e r x := by
  cases hkind : k.kind with
  | self =>
      refine ⟨k.selfLinks r, by simp only [linkedAt, RelationshipMapping.links, hkind], ?_⟩
      exact Catalog.Consistent.mem_selfLinks_iff (hl.valid k hk) hkind hr e
  | reference =>
      have hgiven := hl.followed k hk (by simp [hkind]) e
      rw [RelationshipMapping.leading_of_reference hkind] at hgiven
      simp only [linkedAt, hkind, hgiven, or_true, if_true, RelationshipMapping.links]
      cases e with
      | one => exact hc.exists_linksFromOne hk hkind hr ht
      | two => exact hc.exists_linksFromTwo hk hkind hgiven hr ht
  | level =>
      obtain ⟨refs, hrefs, _⟩ := hc.exists_listing hk hr hkind ht
      obtain ⟨ls, hls⟩ := exists_levelLinked hl hc hk hkind r.id e refs
      refine ⟨ls, by simp only [linkedAt, hkind, hrefs, Attempt.ok_bind, hls], fun x => ?_⟩
      simp only [List.mem_map, mem_levelLinked hls]
      constructor
      · -- What the listed record yields is held, and has the record at this end by its id.
        rintro ⟨l, ⟨hid, y, _, r', hf, us, hus, hl'⟩, rfl⟩
        have hr' := (hc.keyed.find?_eq_some.1 hf).1
        obtain ⟨vs, hvs, hmem⟩ := hc.exists_levelLinks hl hk hkind hr'
        simp only [RelationshipMapping.links, hkind, hvs, Except.ok.injEq] at hus
        obtain ⟨a, b, level, hholds, _, hbare⟩ :=
          (hmem l.bare).1 (List.mem_map_of_mem (hus ▸ hl'))
        refine ⟨a, b, level, hholds, ?_, hbare⟩
        rw [id_atEnd_of_bare hbare] at hid
        refine hc.keyed.eq_of_id ?_ hr hid
        cases e with
        | one => exact hholds.one.1
        | two => exact hholds.two.1
      · -- The record that stands for the link points to this end only, which lists it back.
        rintro ⟨a, b, level, hholds, hend, rfl⟩
        obtain ⟨r', hr', rfl, ht', h₁, h₂⟩ := (Catalog.stores_level hkind).1 hholds.stored
        obtain ⟨vs, hvs, hmem⟩ := hc.exists_levelLinks hl hk hkind hr'
        obtain ⟨l, hl', hbare⟩ := List.mem_map.1
          ((hmem (k.between a b (some r'))).2 ⟨a, b, some r', hholds, rfl, rfl⟩)
        obtain ⟨a', ha', _, _, ⟨refs', hrefs', y, hy, hyid⟩, honly⟩ :=
          hc.refersTo_iff hk hkind hr' ht' e
        obtain rfl : r = a' := by
          refine (honly r hr).1 ?_
          cases e with
          | one => exact hend ▸ h₁
          | two => exact hend ▸ h₂
        obtain rfl : refs = refs' := Except.ok.inj (hrefs.symm.trans hrefs')
        refine ⟨l, ⟨?_, y, hy, r', hc.keyed.find?_eq_some.2 ⟨hr', hyid.symm⟩, vs, ?_, hl'⟩, hbare⟩
        · rw [id_atEnd_of_bare hbare, hend]
        · simp only [RelationshipMapping.links, hkind, hvs]

section Parts

variable {m : EntityMapping} {type : Option String} {p : RelationshipMapping × End}

theorem type_of_mem_partsOf (h : p ∈ c.partsOf m r type) : r.type = (p.1.atEnd p.2).assetType := by
  have hplay := (mem_partsOf h).2
  rw [EndMapping.isPlayedBy, Bool.and_eq_true, beq_iff_eq] at hplay
  exact hplay.1.symm

theorem linked_project (ht : c.table.Accepted) (hl : c.table.Linked)
    (hm : m ∈ MappingTable.backed c.table.mappings) (hr : r.type = m.assetType)
    (hw : m.projected ⊆ ps) (type : Option String) :
    c.linked cat m (r.project ps) type = c.linked cat m r type := by
  have hparts : ∀ p ∈ c.partsOf m r type,
      c.linkedAt cat p.1 (r.project ps) p.2 = c.linkedAt cat p.1 r p.2 := by
    intro p hp
    obtain ⟨hmem, hplay⟩ := mem_partsOf hp
    refine linkedAt_project hl (MappingTable.mem_relationships hm hmem) fun hgiven => ?_
    rw [hr] at hplay
    exact hw (EntityMapping.mem_projected (ht.mark_ne (MappingTable.mem_backed.1 hm).1) hmem hplay
      hgiven)
  rw [linked, linked, partsOf_project, Attempt.mapM_congr hparts]

theorem exists_linked (hl : c.table.Linked) (hc : cat.Consistent c.table)
    (hm : m ∈ MappingTable.backed c.table.mappings) (hr : r ∈ cat.records.values)
    (type : Option String) : ∃ ls, c.linked cat m r type = .ok ls ∧
      ∀ x, x ∈ ls.map Link.bare ↔ ∃ p ∈ c.partsOf m r type, cat.HeldAt p.1 p.2 r x := by
  have hparts (p : RelationshipMapping × End) (hp : p ∈ c.partsOf m r type) :=
    exists_linkedAt (c := c) hl hc (MappingTable.mem_relationships hm (mem_partsOf hp).1) hr
      (type_of_mem_partsOf hp)
  obtain ⟨lss, hlss⟩ := Attempt.exists_mapM fun p hp => (hparts p hp).imp fun _ => And.left
  have hls : c.linked cat m r type = .ok lss.flatten := by rw [linked, hlss, Attempt.ok_bind]
  refine ⟨lss.flatten, hls, fun x => ?_⟩
  rw [List.mem_map]
  constructor
  · rintro ⟨l, hl, rfl⟩
    obtain ⟨p, hp, us, hus, hl⟩ := (mem_linked hls).1 hl
    obtain ⟨vs, hvs, hmem⟩ := hparts p hp
    rw [hus] at hvs
    cases hvs
    exact ⟨p, hp, (hmem l.bare).1 (List.mem_map_of_mem hl)⟩
  · rintro ⟨p, hp, hheld⟩
    obtain ⟨us, hus, hmem⟩ := hparts p hp
    obtain ⟨l, hl, hbare⟩ := List.mem_map.1 ((hmem x).2 hheld)
    exact ⟨l, (mem_linked hls).2 ⟨p, hp, us, hus, hl⟩, hbare⟩

end Parts

end Scope

namespace Sample

/-- A property that refers to a record. -/
def refersTo (property : String) (r : Reference) : String × Value :=
  (property, .list [.reference r])

def termRef : Reference := ⟨"term-1", "term", some "total"⟩

def classRef : Reference := ⟨"class-1", "data_class", some "amount"⟩

def detectionRef : Reference := ⟨"detection-1", "classification", none⟩

/-- A column with a foreign key to itself, a term, and a data class that was detected for it. -/
def selfColumn : Record :=
  { ref := columnRef "1",
    properties := [refersTo "defined_foreign_key_references" (columnRef "1"),
      refersTo "defined_foreign_key_referenced_by" (columnRef "1"),
      refersTo "assigned_to_terms" termRef, refersTo "detected_classifications" detectionRef] }

def linkedTerm : Record :=
  { ref := termRef, properties := [refersTo "assigned_assets" (columnRef "1")] }

def linkedClass : Record :=
  { ref := classRef, properties := [refersTo "classifications" detectionRef] }

def detection : Record :=
  { ref := detectionRef,
    properties := [refersTo "classifies_asset" (columnRef "1"), refersTo "data_class" classRef] }

def columnGuid : String := "e:home-1::database_column:column-1"

def linkedService : Service :=
  { catalog :=
      (((({} : Catalog).put selfColumn).put linkedTerm).put linkedClass).put detection }

theorem consistent_linkedService : linkedService.catalog.Consistent MappingTable.standard where
  keyed := Catalog.keyed_put (Catalog.keyed_put (Catalog.keyed_put
    (Catalog.keyed_put Catalog.keyed_empty _) _) _) _
  identified := by decide +kernel
  resolved := by decide +kernel
  mirrored := by decide +kernel
  pointed := by decide +kernel

end Sample

end MetaFed
