import MetaFed.Proofs.Held

/-!
Resolving the identifier of a relationship. The records that the identity names are looked up, and
the links that they yield include every link with this identity.
-/

namespace MetaFed

namespace Scope

open Session

variable {α : Type} {c : Scope} {cat : Catalog} {guid : String} {i : RelationshipId}
  {k m : RelationshipMapping} {r a b : Record} {level : Option Record} {ls : List Link} {l : Link}
  {ms : List RelationshipMapping} {x : Relationship}

theorem gives_endRecord (hc : c.Reads cat) {ref : RecordRef} {wanted : List String}
    (hr : cat.find? ref.recordId = some r) (ht : r.type = ref.assetType) :
    Gives cat (c.endRecord guid ref wanted) fun r' => ∃ ps, wanted ⊆ ps ∧ r' = r.project ps := by
  refine (Backend.gives_lookUp hc.outage hc.record ref.recordId wanted).bind ?_
  rintro _ ⟨ps, hps, rfl⟩
  simp only [Catalog.fetch, hr, Option.map_some, Record.project_type, ht, if_true]
  exact gives_pure ⟨ps, hps, rfl⟩

theorem answers_endRecord_bind (hc : c.Reads cat) {ref : RecordRef} {wanted : List String}
    (hr : cat.find? ref.recordId = some r) (ht : r.type = ref.assetType)
    {f : Record → Session α} {u : Attempt α}
    (hf : ∀ ps, wanted ⊆ ps → Answers cat (f (r.project ps)) u) :
    Answers cat (c.endRecord guid ref wanted >>= f) u := by
  refine (gives_endRecord hc hr ht).bind_answers ?_
  rintro _ ⟨ps, hps, rfl⟩
  exact hf ps hps

theorem answers_linksOfLevel (guid : String) (hc : c.Reads cat) (hr : cat.find? i.one.recordId = some r)
    (ht : r.type = i.one.assetType) (hms : ∀ m ∈ ms, m.fault? = none ∧ m.kind = .level) :
    Answers cat (c.linksOfLevel guid i ms)
      (do .ok (← ms.mapM fun m => m.links r none).flatten) := by
  refine answers_endRecord_bind hc hr ht fun ps hps => ?_
  have hlinks : ∀ m ∈ ms, m.links (r.project ps) none = m.links r none := by
    intro m hm
    refine RelationshipMapping.links_project_level (hms m hm).1 (hms m hm).2 ?_ none
    exact fun p hp => hps (List.mem_flatMap.2 ⟨m, hm, hp⟩)
  rw [Attempt.mapM_congr hlinks]
  exact answers_ofAttempt _

/-- The links of those of two records that can play end one, without a session. -/
def linkedPair (c : Scope) (cat : Catalog) (a b : Record) (m : RelationshipMapping) :
    Attempt (List Link) :=
  match c.ownerOfOne m with
  | none => .ok []
  | some owner => do
    .ok (← ([a, b].filter (·.type = m.one.assetType)).mapM fun r =>
      c.linked cat owner r (some m.type)).flatten

theorem mem_of_ownerOfOne {owner : EntityMapping} (h : c.ownerOfOne m = some owner) :
    owner ∈ MappingTable.backed c.table.mappings ∧ owner.assetType = m.one.assetType ∧
      owner.mark = m.one.mark.filter (· ≠ "") := MappingTable.forIdentity_eq_some h

theorem projected_subset {owner : EntityMapping} (hm : m ∈ ms) (ho : c.ownerOfOne m = some owner) :
    owner.projected ⊆ c.propertiesFor m.one.assetType ms := by
  intro p hp
  rw [propertiesFor, mem_firsts]
  refine List.mem_flatMap.2 ⟨m, List.mem_filter.2 ⟨hm, decide_eq_true rfl⟩, ?_⟩
  rw [ho]
  exact hp

theorem answers_linksOfPair (hc : c.Reads cat) (ht : c.table.Accepted) (hl : c.table.Linked)
    (hm : m ∈ ms) {ps qs : List String} (hps : c.propertiesFor a.type ms ⊆ ps)
    (hqs : c.propertiesFor b.type ms ⊆ qs) :
    Answers cat (c.linksOfPair (a.project ps) (b.project qs) m) (c.linkedPair cat a b m) := by
  rw [linksOfPair, linkedPair]
  cases ho : c.ownerOfOne m with
  | none => exact answers_pure []
  | some owner =>
      obtain ⟨howner, hasset, _⟩ := mem_of_ownerOfOne ho
      have hvalid : ∀ k ∈ owner.relationships, k.fault? = none := fun k hk =>
        hl.valid k (MappingTable.mem_relationships howner hk)
      have hsub := projected_subset hm ho
      have hlinks {r : Record} {ps : List String} (hr : r.type = m.one.assetType)
          (hps : c.propertiesFor r.type ms ⊆ ps) : Answers cat
            (c.linksOf owner (r.project ps) (some m.type)) (c.linked cat owner r (some m.type)) := by
        rw [← linked_project ht hl howner (hr.trans hasset.symm)
          (List.Subset.trans hsub (hr ▸ hps)) (some m.type)]
        exact answers_linksOf hc hvalid _ _
      refine (Answers.mapM_of_forall₂ ?_).bind fun lss _ => answers_pure lss.flatten
      -- Each of the two records takes part only if it is of the asset type of end one.
      simp only [List.filter_cons, List.filter_nil, Record.project_type, decide_eq_true_eq]
      split
      · rename_i ha
        refine .cons (hlinks ha hps) ?_
        split
        · rename_i hb
          exact .cons (hlinks hb hqs) .nil
        · exact .nil
      · split
        · rename_i hb
          exact .cons (hlinks hb hqs) .nil
        · exact .nil

/-- The links of the records of both ends under the mappings that have no records of their own. -/
theorem answers_linksOfEnds (guid : String) (hc : c.Reads cat) (ht : c.table.Accepted)
    (hl : c.table.Linked)
    (ha : cat.find? i.one.recordId = some a) (hat : a.type = i.one.assetType)
    (hb : cat.find? i.two.recordId = some b) (hbt : b.type = i.two.assetType)
    (hms : ms = (c.table.relationshipsBetween i.type i.one.assetType i.two.assetType).filter
      fun m => !m.isLevel) (hne : ms ≠ []) :
    Answers cat (c.linksOfEnds guid i)
      (do .ok ((← ms.mapM (c.linkedPair cat a b)).flatten.filter fun l => l.involves a.id)) := by
  rw [linksOfEnds, ← hms]
  refine answers_endRecord_bind hc ha hat fun ps hps => ?_
  refine answers_endRecord_bind hc hb hbt fun qs hqs => ?_
  have hempty : ms.isEmpty = false := by
    cases hms' : ms with
    | nil => exact absurd hms' hne
    | cons m ms => rfl
  simp only [hempty, Record.project_id]
  rw [← hat] at hps
  rw [← hbt] at hqs
  refine (Answers.mapM fun m hm => ?_).bind fun lss _ => answers_pure _
  exact answers_linksOfPair hc ht hl hm hps hqs

theorem mem_partsOf_of_listed (ht : c.table.Accepted) {owner : EntityMapping} {e : End}
    {type : Option String} (hm : owner ∈ MappingTable.backed c.table.mappings)
    (hmark : owner.mark = (k.atEnd e).mark) (hk : k ∈ owner.relationships)
    (hr : r.type = (k.atEnd e).assetType)
    (htype : (type.all fun t => c.table.hierarchy.isTypeOf k.type t) = true) :
    (k, e) ∈ c.partsOf owner r type := by
  refine mem_partsOf_iff.2 ⟨hk, htype, ?_⟩
  rw [EndMapping.isPlayedBy, EntityMapping.filter_mark (ht.mark_ne (MappingTable.mem_backed.1 hm).1),
    hr, hmark, Bool.and_eq_true]
  exact ⟨beq_self_eq_true _, beq_self_eq_true _⟩

/-- The owner of records at an end lists the relationship for them. -/
theorem exists_lister (ht : c.table.Accepted) (hl : c.table.Linked) (hk : k ∈ c.table.relationships)
    (e : End) : ∃ m ∈ MappingTable.backed c.table.mappings,
      m.assetType = (k.atEnd e).assetType ∧ m.mark = (k.atEnd e).mark ∧
        ∀ (r : Record) (type : Option String), r.type = (k.atEnd e).assetType →
          (type.all fun t => c.table.hierarchy.isTypeOf k.type t) = true →
            (k, e) ∈ c.partsOf m r type := by
  obtain ⟨m, hm, hasset, hmark, hmem⟩ := hl.listed k hk e
  exact ⟨m, hm, hasset, hmark, fun r type hr htype => mem_partsOf_of_listed ht hm hmark hmem hr htype⟩

theorem ownerOfOne_eq_some (ht : c.table.Accepted) {owner : EntityMapping}
    (hm : owner ∈ MappingTable.backed c.table.mappings) (hasset : owner.assetType = k.one.assetType)
    (hmark : owner.mark = k.one.mark) : c.ownerOfOne k = some owner := by
  have hself := ht.forIdentity_of_mem hm
  rw [hasset, hmark] at hself
  exact hself

theorem held_of_heldAt {e : End} (hk : k ∈ c.table.relationships) (h : cat.HeldAt k e r l.bare) :
    cat.Held c.table l := by
  obtain ⟨a, b, level, hholds, _, hbare⟩ := h
  exact ⟨k, hk, a, b, level, hholds, hbare⟩

theorem held_of_linked {owner : EntityMapping} {type : Option String} (hl : c.table.Linked)
    (hc : cat.Consistent c.table) (hm : owner ∈ MappingTable.backed c.table.mappings)
    (hr : r ∈ cat.records.values) (h : c.linked cat owner r type = .ok ls) (hmem : l ∈ ls) :
    cat.Held c.table l := by
  obtain ⟨us, hus, hheld⟩ := exists_linked hl hc hm hr type
  rw [h] at hus
  cases hus
  obtain ⟨p, hp, hat⟩ := (hheld l.bare).1 (List.mem_map_of_mem hmem)
  exact held_of_heldAt (MappingTable.mem_relationships hm (mem_partsOf hp).1) hat

/-- The links of two records under a mapping include all those with either of them at end one. -/
theorem exists_linkedPair (ht : c.table.Accepted) (hl : c.table.Linked)
    (hc : cat.Consistent c.table) (hm : m ∈ c.table.relationships) (ha : a ∈ cat.records.values)
    (hb : b ∈ cat.records.values) : ∃ us, c.linkedPair cat a b m = .ok us ∧
      (∀ l ∈ us, cat.Held c.table l) ∧ ∀ r ∈ [a, b], ∀ x, cat.HeldAt m .one r x →
        x ∈ us.map Link.bare := by
  -- All goes through the owner of end one, which lists the relationship for either record.
  obtain ⟨owner, howner, hasset, hmark, hlists⟩ := exists_lister ht hl hm .one
  have hvalues : ∀ r ∈ [a, b], r ∈ cat.records.values := by
    intro r hr
    rcases List.mem_cons.1 hr with rfl | hr
    · exact ha
    · exact List.mem_singleton.1 hr ▸ hb
  have hlinked : ∀ r ∈ [a, b].filter (·.type = m.one.assetType), ∃ ls,
      c.linked cat owner r (some m.type) = .ok ls := fun r hr =>
    (exists_linked hl hc howner (hvalues r (List.mem_filter.1 hr).1) (some m.type)).imp
      fun _ => And.left
  obtain ⟨lss, hlss⟩ := Attempt.exists_mapM hlinked
  have hpair : c.linkedPair cat a b m = .ok lss.flatten := by
    have ho : c.ownerOfOne m = some owner := ownerOfOne_eq_some ht howner hasset hmark
    simp only [linkedPair, ho, hlss, Attempt.ok_bind]
  refine ⟨lss.flatten, hpair, fun l hmem => ?_, fun r hr x hx => ?_⟩
  · obtain ⟨r, hr, us, hus, hmem⟩ := (Attempt.mem_flatten_mapM hlss).1 hmem
    exact held_of_linked hl hc howner (hvalues r (List.mem_filter.1 hr).1) hus hmem
  · obtain ⟨us, hus, hheld⟩ := exists_linked (c := c) hl hc howner (hvalues r hr) (some m.type)
    have htype : r.type = m.one.assetType := by
      obtain ⟨a', _, _, hholds, rfl, _⟩ := hx
      exact hholds.one.2
    have hpart : (m, End.one) ∈ c.partsOf owner r (some m.type) :=
      hlists r (some m.type) htype (ht.isTypeOf_self hm)
    obtain ⟨l, hmem, hbare⟩ := List.mem_map.1 ((hheld x).2 ⟨_, hpart, hx⟩)
    refine List.mem_map.2 ⟨l, (Attempt.mem_flatten_mapM hlss).2 ⟨r, ?_, us, hus, hmem⟩, hbare⟩
    exact List.mem_filter.2 ⟨hr, decide_eq_true htype⟩

theorem type_of_bare (hb : l.bare = k.between a b level) (hi : l.identity c.home = .ok i) :
    i.type = k.type := by
  rw [(Link.identity_data hi).2.1, show l.mapping = k from congrArg Link.mapping hb]

/-- A relationship-level mapping is the only one of its type that its records stand for. -/
theorem mem_levelMappings_iff (hl : c.table.Linked) (hk : k ∈ c.table.relationships)
    (hkind : k.kind = .level) {assetType : String} (ha : k.levelType = some assetType) :
    m ∈ c.levelMappings k.type assetType ↔ m = k := by
  rw [levelMappings, List.mem_filter, Bool.and_eq_true, beq_iff_eq, beq_iff_eq]
  constructor
  · rintro ⟨hm, htype, hlevel⟩
    exact (hl.unique k hk m hm (RelationshipMapping.isLevel_iff.2 hkind) htype.symm
      (ha.trans hlevel.symm)).symm
  · rintro rfl
    exact ⟨hk, rfl, ha⟩

/-- The record that stands for a link is looked up under the identity of the link, twice. -/
theorem ends_of_standing (hk : cat.Keyed) (hr : r ∈ cat.records.values) {y : Reference}
    (hy : l.level = some y) (htype : y.type = r.type) (hid : y.id = r.id)
    (hi : l.identity c.home = .ok i) :
    i.one = i.two ∧ r.type = i.one.assetType ∧ cat.find? i.one.recordId = some r := by
  obtain ⟨p, hends, hpt, hpid⟩ := Link.ends_of_level hy hi
  obtain ⟨hone, htwo⟩ : i.one = p ∧ i.two = p := (Sym2.eq_iff.1 hends).elim id id
  exact ⟨hone.trans htwo.symm, htype.symm.trans (hone ▸ hpt.symm),
    hk.find?_eq_some.2 ⟨hr, hid.symm.trans (hone ▸ hpid.symm)⟩⟩

theorem exists_level (hc : cat.Consistent c.table) (hr : r ∈ cat.records.values)
    (hb : l.bare = k.between a b (some r)) (hi : l.identity c.home = .ok i) :
    i.one = i.two ∧ r.type = i.one.assetType ∧ cat.find? i.one.recordId = some r := by
  obtain ⟨y, hy, hyr⟩ := Option.map_eq_some_iff.1 (Link.level_of_bare hb)
  have htype : y.bare.type = r.ref.bare.type := congrArg Reference.type hyr
  have hid : y.bare.id = r.ref.bare.id := congrArg Reference.id hyr
  exact ends_of_standing hc.keyed hr hy htype hid hi

/-- Where a record stands for the link, it is found and yields the link again. -/
theorem exists_candidates_level (hl : c.table.Linked) (hc : cat.Consistent c.table)
    (hreads : c.Reads cat) (hk : k ∈ c.table.relationships) (hholds : cat.Holds k a b (some r))
    (hb : l.bare = k.between a b (some r)) (hi : l.identity c.home = .ok i) (guid : String) :
    i.one = i.two ∧ c.levelMappings i.type i.one.assetType ≠ [] ∧ ∃ ls,
      Answers cat (c.linksOfLevel guid i (c.levelMappings i.type i.one.assetType)) (.ok ls) ∧
        (∀ l' ∈ ls, cat.Held c.table l') ∧ ∃ l' ∈ ls, l'.bare = l.bare := by
  rcases hholds.level_cases with ⟨_, hnone⟩ | ⟨hkind, r', hr, hlevel, hrt, _⟩
  · cases hnone
  cases hlevel
  obtain ⟨hsame, hasset, hfind⟩ := exists_level hc hr hb hi
  -- In a linked table no other mapping of the type has records of this asset type.
  have hmappings (m : RelationshipMapping) : m ∈ c.levelMappings i.type i.one.assetType ↔ m = k := by
    rw [type_of_bare hb hi]
    exact mem_levelMappings_iff hl hk hkind (by rw [← hrt, hasset])
  refine ⟨hsame, List.ne_nil_of_mem ((hmappings k).2 rfl), ?_⟩
  obtain ⟨us, hus, hheld⟩ := hc.exists_levelLinks hl hk hkind hr
  have hlinks : ∀ m ∈ c.levelMappings i.type i.one.assetType, m.links r none = .ok us := by
    intro m hm
    obtain rfl := (hmappings m).1 hm
    simp only [RelationshipMapping.links, hkind, hus]
  have hlevel : ∀ m ∈ c.levelMappings i.type i.one.assetType, m.fault? = none ∧ m.kind = .level := by
    intro m hm
    obtain rfl := (hmappings m).1 hm
    exact ⟨hl.valid _ hk, hkind⟩
  obtain ⟨lss, hlss⟩ := Attempt.exists_mapM fun m hm => ⟨us, hlinks m hm⟩
  have hanswers := answers_linksOfLevel guid hreads hfind hasset hlevel
  rw [hlss] at hanswers
  refine ⟨lss.flatten, hanswers, fun l' hl' => ?_, ?_⟩
  · obtain ⟨m, hm, us', hus', hl'⟩ := (Attempt.mem_flatten_mapM hlss).1 hl'
    rw [hlinks m hm] at hus'
    cases hus'
    obtain ⟨a', b', level', hholds', _, hbare⟩ := (hheld l'.bare).1 (List.mem_map_of_mem hl')
    exact ⟨k, hk, a', b', level', hholds', hbare⟩
  · obtain ⟨l', hl', hbare⟩ := List.mem_map.1 ((hheld _).2 ⟨a, b, some r, hholds, rfl, rfl⟩)
    have hk' := (hmappings k).2 rfl
    exact ⟨l', (Attempt.mem_flatten_mapM hlss).2 ⟨k, hk', us, hlinks k hk', hl'⟩, hbare.trans hb.symm⟩

/-- Records at the ends of a link are looked up under the identity, in its order. -/
theorem exists_ends (ht : c.table.Accepted) (hl : c.table.Linked) (hc : cat.Consistent c.table)
    (hk : k ∈ c.table.relationships) (hholds : cat.Holds k a b none)
    (hb : l.bare = k.between a b none) (hi : l.identity c.home = .ok i) : ∃ a' b' : Record,
      ((a' = a ∧ b' = b) ∨ a' = b ∧ b' = a) ∧
        (cat.find? i.one.recordId = some a' ∧ a'.type = i.one.assetType) ∧
          cat.find? i.two.recordId = some b' ∧ b'.type = i.two.assetType := by
  have hnone : l.level = none := Option.map_eq_none_iff.1 (Link.level_of_bare hb)
  obtain ⟨p, q, hp, hq, ⟨hpt, hpid, _⟩, hqt, hqid, _⟩ := hholds.exists_refs ht hl hc hk hb
  obtain ⟨p', q', hp', hq', hends⟩ := Link.ends_of_plain hnone hi
  cases hp.symm.trans hp'
  cases hq.symm.trans hq'
  have hone := hc.keyed.find?_eq_some.2 ⟨hholds.one.1, hpid.symm⟩
  have htwo := hc.keyed.find?_eq_some.2 ⟨hholds.two.1, hqid.symm⟩
  rcases Sym2.eq_iff.1 hends with ⟨h₁, h₂⟩ | ⟨h₁, h₂⟩
  · rw [h₁, h₂]
    exact ⟨a, b, .inl ⟨rfl, rfl⟩, ⟨hone, hpt.symm⟩, htwo, hqt.symm⟩
  · rw [h₁, h₂]
    exact ⟨b, a, .inr ⟨rfl, rfl⟩, ⟨htwo, hqt.symm⟩, hone, hpt.symm⟩

/-- No record stands for relationships of the type between two equal records. -/
theorem levelMappings_of_plain (hl : c.table.Linked) (hk : k ∈ c.table.relationships)
    (hplain : k.isLevel = false) : c.levelMappings k.type k.one.assetType = [] := by
  refine List.filter_eq_nil_iff.2 fun m hm hlevel => ?_
  rw [Bool.and_eq_true, beq_iff_eq, beq_iff_eq] at hlevel
  exact hl.apart k hk m hm hplain hlevel.1.symm hlevel.2

/-- The links of two records include those that the catalog holds between them. -/
theorem exists_linkedPairs (ht : c.table.Accepted) (hl : c.table.Linked)
    (hc : cat.Consistent c.table) {a' b' : Record} (hab : (a' = a ∧ b' = b) ∨ a' = b ∧ b' = a)
    (hholds : cat.Holds k a b none) (hms : ∀ m ∈ ms, m ∈ c.table.relationships) (hmem : k ∈ ms) :
    ∃ lss, ms.mapM (c.linkedPair cat a' b') = .ok lss ∧
      (∀ l ∈ lss.flatten, cat.Held c.table l) ∧
      ∃ l ∈ lss.flatten, l.bare = k.between a b none ∧ l.involves a'.id = true := by
  have hvalues : a' ∈ cat.records.values ∧ b' ∈ cat.records.values := by
    rcases hab with ⟨rfl, rfl⟩ | ⟨rfl, rfl⟩
    · exact ⟨hholds.one.1, hholds.two.1⟩
    · exact ⟨hholds.two.1, hholds.one.1⟩
  have hpairs (m : RelationshipMapping) (hm : m ∈ ms) :=
    exists_linkedPair (c := c) ht hl hc (hms m hm) hvalues.1 hvalues.2
  obtain ⟨lss, hlss⟩ := Attempt.exists_mapM fun m hm => (hpairs m hm).imp fun _ => And.left
  refine ⟨lss, hlss, fun l' hl' => ?_, ?_⟩
  · obtain ⟨m, hm, us, hus, hl'⟩ := (Attempt.mem_flatten_mapM hlss).1 hl'
    obtain ⟨vs, hvs, hheld, _⟩ := hpairs m hm
    rw [hus] at hvs
    cases hvs
    exact hheld l' hl'
  · obtain ⟨us, hus, _, hone⟩ := hpairs k hmem
    have hin : a ∈ [a', b'] := by
      rcases hab with ⟨rfl, _⟩ | ⟨_, rfl⟩ <;> simp
    obtain ⟨l', hl', hbare⟩ := List.mem_map.1 (hone a hin _ ⟨a, b, none, hholds, rfl, rfl⟩)
    refine ⟨l', (Attempt.mem_flatten_mapM hlss).2 ⟨k, hmem, us, hus, hl'⟩, hbare, ?_⟩
    -- The identity may name the ends in either order, so the first record can be either end.
    have h₁ : l'.one.id = a.id := id_atEnd_of_bare (e := .one) hbare
    have h₂ : l'.two.id = b.id := id_atEnd_of_bare (e := .two) hbare
    rw [Link.involves, h₁, h₂]
    rcases hab with ⟨rfl, _⟩ | ⟨rfl, _⟩ <;> simp

/-- The records at the ends yield the link again, whichever of them comes first. -/
theorem exists_candidates_plain (ht : c.table.Accepted) (hl : c.table.Linked)
    (hc : cat.Consistent c.table) (hreads : c.Reads cat) (hk : k ∈ c.table.relationships)
    (hholds : cat.Holds k a b none) (hb : l.bare = k.between a b none)
    (hi : l.identity c.home = .ok i) (guid : String) :
    ¬(i.one = i.two ∧ c.levelMappings i.type i.one.assetType ≠ []) ∧ ∃ ls,
      Answers cat (c.linksOfEnds guid i) (.ok ls) ∧
        (∀ l' ∈ ls, cat.Held c.table l') ∧ ∃ l' ∈ ls, l'.bare = l.bare := by
  have hplain : k.isLevel = false := by
    rcases hholds.level_cases with ⟨hplain, _⟩ | ⟨_, _, _, hsome, _⟩
    · exact hplain
    · cases hsome
  have htype := type_of_bare hb hi
  obtain ⟨a', b', hab, ⟨ha', hat⟩, hb', hbt⟩ := exists_ends ht hl hc hk hholds hb hi
  constructor
  · -- Both ends can be one record, but no record stands for links of this type then.
    rintro ⟨hsame, hne⟩
    have hone : i.one.assetType = k.one.assetType := by
      rcases hab with ⟨rfl, _⟩ | ⟨_, rfl⟩
      · exact hat.symm.trans hholds.one.2
      · rw [hsame]
        exact hbt.symm.trans hholds.one.2
    rw [htype, hone] at hne
    exact hne (levelMappings_of_plain hl hk hplain)
  · have hmem : k ∈ (c.table.relationshipsBetween i.type i.one.assetType
        i.two.assetType).filter fun m => !m.isLevel := by
      refine MappingTable.mem_plain_between.2 ⟨hk, hplain, htype.symm, ?_⟩
      rw [RelationshipMapping.connects, hplain, ← hat, ← hbt, ← hholds.one.2, ← hholds.two.2]
      rcases hab with ⟨rfl, rfl⟩ | ⟨rfl, rfl⟩ <;> simp
    have hms : ∀ m ∈ (c.table.relationshipsBetween i.type i.one.assetType
        i.two.assetType).filter fun m => !m.isLevel, m ∈ c.table.relationships :=
      fun m hm => (MappingTable.mem_plain_between.1 hm).1
    obtain ⟨lss, hlss, hheld, l', hl', hbare, hinvolves⟩ :=
      exists_linkedPairs ht hl hc hab hholds hms hmem
    have hanswers := answers_linksOfEnds guid hreads ht hl ha' hat hb' hbt rfl
      (List.ne_nil_of_mem hmem)
    rw [hlss] at hanswers
    exact ⟨_, hanswers, fun l' hl' => hheld l' (List.mem_filter.1 hl').1, l',
      List.mem_filter.2 ⟨hl', hinvolves⟩, hbare.trans hb.symm⟩

section Select

theorem mem_identified {cs : List (RelationshipId × Link)} (h : c.identified ls = .ok cs)
    {p : RelationshipId × Link} : p ∈ cs ↔ p.2 ∈ ls ∧ p.2.identity c.home = .ok p.1 := by
  have hpair {l' : Link} {q : RelationshipId × Link} :
      (do .ok (← l'.identity c.home, l') : Attempt (RelationshipId × Link)) = .ok q ↔
        l'.identity c.home = .ok q.1 ∧ q.2 = l' := by
    rw [Attempt.bind_eq_ok]
    constructor
    · rintro ⟨j, hj, he⟩
      cases he
      exact ⟨hj, rfl⟩
    · rintro ⟨hj, rfl⟩
      exact ⟨q.1, hj, rfl⟩
  constructor
  · intro hp
    obtain ⟨l', hl', he⟩ := Attempt.exists_of_mem_mapM h hp
    obtain ⟨hid, rfl⟩ := hpair.1 he
    exact ⟨hl', hid⟩
  · rintro ⟨hl', hid⟩
    obtain ⟨q, hq, he⟩ := Attempt.exists_of_mapM h hl'
    obtain ⟨hid', hq₂⟩ := hpair.1 he
    have hq₁ : q.1 = p.1 := Except.ok.inj (hid'.symm.trans hid)
    exact Prod.ext hq₁ hq₂ ▸ hq

theorem exists_identified (h : ∀ l ∈ ls, ∃ i, l.identity c.home = .ok i) :
    ∃ cs, c.identified ls = .ok cs :=
  Attempt.exists_mapM fun l hl => by
    obtain ⟨j, hj⟩ := h l hl
    exact ⟨(j, l), by rw [hj]; rfl⟩

theorem mem_select_of_exact {cs : List (RelationshipId × Link)} {l₀ : Link} (h : (i, l₀) ∈ cs) :
    l ∈ select i cs ↔ (i, l) ∈ cs := by
  have hexact : (cs.filter (·.1 = i)).isEmpty = false := by
    rw [List.isEmpty_eq_false_iff]
    exact List.ne_nil_of_mem (List.mem_filter.2 ⟨h, decide_eq_true rfl⟩)
  rw [select, hexact]
  simp only [Bool.false_eq_true, if_false, List.mem_map, List.mem_filter, decide_eq_true_eq]
  constructor
  · rintro ⟨p, ⟨hp, rfl⟩, rfl⟩
    exact hp
  · intro hl
    exact ⟨(i, l), ⟨hl, rfl⟩, rfl⟩

theorem exists_of_firstRelationship (h : c.firstRelationship ls = .ok (some x)) :
    ∃ l ∈ ls, l.relationship? c.home c.table = .ok (some x) := by
  induction ls with
  | nil => cases h
  | cons l ls ih =>
      rw [firstRelationship] at h
      obtain ⟨o, ho, h⟩ := Attempt.bind_eq_ok.1 h
      cases o with
      | some x' =>
          cases h
          exact ⟨l, List.mem_cons_self, ho⟩
      | none =>
          obtain ⟨l', hl', hx⟩ := ih h
          exact ⟨l', List.mem_cons_of_mem l hl', hx⟩

/-- Links without a relationship are passed over, but none may fail. -/
theorem exists_firstRelationship (h : ∀ l ∈ ls, ∃ o, l.relationship? c.home c.table = .ok o)
    (hl : l ∈ ls) (hx : l.relationship? c.home c.table = .ok (some x)) :
    ∃ x', c.firstRelationship ls = .ok (some x') := by
  induction ls with
  | nil => cases hl
  | cons l' ls ih =>
      obtain ⟨o, ho⟩ := h l' List.mem_cons_self
      rw [firstRelationship, ho, Attempt.ok_bind]
      cases o with
      | some x' => exact ⟨x', rfl⟩
      | none =>
          refine ih (fun m hm => h m (List.mem_cons_of_mem l' hm)) ?_
          rcases List.mem_cons.1 hl with rfl | hl
          · cases ho.symm.trans hx
          · exact hl

end Select

/-- The records that an identity names yield the link that it was made of. -/
theorem exists_candidates (ht : c.table.Accepted) (hl : c.table.Linked)
    (hc : cat.Consistent c.table) (hreads : c.Reads cat) (h : cat.Held c.table l)
    (hi : l.identity c.home = .ok i) (guid : String) : ∃ ls,
      Answers cat (c.derived guid i) (.ok ls) ∧
      (∀ l' ∈ ls, cat.Held c.table l') ∧ ∃ l' ∈ ls, l'.bare = l.bare := by
  obtain ⟨k, hk, a, b, level, hholds, hb⟩ := h
  rw [derived]
  cases level with
  | none =>
      obtain ⟨hplain, ls, hls⟩ :=
        exists_candidates_plain ht hl hc hreads hk hholds hb hi guid
      rw [if_neg hplain]
      exact ⟨ls, hls⟩
  | some r =>
      obtain ⟨hsame, hne, ls, hls⟩ :=
        exists_candidates_level hl hc hreads hk hholds hb hi guid
      rw [if_pos ⟨hsame, hne⟩]
      exact ⟨ls, hls⟩

/-- Resolving takes a link with the identity, if one that has a relationship is derived. -/
theorem gives_resolve_of_derived {P : Link → Prop} (hhome : i.home = c.home)
    (hguid : i.guid = .ok guid)
    (hderived : Gives cat (c.derived guid i) fun ls => (∀ l ∈ ls, P l) ∧
      ∃ l ∈ ls, l.identity c.home = .ok i ∧ ∃ x, l.relationship? c.home c.table = .ok (some x))
    (hidentity : ∀ l, P l → ∃ j, l.identity c.home = .ok j)
    (hrel : ∀ l, P l → l.identity c.home = .ok i → ∃ o, l.relationship? c.home c.table = .ok o) :
    Gives cat (c.resolve guid) fun x => x.guid = guid ∧
      ∃ l, P l ∧ l.relationship? c.home c.table = .ok (some x) := by
  have hdecode : c.decodeRelationship guid = .ok i := by
    rw [decodeRelationship, RelationshipId.decode_guid hguid (some c.home) (by simp [hhome])]
  rw [resolve]
  refine (gives_ofAttempt (P := (i = ·)) hdecode rfl).bind ?_
  rintro _ rfl
  refine hderived.bind ?_
  rintro ls ⟨hall, l, hl, hi, x, hx⟩
  obtain ⟨cs, hcs⟩ := exists_identified fun l' hl' => hidentity l' (hall l' hl')
  refine (gives_ofAttempt (P := (cs = ·)) hcs rfl).bind ?_
  rintro _ rfl
  have hexact : (i, l) ∈ cs := (mem_identified hcs).2 ⟨hl, hi⟩
  have hselected (l' : Link) (hl' : l' ∈ select i cs) : P l' ∧ l'.identity c.home = .ok i :=
    ((mem_identified hcs).1 ((mem_select_of_exact hexact).1 hl')).imp_left (hall l')
  obtain ⟨x', hfirst⟩ := exists_firstRelationship
    (fun l' hl' => hrel l' (hselected l' hl').1 (hselected l' hl').2)
    ((mem_select_of_exact hexact).2 hexact) hx
  refine (gives_ofAttempt (P := (some x' = ·)) hfirst rfl).bind ?_
  rintro _ rfl
  -- The link found first may be another one; it shares the identity, and so the identifier.
  obtain ⟨l', hl', hx'⟩ := exists_of_firstRelationship hfirst
  obtain ⟨hP, hi'⟩ := hselected l' hl'
  obtain ⟨_, _, i', _, _, hi'', hguid', _⟩ := Link.relationship?_eq_some hx'
  cases hi'.symm.trans hi''
  exact gives_pure ⟨Except.ok.inj (hguid'.symm.trans hguid), l', hP, hx'⟩

/-- The identifier of the relationship of a link that the catalog holds is resolved, to a
relationship of the same type with the same ends. -/
theorem gives_resolve_of_held (ht : c.table.Accepted) (hl : c.table.Linked)
    (hc : cat.Consistent c.table) (hreads : c.Reads cat) (h : cat.Held c.table l)
    (hx : l.relationship? c.home c.table = .ok (some x)) :
    Gives cat (c.resolve x.guid) fun x' => x'.guid = x.guid ∧ x'.type = x.type ∧
      s(x'.one.guid, x'.two.guid) = s(x.one.guid, x.two.guid) := by
  obtain ⟨_, _, i, _, _, hi, hguid, _⟩ := Link.relationship?_eq_some hx
  have hhome : i.home = c.home := (Link.identity_data hi).1
  have hh : c.home ≠ "" := hhome ▸ (RelationshipId.guid_eq_ok.1 hguid).1.1
  have hrel (l' : Link) (hl' : cat.Held c.table l') := hl'.exists_relationship ht hl hc hh
  obtain ⟨ls, hanswers, hheld, l₁, hl₁, hbare⟩ := exists_candidates ht hl hc hreads h hi x.guid
  refine (gives_resolve_of_derived (P := cat.Held c.table) hhome hguid (hanswers.gives ⟨hheld, l₁,
    hl₁, (Link.identity_congr hbare c.home).trans hi, hrel l₁ (hheld l₁ hl₁)⟩)
    (fun l' hl' => hl'.exists_identity hl hc c.home)
    fun l' hl' _ => (hrel l' hl').imp' some fun _ => id).imp ?_
  rintro x' ⟨hguid', l', hl', hx'⟩
  exact ⟨hguid', Catalog.Held.ends_eq_of_guid_eq hl hc hl' h hx' hx hguid'⟩

end Scope

namespace Collection

variable {c : Collection} {s : Service}

/-- Every relationship that an entity reports is the one that its identifier is resolved to. -/
theorem resolved_of_listed (htable : c.table = MappingTable.standard)
    (hc : s.catalog.Consistent c.table) {operation guid : String} {type : Option String} {w : Window}
    {historical : Bool} {rs : List Relationship}
    (h : (c.run operation (c.relationshipPage s guid type w historical)).1 = .ok (.value rs))
    (operation' : String) : ∀ r ∈ rs, ∃ r',
      (c.run operation' (c.relationship s r.guid)).1 = .ok (.value r') ∧ r'.guid = r.guid ∧
        r'.type = r.type ∧ s(r'.one.guid, r'.two.guid) = s(r.one.guid, r.two.guid) := by
  have ht : c.table.Accepted := htable ▸ MappingTable.accepted_standard
  have hl : c.table.Linked := htable ▸ MappingTable.linked_standard
  intro r hr
  obtain ⟨hreads, o, hn, ps, xs, hps, hrel, rfl⟩ :=
    exists_of_relationshipPage hl.valid (run_eq_value.1 h)
  have hxs : r ∈ xs := mem_sequenced.1 ((Catalog.page_sublist _ _ _).subset hr)
  obtain ⟨ls, us, hls, hus, rfl⟩ := Scope.related_eq_ok.1 hrel
  obtain ⟨l, hmem, hx⟩ := (Scope.mem_relationships hus).1 (Scope.mem_of_mem_distinct hxs)
  rw [Scope.linked_project (c := c.scope s) ht hl hn.owned.backed hn.owned.type hps] at hls
  have hheld := Scope.held_of_linked (c := c.scope s) hl hc hn.owned.backed
    (hn.mem_values hc.keyed) hls hmem
  obtain ⟨r', hr', hrun⟩ :=
    (Scope.gives_resolve_of_held (c := c.scope s) ht hl hc hreads hheld hx).exists_run
  exact ⟨r', run_eq_value.2 hrun, hr'⟩

end Collection

namespace Sample

/-- What listing the relationships of the column answers. -/
def columnLinks : Attempt (Outcome (List Relationship)) :=
  (collection.run "get_relationships_for_entity"
    (collection.relationshipPage linkedService "e:home-1::database_column:column-1" none {} false)).1

theorem guids_columnLinks : relationshipGuids columnLinks =
    some ["r:home-1:ForeignKey:0::database_column:column-1::database_column:column-1",
      "r:home-1:SemanticAssignment:0::database_column:column-1::term:term-1",
      "r:home-1:DataClassAssignment:1::classification:detection-1::classification:detection-1"] := by
  decide +kernel

theorem columnLinks_resolved : ∃ rs, columnLinks = .ok (.value rs) ∧ rs.length = 3 ∧
    ∀ r ∈ rs, ∃ r',
      (collection.run "get_relationship" (collection.relationship linkedService r.guid)).1 =
        .ok (.value r') ∧ r'.guid = r.guid ∧ r'.type = r.type ∧
          s(r'.one.guid, r'.two.guid) = s(r.one.guid, r.two.guid) := by
  obtain ⟨rs, hrs, hguids⟩ := exists_of_relationshipGuids guids_columnLinks
  refine ⟨rs, hrs, ?_, Collection.resolved_of_listed (c := collection) (s := linkedService) rfl
    consistent_linkedService hrs "get_relationship"⟩
  rw [← List.length_map (f := Relationship.guid), hguids]
  rfl

end Sample

end MetaFed
