import MetaFed.Proofs.Closed
import MetaFed.Proofs.Hierarchy

/-!
What resolving derives again in a catalog without dangling references: links between records that
exist, and among them the link that an identity was made of, if the owner of its end one lists its
mapping.
-/

namespace MetaFed

/-- Every record that stands for a link of a mapping has the properties that the link needs. -/
def Catalog.Readable (cat : Catalog) (k : RelationshipMapping) : Prop :=
  k.kind = .level → ∀ r ∈ cat.records.values, ∃ ls, k.levelLinks r = .ok ls

namespace RelationshipMapping

variable {k : RelationshipMapping} {r : Record} {wanted : List String} {l : Link} {ls : List Link}

theorem kind_ne_level (h : k.isLevel = false) : k.kind ≠ .level := by
  simpa [isLevel] using h

theorem one_of_links (hplain : k.isLevel = false) (h : k.links r (some .one) = .ok ls)
    (hl : l ∈ ls) : r.type = k.one.assetType ∧ l.one = r.ref := by
  cases hk : k.kind with
  | self =>
      simp only [links, hk] at h
      cases h
      obtain ⟨htype, rfl⟩ := mem_selfLinks hl
      exact ⟨htype, rfl⟩
  | level => exact absurd hk (kind_ne_level hplain)
  | reference =>
      simp only [links, hk] at h
      obtain ⟨htype, _, _, x, _, _, rfl⟩ := mem_linksFromOne h hl
      exact ⟨htype, rfl⟩

theorem links_project_one (hplain : k.isLevel = false)
    (hw : k.kind = .reference → k.one.navigationName ∈ wanted) :
    k.links (r.project wanted) (some .one) = k.links r (some .one) := by
  cases hk : k.kind with
  | self => simp only [links, hk, selfLinks, Record.project_type, Record.project_ref]
  | level => exact absurd hk (kind_ne_level hplain)
  | reference =>
      simp only [links, hk]
      exact linksFromOne_project (hw hk)

/-- Only where nothing tells its ends apart can a link have one record at both of them. -/
theorem Joins.eq_of_ends_eq {home : String} {i : RelationshipId} (hone : k.one.mark ≠ some "")
    (htwo : k.two.mark ≠ some "") (h : k.Joins l) (hi : l.identity home = .ok i)
    (hsame : i.one = i.two) : i.type = k.type ∧ i.one.assetType = k.one.assetType ∧
      k.one.assetType = k.two.assetType ∧ k.one.mark = k.two.mark := by
  obtain ⟨p, q, hp, hq, hends⟩ := Link.ends_of_plain h.level hi
  rw [Link.oneRef, h.mapping, RecordRef.of_eq_ok_of_mark hone, h.one] at hp
  rw [Link.twoRef, h.mapping, RecordRef.of_eq_ok_of_mark htwo, h.two] at hq
  obtain ⟨_, hpt, _, hpm⟩ := hp
  obtain ⟨_, hqt, _, hqm⟩ := hq
  obtain ⟨rfl, rfl⟩ : i.one = p ∧ i.one = q := by
    rcases Sym2.eq_iff.1 hends with ⟨h₁, h₂⟩ | ⟨h₁, h₂⟩
    · exact ⟨h₁, hsame.trans h₂⟩
    · exact ⟨hsame.trans h₂, h₁⟩
  exact ⟨by rw [(Link.identity_data hi).2.1, h.mapping], hpt, hpt.symm.trans hqt, hpm.symm.trans hqm⟩

end RelationshipMapping

namespace MappingTable

/-- A table that leads from an identity back to the mapping of its link. -/
structure Rooted (t : MappingTable) : Prop where
  /-- The owner of end one lists the relationship, unless records of its own stand for it. -/
  listed : ∀ k ∈ t.relationships, k.isLevel = false → ∃ m ∈ backed t.mappings,
    m.assetType = k.one.assetType ∧ m.mark = k.one.mark ∧ k ∈ m.relationships
  /-- A record linked to itself cannot be taken for one that stands for the link. -/
  apart : ∀ k ∈ t.relationships, ∀ k' ∈ t.relationships, k.isLevel = false →
    k.one.assetType = k.two.assetType → k.one.mark = k.two.mark → k.type = k'.type →
      k'.levelType ≠ some k.one.assetType

theorem Linked.rooted {t : MappingTable} (hl : t.Linked) : t.Rooted where
  listed k hk _ := hl.listed k hk .one
  apart k hk k' hk' hplain _ _ := hl.apart k hk k' hk' hplain

end MappingTable

namespace Scope

open Session

variable {c : Scope} {cat : Catalog} {k m : RelationshipMapping} {owner : EntityMapping}
  {r a b : Record} {e : End} {l : Link} {us ls : List Link} {i : RelationshipId}
  {type : Option String} {ps : List String} {x : Relationship} {guid : String}

/-- The backend looks records up in the catalog, and answers every search that the catalog does. -/
structure Serves (c : Scope) (cat : Catalog) : Prop extends c.Reads cat where
  answers : ∀ n hits, cat.search n = .ok hits → c.backend.answer n = .ok hits

theorem mem_linkedPair (ho : c.ownerOfOne m = some owner) (h : c.linkedPair cat a b m = .ok ls) :
    l ∈ ls ↔ ∃ r ∈ [a, b].filter (·.type = m.one.assetType), ∃ us,
      c.linked cat owner r (some m.type) = .ok us ∧ l ∈ us := by
  simp only [linkedPair, ho] at h
  obtain ⟨lss, hlss, h⟩ := Attempt.bind_eq_ok.1 h
  cases h
  exact Attempt.mem_flatten_mapM hlss

section Known

variable (hs : c.Serves cat) (hc : cat.Closed)

omit hs in
include hc in
theorem exists_known_levelLinked (hkind : k.kind = .level) (hread : cat.Readable k)
    (recordId : String) (e : End) (refs : List Reference) :
    ∃ ls, levelLinked cat k recordId e refs = .ok ls ∧ ∀ l ∈ ls, l.Known cat := by
  have hgrounded {x : Reference} {r : Record} (hr : cat.find? x.id = some r) :
      r ∈ cat.records.values ∧ r.Grounded cat :=
    have hmem := (hc.keyed.find?_eq_some.1 hr).1
    ⟨hmem, hc.grounded hmem⟩
  obtain ⟨ls, hls⟩ : ∃ ls, levelLinked cat k recordId e refs = .ok ls := by
    refine exists_levelLinked_of (fun x => ?_) recordId e refs
    rw [standing]
    cases hr : cat.find? x.id with
    | none => exact ⟨[], rfl⟩
    | some r =>
        obtain ⟨hmem, hr⟩ := hgrounded hr
        exact RelationshipMapping.exists_links hr.refers (fun _ => hread hkind r hmem) none
  refine ⟨ls, hls, fun l hl => ?_⟩
  obtain ⟨_, x, _, r, hr, us, hus, hl⟩ := (mem_levelLinked hls).1 hl
  exact RelationshipMapping.known_of_links (hgrounded hr).2 hus hl

include hs hc

/-- What a record is linked to at an end can be derived, even of a part of the record. -/
theorem exists_known_linkedAt (hread : cat.Readable k) (hr : r.Grounded cat) (e : End) :
    ∃ ls, c.linkedAt cat k r e = .ok ls ∧ ∀ l ∈ ls, l.Known cat := by
  have hlinks (hk : k.kind ≠ .level) {r' : Record} (hr' : r'.Grounded cat) (e' : Option End) :=
    RelationshipMapping.exists_links (k := k) hr'.refers (fun h => absurd h hk) e'
  cases hkind : k.kind with
  | self =>
      obtain ⟨ls, hls⟩ := hlinks (by simp [hkind]) hr none
      refine ⟨ls, ?_, fun l => RelationshipMapping.known_of_links hr hls⟩
      simp only [linkedAt, hkind, hls]
  | level =>
      obtain ⟨refs, hrefs, _⟩ := hr.refers ((k.atEnd e).link.getD "")
      obtain ⟨ls, hls, hknown⟩ := exists_known_levelLinked hc hkind hread r.id e refs
      refine ⟨ls, ?_, hknown⟩
      simp only [linkedAt, hkind, hrefs, Attempt.ok_bind, hls]
  | reference =>
      by_cases hdirect : e = .one ∨ isGiven (k.atEnd e).navigation
      · obtain ⟨ls, hls⟩ := hlinks (by simp [hkind]) hr (some e)
        refine ⟨ls, ?_, fun l => RelationshipMapping.known_of_links hr hls⟩
        simp only [linkedAt, hkind, if_pos hdirect, hls]
      · -- Without a property to follow, the links are those of records that a search finds.
        obtain ⟨hits, hhits, hground⟩ := hc.exists_reverseSearch k r.id
        obtain ⟨ls, hls⟩ : ∃ ls, collect (fun r' => k.links r' (some .one)) none hits = .ok ls :=
          exists_collect fun r' hr' => hlinks (by simp [hkind]) (hground r' hr') (some .one)
        refine ⟨ls.filter fun l => l.two.id == r.id, ?_, fun l hl => ?_⟩
        · simp only [linkedAt, hkind, if_neg hdirect, reverseLinked, hs.answers _ _ hhits,
            Attempt.ok_bind, hls]
        · obtain ⟨r', hr', us, hus, hl⟩ := (mem_collect hls).1 (List.mem_of_mem_filter hl)
          exact RelationshipMapping.known_of_links (hground r' hr') hus hl

theorem exists_known_linked (hread : ∀ k ∈ owner.relationships,
    (type.all fun t => c.table.hierarchy.isTypeOf k.type t) = true → cat.Readable k)
    (hr : r.Grounded cat) : ∃ ls, c.linked cat owner r type = .ok ls ∧ ∀ l ∈ ls, l.Known cat := by
  obtain ⟨lss, hlss, hknown⟩ := Attempt.exists_flatten_mapM (P := Link.Known cat)
    fun (p : RelationshipMapping × End) (hp : p ∈ c.partsOf owner r type) =>
      have hk := mem_partsOf_iff.1 hp
      exists_known_linkedAt hs hc (hread p.1 hk.1 hk.2.1) hr p.2
  exact ⟨lss.flatten, by rw [linked, hlss, Attempt.ok_bind], hknown⟩

theorem exists_known_linkedPair (hread : ∀ k ∈ c.table.relationships,
    c.table.hierarchy.isTypeOf k.type m.type = true → cat.Readable k) (ha : a.Grounded cat)
    (hb : b.Grounded cat) : ∃ ls, c.linkedPair cat a b m = .ok ls ∧ ∀ l ∈ ls, l.Known cat := by
  cases ho : c.ownerOfOne m with
  | none => exact ⟨[], by simp only [linkedPair, ho], by simp⟩
  | some owner =>
      have hlinked : ∀ r ∈ [a, b].filter (·.type = m.one.assetType), ∃ us,
          c.linked cat owner r (some m.type) = .ok us ∧ ∀ l ∈ us, l.Known cat := by
        intro r hr
        refine exists_known_linked hs hc (fun k hk htype => ?_) ?_
        · refine hread k (MappingTable.mem_relationships (mem_of_ownerOfOne ho).1 hk) ?_
          simpa using htype
        · rcases List.mem_cons.1 (List.mem_filter.1 hr).1 with rfl | hr
          · exact ha
          · exact List.mem_singleton.1 hr ▸ hb
      obtain ⟨lss, hlss, hknown⟩ := Attempt.exists_flatten_mapM hlinked
      exact ⟨lss.flatten, by simp only [linkedPair, ho, hlss, Attempt.ok_bind], hknown⟩

end Known

theorem answers_linkedPair (hc : c.Reads cat) (hv : ∀ k ∈ c.table.relationships, k.fault? = none)
    (a b : Record) (m : RelationshipMapping) :
    Answers cat (c.linksOfPair a b m) (c.linkedPair cat a b m) := by
  rw [linksOfPair, linkedPair]
  cases ho : c.ownerOfOne m with
  | none => exact answers_pure []
  | some owner =>
      have hvalid : ∀ k ∈ owner.relationships, k.fault? = none := fun k hk =>
        hv k (MappingTable.mem_relationships (mem_of_ownerOfOne ho).1 hk)
      refine (Answers.mapM fun r _ => ?_).bind fun lss _ => answers_pure lss.flatten
      exact answers_linksOf hc hvalid r (some m.type)

theorem linkedAt_one (hplain : k.isLevel = false) :
    c.linkedAt cat k r .one = k.links r (some .one) := by
  cases hk : k.kind with
  | self => simp only [linkedAt, hk, RelationshipMapping.links]
  | level => exact absurd hk (RelationshipMapping.kind_ne_level hplain)
  | reference => simp only [linkedAt, hk, true_or, if_true]

/-- The records at the ends of a link are looked up under its identity, in its order. -/
theorem exists_ends_of_known (hc : cat.Closed) (hplain : k.isLevel = false) (hj : k.Joins l)
    (hl : l.Known cat) (hi : l.identity c.home = .ok i) : ∃ a b,
      (cat.find? i.one.recordId = some a ∧ a.type = i.one.assetType) ∧
      (cat.find? i.two.recordId = some b ∧ b.type = i.two.assetType) ∧
      (cat.find? l.one.id = some a ∨ cat.find? l.one.id = some b) ∧ l.involves a.id = true ∧
      k.connects i.one.assetType i.two.assetType = true := by
  obtain ⟨p, q, hp, hq, hends⟩ := Link.ends_of_plain hj.level hi
  obtain ⟨_, hpt, hpid, _⟩ := RecordRef.of_eq_ok.1 hp
  obtain ⟨_, hqt, hqid, _⟩ := RecordRef.of_eq_ok.1 hq
  obtain ⟨a, ha, hat, _⟩ := hc.exists_find? hl.one
  obtain ⟨b, hb, hbt, _⟩ := hc.exists_find? hl.two
  have haid : a.id = l.one.id := (hc.keyed.find?_eq_some.1 ha).2
  have hbid : b.id = l.two.id := (hc.keyed.find?_eq_some.1 hb).2
  rcases Sym2.eq_iff.1 hends with ⟨h₁, h₂⟩ | ⟨h₁, h₂⟩
  · rw [h₁, h₂, hpt, hpid, hqt, hqid]
    refine ⟨a, b, ⟨ha, hat⟩, ⟨hb, hbt⟩, .inl ha, by simp [Link.involves, haid], ?_⟩
    simp [RelationshipMapping.connects, hplain, hj.one, hj.two]
  · rw [h₁, h₂, hpt, hpid, hqt, hqid]
    refine ⟨b, a, ⟨hb, hbt⟩, ⟨ha, hat⟩, .inr ha, by simp [Link.involves, hbid], ?_⟩
    simp [RelationshipMapping.connects, hplain, hj.one, hj.two]

section Derived

variable (hs : c.Serves cat) (hc : cat.Closed) (ht : c.table.Accepted) (hroot : c.table.Rooted)
  (hv : ∀ k ∈ c.table.relationships, k.fault? = none)
  (hread : ∀ k' ∈ c.table.relationships, c.table.hierarchy.isTypeOf k'.type k.type = true →
    cat.Readable k')
  (hk : k ∈ c.table.relationships) (hr : r ∈ cat.records.values)
  (hus : k.links r (some .one) = .ok us) (hl : l ∈ us) (hi : l.identity c.home = .ok i)

include ht hroot hv hk hus hl in
/-- A record that a link was read from yields it again, in a part that has what its owner reads. -/
theorem mem_linkedPair_of_links (hplain : k.isLevel = false) {ms : List RelationshipMapping}
    (hmem : k ∈ ms) (hps : c.propertiesFor k.one.assetType ms ⊆ ps) (hpart : r.project ps ∈ [a, b])
    (h : c.linkedPair cat a b k = .ok ls) : l ∈ ls := by
  obtain ⟨htype, _⟩ := RelationshipMapping.one_of_links hplain hus hl
  obtain ⟨owner, howner, hasset, hmark, hlists⟩ := hroot.listed k hk hplain
  have ho := ownerOfOne_eq_some ht howner hasset hmark
  have hplays : (k, End.one) ∈ c.partsOf owner (r.project ps) (some k.type) :=
    mem_partsOf_of_listed ht howner hmark hlists (r.project_type ps ▸ htype)
      (by simpa using ht.isTypeOf_self hk)
  -- The owner asks for the property that the references are read from.
  have hnavigation : k.kind = .reference → k.one.navigationName ∈ ps := by
    intro hkind
    have hleading : k.leading .one = k.one.navigation :=
      RelationshipMapping.leading_of_reference hkind .one
    have hgiven := RelationshipMapping.given_of_reference (hv k hk) hkind
    rw [← hleading] at hgiven
    have hplayed := (mem_partsOf hplays).2
    rw [Record.project_type, htype, ← hasset] at hplayed
    have hproj := EntityMapping.mem_projected (ht.mark_ne (MappingTable.mem_backed.1 howner).1)
      hlists hplayed hgiven
    rw [hleading] at hproj
    exact hps (projected_subset hmem ho hproj)
  have hlinked : c.linkedAt cat k (r.project ps) .one = .ok us := by
    rw [linkedAt_one hplain, RelationshipMapping.links_project_one hplain hnavigation, hus]
  have hfilter : r.project ps ∈ [a, b].filter (·.type = k.one.assetType) :=
    List.mem_filter.2 ⟨hpart, by simpa using htype⟩
  simp only [mem_linkedPair ho h]
  simp only [linkedPair, ho] at h
  obtain ⟨lss, hlss, _⟩ := Attempt.bind_eq_ok.1 h
  obtain ⟨vs, _, hvs⟩ := Attempt.exists_of_mapM hlss hfilter
  exact ⟨_, hfilter, vs, hvs, (mem_linked hvs).2 ⟨_, hplays, us, hlinked, hl⟩⟩

include hs hc ht hroot hv hread hk hr hus hl hi

/-- The records at the ends yield links between records that exist, and the link among them. -/
theorem gives_linksOfEnds (hplain : k.isLevel = false) (hj : k.Joins l) (guid : String) :
    Gives cat (c.linksOfEnds guid i) fun ls => (∀ l' ∈ ls, l'.Known cat) ∧ l ∈ ls := by
  have hknown := RelationshipMapping.known_of_links (hc.grounded hr) hus hl
  obtain ⟨a, b, ⟨ha, hat⟩, ⟨hb, hbt⟩, hself, hinvolves, hconnects⟩ :=
    exists_ends_of_known hc hplain hj hknown hi
  have htype : k.type = i.type := by rw [(Link.identity_data hi).2.1, hj.mapping]
  obtain ⟨hrtype, hone⟩ := RelationshipMapping.one_of_links hplain hus hl
  have hend : r = a ∨ r = b := by
    have hfind : cat.find? l.one.id = some r := hc.keyed.find?_eq_some.2 ⟨hr, by rw [hone]; rfl⟩
    rw [hfind] at hself
    exact hself.imp Option.some.inj Option.some.inj
  obtain ⟨ms, hms⟩ : ∃ ms, ms = (c.table.relationshipsBetween i.type i.one.assetType
    i.two.assetType).filter fun m => !m.isLevel := ⟨_, rfl⟩
  have hmem : k ∈ ms := hms ▸ MappingTable.mem_plain_between.2 ⟨hk, hplain, htype, hconnects⟩
  have hreadable (m : RelationshipMapping) (hm : m ∈ ms) : ∀ k' ∈ c.table.relationships,
      c.table.hierarchy.isTypeOf k'.type m.type = true → cat.Readable k' := by
    rw [hms] at hm
    rw [(MappingTable.mem_plain_between.1 hm).2.2.1, ← htype]
    exact hread
  have hempty : ms.isEmpty = false := List.isEmpty_eq_false_iff.2 (List.ne_nil_of_mem hmem)
  have hground {r : Record} {id : String} (hr : cat.find? id = some r) (ps : List String) :=
    (hc.grounded (hc.keyed.find?_eq_some.1 hr).1).project ps
  rw [linksOfEnds, ← hms]
  refine (gives_endRecord hs.toReads ha hat).bind ?_
  rintro _ ⟨ps, hps, rfl⟩
  refine (gives_endRecord hs.toReads hb hbt).bind ?_
  rintro _ ⟨qs, hqs, rfl⟩
  simp only [hempty, Record.project_id]
  obtain ⟨lss, hlss, hall⟩ := Attempt.exists_flatten_mapM (P := Link.Known cat) fun m hm =>
    exists_known_linkedPair hs hc (hreadable m hm) (hground ha ps) (hground hb qs)
  have hanswers : Answers cat (ms.mapM (c.linksOfPair (a.project ps) (b.project qs))) (.ok lss) :=
    hlss ▸ Answers.mapM fun m _ => answers_linkedPair hs.toReads hv _ _ m
  refine (hanswers.gives (P := (lss = ·)) rfl).bind ?_
  rintro _ rfl
  refine gives_pure ⟨fun l' hl' => hall l' (List.mem_of_mem_filter hl'), ?_⟩
  obtain ⟨vs, _, hvs⟩ := Attempt.exists_of_mapM hlss hmem
  refine List.mem_filter.2 ⟨(Attempt.mem_flatten_mapM hlss).2 ⟨k, hmem, vs, hvs, ?_⟩, hinvolves⟩
  -- The identity may name the ends in either order, so the record can be either of the two.
  rcases hend with rfl | rfl
  · rw [← hat, hrtype] at hps
    exact mem_linkedPair_of_links ht hroot hv hk hus hl hplain hmem hps List.mem_cons_self hvs
  · rw [← hbt, hrtype] at hqs
    exact mem_linkedPair_of_links ht hroot hv hk hus hl hplain hmem hqs (by simp) hvs

omit hroot hus hl in
/-- The record that stands for a link yields it again. -/
theorem gives_linksOfLevel (hkind : k.kind = .level) (hone : k.levelLinks r = .ok [l])
    (guid : String) :
    i.one = i.two ∧ c.levelMappings i.type i.one.assetType ≠ [] ∧
      Gives cat (c.linksOfLevel guid i (c.levelMappings i.type i.one.assetType)) fun ls =>
        (∀ l' ∈ ls, l'.Known cat) ∧ l ∈ ls := by
  obtain ⟨hlevel, _, _, _, _, _, _, _, _, hlink⟩ :=
    RelationshipMapping.mem_levelLinks hone List.mem_cons_self
  obtain ⟨hsame, hasset, hfind⟩ :=
    ends_of_standing hc.keyed hr (y := r.ref) (by rw [hlink]) rfl rfl hi
  have htype : i.type = k.type := by rw [(Link.identity_data hi).2.1, hlink]
  have hmem : k ∈ c.levelMappings i.type i.one.assetType := by
    refine List.mem_filter.2 ⟨hk, ?_⟩
    rw [htype, ← hasset, ← hlevel, Bool.and_eq_true, beq_iff_eq, beq_iff_eq]
    exact ⟨rfl, rfl⟩
  refine ⟨hsame, List.ne_nil_of_mem hmem, ?_⟩
  rw [linksOfLevel]
  refine (gives_endRecord hs.toReads hfind hasset).bind ?_
  rintro _ ⟨ps, hps, rfl⟩
  have hproj {m : RelationshipMapping} (hm : m ∈ c.levelMappings i.type i.one.assetType)
      (hkind : m.kind = .level) : m.levelLinks (r.project ps) = m.levelLinks r :=
    RelationshipMapping.levelLinks_project (hv m (List.mem_filter.1 hm).1) hkind
      fun p hp => hps (List.mem_flatMap.2 ⟨m, hm, hp⟩)
  have hground := (hc.grounded hr).project ps
  -- Other mappings may be of the type and asset type too, and none of them may fail.
  have hlinks (m : RelationshipMapping) (hm : m ∈ c.levelMappings i.type i.one.assetType) :
      ∃ vs, m.links (r.project ps) none = .ok vs ∧ ∀ l' ∈ vs, l'.Known cat := by
    obtain ⟨hmt, hm'⟩ := List.mem_filter.1 hm
    rw [Bool.and_eq_true, beq_iff_eq, htype] at hm'
    obtain ⟨vs, hvs⟩ := RelationshipMapping.exists_links (k := m) hground.refers (fun hkind => by
      rw [hproj hm hkind]
      exact hread m hmt (hm'.1 ▸ ht.isTypeOf_self hmt) hkind r hr) none
    exact ⟨vs, hvs, fun l' => RelationshipMapping.known_of_links hground hvs⟩
  obtain ⟨lss, hlss, hall⟩ := Attempt.exists_flatten_mapM hlinks
  refine gives_ofAttempt (by rw [hlss]; rfl) ⟨hall, ?_⟩
  refine (Attempt.mem_flatten_mapM hlss).2 ⟨k, hmem, [l], ?_, List.mem_cons_self⟩
  simp only [RelationshipMapping.links, hkind, hproj hmem hkind, hone]

/-- What an identity of a link leads to: links between records that exist, and the link itself. -/
theorem gives_derived (guid : String) :
    Gives cat (c.derived guid i) fun ls => (∀ l' ∈ ls, l'.Known cat) ∧ l ∈ ls := by
  rw [derived]
  rcases RelationshipMapping.joins_or_levelLinks (hv k hk) hus hl with ⟨hplain, hj⟩ | ⟨hlevel, hone⟩
  · rw [if_neg]
    · exact gives_linksOfEnds hs hc ht hroot hv hread hk hr hus hl hi hplain hj guid
    · -- Both ends can be one record, but no record stands for links of this type then.
      rintro ⟨hsame, hne⟩
      obtain ⟨htype, hasset, hassets, hmarks⟩ :=
        hj.eq_of_ends_eq (ht.mark_ne_of_end hk .one) (ht.mark_ne_of_end hk .two) hi hsame
      obtain ⟨m, hm⟩ := List.exists_mem_of_ne_nil _ hne
      obtain ⟨hm, hlevel⟩ := List.mem_filter.1 hm
      rw [Bool.and_eq_true, beq_iff_eq, beq_iff_eq, htype, hasset] at hlevel
      exact hroot.apart k hk m hm hplain hassets hmarks hlevel.1.symm hlevel.2
  · obtain ⟨hsame, hne, hgives⟩ := gives_linksOfLevel hs hc ht hv hread hk hr hi
      (RelationshipMapping.isLevel_iff.1 hlevel) hone guid
    rw [if_pos ⟨hsame, hne⟩]
    exact hgives

omit hi in
/-- The identifier of a relationship that a link has is resolved, to a relationship with this
identifier. -/
theorem gives_resolve (hx : l.relationship? c.home c.table = .ok (some x)) :
    Gives cat (c.resolve x.guid) fun x' => x'.guid = x.guid := by
  obtain ⟨_, _, i, _, _, hi, hguid, _⟩ := Link.relationship?_eq_some hx
  have hderived := gives_derived hs hc ht hroot hv hread hk hr hus hl hi x.guid
  refine (gives_resolve_of_derived (P := Link.Known cat) (Link.identity_data hi).1 hguid
    (hderived.imp fun ls h => ⟨h.1, l, h.2, hi, x, hx⟩)
    (fun l' hl' => hl'.exists_identity hc c.home)
    fun l' hl' hi' => (hl'.named hc).exists_relationship? hi' hguid c.table).imp ?_
  exact fun _ => And.left

end Derived

end Scope

end MetaFed
