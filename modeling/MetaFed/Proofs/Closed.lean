import MetaFed.Proofs.Hits
import MetaFed.Proofs.Requested

/-!
Catalogs without dangling references: every reference names a record that exists, under the asset
type that it states. In such a catalog the links of every record, whole or fetched with some of its
properties, can be derived, and their ends can be identified.
-/

namespace MetaFed

/-- A reference with an asset type and an id, whether or not there is such a record. -/
def Reference.Named (x : Reference) : Prop := x.type ≠ "" ∧ x.id ≠ ""

/-- Every property holds references, if any, and they are all like this. -/
def Record.Refers (P : Reference → Prop) (r : Record) : Prop :=
  ∀ p, ∃ refs, r.references p = .ok refs ∧ ∀ x ∈ refs, P x

/-- A record, whole or in part, whose references name records of the catalog. -/
structure Record.Grounded (cat : Catalog) (r : Record) : Prop where
  present : cat.Has r.type r.id
  refers : ∀ p, ∃ refs, r.references p = .ok refs ∧ ∀ x ∈ refs, cat.Has x.type x.id

/-- Every record has an asset type and an id and is kept under it, and every reference names a
record under its type. -/
structure Catalog.Closed (cat : Catalog) : Prop where
  keyed : cat.Keyed
  named : ∀ r ∈ cat.records.values, r.type ≠ "" ∧ r.id ≠ ""
  resolved : ∀ r ∈ cat.records.values, ∀ p, ∃ refs, r.references p = .ok refs ∧
    ∀ x ∈ refs, cat.Has x.type x.id

instance {cat : Catalog} {assetType recordId : String} : Decidable (cat.Has assetType recordId) :=
  inferInstanceAs (Decidable (∃ r ∈ cat.records.values, r.type = assetType ∧ r.id = recordId))

section Grounded

variable {cat : Catalog} {r : Record} {assetType recordId : String}

theorem Record.refers_of_properties {P : Reference → Prop} (h : ∀ v ∈ r.properties.values,
    ∃ refs, Reference.allOf v = .ok refs ∧ ∀ x ∈ refs, P x) : r.Refers P := by
  intro p
  rw [Record.references]
  cases hf : Assoc.find? p r.properties with
  | none => exact ⟨[], rfl, by simp⟩
  | some v => exact h v (List.mem_map_of_mem (Assoc.mem_of_find? hf))

theorem Catalog.closed_of_properties (hk : cat.Keyed)
    (h : ∀ r ∈ cat.records.values, (r.type ≠ "" ∧ r.id ≠ "") ∧ ∀ v ∈ r.properties.values,
      ∃ refs, Reference.allOf v = .ok refs ∧ ∀ x ∈ refs, cat.Has x.type x.id) : cat.Closed where
  keyed := hk
  named r hr := (h r hr).1
  resolved r hr := Record.refers_of_properties (P := fun x => cat.Has x.type x.id) (h r hr).2

theorem Catalog.Closed.grounded (hc : cat.Closed) (hr : r ∈ cat.records.values) : r.Grounded cat :=
  ⟨⟨r, hr, rfl, rfl⟩, hc.resolved r hr⟩

theorem Catalog.Closed.named_of_has (hc : cat.Closed) (h : cat.Has assetType recordId) :
    assetType ≠ "" ∧ recordId ≠ "" := by
  obtain ⟨r, hr, rfl, rfl⟩ := h
  exact hc.named r hr

theorem Catalog.Closed.exists_find? (hc : cat.Closed) (h : cat.Has assetType recordId) :
    ∃ r, cat.find? recordId = some r ∧ r.type = assetType ∧ r ∈ cat.records.values := by
  obtain ⟨r, hr, htype, hid⟩ := h
  exact ⟨r, hc.keyed.find?_eq_some.2 ⟨hr, hid⟩, htype, hr⟩

theorem Record.references_project_of_notMem {p : String} {ps : List String} (hne : ps ≠ [])
    (hp : p ∉ ps) : (r.project ps).references p = .ok [] := by
  have hempty : ps.isEmpty = false := by simpa using hne
  rw [references, project, hempty, if_neg Bool.false_ne_true,
    Assoc.find?_filter_of_neg (by simpa using hp)]
  rfl

theorem Record.Refers.project {P : Reference → Prop} (h : r.Refers P) (ps : List String) :
    (r.project ps).Refers P := by
  intro p
  by_cases hp : ps = []
  · subst hp
    exact h p
  · by_cases hmem : p ∈ ps
    · rw [references_project hmem]
      exact h p
    · exact ⟨[], references_project_of_notMem hp hmem, by simp⟩

theorem Record.Grounded.project (h : r.Grounded cat) (ps : List String) :
    (r.project ps).Grounded cat := by
  refine ⟨?_, Refers.project h.refers ps⟩
  rw [project_type, project_id]
  exact h.present

end Grounded

namespace Link

variable {cat : Catalog} {l : Link} {home : String} {i : RelationshipId} {t : MappingTable}
  {P Q : Reference → Prop}

/-- All records that a link names are like this. -/
structure Among (P : Reference → Prop) (l : Link) : Prop where
  one : P l.one
  two : P l.two
  level : ∀ x, l.level = some x → P x

/-- The records at the ends exist, and the one that stands for the link where there is one. -/
structure Known (cat : Catalog) (l : Link) : Prop where
  one : cat.Has l.one.type l.one.id
  two : cat.Has l.two.type l.two.id
  level : ∀ x, l.level = some x → cat.Has x.type x.id

theorem Known.named (hc : cat.Closed) (h : l.Known cat) : l.Among Reference.Named :=
  ⟨hc.named_of_has h.one, hc.named_of_has h.two, fun x hx => hc.named_of_has (h.level x hx)⟩

theorem Among.complete (h : l.Among Reference.Named) : l.Complete := by
  rw [Complete]
  cases hl : l.level with
  | some x => exact h.level x hl
  | none => exact ⟨h.one, h.two⟩

theorem Known.exists_identity (hc : cat.Closed) (h : l.Known cat) (home : String) :
    ∃ i, l.identity home = .ok i :=
  Link.exists_identity (h.named hc).complete home

theorem exists_ofReference (hh : home ≠ "") {x : Reference} (hx : x.Named) (m : EntityMapping) : ∃ e, EntityProxy.ofReference home m x = .ok e := by
  have hguid : (m.identity home x).guid = .ok (Guid.join (m.identity home x).parts) :=
    EntityId.guid_eq_ok.2 ⟨⟨hh, hx.1, hx.2⟩, rfl⟩
  exact ⟨_, by rw [EntityProxy.ofReference, hguid]; rfl⟩

/-- A link whose identity has an identifier has a relationship, or an end without a mapping. -/
theorem Among.exists_relationship? (h : l.Among Reference.Named) (hi : l.identity home = .ok i)
    {guid : String} (hg : i.guid = .ok guid) (t : MappingTable) :
    ∃ o, l.relationship? home t = .ok o := by
  have hh : home ≠ "" := (identity_data hi).1 ▸ (RelationshipId.guid_eq_ok.1 hg).1.1
  obtain ⟨a, ha⟩ : ∃ a, l.oneRef = .ok a := exists_ref h.one _
  obtain ⟨b, hb⟩ : ∃ b, l.twoRef = .ok b := exists_ref h.two _
  simp only [relationship?, ha, hb, Attempt.ok_bind]
  split
  · rename_i m n _ _
    obtain ⟨p, hp⟩ := exists_ofReference hh h.one m
    obtain ⟨q, hq⟩ := exists_ofReference hh h.two n
    simp only [hi, hg, hp, hq, Attempt.ok_bind]
    exact ⟨_, rfl⟩
  · exact ⟨none, rfl⟩

end Link

namespace RelationshipMapping

variable {cat : Catalog} {k : RelationshipMapping} {r : Record} {l : Link} {ls : List Link}
  {P : Reference → Prop}

theorem exists_linksFromOne (hr : r.Refers P) (k : RelationshipMapping) :
    ∃ ls, k.linksFromOne r = .ok ls := by
  obtain ⟨refs, hrefs, _⟩ := hr k.one.navigationName
  rw [linksFromOne]
  split
  · exact ⟨[], rfl⟩
  · exact ⟨_, by rw [hrefs]; rfl⟩

theorem exists_linksFromTwo (hr : r.Refers P) (k : RelationshipMapping) :
    ∃ ls, k.linksFromTwo r = .ok ls := by
  obtain ⟨refs, hrefs, _⟩ := hr k.two.navigationName
  rw [linksFromTwo]
  split
  · exact ⟨[], rfl⟩
  · exact ⟨_, by rw [hrefs]; rfl⟩

/-- Only a record that stands for a link can keep it from being derived, by a property that it has
to have. -/
theorem exists_links (hr : r.Refers P) (hk : k.kind = .level → ∃ ls, k.levelLinks r = .ok ls)
    (e : Option End) : ∃ ls, k.links r e = .ok ls := by
  obtain ⟨us, hus⟩ := exists_linksFromOne hr k
  obtain ⟨vs, hvs⟩ := exists_linksFromTwo hr k
  cases hkind : k.kind with
  | self => exact ⟨k.selfLinks r, by simp only [links, hkind]⟩
  | level =>
      obtain ⟨ws, hws⟩ := hk hkind
      exact ⟨ws, by simp only [links, hkind, hws]⟩
  | reference =>
      cases e with
      | none => exact ⟨us ++ vs, by simp only [links, hkind, hus, hvs, Attempt.ok_bind]⟩
      | some e =>
          cases e with
          | one => exact ⟨us, by simp only [links, hkind, hus]⟩
          | two => exact ⟨vs, by simp only [links, hkind, hvs]⟩

/-- A link names the record it is read from and records that this one refers to. -/
theorem among_of_links (hself : P r.ref) (hr : r.Refers P) {e : Option End}
    (h : k.links r e = .ok ls) (hl : l ∈ ls) : l.Among P := by
  have hrefers {p : String} {refs : List Reference} (hp : r.references p = .ok refs) {x : Reference}
      (hx : x ∈ refs) : P x := by
    obtain ⟨refs', hrefs', hall⟩ := hr p
    cases hp.symm.trans hrefs'
    exact hall x hx
  rcases links_cases h hl with ⟨_, hl⟩ | ⟨_, hlevel⟩ | ⟨_, ⟨us, hus, hl⟩ | ⟨us, hus, hl⟩⟩
  · obtain ⟨_, rfl⟩ := mem_selfLinks hl
    exact ⟨hself, hself, by simp⟩
  · obtain ⟨_, _, _, _, _, _, _, hones, htwos, rfl⟩ := mem_levelLinks hlevel hl
    refine ⟨hrefers hones List.mem_cons_self, hrefers htwos List.mem_cons_self, ?_⟩
    rintro x hx
    cases hx
    exact hself
  · obtain ⟨_, refs, hrefs, x, hx, _, rfl⟩ := mem_linksFromOne hus hl
    exact ⟨hself, hrefers hrefs hx, by simp⟩
  · obtain ⟨_, refs, hrefs, x, hx, _, rfl⟩ := mem_linksFromTwo hus hl
    exact ⟨hrefers hrefs hx, hself, by simp⟩

theorem known_of_links (hr : r.Grounded cat) {e : Option End} (h : k.links r e = .ok ls)
    (hl : l ∈ ls) : l.Known cat :=
  have hamong := among_of_links (P := fun x => cat.Has x.type x.id) hr.present hr.refers h hl
  ⟨hamong.one, hamong.two, hamong.level⟩

end RelationshipMapping

namespace Catalog

variable {cat : Catalog} {r : Record}

theorem Closed.exists_follow (hc : cat.Closed) (p : String) {rs : List Record}
    (hrs : ∀ r ∈ rs, r ∈ cat.records.values) :
    ∃ us, cat.follow p rs = .ok us ∧ ∀ r ∈ us, r ∈ cat.records.values := by
  induction rs with
  | nil => exact ⟨[], rfl, by simp⟩
  | cons r rs ih =>
      obtain ⟨refs, hrefs, _⟩ := hc.resolved r (hrs r List.mem_cons_self) p
      obtain ⟨us, hus, hall⟩ := ih fun r' hr' => hrs r' (List.mem_cons_of_mem r hr')
      refine ⟨refs.filterMap (fun x => cat.find? x.id) ++ us, ?_, fun r' hr' => ?_⟩
      · simp only [follow, hrefs, hus, Attempt.ok_bind]
      · rcases List.mem_append.1 hr' with hr' | hr'
        · obtain ⟨x, _, hx⟩ := List.mem_filterMap.1 hr'
          exact (hc.keyed.find?_eq_some.1 hx).1
        · exact hall r' hr'

theorem Closed.exists_valuesAlong (hc : cat.Closed) (hr : r ∈ cat.records.values) (path : String) :
    ∃ vs, cat.valuesAlong r path = .ok vs := by
  have hpath (hops : List String) (rs : List Record) (hrs : ∀ r ∈ rs, r ∈ cat.records.values) :
      ∃ us, cat.followAll hops rs = .ok us := by
    induction hops generalizing rs with
    | nil => exact ⟨rs, rfl⟩
    | cons hop hops ih =>
        obtain ⟨us, hus, hall⟩ := hc.exists_follow hop hrs
        rw [followAll, hus]
        exact ih us hall
  obtain ⟨us, hus⟩ := hpath (Text.fieldsOf '.' path).dropLast [r] (by simpa using hr)
  exact ⟨_, by simp only [valuesAlong, hus, Attempt.ok_bind]; rfl⟩

theorem Closed.exists_reverseSearch (hc : cat.Closed) (k : RelationshipMapping) (recordId : String) :
    ∃ hits, cat.search (Scope.reverseSearch k recordId) = .ok hits ∧ ∀ r ∈ hits, r.Grounded cat := by
  have htold (r : Record) (hr : r ∈ cat.records.values) : ∃ b, Node.holds (cat.holds r)
      (Scope.reverseSearch k recordId).conditions.toNode = .ok b := by
    obtain ⟨vs, hvs⟩ := hc.exists_valuesAlong hr
      (k.one.navigationName ++ "." ++ Record.idProperty)
    exact ⟨_, (holds_lone r _ _ _).trans (by rw [hvs, Attempt.ok_bind, holds_eq_text])⟩
  obtain ⟨keep, hkeep⟩ := Attempt.exists_told htold
  have hsearch := search_eq_ok (c := cat) (n := Scope.reverseSearch k recordId) rfl rfl rfl
    fun r hr _ => hkeep r hr
  refine ⟨_, hsearch, fun r hr => ?_⟩
  obtain ⟨r', hr', rfl, _⟩ := mem_search hsearch r hr
  exact (hc.grounded hr').project _

end Catalog

end MetaFed
