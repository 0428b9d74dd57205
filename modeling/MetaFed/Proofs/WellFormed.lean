import MetaFed.Proofs.Rederived
import MetaFed.Proofs.Told

/-!
Catalogs whose records and references have asset types and ids, whether or not the references lead
to records. Every record of such a catalog has an entity or lacks a property that it has to have,
and its links can be derived, if no record that stands for one lacks such a property.
-/

namespace MetaFed

open Attempt

/-- A record with an asset type and an id whose references have them too. -/
structure Record.WellFormed (r : Record) : Prop where
  named : r.ref.Named
  refers : r.Refers Reference.Named

theorem Record.wellFormed_of_properties {rs : List Record} (h : ∀ r ∈ rs,
    (r.type ≠ "" ∧ r.id ≠ "") ∧ ∀ v ∈ r.properties.values,
      ∃ refs, Reference.allOf v = .ok refs ∧ ∀ x ∈ refs, x.type ≠ "" ∧ x.id ≠ "") :
    ∀ r ∈ rs, r.WellFormed :=
  fun r hr => ⟨(h r hr).1, refers_of_properties (P := Reference.Named) (h r hr).2⟩

theorem Record.WellFormed.project {r : Record} (h : r.WellFormed) (ps : List String) :
    (r.project ps).WellFormed :=
  ⟨by rw [project_ref]; exact h.named, h.refers.project ps⟩

def Catalog.WellFormed (cat : Catalog) : Prop :=
  ∀ r ∈ cat.records.values, r.WellFormed

theorem Catalog.Closed.wellFormed {cat : Catalog} (hc : cat.Closed) : cat.WellFormed := by
  refine fun r hr => ⟨hc.named r hr, fun p => ?_⟩
  obtain ⟨refs, hrefs, hall⟩ := hc.resolved r hr p
  exact ⟨refs, hrefs, fun x hx => hc.named_of_has (hall x hx)⟩

/-- A record of the catalog, with some properties at least. -/
def Catalog.Part (cat : Catalog) (wanted : List String) (r : Record) : Prop :=
  ∃ r' ∈ cat.records.values, ∃ ps, wanted ⊆ ps ∧ r = r'.project ps

theorem Catalog.Part.wellFormed {cat : Catalog} {wanted : List String} {r : Record}
    (h : cat.Part wanted r) (hw : cat.WellFormed) : r.WellFormed := by
  obtain ⟨r', hr', ps, _, rfl⟩ := h
  exact (hw r' hr').project ps

/-- A record lacks a property that is required of it. -/
def Failure.Missing (f : Failure) : Prop := ∃ p, f = .fault (.missingValue p)

namespace Record

variable {r : Record}

theorem missing_putSimple (ps : List SimpleProperty) (vs : Assoc String Value) :
    (r.putSimple ps vs).Fails Failure.Missing := by
  induction ps generalizing vs with
  | nil => exact fails_ok vs
  | cons p ps ih =>
      unfold putSimple
      simp only
      split
      · split
        · exact fails_error ⟨_, rfl⟩
        · exact ih vs
      · exact ih _

theorem missing_putComplex (hr : r.WellFormed) (mark : Option String) (ps : List ComplexProperty)
    (vs : Assoc String Value) : (r.putComplex mark ps vs).Fails Failure.Missing := by
  induction ps generalizing vs with
  | nil => exact fails_ok vs
  | cons p ps ih =>
      have hvalue : (r.complexValue p mark).Fails Failure.Missing := by
        unfold complexValue
        split
        · exact fails_ok _
        · exact fails_ok _
        · split
          · exact fails_ok _
          · rename_i b _
            obtain ⟨refs, hrefs, _⟩ := hr.refers b
            exact (fails_of_eq_ok hrefs).map
      refine hvalue.bind fun v _ => ?_
      split
      · split
        · exact fails_error ⟨_, rfl⟩
        · exact ih vs
      · exact ih _

end Record

namespace Entity

variable {home : String} {r : Record}

theorem missing_classificationsOf (cs : List ClassificationMapping) :
    (classificationsOf r cs).Fails Failure.Missing :=
  .mapM fun _ _ => Fails.bind ((Record.missing_putSimple _ _).bind fun _ _ => fails_ok _) fun _ _ =>
    fails_ok _

/-- A record has an entity or lacks a property that it has to have. -/
theorem exists_ofRecord? (hh : home ≠ "") (hr : r.WellFormed) (m : EntityMapping) :
    ∃ o, ofRecord? home m r = .ok o := by
  have hguid : (m.identity home r.ref).guid = .ok (Guid.join (m.identity home r.ref).parts) :=
    EntityId.guid_eq_ok.2 ⟨⟨hh, hr.named.1, hr.named.2⟩, rfl⟩
  have hmissing : (ofRecord home m r).Fails Failure.Missing :=
    Fails.bind ((Record.missing_putSimple _ _).bind fun _ _ => Record.missing_putComplex hr _ _ _)
      fun _ _ => (missing_classificationsOf _).bind fun _ _ => by
        rw [hguid]
        exact fails_ok _
  unfold ofRecord?
  cases h : ofRecord home m r with
  | ok e => exact ⟨some e, rfl⟩
  | error f =>
      obtain ⟨p, rfl⟩ := hmissing f h
      exact ⟨none, rfl⟩

end Entity

/-- The links of a mapping have identifiers, and every record that stands for one has the properties
that the link needs. -/
structure RelationshipMapping.Usable (cat : Catalog) (k : RelationshipMapping) : Prop where
  valid : k.fault? = none
  typed : k.type ≠ ""
  readable : cat.Readable k

namespace Link

variable {l : Link} {ls : List Link} {home : String}

/-- The link has an identifier, and so have the entities at its ends. -/
structure WellFormed (l : Link) : Prop where
  typed : l.mapping.type ≠ ""
  named : l.Among Reference.Named

theorem WellFormed.exists_identity (h : l.WellFormed) (home : String) :
    ∃ i, l.identity home = .ok i :=
  Link.exists_identity h.named.complete home

theorem WellFormed.exists_relationship? (h : l.WellFormed) (hh : home ≠ "") (t : MappingTable) :
    ∃ o, l.relationship? home t = .ok o := by
  obtain ⟨i, hi⟩ := h.exists_identity home
  obtain ⟨guid, hguid⟩ := exists_guid hh h.typed hi
  exact h.named.exists_relationship? hi hguid t

theorem exists_relationships (hh : home ≠ "") (h : ∀ l ∈ ls, l.WellFormed) (t : MappingTable) :
    ∃ rs, relationships home t ls = .ok rs := by
  obtain ⟨os, hos⟩ := exists_mapM fun l hl => (h l hl).exists_relationship? hh t
  exact ⟨os.filterMap id, by rw [relationships, hos, ok_bind]⟩

end Link

theorem Record.WellFormed.exists_links {r : Record} (hr : r.WellFormed) {k : RelationshipMapping}
    (ht : k.type ≠ "") (hk : k.kind = .level → ∃ ls, k.levelLinks r = .ok ls) (e : Option End) :
    ∃ ls, k.links r e = .ok ls ∧ ∀ l ∈ ls, l.WellFormed := by
  obtain ⟨ls, hls⟩ := RelationshipMapping.exists_links hr.refers hk e
  refine ⟨ls, hls, fun l hl => ⟨?_, RelationshipMapping.among_of_links hr.named hr.refers hls hl⟩⟩
  rwa [RelationshipMapping.mapping_of_links hls hl]

/-- The links of a usable mapping can be derived from every record of the catalog that has the
properties that they are read from. -/
theorem RelationshipMapping.Usable.exists_links {k : RelationshipMapping} {cat : Catalog}
    {r : Record} {wanted : List String} (hk : k.Usable cat) (hw : cat.WellFormed)
    (hr : cat.Part wanted r) (hread : k.kind = .level → k.levelProperties ⊆ wanted)
    (e : Option End) : ∃ ls, k.links r e = .ok ls ∧ ∀ l ∈ ls, l.WellFormed := by
  have hwell := hr.wellFormed hw
  obtain ⟨r', hr', ps, hps, rfl⟩ := hr
  -- The properties that a record at the relationship level is read for are among those asked for.
  refine hwell.exists_links hk.typed (fun hkind => ?_) e
  rw [levelLinks_project hk.valid hkind fun p hp => hps (hread hkind hp)]
  exact hk.readable hkind r' hr'

end MetaFed
