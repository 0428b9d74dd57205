import MetaFed.Proofs.Tracked

/-!
Asking for the properties that are read is enough: a backend that gives the properties it is asked
for, and no others, serves every operation as one that always gives whole records. This needs every
property to be named, by the mappings or by the records. A mapping of a kind of relationship for
which records stand need not name the property that lists them; the property without a name is then
read, which is not asked for.
-/

namespace MetaFed

namespace Record

/-- The record with its system fields and some of its properties. -/
def only (r : Record) (wanted : List String) : Record :=
  { r with properties := r.properties.filter fun e => wanted.contains e.1 }

end Record

/-- A record cut down to what is asked for is the same as before, if it has no shared property. -/
theorem Divergence.same_only {d : Divergence} {r : Record}
    (h : ∀ p, d.shared p → Assoc.find? p r.properties = none) (ps : List String) :
    d.Same ps r (r.only ps) := by
  refine ⟨rfl, fun p hp => Eq.symm ?_⟩
  rcases hp with hp | hs
  · exact Assoc.find?_filter (List.contains_iff_mem.2 hp) r.properties
  · rw [h p hs]
    exact Assoc.find?_filter_eq_none (h p hs) _

namespace Backend

/-- The backend cut down to what it is asked for. Searches go through whole records; their hits and
the records that are looked up have the properties asked for only. -/
def projecting (b : Backend) : Backend :=
  { b with
    search := fun n => do .ok ((← b.search n).map fun r => r.only n.properties)
    record := fun id ps => (b.record id ps).map fun r => r.only ps }

/-- Every record that the backend gives satisfies a condition. -/
structure Gives (b : Backend) (P : Record → Prop) : Prop where
  search : ∀ n hits, b.search n = .ok hits → ∀ r ∈ hits, P r
  record : ∀ id ps r, b.record id ps = some r → P r

variable {b : Backend} {d : Divergence}

theorem follows_projecting (hd : ∀ e, d.faults e = none)
    (hb : b.Gives fun r => ∀ p, d.shared p → Assoc.find? p r.properties = none) :
    b.reporting.Follows d b.projecting.reporting where
  served := fun _ _ => rfl
  failing := fun e x hx => by
    rw [hd e] at hx
    cases hx
  search := by
    intro n
    simp only [reporting, projecting]
    cases hs : b.search n with
    | error f => exact .error rfl
    | ok hits =>
        refine .ok (List.forall₂_map_right_iff.2 (List.forall₂_same.2 fun r hr => ?_))
        exact Divergence.same_only (hb.search n hits hs r hr) n.properties
  record := by
    intro id ps
    simp only [reporting, projecting]
    cases hr : b.record id ps with
    | none => exact .none
    | some r => exact .some (Divergence.same_only (hb.record id ps r hr) ps)
  stringProperties := rfl
  version := rfl

end Backend

namespace Collection

variable {c : Collection} {α : Type}

/-- Every operation answers the same, with the same calls, whether the backend gives what it is
asked for only or gives whole records. -/
theorem answer_projecting (ht : c.table.Accepted)
    (hv : ∀ k ∈ c.table.relationships, k.fault? = none) (b : Backend)
    (hnamed : c.table.NamesGiven ∧ c.table.LinksGiven ∨ b.Gives Record.Named) (o : Operation α) :
    c.answer b.projecting o = c.answer b o := by
  have hanswer (shared : String → Prop)
      (hgiven : c.table.NamesGiven ∧ c.table.LinksGiven ∨ shared "")
      (hb : b.Gives fun r => ∀ p, shared p → Assoc.find? p r.properties = none) :
      c.answer b.projecting o = c.answer b o := by
    have hfollows : (c.scope b).backend.Follows ⟨shared, fun _ => none⟩
        (c.scope b.projecting).backend := Backend.follows_projecting (fun _ => rfl) hb
    rcases answer_cases hfollows (ht.asks hv hgiven) ht o with ⟨h, _⟩ | ⟨_, _, _, hx, _⟩
    · exact h
    · cases hx
  -- Where a mapping reads the property without a name, all records agree that they have none.
  rcases hnamed with hgiven | hb
  · refine hanswer (fun _ => False) (.inl hgiven) ⟨?_, ?_⟩
    · exact fun _ _ _ _ _ _ h => h.elim
    · exact fun _ _ _ _ _ h => h.elim
  · refine hanswer (· = "") (.inr rfl) ⟨?_, ?_⟩
    · rintro n hits hs r hr _ rfl
      exact hb.search n hits hs r hr
    · rintro id ps r hr _ rfl
      exact hb.record id ps r hr

end Collection

/-- The catalog as a backend that always gives whole records. -/
def Catalog.whole (cat : Catalog) : Backend where
  outage := fun _ => none
  search := fun n => cat.search { n with properties := [] }
  record := fun id _ => cat.find? id
  stringProperties := cat.reported
  version := cat.version

namespace Sample

open MappingTable.Standard

/-- What listing the relationships of an entity answers over a backend. -/
def listing (c : Collection) (b : Backend) (guid : String) :
    Attempt (Outcome (List Relationship)) × List Event :=
  c.answer b (.relationships guid none {} false)

def termGuid : String := "e:home-1::term:term-1"

theorem listing_projecting :
    collection.table.Accepted ∧ (∀ k ∈ collection.table.relationships, k.fault? = none) ∧
    collection.table.NamesGiven ∧ collection.table.LinksGiven ∧
    listing collection linkedService.catalog.whole.projecting termGuid =
      listing collection linkedService.catalog.whole termGuid ∧
    relationshipGuids (listing collection linkedService.catalog.whole termGuid).1 =
      some ["r:home-1:SemanticAssignment:0::database_column:column-1::term:term-1"] := by
  have hv : ∀ k ∈ collection.table.relationships, k.fault? = none :=
    MappingTable.linked_standard.valid
  have hnames : collection.table.NamesGiven := MappingTable.namesGiven_standard
  have hlinks : collection.table.LinksGiven := MappingTable.linksGiven_standard
  exact ⟨MappingTable.accepted_standard, hv, hnames, hlinks,
    Collection.answer_projecting MappingTable.accepted_standard hv _ (.inl ⟨hnames, hlinks⟩) _,
    by decide +kernel⟩

/-- Data classes of columns, without a property that lists the records standing for them. -/
def unlinkedClasses : RelationshipMapping :=
  { detectedClasses with
    one := { detectedClasses.one with link := none }
    two := { detectedClasses.two with link := none } }

def unlinkedCollection : Collection :=
  ⟨{ home := "home-1" },
    ⟨Hierarchy.standard,
      [{ column with relationships := [unlinkedClasses] },
        { dataClass with relationships := [unlinkedClasses] }],
      Hierarchy.Standard.baseType, unsupported⟩⟩

/-- A column whose data class stands in a property without a name. -/
def namelessCatalog : Catalog :=
  ((({} : Catalog).put { ref := columnRef "1", properties := [refersTo "" detectionRef] }).put
    { ref := classRef }).put detection

/-- The relationship that whole records show is lost if the properties asked for are given only. -/
theorem link_lost_by_projection : unlinkedCollection.table.Accepted ∧
    (∀ k ∈ unlinkedCollection.table.relationships, k.checked = .ok k) ∧
    unlinkedCollection.table.NamesGiven ∧
    relationshipGuids (listing unlinkedCollection namelessCatalog.whole columnGuid).1 = some
      ["r:home-1:DataClassAssignment:1::classification:detection-1::classification:detection-1"] ∧
    relationshipGuids (listing unlinkedCollection namelessCatalog.whole.projecting columnGuid).1 =
      some [] := by
  have hfault : ∀ k ∈ unlinkedCollection.table.relationships, k.fault?.isNone = true := by
    decide
  refine ⟨MappingTable.accepted_of_faultless MappingTable.hierarchy_standard (by decide)
    (by decide), ?_, ?_, by decide +kernel, by decide +kernel⟩
  · exact fun k hk =>
      RelationshipMapping.checked_of_fault? (Option.isNone_iff_eq_none.1 (hfault k hk))
  · unfold MappingTable.NamesGiven EntityMapping.NamesGiven
    decide

end Sample

end MetaFed
