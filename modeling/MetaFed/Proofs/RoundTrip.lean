import MetaFed.Proofs.RelationshipGuid

/-!
Identifiers are read back as what they were made of. An identifier is accepted in its own home
collection and in no other, none is an entity's and a relationship's at once, and a relationship
has the same one whichever of its ends is named first.
-/

namespace MetaFed

namespace Guid

theorem markText_bind_markOf (m : Option String) : markText (m.bind markOf) = markText m := by
  cases m with
  | none => rfl
  | some s =>
      by_cases hs : s = ""
      · subst hs
        rfl
      · simp [markOf, hs]

theorem any_ne_eq_false_iff {home : String} {expected : Option String} :
    expected.any (home ≠ ·) = false ↔ expected = none ∨ expected = some home := by
  cases expected with
  | none => simp
  | some h =>
      rw [Option.any_some, decide_eq_false_iff_not, not_not, Option.some_inj]
      simp [eq_comm]

end Guid

namespace EntityId

variable {e e' : EntityId} {guid : String}

theorem guid_of (e : EntityId) : (of e.home e.assetType e.recordId e.mark).guid = e.guid := by
  rw [EntityId.guid, EntityId.guid, parts, parts, of, Guid.markText_bind_markOf]
  rfl

theorem guid_eq_iff (hg : e.guid = .ok guid) :
    e'.guid = .ok guid ↔
      of e'.home e'.assetType e'.recordId e'.mark = of e.home e.assetType e.recordId e.mark := by
  constructor
  · intro hg'
    have h := decode_eq_of_guid hg' none
    rw [decode_eq_of_guid hg none] at h
    exact (Except.ok.inj h).symm
  · intro h
    rw [← guid_of, h, guid_of]
    exact hg

theorem decode_relationship_guid {r : RelationshipId} (hg : r.guid = .ok guid)
    (expected : Option String) : decode guid expected = .error .notEntity := by
  obtain ⟨_, rfl⟩ := RelationshipId.guid_eq_ok.1 hg
  obtain ⟨ps, hp⟩ : ∃ ps, r.parts = "r" :: r.home :: ps := ⟨_, rfl⟩
  have hesc : Text.Percent.escape "r".toList = ['r'] := by decide
  rw [hp, decode, if_neg (Guid.join_ne_empty _ _ _), Guid.fields_join, hesc]
  simp

end EntityId

namespace RelationshipId

variable {r r' : RelationshipId} {a b : RecordRef} {home type guid : String} {level : Bool}

theorem decode_entity_guid {e : EntityId} (hg : e.guid = .ok guid) (expected : Option String) :
    decode guid expected = .error .notRelationship := by
  obtain ⟨_, rfl⟩ := EntityId.guid_eq_ok.1 hg
  have hesc : Text.Percent.escape "e".toList = ['e'] := by decide
  rw [EntityId.parts, decode, if_neg (Guid.join_ne_empty _ _ _), Guid.fields_join, hesc]
  simp

/-- Sorting the ends as they are written is the order that identities keep them in. -/
theorem encode_eq_guid_of (home type : String) (a b : RecordRef) (level : Bool) :
    encode home type a b level = (of home type a b level).guid := by
  rw [encode, RelationshipId.guid, home_of, type_of]
  by_cases hc : home = "" ∨ type = ""
  · rw [if_pos hc, if_pos hc]
  · rw [if_neg hc, if_neg hc]
    by_cases hk : b.key < a.key
    · have hafter : ¬decide (¬b.key < a.key) = true := fun h => of_decide_eq_true h hk
      have hsorted : sortBy (fun x y : RecordRef => ¬ y.key < x.key) [a, b] = [b, a] :=
        if_neg hafter
      simp only [of, dif_pos hk, hsorted, parts, List.flatMap_cons, List.flatMap_nil,
        List.append_nil, List.append_assoc]
    · have hsorted : sortBy (fun x y : RecordRef => ¬ y.key < x.key) [a, b] = [a, b] :=
        if_pos (decide_eq_true hk)
      simp only [of, dif_neg hk, hsorted, parts, List.flatMap_cons, List.flatMap_nil,
        List.append_nil, List.append_assoc]

theorem of_comm (home type : String) (a b : RecordRef) (level : Bool) :
    of home type a b level = of home type b a level := by
  apply eq_of_ends_eq
  · rw [home_of, home_of]
  · rw [type_of, type_of]
  · rw [level_of, level_of]
  · rw [ends_of, ends_of, Sym2.eq_swap]

theorem exists_guid (hh : r.home ≠ "") (ht : r.type ≠ "") : ∃ guid, r.guid = .ok guid :=
  ⟨_, guid_eq_ok.2 ⟨⟨hh, ht⟩, rfl⟩⟩

end RelationshipId

/-- An entity's identifier is read back as its four components, an empty prefix as none, where its
home is expected or none is; elsewhere the home is refused. Only the same components make it, and
it is no relationship's identifier, nor is any of these an entity's. -/
theorem EntityId.identifier_round_trip :
    (∀ (home assetType recordId : String) (mark : Option String),
      home ≠ "" → assetType ≠ "" → recordId ≠ "" →
      ∃ guid, (EntityId.mk home assetType recordId mark).guid = .ok guid ∧
        (∀ expected, (expected = none ∨ expected = some home) →
          decode guid expected = .ok (of home assetType recordId mark)) ∧
        (∀ other, other ≠ home → decode guid (some other) = .error (.foreignHome home)) ∧
        (∀ e' : EntityId, e'.guid = .ok guid ↔
          of e'.home e'.assetType e'.recordId e'.mark = of home assetType recordId mark) ∧
        ∀ expected, RelationshipId.decode guid expected = .error .notRelationship) ∧
    ∀ (home type : String) (a b : RecordRef) (level : Bool) (guid : String),
      RelationshipId.encode home type a b level = .ok guid →
      ∀ expected, decode guid expected = .error .notEntity := by
  constructor
  · intro home assetType recordId mark hh ha hi
    let e : EntityId := ⟨home, assetType, recordId, mark⟩
    have hg : e.guid = .ok (Guid.join e.parts) := guid_eq_ok.2 ⟨⟨hh, ha, hi⟩, rfl⟩
    refine ⟨Guid.join e.parts, hg, ?_, ?_, fun e' => guid_eq_iff hg, ?_⟩
    · intro expected he
      rw [decode_eq_of_guid hg, Guid.any_ne_eq_false_iff.2 he]
      rfl
    · intro other ho
      have hany : (some other).any (e.home ≠ ·) = true := by simpa [e] using ho.symm
      rw [decode_eq_of_guid hg, hany]
      rfl
    · exact RelationshipId.decode_entity_guid hg
  · intro home type a b level guid hg expected
    rw [RelationshipId.encode_eq_guid_of] at hg
    exact decode_relationship_guid hg expected

namespace Sample

/-- A catalog record that two entities stand for. -/
def markedEnd : RecordRef := ⟨"50%3A", "ü:1", some "MARK", by decide⟩

def plainEnd : RecordRef := ⟨"50%3A", "ü:1", none, by decide⟩

theorem identifier_round_trip_escaped :
    ("home:1" ≠ "" ∧ "50%3A" ≠ "" ∧ "ü:1" ≠ "") ∧
      (∃ guid, (EntityId.mk "home:1" "50%3A" "ü:1" (some "")).guid = .ok guid ∧
        EntityId.decode guid (some "home:1") = .ok ⟨"home:1", "50%3A", "ü:1", none⟩ ∧
        EntityId.decode guid (some "home") = .error (.foreignHome "home:1")) ∧
      ∃ guid, RelationshipId.encode "home:1" "T" markedEnd plainEnd false = .ok guid ∧
        EntityId.decode guid none = .error .notEntity := by
  obtain ⟨guid, hg, hd, hf, -, -⟩ := EntityId.identifier_round_trip.1 "home:1" "50%3A" "ü:1"
    (some "") (by decide) (by decide) (by decide)
  have hr : RelationshipId.encode "home:1" "T" markedEnd plainEnd false =
      .ok "r:home%3A1:T:0::50%253A:%C3%BC%3A1:MARK:50%253A:%C3%BC%3A1" := rfl
  exact ⟨⟨by decide, by decide, by decide⟩, ⟨guid, hg, hd _ (.inr rfl), hf "home" (by decide)⟩,
    _, hr, EntityId.identifier_round_trip.2 _ _ _ _ _ _ hr none⟩

end Sample

/-- A relationship's identifier does not depend on which end is named first. Read in its home it
gives the relationship again, with both ends, their prefixes and the flag, and two relationships
share an identifier only if they are the same. -/
theorem RelationshipId.identifier_canonical :
    (∀ (home type : String) (a b : RecordRef) (level : Bool), home ≠ "" → type ≠ "" →
      encode home type a b level = encode home type b a level ∧
      ∃ guid, encode home type a b level = .ok guid ∧
        ∃ r, decode guid (some home) = .ok r ∧ r = of home type a b level ∧
          r.home = home ∧ r.type = type ∧ r.ends = s(a, b) ∧ r.level = level) ∧
    ∀ r r' : RelationshipId, r.home ≠ "" → r.type ≠ "" → r'.home ≠ "" → r'.type ≠ "" →
      ∃ guid guid', r.guid = .ok guid ∧ r'.guid = .ok guid' ∧ (guid = guid' ↔ r = r') := by
  constructor
  · intro home type a b level hh ht
    constructor
    · rw [encode_eq_guid_of, encode_eq_guid_of, of_comm]
    · have hhome := home_of home type a b level
      have htype := type_of home type a b level
      obtain ⟨guid, hg⟩ : ∃ guid, (of home type a b level).guid = .ok guid :=
        exists_guid (by rwa [hhome]) (by rwa [htype])
      have hd : decode guid (some home) = .ok (of home type a b level) :=
        decode_guid hg (some home) (Guid.any_ne_eq_false_iff.2 (.inr (by rw [hhome])))
      exact ⟨guid, by rw [encode_eq_guid_of, hg], _, hd, rfl, hhome, htype,
        ends_of home type a b level, level_of home type a b level⟩
  · intro r r' hh ht hh' ht'
    obtain ⟨guid, hg⟩ := exists_guid hh ht
    obtain ⟨guid', hg'⟩ := exists_guid hh' ht'
    refine ⟨guid, guid', hg, hg', ?_, ?_⟩
    · intro h
      rw [← h] at hg'
      exact eq_of_guid_eq hg hg'
    · rintro rfl
      exact Except.ok.inj (hg.symm.trans hg')

namespace Sample

/-- Both ends are one record, so that only the prefix orders them. -/
theorem identifier_canonical_marked :
    ("home:1" ≠ "" ∧ "T" ≠ "") ∧
      RelationshipId.encode "home:1" "T" markedEnd plainEnd true =
        RelationshipId.encode "home:1" "T" plainEnd markedEnd true ∧
      (∃ guid, RelationshipId.encode "home:1" "T" markedEnd plainEnd true = .ok guid ∧
        RelationshipId.decode guid (some "home:1") =
          .ok (.of "home:1" "T" markedEnd plainEnd true)) ∧
      ∃ guid guid', (RelationshipId.of "home:1" "T" markedEnd plainEnd true).guid = .ok guid ∧
        (RelationshipId.of "home:1" "T" markedEnd plainEnd false).guid = .ok guid' ∧
        guid ≠ guid' := by
  obtain ⟨hc, guid, hg, r, hd, rfl, -⟩ := RelationshipId.identifier_canonical.1 "home:1" "T"
    markedEnd plainEnd true (by decide) (by decide)
  obtain ⟨g, g', hr, hr', hiff⟩ := RelationshipId.identifier_canonical.2
    (.of "home:1" "T" markedEnd plainEnd true) (.of "home:1" "T" markedEnd plainEnd false)
    (by decide) (by decide) (by decide) (by decide)
  have hne : RelationshipId.of "home:1" "T" markedEnd plainEnd true ≠
      .of "home:1" "T" markedEnd plainEnd false := by decide
  exact ⟨⟨by decide, by decide⟩, hc, ⟨guid, hg, hd⟩, g, g', hr, hr', fun h => hne (hiff.1 h)⟩

end Sample

end MetaFed
