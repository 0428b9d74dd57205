import MetaFed.Proofs.RoundTrip

/-!
Identifiers are read leniently: the digits of an escape may be in either case, characters may be
escaped that need not be, and what is no escape or no UTF-8 is read as something all the same.
Whatever is accepted has one normal form, the identifier that its identity is written as.
-/

namespace MetaFed

namespace EntityId

variable {guid : String} {expected : Option String} {e : EntityId}

/-- What is accepted passes the checks that writing makes. -/
theorem complete_of_decode (h : decode guid expected = .ok e) :
    (e.home ≠ "" ∧ e.assetType ≠ "" ∧ e.recordId ≠ "") ∧ e.mark ≠ some "" ∧
      expected.any (e.home ≠ ·) = false := by
  rw [decode] at h
  split at h
  · cases h
  · split at h
    · split at h
      · cases h
      · rename_i hgiven
        split at h
        · cases h
        · rename_i hhome
          cases h
          exact ⟨by simpa [not_or] using hgiven, Guid.markOf_ne _, Bool.eq_false_iff.2 hhome⟩
    · cases h

theorem exists_normal (h : decode guid expected = .ok e) :
    ∃ normal, e.guid = .ok normal ∧ decode normal expected = .ok e ∧
      decode normal none = .ok e := by
  obtain ⟨hgiven, hmark, hhome⟩ := complete_of_decode h
  have hg : e.guid = .ok (Guid.join e.parts) := guid_eq_ok.2 ⟨hgiven, rfl⟩
  refine ⟨Guid.join e.parts, hg, ?_, ?_⟩
  · exact decode_guid hmark hg expected hhome
  · exact decode_guid hmark hg none rfl

end EntityId

namespace RelationshipId

variable {guid : String} {expected : Option String} {r : RelationshipId} {a b : RecordRef}

theorem complete_of_decode (h : decode guid expected = .ok r) :
    (r.home ≠ "" ∧ r.type ≠ "") ∧ expected.any (r.home ≠ ·) = false := by
  rw [decode] at h
  split at h
  · cases h
  · split at h
    · split at h
      · cases h
      · split at h
        · cases h
        · rename_i hgiven
          split at h
          · cases h
          · rename_i hhome
            split at h
            · split at h
              · cases h
              · cases h
                exact ⟨not_or.1 hgiven, Bool.eq_false_iff.2 hhome⟩
            · cases h
    · cases h

/-- Whichever end is named first, the ends are written as the identity keeps them. -/
theorem encode_eq_guid (h : r.ends = s(a, b)) :
    encode r.home r.type a b r.level = r.guid := by
  have hr : of r.home r.type a b r.level = r := by
    apply eq_of_ends_eq
    · exact home_of r.home r.type a b r.level
    · exact type_of r.home r.type a b r.level
    · exact level_of r.home r.type a b r.level
    · rw [ends_of, h]
  rw [encode_eq_guid_of, hr]

theorem exists_normal (h : decode guid expected = .ok r) :
    ∃ normal, r.guid = .ok normal ∧ decode normal expected = .ok r ∧
      decode normal none = .ok r := by
  obtain ⟨⟨hh, ht⟩, hhome⟩ := complete_of_decode h
  obtain ⟨normal, hg⟩ := exists_guid hh ht
  refine ⟨normal, hg, ?_, ?_⟩
  · exact decode_guid hg expected hhome
  · exact decode_guid hg none rfl

end RelationshipId

/-- However an identifier is spelled, if it is accepted then its identity can be written, and what
is written is accepted as the same identity. Written with either of its ends first, a relationship
has its ends in the order that reading asks for. -/
theorem Guid.decoding_normalises (expected : Option String) :
    (∀ (guid : String) (e : EntityId), EntityId.decode guid expected = .ok e →
      ∃ normal, e.guid = .ok normal ∧ EntityId.decode normal expected = .ok e ∧
        EntityId.decode normal none = .ok e) ∧
    ∀ (guid : String) (r : RelationshipId), RelationshipId.decode guid expected = .ok r →
      ∃ normal, r.guid = .ok normal ∧ RelationshipId.decode normal expected = .ok r ∧
        RelationshipId.decode normal none = .ok r ∧
        ∀ a b : RecordRef, r.ends = s(a, b) →
          RelationshipId.encode r.home r.type a b r.level = .ok normal := by
  constructor
  · intro guid e h
    exact EntityId.exists_normal h
  · intro guid r h
    obtain ⟨normal, hg, hd, hn⟩ := RelationshipId.exists_normal h
    refine ⟨normal, hg, hd, hn, ?_⟩
    intro a b hab
    rw [RelationshipId.encode_eq_guid hab, hg]

namespace Sample

/-- An escape in lower case, a needless one, bytes that are no UTF-8 and what is no escape. -/
def strayGuid : String := "e:home%2d1:%:data%62ase:x%ff%4z%C3"

def strayId : EntityId := ⟨"home-1", "database", "x\uFFFD%4z\uFFFD", some "%"⟩

def strayLink : String := "r:home%2D1:T:%31::%61:%c3%BC::b:\uFFFD"

theorem strayGuid_normalised :
    EntityId.decode strayGuid (some "home-1") = .ok strayId ∧
      EntityId.decode "e:home-1:%25:database:x%EF%BF%BD%254z%EF%BF%BD" none = .ok strayId ∧
      ∃ r, RelationshipId.decode strayLink none = .ok r ∧
        RelationshipId.decode "r:home-1:T:1::a:%C3%BC::b:%EF%BF%BD" none = .ok r := by
  have he : EntityId.decode strayGuid (some "home-1") = .ok strayId := rfl
  obtain ⟨normal, hg, -, hn⟩ := (Guid.decoding_normalises (some "home-1")).1 strayGuid strayId he
  have hw : strayId.guid = .ok "e:home-1:%25:database:x%EF%BF%BD%254z%EF%BF%BD" := rfl
  obtain ⟨r, hr, hrg⟩ : ∃ r, RelationshipId.decode strayLink none = .ok r ∧
      r.guid = .ok "r:home-1:T:1::a:%C3%BC::b:%EF%BF%BD" := ⟨_, rfl, rfl⟩
  obtain ⟨normal', hg', -, hn', -⟩ := (Guid.decoding_normalises none).2 strayLink r hr
  rw [hw] at hg
  rw [hrg] at hg'
  cases hg
  cases hg'
  exact ⟨he, hn, r, hr, hn'⟩

end Sample

end MetaFed
