import MetaFed.Guid.Relationship
import MetaFed.Proofs.Guid
import Mathlib.Data.Sym.Sym2

/-!
A relationship's identity is its home, its type, its flag and the unordered pair of its ends, and
its identifier stands for no other identity.
-/

namespace MetaFed

namespace RecordRef

variable {a b : RecordRef} {assetType recordId : String} {mark : Option String}

theorem eq_of_key_eq (h : a.key = b.key) : a = b := by
  simp only [key, List.cons.injEq, and_true] at h
  obtain ⟨htype, hid, hmark⟩ := h
  refine ext_of_data htype hid ?_
  rw [← Guid.markOf_markText a.complete.2.2, hmark, Guid.markOf_markText b.complete.2.2]

theorem of_eq_ok : of assetType recordId mark = .ok a ↔
    (assetType ≠ "" ∧ recordId ≠ "") ∧ a.assetType = assetType ∧ a.recordId = recordId ∧
      a.mark = mark.bind Guid.markOf := by
  have hmark : mark.bind Guid.markOf ≠ some "" := by
    cases mark with
    | none => simp
    | some m => exact Guid.markOf_ne m
  rw [of, of?]
  by_cases h : assetType ≠ "" ∧ recordId ≠ ""
  · rw [dif_pos ⟨h.1, h.2, hmark⟩]
    constructor
    · intro he
      cases he
      exact ⟨h, rfl, rfl, rfl⟩
    · rintro ⟨_, rfl, rfl, hm⟩
      exact congrArg Except.ok (ext_of_data rfl rfl hm.symm)
  · rw [dif_neg fun h' => h ⟨h'.1, h'.2.1⟩]
    simp [h, stop]

theorem of_eq_ok_of_mark (hm : mark ≠ some "") : of assetType recordId mark = .ok a ↔
    (assetType ≠ "" ∧ recordId ≠ "") ∧ a.assetType = assetType ∧ a.recordId = recordId ∧
      a.mark = mark := by
  rw [of_eq_ok, Guid.bind_markOf hm]

theorem of?_parts (a : RecordRef) :
    of? a.assetType a.recordId (some (Guid.markText a.mark)) = some a := by
  have hmark : (some (Guid.markText a.mark)).bind Guid.markOf = a.mark :=
    Guid.markOf_markText a.complete.2.2
  rw [of?, dif_pos ⟨a.complete.1, a.complete.2.1, fun e => a.complete.2.2 (hmark.symm.trans e)⟩]
  exact congrArg some (ext_of_data rfl rfl hmark)

end RecordRef

namespace RelationshipId

variable {r r' : RelationshipId} {a b a' b' : RecordRef} {home type guid : String} {level : Bool}

/-- The ends without their order. -/
def ends (r : RelationshipId) : Sym2 RecordRef := s(r.one, r.two)

theorem ends_of (home type : String) (a b : RecordRef) (level : Bool) :
    (of home type a b level).ends = s(a, b) := by
  rw [of]
  split
  · exact Sym2.eq_swap
  · rfl

theorem home_of (home type : String) (a b : RecordRef) (level : Bool) :
    (of home type a b level).home = home := by
  rw [of]
  split <;> rfl

theorem type_of (home type : String) (a b : RecordRef) (level : Bool) :
    (of home type a b level).type = type := by
  rw [of]
  split <;> rfl

theorem level_of (home type : String) (a b : RecordRef) (level : Bool) :
    (of home type a b level).level = level := by
  rw [of]
  split <;> rfl

/-- Ends that are swapped have keys that neither precede the other, so they are equal. -/
theorem eq_of_ends_eq (hh : r.home = r'.home) (ht : r.type = r'.type) (hl : r.level = r'.level)
    (he : r.ends = r'.ends) : r = r' := by
  rcases Sym2.eq_iff.1 he with ⟨h₁, h₂⟩ | ⟨h₁, h₂⟩
  · exact ext_of_data hh ht h₁ h₂ hl
  · have hkey : r.one.key = r.two.key := by
      refine List.le_antisymm (List.not_lt.1 r.ordered) (List.not_lt.1 ?_)
      rw [h₁, h₂]
      exact r'.ordered
    have hone := RecordRef.eq_of_key_eq hkey
    exact ext_of_data hh ht (hone.trans h₂) (hone.symm.trans h₁) hl

theorem guid_eq_ok : r.guid = .ok guid ↔ (r.home ≠ "" ∧ r.type ≠ "") ∧ guid = Guid.join r.parts := by
  rw [RelationshipId.guid]
  split
  · rename_i h
    rcases h with h | h <;> simp [h, stop]
  · rename_i h
    rw [not_or] at h
    simp [h, eq_comm]

theorem flagText_eq_one (level : Bool) : (flagText level == "1") = level := by
  cases level <;> rfl

theorem decode_guid (hg : r.guid = .ok guid) (expected : Option String)
    (he : expected.any (r.home ≠ ·) = false) : decode guid expected = .ok r := by
  obtain ⟨⟨hh, ht⟩, rfl⟩ := guid_eq_ok.1 hg
  have hp : r.parts = ["r", r.home, r.type, flagText r.level, Guid.markText r.one.mark,
    r.one.assetType, r.one.recordId, Guid.markText r.two.mark, r.two.assetType,
    r.two.recordId] := rfl
  have hesc : Text.Percent.escape "r".toList = ['r'] := by decide
  have hflag : ¬(flagText r.level ≠ "0" ∧ flagText r.level ≠ "1") := by
    cases r.level <;> simp [flagText]
  rw [decode, if_neg (by rw [hp]; exact Guid.join_ne_empty _ _ _), hp, Guid.split_join,
    Guid.fields_join]
  simp only [hesc, if_neg hflag, hh, ht, or_self, if_false, he, Bool.false_eq_true,
    RecordRef.of?_parts, dif_neg r.ordered, flagText_eq_one]

theorem eq_of_guid_eq (hg : r.guid = .ok guid) (hg' : r'.guid = .ok guid) : r = r' := by
  have h := decode_guid hg none rfl
  rw [decode_guid hg' none rfl] at h
  exact (Except.ok.inj h).symm

end RelationshipId

end MetaFed
