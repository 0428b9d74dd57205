import MetaFed.Guid.Entity
import MetaFed.Proofs.Percent

/-!
Identifiers come apart into the components they were made of, so that an entity's identifier stands
for no other entity.
-/

namespace MetaFed

namespace Text

theorem fields_eq_of_not_mem {sep : Char} {p : List Char} (h : sep ∉ p) : fields sep p = (p, []) := by
  induction p with
  | nil => rfl
  | cons c p ih =>
      obtain ⟨hc, hp⟩ : sep ≠ c ∧ sep ∉ p := by simpa using h
      simp [fields, ih hp, Ne.symm hc]

theorem fields_append {sep : Char} {p : List Char} (h : sep ∉ p) (s : List Char) :
    fields sep (p ++ sep :: s) = (p, (fields sep s).1 :: (fields sep s).2) := by
  induction p with
  | nil => simp [fields]
  | cons c p ih =>
      obtain ⟨hc, hp⟩ : sep ≠ c ∧ sep ∉ p := by simpa using h
      simp [fields, ih hp, Ne.symm hc]

/-- Pieces that do not hold the separator are found again in what they are joined to. -/
theorem fields_joined {sep : Char} {p : List Char} {ps : List (List Char)}
    (h : ∀ q ∈ p :: ps, sep ∉ q) : fields sep (joined [sep] (p :: ps)) = (p, ps) := by
  induction ps generalizing p with
  | nil => exact fields_eq_of_not_mem (h p List.mem_cons_self)
  | cons q ps ih =>
      rw [joined, List.append_assoc, List.singleton_append,
        fields_append (h p List.mem_cons_self), ih fun x hx => h x (List.mem_cons_of_mem p hx)]
      simp

end Text

namespace Guid

theorem fields_join (p : String) (ps : List String) :
    Text.fields ':' (join (p :: ps)).toList =
      (Text.Percent.escape p.toList, ps.map fun q => Text.Percent.escape q.toList) := by
  rw [join, String.toList_ofList, List.map_cons]
  apply Text.fields_joined
  intro q hq
  rw [← List.map_cons (f := fun q : String => Text.Percent.escape q.toList)] at hq
  obtain ⟨x, _, rfl⟩ := List.mem_map.1 hq
  exact Text.Percent.colon_not_mem_escape x.toList

theorem split_join (p : String) (ps : List String) : split (join (p :: ps)) = p :: ps := by
  rw [split, fields_join]
  simp [Text.Percent.unescape_escape, Function.comp_def]

theorem join_ne_empty (p q : String) (ps : List String) : join (p :: q :: ps) ≠ "" := by
  intro h
  have hs := split_join p (q :: ps)
  rw [h] at hs
  have hl := congrArg List.length hs
  simp [split, Text.fields] at hl

theorem markOf_markText_eq_bind (m : Option String) : markOf (markText m) = m.bind markOf := by
  cases m with
  | none => simp [markText, markOf]
  | some s => rfl

theorem markOf_ne (s : String) : markOf s ≠ some "" := by
  rw [markOf]
  split
  · simp
  · rename_i h
    simpa using h

theorem bind_markOf {m : Option String} (h : m ≠ some "") : m.bind markOf = m := by
  cases m with
  | none => rfl
  | some s =>
      have hs : s ≠ "" := fun e => h (by rw [e])
      simp [markOf, hs]

theorem markOf_markText {m : Option String} (h : m ≠ some "") : markOf (markText m) = m := by
  rw [markOf_markText_eq_bind, bind_markOf h]

end Guid

namespace EntityId

variable {e e' : EntityId} {guid : String}

theorem guid_eq_ok : e.guid = .ok guid ↔
    (e.home ≠ "" ∧ e.assetType ≠ "" ∧ e.recordId ≠ "") ∧ guid = Guid.join e.parts := by
  rw [EntityId.guid]
  split
  · rename_i h
    simp only [isComplete, Bool.and_eq_true, bne_iff_ne, and_assoc] at h
    simp [h, eq_comm]
  · rename_i h
    simp only [isComplete, Bool.and_eq_true, bne_iff_ne, and_assoc] at h
    simp [h, stop]

/-- Decoding undoes encoding up to an empty prefix, and tells identifiers of other homes apart. -/
theorem decode_eq_of_guid (hg : e.guid = .ok guid) (expected : Option String) :
    decode guid expected =
      if expected.any (e.home ≠ ·) then .error (.foreignHome e.home)
      else .ok (of e.home e.assetType e.recordId e.mark) := by
  obtain ⟨⟨hh, ha, hi⟩, rfl⟩ := guid_eq_ok.1 hg
  have hp : e.parts = ["e", e.home, Guid.markText e.mark, e.assetType, e.recordId] := rfl
  have hesc : Text.Percent.escape "e".toList = ['e'] := by decide
  rw [decode, if_neg (by rw [hp]; exact Guid.join_ne_empty _ _ _), hp, Guid.split_join,
    Guid.fields_join]
  simp only [hesc, hh, ha, hi, or_self, if_false, Guid.markOf_markText_eq_bind, of]

theorem decode_guid (hm : e.mark ≠ some "") (hg : e.guid = .ok guid) (expected : Option String)
    (he : expected.any (e.home ≠ ·) = false) : decode guid expected = .ok e := by
  rw [decode_eq_of_guid hg, he, of, Guid.bind_markOf hm]
  rfl

theorem eq_of_guid_eq (hm : e.mark ≠ some "") (hm' : e'.mark ≠ some "")
    (hg : e.guid = .ok guid) (hg' : e'.guid = .ok guid) : e = e' := by
  have h := decode_guid hm hg none rfl
  rw [decode_guid hm' hg' none rfl] at h
  exact (Except.ok.inj h).symm

end EntityId

end MetaFed
