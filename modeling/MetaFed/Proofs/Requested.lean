import MetaFed.Proofs.Resolve

/-!
What resolving an identifier answers, if it answers anything: the relationship that was asked for,
between records that exist. Only the flag that tells whether a record of its own stands for the
relationship can be another one, and only if no link has the flag that was asked for.
-/

namespace MetaFed

namespace RelationshipId

variable {r s : RelationshipId}

theorem sameRelationship_iff : r.sameRelationship s = true ↔ r = { s with level := r.level } := by
  simp only [sameRelationship, Bool.and_eq_true, beq_iff_eq]
  constructor
  · rintro ⟨⟨⟨hh, ht⟩, hone⟩, htwo⟩
    exact ext_of_data hh ht hone htwo rfl
  · intro h
    rw [h]
    exact ⟨⟨⟨rfl, rfl⟩, rfl⟩, rfl⟩

end RelationshipId

/-- The catalog has a record of this asset type and id. -/
def Catalog.Has (cat : Catalog) (assetType recordId : String) : Prop :=
  ∃ r ∈ cat.records.values, r.type = assetType ∧ r.id = recordId

namespace Scope

open Session

variable {c : Scope} {cat : Catalog} {guid : String} {i j : RelationshipId} {ref : RecordRef}
  {wanted : List String} {r : Record} {x : Relationship} {l : Link} {ls : List Link}
  {cs : List (RelationshipId × Link)} {ms : List RelationshipMapping} {st st' : SessionState}

section Select

/-- A link with the identity wins over those that differ from it in the flag. -/
theorem exists_of_mem_select (h : l ∈ select i cs) : ∃ j, (j, l) ∈ cs ∧
    j.sameRelationship i = true ∧ ((∃ l₀, (i, l₀) ∈ cs) → j = i) := by
  have hself : i.sameRelationship i = true := RelationshipId.sameRelationship_iff.2 rfl
  by_cases hexact : ∃ l₀, (i, l₀) ∈ cs
  · obtain ⟨l₀, hl₀⟩ := hexact
    exact ⟨i, (mem_select_of_exact hl₀).1 h, hself, fun _ => rfl⟩
  · have hnone : (cs.filter (·.1 = i)).isEmpty = true := by
      rw [List.isEmpty_iff, List.filter_eq_nil_iff]
      intro p hp hi
      exact hexact ⟨p.2, of_decide_eq_true hi ▸ hp⟩
    rw [select, hnone] at h
    obtain ⟨p, hp, rfl⟩ := List.mem_map.1 h
    obtain ⟨hp, hsame⟩ := List.mem_filter.1 hp
    exact ⟨p.1, hp, hsame, fun he => absurd he hexact⟩

end Select

section Ends

theorem outage_of_endRecord (h : (runFrom {} (c.endRecord guid ref wanted)).1 = .ok r) :
    c.backend.outage .record = none := by
  obtain ⟨_, _, hlook, _⟩ := runFrom_bind_eq_ok.1 h
  exact Backend.outage_eq_none_of_lookUp rfl (congrArg Prod.fst hlook)

theorem has_of_endRecord (hc : c.Reads cat) (hk : cat.Keyed) (hs : st.Faithful cat)
    (h : runFrom st (c.endRecord guid ref wanted) = (.ok r, st')) :
    cat.Has ref.assetType ref.recordId ∧ st'.Faithful cat := by
  obtain ⟨ps, s₁, _, hs₁, hlook⟩ :=
    Backend.exists_runFrom_lookUp hc.outage hc.record hs ref.recordId wanted
  rw [endRecord, runFrom_bind_ok hlook, Catalog.fetch] at h
  cases hf : cat.find? ref.recordId with
  | none =>
      rw [hf] at h
      cases h
  | some a =>
      rw [hf] at h
      simp only [Option.map_some, Record.project_type] at h
      split at h
      · rename_i ht
        cases h
        obtain ⟨ha, hid⟩ := hk.find?_eq_some.1 hf
        exact ⟨⟨a, ha, ht, hid⟩, hs₁⟩
      · cases h

theorem outage_of_derived (h : (runFrom {} (c.derived guid i)).1 = .ok ls) :
    c.backend.outage .record = none := by
  rw [derived] at h
  split at h
  · obtain ⟨_, _, hend, _⟩ := runFrom_bind_eq_ok.1 h
    exact outage_of_endRecord (congrArg Prod.fst hend)
  · obtain ⟨_, _, hend, _⟩ := runFrom_bind_eq_ok.1 h
    exact outage_of_endRecord (congrArg Prod.fst hend)

/-- Links are derived only from records that the identity names. -/
theorem has_of_derived (hc : c.Reads cat) (hk : cat.Keyed)
    (h : (runFrom {} (c.derived guid i)).1 = .ok ls) :
    cat.Has i.one.assetType i.one.recordId ∧ cat.Has i.two.assetType i.two.recordId := by
  have hempty := SessionState.faithful_empty cat
  rw [derived] at h
  split at h
  · rename_i hlevel
    obtain ⟨_, _, hend, _⟩ := runFrom_bind_eq_ok.1 h
    have hone := (has_of_endRecord hc hk hempty hend).1
    exact ⟨hone, hlevel.1 ▸ hone⟩
  · obtain ⟨_, _, hend, h⟩ := runFrom_bind_eq_ok.1 h
    obtain ⟨hone, hs⟩ := has_of_endRecord hc hk hempty hend
    obtain ⟨_, _, hend, _⟩ := runFrom_bind_eq_ok.1 h
    exact ⟨hone, (has_of_endRecord hc hk hs hend).1⟩

end Ends

theorem decode_of_decodeRelationship (h : c.decodeRelationship guid = .ok i) :
    RelationshipId.decode guid (some c.home) = .ok i := by
  rw [decodeRelationship] at h
  split at h
  · rename_i id hid
    cases h
    exact hid
  · cases h

/-- How a relationship is resolved: a link with the identity of the identifier, or one that differs
from it in the flag, is that of the relationship. -/
theorem exists_of_resolve (h : (runFrom {} (c.resolve guid)).1 = .ok x) : ∃ i j ls l,
    RelationshipId.decode guid (some c.home) = .ok i ∧
      (runFrom {} (c.derived guid i)).1 = .ok ls ∧ l ∈ ls ∧ l.identity c.home = .ok j ∧
      l.relationship? c.home c.table = .ok (some x) ∧ j.sameRelationship i = true ∧
      ((∃ l₀ ∈ ls, l₀.identity c.home = .ok i) → j = i) := by
  rw [resolve] at h
  obtain ⟨i, _, hi, h⟩ := runFrom_bind_eq_ok.1 h
  rw [runFrom_ofAttempt, Prod.mk.injEq] at hi
  obtain ⟨hi, rfl⟩ := hi
  obtain ⟨ls, _, hls, h⟩ := runFrom_bind_eq_ok.1 h
  obtain ⟨cs, _, hcs, h⟩ := runFrom_bind_eq_ok.1 h
  obtain ⟨o, _, ho, h⟩ := runFrom_bind_eq_ok.1 h
  rw [runFrom_ofAttempt, Prod.mk.injEq] at hcs ho
  cases o with
  | none => cases h
  | some x' =>
      cases h
      obtain ⟨l, hl, hx⟩ := exists_of_firstRelationship ho.1
      obtain ⟨j, hj, hsame, hexact⟩ := exists_of_mem_select hl
      obtain ⟨hmem, hjid⟩ := (mem_identified hcs.1).1 hj
      refine ⟨i, j, ls, l, decode_of_decodeRelationship hi, congrArg Prod.fst hls, hmem, hjid, hx,
        hsame, ?_⟩
      rintro ⟨l₀, hl₀, hid⟩
      exact hexact ⟨l₀, (mem_identified hcs.1).2 ⟨hl₀, hid⟩⟩

end Scope

namespace Collection

variable {c : Collection} {s : Service}

/-- A resolved identifier stands for the relationship that is answered, up to the flag, and up to
nothing where a link has the flag too. The records at both of its ends exist. -/
theorem resolved_as_requested (hk : s.catalog.Keyed) {operation guid : String} {r : Relationship}
    (h : (c.run operation (c.relationship s guid)).1 = .ok (.value r)) : ∃ i j ls,
      RelationshipId.decode guid (some c.home) = .ok i ∧
      RelationshipId.decode r.guid (some c.home) = .ok j ∧
      j = { i with level := j.level } ∧ r.type = i.type ∧
      (Session.runFrom {} ((c.scope s).derived guid i)).1 = .ok ls ∧
      ((∃ l ∈ ls, l.identity c.home = .ok i) → j = i) ∧
      s.catalog.Has i.one.assetType i.one.recordId ∧
      s.catalog.Has i.two.assetType i.two.recordId := by
  obtain ⟨i, j, ls, l, hi, hls, hl, hj, hx, hsame, hexact⟩ :=
    Scope.exists_of_resolve (run_eq_value.1 h)
  obtain ⟨_, _, j', _, _, hj', hguid, htype, _⟩ := Link.relationship?_eq_some hx
  cases hj.symm.trans hj'
  obtain ⟨hhome, hjtype, _⟩ := Link.identity_data hj
  have heq := RelationshipId.sameRelationship_iff.1 hsame
  have hdecode : RelationshipId.decode r.guid (some c.home) = .ok j :=
    RelationshipId.decode_guid hguid (some c.home) (by simp [hhome, scope])
  have hends := Scope.has_of_derived (reads_scope (Scope.outage_of_derived hls)) hk hls
  refine ⟨i, j, ls, hi, hdecode, heq, ?_, hls, hexact, hends⟩
  rw [htype, ← hjtype, heq]

end Collection

namespace Sample

def resolved (guid : String) : Attempt (Outcome Relationship) :=
  (collection.run "get_relationship" (collection.relationship linkedService guid)).1

def guidOf : Attempt (Outcome Relationship) → Option String
  | .ok (.value r) => some r.guid
  | _ => none

theorem exists_of_guidOf {a : Attempt (Outcome Relationship)} {guid : String}
    (h : guidOf a = some guid) : ∃ r, a = .ok (.value r) ∧ r.guid = guid := by
  match a with
  | .ok (.value r) => exact ⟨r, rfl, Option.some.inj h⟩
  | .ok (.failure _) => cases h
  | .error _ => cases h

theorem guidOf_forged :
    guidOf (resolved "r:home-1:SemanticAssignment:1::database_column:column-1::term:term-1") =
      some "r:home-1:SemanticAssignment:0::database_column:column-1::term:term-1" := by
  decide +kernel

/-- No record stands for the assignment of a term, but the identifier claims that one does. -/
theorem forged_flag_resolved : linkedService.catalog.Keyed ∧ ∃ r i j,
    resolved "r:home-1:SemanticAssignment:1::database_column:column-1::term:term-1" =
      .ok (.value r) ∧
    RelationshipId.decode "r:home-1:SemanticAssignment:1::database_column:column-1::term:term-1"
      (some "home-1") = .ok i ∧
    RelationshipId.decode r.guid (some "home-1") = .ok j ∧ i.level = true ∧ j.level = false ∧
    j = { i with level := j.level } ∧ r.type = "SemanticAssignment" ∧
    linkedService.catalog.Has i.one.assetType i.one.recordId ∧
    linkedService.catalog.Has i.two.assetType i.two.recordId := by
  obtain ⟨r, hr, hguid⟩ := exists_of_guidOf guidOf_forged
  obtain ⟨i, j, _, hi, hj, hsame, htype, _, _, hone, htwo⟩ :=
    Collection.resolved_as_requested (c := collection) (s := linkedService)
      consistent_linkedService.keyed hr
  have hlevel : i.level = true := by
    cases hi
    rfl
  have hlevel' : j.level = false := by
    rw [hguid] at hj
    cases hj
    rfl
  have hitype : i.type = "SemanticAssignment" := by
    cases hi
    rfl
  exact ⟨consistent_linkedService.keyed, r, i, j, hr, hi, hj, hlevel, hlevel', hsame,
    htype.trans hitype, hone, htwo⟩

end Sample

end MetaFed
