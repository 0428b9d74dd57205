import Mathlib
import MetaFed.Proofs.Consistent
import MetaFed.Proofs.Operation

/-!
Sequencing of relationships. A listing for an entity is ordered by the texts of a property, so whole
numbers come in numeric order just where their texts do; a search takes no notice of a sequencing.
Either way the windows are cut from one list.
-/

namespace MetaFed

theorem rel_or_rel_of_pairwise {α : Type} {R : α → α → Prop} {xs : List α} (h : xs.Pairwise R)
    (hrefl : ∀ a, R a a) {a b : α} (ha : a ∈ xs) (hb : b ∈ xs) : R a b ∨ R b a := by
  have : Std.Symm fun a b => R a b ∨ R b a := ⟨fun _ _ h => h.symm⟩
  have hpair : xs.Pairwise fun a b => R a b ∨ R b a := h.imp fun h => .inl h
  exact hpair.forall_of_forall (fun a _ => .inl (hrefl a)) ha hb

namespace Sequencing

variable {α : Type} [LE α] {o : Sequencing}

/-- Two items are in the order of a property that a sequencing asks for. -/
def Ordered (o : Sequencing) (a b : α) : Prop :=
  if o = .propertyDescending then b ≤ a else a ≤ b

theorem ordered_refl (h : ∀ a : α, a ≤ a) (a : α) : o.Ordered a a := by
  rw [Ordered]
  split <;> exact h a

/-- Whole numbers that are in the order of their texts are in numeric order just where their texts
compare as the numbers do. -/
theorem ordered_iff_of_texts {is : List Int} (h : (is.map toString).Pairwise o.Ordered) :
    is.Pairwise o.Ordered ↔ ∀ i ∈ is, ∀ j ∈ is, i < j → toString i < toString j := by
  rw [List.pairwise_map] at h
  constructor
  · intro hnumbers i hi j hj hij
    have hboth := rel_or_rel_of_pairwise (hnumbers.and h)
      (fun i => ⟨ordered_refl le_refl i, ordered_refl String.le_refl _⟩) hi hj
    have hle : toString i ≤ toString j := by
      simp only [Ordered] at hboth
      split at hboth
      · exact (hboth.resolve_left fun hb => hb.1.not_gt hij).2
      · exact (hboth.resolve_right fun hb => hb.1.not_gt hij).2
    refine String.not_le.1 fun hge => hij.ne ?_
    exact Int.repr_inj.1 (String.le_antisymm hle hge)
  · intro halike
    have hmono {i j : Int} (hi : i ∈ is) (hj : j ∈ is) (hle : toString i ≤ toString j) : i ≤ j :=
      not_lt.1 fun hji => String.not_le.2 (halike j hj i hi hji) hle
    refine h.imp_of_mem fun {i j} hi hj hle => ?_
    rw [Ordered] at hle ⊢
    split at hle
    · rename_i ho
      exact if_pos ho ▸ hmono hj hi hle
    · rename_i ho
      exact if_neg ho ▸ hmono hi hj hle

end Sequencing

namespace Relationship

/-- Value of a property, null where there is none. -/
def value (property : String) (x : Relationship) : Value :=
  (Assoc.find? property x.properties).getD .null

/-- Values of a property, in the order of the relationships that have one. -/
def values (property : String) (xs : List Relationship) : List Value :=
  (xs.map (value property)).filter fun v => !v.isNull

end Relationship

namespace Planner

variable {p : Planner} {q : RelationshipSearch}

/-- A window on relationships cuts the results of a plan, and changes nothing else in it. -/
theorem planRelationships_window {plan : SearchPlan}
    (h : p.planRelationships { q with window := {} } none = .ok plan) (w : Window) :
    p.planRelationships { q with window := w } none = .ok ⟨plan.searches, w.pageSize, w.start⟩ := by
  obtain ⟨_, hcheck, h⟩ := Attempt.bind_eq_ok.1 h
  obtain ⟨ks, hks, h⟩ := Attempt.bind_eq_ok.1 h
  obtain ⟨os, hos, h⟩ := Attempt.bind_eq_ok.1 h
  cases h
  simp only [planRelationships, hcheck, hks, hos, Attempt.ok_bind]

end Planner

namespace Collection

open Session

variable {c : Collection} {s : Service} {guid : String} {type : Option String} {property : String}
  {o : Sequencing} {xs ys : List Relationship}

theorem keyLE_total (a b : Bool × String) : keyLE a b ∨ keyLE b a := by
  obtain ⟨a, t⟩ := a
  obtain ⟨b, u⟩ := b
  cases a <;> cases b <;> simp [keyLE, String.le_total]

theorem keyLE_trans (a b c : Bool × String) (h : keyLE a b) (h' : keyLE b c) : keyLE a c := by
  obtain ⟨a, t⟩ := a
  obtain ⟨b, u⟩ := b
  obtain ⟨c, v⟩ := c
  cases a <;> cases b <;> cases c <;> simp_all [keyLE]
  all_goals exact String.le_trans h h'

theorem sequenceKey_of_not_null {x : Relationship} (h : (!(x.value property).isNull) = true) :
    sequenceKey property x = (false, (x.value property).asText) := by
  rw [Relationship.value] at h ⊢
  rw [sequenceKey]
  cases hv : (Assoc.find? property x.properties).getD .null with
  | null =>
      rw [hv] at h
      cases h
  | bool _ | int _ | real _ | text _ | list _ | dict _ | moment _ | reference _ => rfl

/-- Sorted by property, relationships are in the order of its texts. -/
theorem texts_sequenced (property : String) (ho : o.isByProperty = true) (start size : Nat)
    (xs : List Relationship) :
    ((Relationship.values property (sequenced ⟨start, size, some property, some o⟩ xs)).map
      Value.asText).Pairwise o.Ordered := by
  rw [Relationship.values, List.pairwise_map, List.pairwise_filter, List.pairwise_map]
  have htexts {x y : Relationship} (hx : (!(x.value property).isNull) = true)
      (hy : (!(y.value property).isNull) = true)
      (h : keyLE (sequenceKey property x) (sequenceKey property y) = true) :
      (x.value property).asText ≤ (y.value property).asText := by
    rw [sequenceKey_of_not_null hx, sequenceKey_of_not_null hy] at h
    exact of_decide_eq_true h
  have hasc := pairwise_sortBy
    (fun x y => keyLE_total (sequenceKey property x) (sequenceKey property y))
    (fun _ _ _ => keyLE_trans _ _ _) xs
  have hdesc := pairwise_sortBy
    (fun x y => keyLE_total (sequenceKey property y) (sequenceKey property x))
    (fun _ _ _ h h' => keyLE_trans _ _ _ h' h) xs
  cases o with
  | propertyAscending => exact hasc.imp fun h hx hy => htexts hx hy h
  | propertyDescending => exact hdesc.imp fun h hx hy => htexts hy hx h
  | any | guid | creationRecent | creationOldest | updateRecent | updateOldest => cases ho

theorem runFrom_relationshipPage_eq (w : Window) :
    (runFrom {} (c.relationshipPage s guid type w false)).1 =
      (runFrom {} (c.relationshipsOf s guid type)).1.map fun xs =>
        page w.start w.pageSize (sequenced w xs) := by
  rw [relationshipPage,
    runFrom_bind_ok (show runFrom {} (checkPresent false) = (.ok (), {}) from rfl),
    runFrom_bind]
  rcases runFrom {} (c.relationshipsOf s guid type) with ⟨a | a, st⟩ <;> rfl

/-- Windows on the relationships of an entity are cut from one list, which is in sequence. -/
theorem relationships_window
    (h : (c.answer s (.relationships guid type ⟨0, 0, some property, some o⟩ false)).1 =
      .ok (.value xs)) :
    (∃ found, xs = sequenced ⟨0, 0, some property, some o⟩ found) ∧ ∀ start size,
      (c.answer s (.relationships guid type ⟨start, size, some property, some o⟩ false)).1 =
        .ok (.value (page start size xs)) := by
  rw [answer_eq_value, work, runFrom_relationshipPage_eq, Attempt.map_eq_ok] at h
  obtain ⟨found, hfound, rfl⟩ := h
  refine ⟨⟨found, rfl⟩, fun start size => ?_⟩
  rw [answer_eq_value, work, runFrom_relationshipPage_eq, hfound]
  rfl

/-- Windows on the relationships that a search finds are cut from what it finds without one,
whatever sequencing they ask for. -/
theorem findRelationships_window {q : RelationshipSearch}
    (h : (c.answer s (.findRelationships { q with window := {} })).1 = .ok (.value ys))
    (w : Window) :
    (c.answer s (.findRelationships { q with window := w })).1 =
      .ok (.value (page w.start w.pageSize ys)) := by
  rw [answer_eq_value, work, findRelationships, runFrom_bind_eq_ok] at h ⊢
  obtain ⟨plan, st, hplan, h⟩ := h
  rw [runFrom_ofAttempt, Prod.mk.injEq] at hplan
  obtain ⟨hplan, rfl⟩ := hplan
  have hwhole : plan = ⟨plan.searches, 0, 0⟩ :=
    Except.ok.inj (hplan.symm.trans (Planner.planRelationships_window hplan {}))
  rw [hwhole, Scope.runRelationships, (c.scope s).yields_run, Attempt.bind_eq_ok] at h
  obtain ⟨zs, hzs, h⟩ := h
  obtain rfl : zs = ys := Except.ok.inj h
  refine ⟨⟨plan.searches, w.pageSize, w.start⟩, {}, ?_,
    Scope.yields_run_of_gather (p := ⟨plan.searches, w.pageSize, w.start⟩) hzs {}⟩
  rw [runFrom_ofAttempt, Planner.planRelationships_window hplan w]

/-- A listing for an entity is one list in the order of the texts of the property, of which every
window is a slice; the whole numbers in it are in numeric order just where their texts compare as
they do. A search answers with slices of what it finds unsequenced. -/
theorem sequenced_by_text (c : Collection) (s : Service) (property : String) (o : Sequencing)
    (ho : o.isByProperty = true) :
    (∀ guid type xs,
      (c.answer s (.relationships guid type ⟨0, 0, some property, some o⟩ false)).1 =
        .ok (.value xs) →
      (∀ start size,
        (c.answer s (.relationships guid type ⟨start, size, some property, some o⟩ false)).1 =
          .ok (.value (page start size xs))) ∧
      ((Relationship.values property xs).map Value.asText).Pairwise o.Ordered ∧
      ∀ is : List Int, Relationship.values property xs = is.map .int →
        (is.Pairwise o.Ordered ↔ ∀ i ∈ is, ∀ j ∈ is, i < j → toString i < toString j)) ∧
    ∀ (q : RelationshipSearch) ys,
      (c.answer s (.findRelationships { q with window := {} })).1 = .ok (.value ys) →
      ∀ start size, (c.answer s (.findRelationships
        { q with window := ⟨start, size, some property, some o⟩ })).1 =
          .ok (.value (page start size ys)) := by
  refine ⟨fun guid type xs h => ?_, fun q ys h start size => findRelationships_window h _⟩
  obtain ⟨⟨found, rfl⟩, hwindows⟩ := relationships_window h
  have htexts := texts_sequenced property ho 0 0 found
  refine ⟨hwindows, htexts, fun is his => ?_⟩
  rw [his, List.map_map] at htexts
  exact Sequencing.ordered_iff_of_texts htexts

end Collection

namespace Sample

/-- The record of a data class that was detected for a column, with some confidence. -/
def confidentDetection (n : String) (confidence : Int) : Record :=
  { ref := ⟨"detection-" ++ n, "classification", none⟩,
    properties := [refersTo "classifies_asset" (columnRef "1"), refersTo "data_class" classRef,
      ("confidence_percent", .int confidence)] }

/-- A column with two detected data classes, the more confident one first. -/
def detectedService : Service :=
  { catalog := (((({} : Catalog).put
      { ref := columnRef "1", properties := [("detected_classifications",
          .list [.reference ⟨"detection-1", "classification", none⟩,
            .reference ⟨"detection-2", "classification", none⟩])] }).put
      linkedClass).put (confidentDetection "1" 10)).put (confidentDetection "2" 9) }

def listedByConfidence (start size : Nat) : Attempt (Outcome (List Relationship)) :=
  (collection.answer detectedService (.relationships columnGuid none
    ⟨start, size, some "confidence", some .propertyAscending⟩ false)).1

def foundByConfidence (start size : Nat) : Attempt (Outcome (List Relationship)) :=
  (collection.answer detectedService (.findRelationships
    { type := some "DataClassAssignment",
      window := ⟨start, size, some "confidence", some .propertyAscending⟩ })).1

def integers? : List Value → Option (List Int)
  | [] => some []
  | .int i :: vs => (integers? vs).map (i :: ·)
  | _ => none

theorem eq_of_integers? {vs : List Value} {is : List Int} (h : integers? vs = some is) :
    vs = is.map .int := by
  induction vs generalizing is with
  | nil =>
      cases h
      rfl
  | cons v vs ih =>
      cases v with
      | int i =>
          obtain ⟨js, hjs, rfl⟩ := Option.map_eq_some_iff.1 h
          rw [ih hjs, List.map_cons]
      | null | bool _ | real _ | text _ | list _ | dict _ | moment _ | reference _ => cases h

def confidences : Attempt (Outcome (List Relationship)) → Option (List Int)
  | .ok (.value xs) => integers? (Relationship.values "confidence" xs)
  | _ => none

theorem exists_of_confidences {a : Attempt (Outcome (List Relationship))} {is : List Int}
    (h : confidences a = some is) :
    ∃ xs, a = .ok (.value xs) ∧ Relationship.values "confidence" xs = is.map .int := by
  match a with
  | .ok (.value xs) => exact ⟨xs, rfl, eq_of_integers? h⟩
  | .ok (.failure _) => cases h
  | .error _ => cases h

/-- The windows on the column's listing are slices of a list in the order of texts, and those on the
search are slices of what it finds unsequenced. -/
theorem sequenced_by_text_confidences : ∃ xs ys,
    listedByConfidence 0 0 = .ok (.value xs) ∧
    ((Relationship.values "confidence" xs).map Value.asText).Pairwise
      Sequencing.propertyAscending.Ordered ∧
    listedByConfidence 1 1 = .ok (.value (page 1 1 xs)) ∧
    foundByConfidence 1 1 = .ok (.value (page 1 1 ys)) := by
  obtain ⟨hlisted, hfound⟩ := Collection.sequenced_by_text collection detectedService "confidence"
    .propertyAscending rfl
  obtain ⟨xs, hxs, _⟩ := exists_of_confidences
    (show confidences (listedByConfidence 0 0) = some [10, 9] by decide +kernel)
  obtain ⟨ys, hys, _⟩ := exists_of_confidences
    (show confidences (collection.answer detectedService (.findRelationships
      { type := some "DataClassAssignment" })).1 = some [10, 9] by decide +kernel)
  obtain ⟨hpages, htexts, _⟩ := hlisted _ _ xs hxs
  exact ⟨xs, ys, hxs, htexts, hpages 1 1, hfound { type := some "DataClassAssignment" } ys hys 1 1⟩

/-- Asked for in ascending order, a confidence of ten comes before one of nine. -/
theorem confidences_out_of_order : collection.table.Accepted ∧ detectedService.catalog.Keyed ∧
    (∃ xs, listedByConfidence 0 0 = .ok (.value xs) ∧ ∃ is : List Int,
      Relationship.values "confidence" xs = is.map .int ∧
        ¬ is.Pairwise Sequencing.propertyAscending.Ordered) ∧
    ∃ xs, foundByConfidence 0 0 = .ok (.value xs) ∧ ∃ is : List Int,
      Relationship.values "confidence" xs = is.map .int ∧
        ¬ is.Pairwise Sequencing.propertyAscending.Ordered := by
  have hout : ¬ [(10 : Int), 9].Pairwise Sequencing.propertyAscending.Ordered := by
    simp [Sequencing.Ordered]
  obtain ⟨xs, hxs, hvalues⟩ := exists_of_confidences
    (show confidences (listedByConfidence 0 0) = some [10, 9] by decide +kernel)
  obtain ⟨ys, hys, hvalues'⟩ := exists_of_confidences
    (show confidences (foundByConfidence 0 0) = some [10, 9] by decide +kernel)
  exact ⟨MappingTable.accepted_standard, Catalog.keyed_put (Catalog.keyed_put (Catalog.keyed_put
    (Catalog.keyed_put Catalog.keyed_empty _) _) _) _, ⟨xs, hxs, _, hvalues, hout⟩,
    ys, hys, _, hvalues', hout⟩

end Sample

end MetaFed
