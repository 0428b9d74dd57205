import MetaFed.Collection.Lookup
import MetaFed.Collection.Search
import MetaFed.Collection.Types
import MetaFed.Proofs.Attempt

/-!
How calls fail. Planning a request and decoding an identifier fail with refusals only, which are
told to the caller; a catalog fails with faults that a bounded backend turns into refusals.
-/

namespace MetaFed

/-- The failure is told to the caller as the outcome of an operation. -/
def Failure.Told : Failure → Prop
  | .fault _ => False
  | .refused r => Outcome.isMisconfigured r = false

namespace Attempt

variable {α β : Type} {F : Failure → Prop} {a : Attempt α}

/-- Whatever a call fails with is like this. -/
def Fails (F : Failure → Prop) (a : Attempt α) : Prop := ∀ f, a = .error f → F f

/-- A call ends with a result, or with a refusal that is told to the caller. -/
abbrev Told (a : Attempt α) : Prop := a.Fails Failure.Told

theorem fails_ok (x : α) : Fails F (.ok x : Attempt α) := by
  intro f h
  cases h

theorem fails_of_eq_ok {x : α} (h : a = .ok x) : a.Fails F := h ▸ fails_ok x

theorem fails_error {f : Failure} (h : F f) : Fails F (.error f : Attempt α) := by
  intro f' h'
  cases h'
  exact h

theorem exists_of_fails (h : a.Fails fun _ => False) : ∃ x, a = .ok x := by
  cases ha : a with
  | ok x => exact ⟨x, rfl⟩
  | error f => exact (h f ha).elim

theorem Fails.bind {f : α → Attempt β} (ha : a.Fails F) (hf : ∀ x, a = .ok x → (f x).Fails F) :
    Fails F (a >>= f) := by
  cases a with
  | ok x => exact hf x rfl
  | error e => exact fails_error (ha e rfl)

theorem Fails.map {f : α → β} (ha : a.Fails F) : Fails F (Except.map f a) := by
  cases a with
  | ok x => exact fails_ok (f x)
  | error e => exact fails_error (ha e rfl)

theorem Fails.mapM {f : α → Attempt β} {xs : List α} (h : ∀ x ∈ xs, (f x).Fails F) :
    Fails F (xs.mapM f) := by
  induction xs with
  | nil => exact fails_ok []
  | cons x xs ih =>
      rw [List.mapM_cons]
      refine (h x List.mem_cons_self).bind fun y _ => ?_
      exact (ih fun x' hx' => h x' (List.mem_cons_of_mem x hx')).bind fun ys _ => fails_ok _

theorem Fails.anyM {f : α → Attempt Bool} {xs : List α} (h : ∀ x ∈ xs, (f x).Fails F) :
    Fails F (xs.anyM f) := by
  induction xs with
  | nil => exact fails_ok false
  | cons x xs ih =>
      rw [List.anyM]
      refine (h x List.mem_cons_self).bind fun b _ => ?_
      cases b with
      | true => exact fails_ok true
      | false => exact ih fun x' hx' => h x' (List.mem_cons_of_mem x hx')

theorem Fails.allM {f : α → Attempt Bool} {xs : List α} (h : ∀ x ∈ xs, (f x).Fails F) :
    Fails F (xs.allM f) := by
  induction xs with
  | nil => exact fails_ok true
  | cons x xs ih =>
      rw [List.allM]
      refine (h x List.mem_cons_self).bind fun b _ => ?_
      cases b with
      | false => exact fails_ok false
      | true => exact ih fun x' hx' => h x' (List.mem_cons_of_mem x hx')

theorem told_refused {r : Refusal} (h : Outcome.isMisconfigured r = false) :
    Told (.error (.refused r) : Attempt α) := fails_error h

theorem Told.within (ha : a.Told) (operation : Option String) : (a.within operation).Told := by
  cases a with
  | ok x => exact fails_ok x
  | error f =>
      have hf := ha f rfl
      cases f with
      | fault x => exact hf.elim
      | refused r => cases operation <;> exact told_refused hf

/-- A result or a refusal that is told is the outcome of an operation. -/
theorem Told.exists_outcome (ha : a.Told) (operation home : String) :
    ∃ x, Outcome.ofAttempt operation home a = .ok x := by
  cases a with
  | ok x => exact ⟨_, rfl⟩
  | error f =>
      have hf := ha f rfl
      cases f with
      | fault x => exact hf.elim
      | refused r =>
          have hr : Outcome.isMisconfigured r = false := hf
          exact ⟨_, by rw [Outcome.ofAttempt, hr, if_neg Bool.false_ne_true]⟩

end Attempt

/-- A fault of the catalog: values without an order, or references that cannot be read. -/
def Failure.Native (f : Failure) : Prop := f = .fault .incomparable ∨ f = .fault .illFormed

open Attempt

theorem Failure.Native.told_report {f : Failure} (h : f.Native) (e : Endpoint) :
    (Backend.report e f).Told := by
  rcases h with rfl | rfl <;> exact rfl

section Native

variable {α : Type}

theorem native_incomparable : Fails Failure.Native (stop .incomparable : Attempt α) :=
  fails_error (.inl rfl)

theorem native_illFormed : Fails Failure.Native (stop .illFormed : Attempt α) :=
  fails_error (.inr rfl)

namespace Reference

theorem native_ofFields (es : Assoc String Value) : (ofFields es).Fails Failure.Native := by
  have htext (v : Option Value) : (Field.text v).Fails Failure.Native := by
    unfold Field.text
    split
    · exact fails_ok _
    · exact native_illFormed
  have htext? (v : Option Value) : (Field.text? v).Fails Failure.Native := by
    unfold Field.text?
    split
    · exact fails_ok _
    · exact fails_ok _
    · exact fails_ok _
    · exact native_illFormed
  exact (htext _).bind fun _ _ => (htext _).bind fun _ _ => (htext? _).bind fun _ _ => fails_ok _

theorem native_collect (vs : List Value) : (allOf.collect vs).Fails Failure.Native := by
  induction vs with
  | nil => exact fails_ok []
  | cons v vs ih =>
      cases v with
      | reference r => exact ih.bind fun _ _ => fails_ok _
      | dict es =>
          rw [allOf.collect]
          split
          · exact (native_ofFields es).bind fun _ _ => ih.bind fun _ _ => fails_ok _
          · exact ih
      | _ => exact ih

theorem native_allOf (v : Value) : (allOf v).Fails Failure.Native := by
  cases v with
  | list vs => exact native_collect vs
  | _ => exact native_collect _

end Reference

namespace NativeOperator

theorem native_ordering (v w : Value) : (ordering v w).Fails Failure.Native := by
  rw [ordering]
  split
  · exact fails_ok _
  · exact native_incomparable

theorem native_ordered (test : Ordering → Bool) (v w : Value) :
    (ordered test v w).Fails Failure.Native := by
  rw [ordered]
  split
  · exact fails_ok false
  · exact (native_ordering v w).bind fun _ _ => fails_ok _

theorem native_holdsFor (o : NativeOperator) (v w : Value) :
    (o.holdsFor v w).Fails Failure.Native := by
  cases o with
  | gt | lt | ge | le => exact native_ordered _ v w
  | memberOf => cases w <;> exact fails_ok _
  | between =>
      unfold holdsFor
      simp only
      split
      · exact fails_ok false
      · refine (native_ordering _ _).bind fun _ _ => ?_
        split
        · exact (native_ordering _ _).bind fun _ _ => fails_ok _
        · exact fails_ok false
      · exact fails_ok false
  | _ => exact fails_ok _

theorem native_holds (o : NativeOperator) (vs : List Value) (w : Value) :
    (o.holds vs w).Fails Failure.Native := by
  unfold holds
  split
  · exact native_holdsFor o _ w
  · split
    · exact fails_ok false
    · exact .allM fun v _ => native_holdsFor _ v w
    · exact .anyM fun v _ => native_holdsFor o v w

end NativeOperator

namespace Node

variable {F : Failure → Prop} {leaf : NativeCondition → Attempt Bool}

mutual

theorem fails_holds (h : ∀ k, (leaf k).Fails F) : ∀ n : Node, (n.holds leaf).Fails F
  | .leaf k => (h k).map
  | .group ms matchAny negated => by
    rw [holds]
    refine Fails.map ?_
    split
    · exact fails_ok true
    · split
      · exact fails_anyHolds h ms
      · exact fails_allHold h ms

theorem fails_anyHolds (h : ∀ k, (leaf k).Fails F) : ∀ ns : List Node, (anyHolds leaf ns).Fails F
  | [] => fails_ok false
  | n :: ns => by
    refine (fails_holds h n).bind fun b _ => ?_
    split
    · exact fails_ok true
    · exact fails_anyHolds h ns

theorem fails_allHold (h : ∀ k, (leaf k).Fails F) : ∀ ns : List Node, (allHold leaf ns).Fails F
  | [] => fails_ok true
  | n :: ns => by
    refine (fails_holds h n).bind fun b _ => ?_
    split
    · exact fails_allHold h ns
    · exact fails_ok false

end

end Node

namespace Catalog

variable (cat : Catalog)

theorem native_follow (p : String) (rs : List Record) :
    (cat.follow p rs).Fails Failure.Native := by
  induction rs with
  | nil => exact fails_ok []
  | cons r rs ih =>
      exact (Reference.native_allOf _).bind fun _ _ => ih.bind fun _ _ => fails_ok _

theorem native_followAll (hops : List String) (rs : List Record) :
    (cat.followAll hops rs).Fails Failure.Native := by
  induction hops generalizing rs with
  | nil => exact fails_ok rs
  | cons hop hops ih => exact (cat.native_follow hop rs).bind fun us _ => ih us

theorem native_holds (r : Record) (k : NativeCondition) :
    (cat.holds r k).Fails Failure.Native :=
  Fails.bind ((cat.native_followAll _ _).bind fun _ _ => fails_ok _) fun vs _ =>
    k.operator.native_holds vs k.value

theorem native_matching (types : List String) (n : Node) (rs : List Record) :
    (cat.matching types n rs).Fails Failure.Native := by
  induction rs with
  | nil => exact fails_ok []
  | cons r rs ih =>
      rw [matching]
      split
      · exact (n.fails_holds (cat.native_holds r)).bind fun _ _ => ih.bind fun _ _ => fails_ok _
      · exact ih.bind fun _ _ => fails_ok _

theorem native_sortByKeys (ks : List SortKey) (rs : List Record) :
    (sortByKeys ks rs).Fails Failure.Native := by
  induction ks with
  | nil => exact fails_ok rs
  | cons k ks ih =>
      refine ih.bind fun us _ => ?_
      rw [sortByKey]
      split
      · exact fails_ok _
      · exact native_incomparable

/-- A search fails only where values have no order or references cannot be read. -/
theorem native_search (n : NativeSearch) : (cat.search n).Fails Failure.Native :=
  (cat.native_matching n.types n.conditions.toNode cat.records.values).bind fun rs _ =>
    (native_sortByKeys n.sorts rs).bind fun _ _ => fails_ok _

end Catalog

end Native

end MetaFed
