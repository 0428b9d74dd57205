import Mathlib
import MetaFed.Proofs.Hits

/-!
The order of hits. Sorting by the last key first, and stably, puts records in the lexicographic
order of the keys. An absent value ranks above all others, so that it comes last in ascending order
and first in descending order. Every planned search ends its keys with the record's id, so the
order of the catalog itself does not matter.
-/

namespace MetaFed

section Stable

variable {α : Type} {le : α → α → Bool} {R : α → α → Prop} {x : α} {xs : List α}

/-- In order, and in an order of their own where the comparison leaves them equal. -/
def Stably (le : α → α → Bool) (R : α → α → Prop) (a b : α) : Prop :=
  le a b = true ∧ (le b a = true → R a b)

theorem pairwise_insertBy_stably (total : ∀ y ∈ xs, le x y = true ∨ le y x = true)
    (trans : ∀ y ∈ xs, ∀ z ∈ xs, le x y = true → le y z = true → le x z = true)
    (hx : ∀ y ∈ xs, R x y) (h : xs.Pairwise (Stably le R)) :
    (insertBy le x xs).Pairwise (Stably le R) := by
  induction xs with
  | nil => exact List.pairwise_singleton _ x
  | cons y ys ih =>
      obtain ⟨hy, hys⟩ := List.pairwise_cons.1 h
      rw [insertBy]
      split
      · next hle =>
          refine List.pairwise_cons.2 ⟨fun z hz => ⟨?_, fun _ => hx z hz⟩, h⟩
          rcases List.mem_cons.1 hz with rfl | hmem
          · exact hle
          · exact trans y List.mem_cons_self z hz hle (hy z hmem).1
      · next hle =>
          refine List.pairwise_cons.2 ⟨fun z hz => ?_, ?_⟩
          · rcases List.mem_cons.1 ((insertBy_perm x ys).mem_iff.1 hz) with rfl | hz
            · exact ⟨(total y List.mem_cons_self).resolve_left hle, fun h => absurd h hle⟩
            · exact hy z hz
          · refine ih (fun z hz => total z (List.mem_cons_of_mem y hz)) (fun z hz w hw => ?_)
              (fun z hz => hx z (List.mem_cons_of_mem y hz)) hys
            exact trans z (List.mem_cons_of_mem y hz) w (List.mem_cons_of_mem y hw)

/-- Sorting keeps the order of items that the comparison leaves equal. -/
theorem pairwise_sortBy_stably (total : ∀ a ∈ xs, ∀ b ∈ xs, le a b = true ∨ le b a = true)
    (trans : ∀ a ∈ xs, ∀ b ∈ xs, ∀ c ∈ xs, le a b = true → le b c = true → le a c = true)
    (h : xs.Pairwise R) : (sortBy le xs).Pairwise (Stably le R) := by
  induction xs with
  | nil => exact .nil
  | cons x xs ih =>
      obtain ⟨hx, hxs⟩ := List.pairwise_cons.1 h
      have hmem {a : α} (ha : a ∈ sortBy le xs) : a ∈ x :: xs :=
        List.mem_cons_of_mem x (mem_sortBy.1 ha)
      refine pairwise_insertBy_stably (fun a ha => total x List.mem_cons_self a (hmem ha))
        (fun a ha b hb => trans x List.mem_cons_self a (hmem ha) b (hmem hb))
        (fun a ha => hx a (mem_sortBy.1 ha))
        (ih (fun a ha b hb => ?_) (fun a ha b hb c hc => ?_) hxs)
      · exact total a (List.mem_cons_of_mem x ha) b (List.mem_cons_of_mem x hb)
      · exact trans a (List.mem_cons_of_mem x ha) b (List.mem_cons_of_mem x hb) c
          (List.mem_cons_of_mem x hc)

end Stable

namespace Value

/-- Kinds of values that have an order among them. -/
inductive Kind where
  | text
  | int
  | moment
  deriving DecidableEq, Repr

def Kind.all : List Kind := [.text, .int, .moment]

def kind? : Value → Option Kind
  | .text _ => some .text
  | .int _ => some .int
  | .moment _ => some .moment
  | _ => none

/-- The value is absent or of a kind. -/
def isOf (kind : Kind) (v : Value) : Bool :=
  v.isNull || v.kind? == some kind

/-- Rank of a sort value among those of its kind; an absent one ranks above them. -/
def rank : Value → WithTop (String ⊕ₗ Int)
  | .text s => (toLex (.inl s) : String ⊕ₗ Int)
  | .int i => (toLex (.inr i) : String ⊕ₗ Int)
  | .moment t => (toLex (.inr t.utcMicros) : String ⊕ₗ Int)
  | _ => ⊤

variable {v : Value} {kind : Kind}

theorem exists_of_isOf (h : v.isOf kind = true) (hn : v.isNull = false) :
    match kind with
    | .text => ∃ s, v = .text s
    | .int => ∃ i, v = .int i
    | .moment => ∃ t, v = .moment t := by
  rw [isOf, hn, Bool.false_or, beq_iff_eq] at h
  cases v with
  | text | int | moment =>
      cases h
      exact ⟨_, rfl⟩
  | _ => cases h

theorem rank_lt_top (h : v.isOf kind = true) (hn : v.isNull = false) : v.rank < ⊤ := by
  cases kind <;> obtain ⟨_, rfl⟩ := exists_of_isOf h hn <;> exact WithTop.coe_lt_top _

theorem rank_of_isNull (hn : v.isNull = true) : v.rank = ⊤ := by
  cases v with
  | null => rfl
  | _ => cases hn

end Value

namespace Catalog

variable {a b : Value} {kind : Value.Kind} {o : Ordering}

/-- Present values are ordered as what they stand for is, if they are equal only where that is. -/
theorem compares_of_present {κ : Type} [LinearOrder κ] {x y : κ} (ha : a.isNull = false)
    (hb : b.isNull = false) (hsame : a.same b = true → x = y)
    (hcompare : ∀ o, a.compare? b = some o → o = compare x y) (h : keyOrder? a b = some o) :
    o.Compares x y := by
  have hpresent : keyOrder? a b = if a.same b then some .eq else a.compare? b := by
    rw [keyOrder?, ha, hb]
  rw [hpresent] at h
  split at h
  · next hs =>
      cases h
      exact hsame hs
  · obtain rfl := hcompare o h
    cases hc : compare x y with
    | lt => exact compare_lt_iff_lt.1 hc
    | eq => exact compare_eq_iff_eq.1 hc
    | gt => exact compare_gt_iff_gt.1 hc

theorem compares_of_strictMono {κ ι : Type} [LinearOrder κ] [LinearOrder ι] {f : κ → ι}
    (hf : StrictMono f) {x y : κ} (h : o.Compares x y) : o.Compares (f x) (f y) := by
  cases o with
  | lt => exact hf h
  | eq => exact congrArg f h
  | gt => exact hf h

theorem present_compares (ha : a.isOf kind = true) (hb : b.isOf kind = true)
    (hna : a.isNull = false) (hnb : b.isNull = false) (h : keyOrder? a b = some o) :
    o.Compares a.rank b.rank := by
  have htext : StrictMono fun s : String =>
      ((toLex (.inl s) : String ⊕ₗ Int) : WithTop (String ⊕ₗ Int)) :=
    WithTop.coe_strictMono.comp Sum.Lex.inl_strictMono
  have hint : StrictMono fun i : Int =>
      ((toLex (.inr i) : String ⊕ₗ Int) : WithTop (String ⊕ₗ Int)) :=
    WithTop.coe_strictMono.comp Sum.Lex.inr_strictMono
  -- Each kind has its own strictly monotone way into the ranks.
  cases kind with
  | text =>
      obtain ⟨s, rfl⟩ := Value.exists_of_isOf ha hna
      obtain ⟨t, rfl⟩ := Value.exists_of_isOf hb hnb
      refine compares_of_strictMono htext (compares_of_present rfl rfl (fun hs => ?_)
        (fun o ho => ?_) h)
      · rwa [Value.text_same_text, beq_iff_eq] at hs
      · simpa only [Value.compare?, Option.some.injEq, eq_comm] using ho
  | int =>
      obtain ⟨i, rfl⟩ := Value.exists_of_isOf ha hna
      obtain ⟨j, rfl⟩ := Value.exists_of_isOf hb hnb
      refine compares_of_strictMono hint (compares_of_present rfl rfl (fun hs => ?_)
        (fun o ho => ?_) h)
      · simpa [Value.same, Value.compareNumbers?, Value.whole?] using hs
      · simpa only [Value.compare?, Value.compareNumbers?, Value.whole?, Option.some.injEq,
          eq_comm] using ho
  | moment =>
      obtain ⟨s, rfl⟩ := Value.exists_of_isOf ha hna
      obtain ⟨t, rfl⟩ := Value.exists_of_isOf hb hnb
      refine compares_of_strictMono hint (compares_of_present rfl rfl (fun hs => ?_)
        (fun o ho => ?_) h)
      · simp only [Value.same, Moment.same, Bool.and_eq_true, beq_iff_eq] at hs
        exact hs.2
      · simp only [Value.compare?, Moment.compare?, Option.ite_none_right_eq_some,
          Option.some.injEq] at ho
        exact ho.2.symm

theorem keyOrder?_compares (ha : a.isOf kind = true) (hb : b.isOf kind = true)
    (h : keyOrder? a b = some o) : o.Compares a.rank b.rank := by
  cases hna : a.isNull <;> cases hnb : b.isNull
  case false.false => exact present_compares ha hb hna hnb h
  all_goals
    rw [keyOrder?, hna, hnb] at h
    cases h
  case false.true => exact (Value.rank_lt_top ha hna).trans_eq (Value.rank_of_isNull hnb).symm
  case true.false => exact (Value.rank_lt_top hb hnb).trans_eq (Value.rank_of_isNull hna).symm
  case true.true => exact (Value.rank_of_isNull hna).trans (Value.rank_of_isNull hnb).symm

end Catalog

namespace SortKey

variable {k : SortKey} {r r' : Record}

/-- One record comes before another one by the key alone. -/
def Before (k : SortKey) (r r' : Record) : Prop :=
  if k.ascending then (r.value k.property).rank < (r'.value k.property).rank
  else (r'.value k.property).rank < (r.value k.property).rank

def Ties (k : SortKey) (r r' : Record) : Prop :=
  (r.value k.property).rank = (r'.value k.property).rank

/-- One record comes before another one: by the first key that tells them apart. -/
def Precede : List SortKey → Record → Record → Prop
  | [], _, _ => False
  | k :: ks, r, r' => k.Before r r' ∨ k.Ties r r' ∧ Precede ks r r'

/-- Each key finds values of one kind, or none, on some records. -/
def Suit (ks : List SortKey) (rs : List Record) : Prop :=
  ∀ k ∈ ks, ∃ kind, ∀ r ∈ rs, (r.value k.property).isOf kind = true

instance (ks : List SortKey) (rs : List Record) : Decidable (Suit ks rs) :=
  decidable_of_iff (∀ k ∈ ks, ∃ kind ∈ Value.Kind.all, ∀ r ∈ rs,
      (r.value k.property).isOf kind = true) <|
    forall₂_congr fun _ _ => exists_congr fun kind =>
      and_iff_right (by cases kind <;> decide : kind ∈ Value.Kind.all)

end SortKey

namespace Catalog

open SortKey

variable {k : SortKey} {ks : List SortKey} {rs us : List Record} {kind : Value.Kind}
  {R : Record → Record → Prop}

theorem precedes_iff (hk : ∀ r ∈ rs, (r.value k.property).isOf kind = true)
    (hc : isComparable k rs = true) {r r' : Record} (hr : r ∈ rs) (hr' : r' ∈ rs) :
    precedes k r r' = true ↔
      if k.ascending then (r.value k.property).rank ≤ (r'.value k.property).rank
      else (r'.value k.property).rank ≤ (r.value k.property).rank := by
  have hle {a b : Record} (ha : a ∈ rs) (hb : b ∈ rs) :
      (keyOrder? (a.value k.property) (b.value k.property)).any Ordering.isLE = true ↔
        (a.value k.property).rank ≤ (b.value k.property).rank := by
    obtain ⟨o, ho⟩ :=
      Option.isSome_iff_exists.1 (List.all_eq_true.1 (List.all_eq_true.1 hc a ha) b hb)
    rw [ho, Option.any_some, Ordering.isLE_iff_ne_gt]
    exact (keyOrder?_compares (hk a ha) (hk b hb) ho).ne_gt
  rw [precedes]
  split
  · exact hle hr hr'
  · exact hle hr' hr

/-- A sort key orders the records, and keeps their order where it leaves them equal. -/
theorem pairwise_sortByKey (hk : ∀ r ∈ rs, (r.value k.property).isOf kind = true)
    (h : rs.Pairwise R) (hs : sortByKey k rs = .ok us) :
    us.Pairwise fun r r' => k.Before r r' ∨ k.Ties r r' ∧ R r r' := by
  rw [sortByKey] at hs
  split at hs
  · next hc =>
      cases hs
      have hle {a b : Record} (ha : a ∈ rs) (hb : b ∈ rs) := precedes_iff hk hc ha hb
      refine (pairwise_sortBy_stably (fun a ha b hb => ?_)
        (fun a ha b hb c hc' => ?_) h).imp_of_mem fun {a b} ha hb hab => ?_
      · rw [hle ha hb, hle hb ha]
        split
        · exact le_total _ _
        · exact le_total _ _
      · rw [hle ha hb, hle hb hc', hle ha hc']
        split
        · exact le_trans
        · exact fun hba hcb => hcb.trans hba
      · obtain ⟨hab, hR⟩ := hab
        rw [hle (mem_sortBy.1 ha) (mem_sortBy.1 hb)] at hab
        rw [hle (mem_sortBy.1 hb) (mem_sortBy.1 ha)] at hR
        -- A descending key is the same order turned round, ties included.
        rw [Before, Ties]
        split at hab
        · next hasc =>
            simp only [hasc, if_true] at hR ⊢
            exact hab.lt_or_eq.imp_right fun e => ⟨e, hR e.ge⟩
        · next hasc =>
            simp only [hasc] at hR ⊢
            exact hab.lt_or_eq.imp_right fun e => ⟨e.symm, hR e.ge⟩
  · cases hs

theorem sortByKeys_append (ks ks' : List SortKey) (rs : List Record) :
    sortByKeys (ks ++ ks') rs = sortByKeys ks' rs >>= sortByKeys ks := by
  induction ks with
  | nil =>
      cases h : sortByKeys ks' rs with
      | ok us => rw [List.nil_append, h, Attempt.ok_bind, sortByKeys]
      | error e => rw [List.nil_append, h, Attempt.error_bind]
  | cons k ks ih =>
      rw [List.cons_append, sortByKeys, ih, bind_assoc]
      rfl

/-- Several keys put records in their lexicographic order, after which comes the order that the
records had before. -/
theorem pairwise_sortByKeys {ks' : List SortKey} (hks : Suit ks rs)
    (h : rs.Pairwise (Precede ks')) (hs : sortByKeys ks rs = .ok us) :
    us.Pairwise (Precede (ks ++ ks')) := by
  induction ks generalizing us with
  | nil =>
      cases hs
      exact h
  | cons k ks ih =>
      obtain ⟨hk, hks⟩ := List.forall_mem_cons.1 hks
      obtain ⟨ts, hts, hs⟩ := Attempt.bind_eq_ok.1 hs
      obtain ⟨kind, hk⟩ := hk
      have hk (r : Record) (hr : r ∈ ts) : (r.value k.property).isOf kind = true :=
        hk r ((sortByKeys_perm hts).mem_iff.1 hr)
      exact pairwise_sortByKey hk (ih hks hts) hs

theorem pairwise_byId (hn : (rs.map Record.id).Nodup) :
    (sortBy (precedes .byId) rs).Pairwise (Precede [.byId]) := by
  have hvalue (r : Record) : r.value SortKey.byId.property = .text r.id := if_pos rfl
  have hid (r : Record) : (r.value SortKey.byId.property).isOf .text = true := by
    rw [hvalue]
    rfl
  have hs : sortByKey .byId rs = .ok (sortBy (precedes .byId) rs) := sortByKeys_byId rs
  refine (pairwise_sortByKey (fun r _ => hid r) (List.pairwise_map.1 hn) hs).imp fun {r r'} h => ?_
  refine .inl (h.resolve_right fun ⟨hties, hne⟩ => hne ?_)
  have hcompares := keyOrder?_compares (hid r) (hid r') (keyOrder?_id r r')
  rw [Ties] at hties
  cases hc : compare r.id r'.id with
  | eq => exact Std.LawfulEqOrd.eq_of_compare hc
  | lt =>
      rw [hc] at hcompares
      exact absurd hties hcompares.ne
  | gt =>
      rw [hc] at hcompares
      exact absurd hties hcompares.ne'

/-- Sorting by keys of which the id is the last puts the same records in the same order. -/
theorem sortByKeys_perm_eq {rs' : List Record} (hp : rs'.Perm rs) (hn : (rs.map Record.id).Nodup)
    (ks : List SortKey) : sortByKeys (ks ++ [.byId]) rs' = sortByKeys (ks ++ [.byId]) rs := by
  have hsame : sortBy (precedes .byId) rs' = sortBy (precedes .byId) rs := by
    refine List.Perm.eq_of_pairwise (fun a b _ _ hab hba => ?_)
      (pairwise_byId ((hp.map Record.id).nodup_iff.2 hn)) (pairwise_byId hn)
      ((sortBy_perm rs').trans (hp.trans (sortBy_perm rs).symm))
    simp only [Precede, Before, SortKey.byId, if_true, and_false, or_false] at hab hba
    exact absurd hab hba.asymm
  rw [sortByKeys_append, sortByKeys_append, sortByKeys_byId, sortByKeys_byId, hsame]

end Catalog

/-- The last sort key of the search is the id, so that it leaves no records equal. -/
def NativeSearch.Settled (n : NativeSearch) : Prop :=
  ∃ ks, n.sorts = ks ++ [.byId]

theorem Catalog.found_ordered {cat : Catalog} (hk : cat.Keyed) {n : NativeSearch} (hn : n.Settled)
    {rs : List Record} (h : cat.found n = .ok rs) (hs : SortKey.Suit n.sorts rs) :
    rs.Pairwise (SortKey.Precede n.sorts) := by
  obtain ⟨ks, hks⟩ := hn
  obtain ⟨us, hus, h⟩ := Attempt.bind_eq_ok.1 h
  rw [hks] at h hs ⊢
  have hperm := sortByKeys_perm h
  rw [sortByKeys_append, sortByKeys_byId, Attempt.ok_bind] at h
  have hids : (us.map Record.id).Nodup :=
    ((matching_sublist hus).1.map Record.id).nodup hk.nodup_ids
  refine pairwise_sortByKeys (fun k hk => ?_) (pairwise_byId hids) h
  obtain ⟨kind, hkind⟩ := hs k (List.mem_append_left _ hk)
  exact ⟨kind, fun r hr => hkind r (hperm.mem_iff.2 (mem_sortBy.1 hr))⟩

end MetaFed
