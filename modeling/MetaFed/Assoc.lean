/-!
Finite maps in insertion order, as lists of pairs with one pair per key. Putting a key that is
there already replaces its value in place, so the order of first insertion is kept.
-/

namespace MetaFed

/-- Pairs of a key and its value, first inserted first. -/
abbrev Assoc (α β : Type) := List (α × β)

namespace Assoc

variable {α β : Type} [DecidableEq α]

def find? (k : α) : Assoc α β → Option β
  | [] => none
  | (k', v) :: r => if k' = k then some v else find? k r

/-- Sets the value of a key, in its old place or at the end. -/
def put (k : α) (v : β) : Assoc α β → Assoc α β
  | [] => [(k, v)]
  | (k', v') :: r => if k' = k then (k, v) :: r else (k', v') :: put k v r

def keys (m : Assoc α β) : List α := m.map Prod.fst

def values (m : Assoc α β) : List β := m.map Prod.snd

def has (k : α) (m : Assoc α β) : Bool := (find? k m).isSome

def ofList (ps : List (α × β)) : Assoc α β :=
  ps.foldl (fun m p => put p.1 p.2 m) []

/-- Puts a value only where the key has none. -/
def putNew (k : α) (v : β) (m : Assoc α β) : Assoc α β :=
  if has k m then m else put k v m

/-- The entries of `new` put over those of `old`. -/
def overlay (new old : Assoc α β) : Assoc α β :=
  new.foldl (fun m p => put p.1 p.2 m) old

@[simp] theorem find?_put_self (k : α) (v : β) (m : Assoc α β) : find? k (put k v m) = some v := by
  induction m with
  | nil => simp [put, find?]
  | cons p r ih => by_cases h : p.1 = k <;> simp [put, find?, h, ih]

theorem find?_put_of_ne {k k' : α} (h : k ≠ k') (v : β) (m : Assoc α β) :
    find? k' (put k v m) = find? k' m := by
  induction m with
  | nil => simp [put, find?, h]
  | cons p r ih =>
    by_cases hp : p.1 = k
    · subst hp; simp [put, find?, h]
    · by_cases hq : p.1 = k'
      · subst hq; simp [put, find?, hp]
      · simp [put, find?, hp, hq, ih]

theorem keys_put (k : α) (v : β) (m : Assoc α β) :
    keys (put k v m) = if k ∈ keys m then keys m else keys m ++ [k] := by
  induction m with
  | nil => simp [put, keys]
  | cons p r ih =>
    by_cases h : p.1 = k
    · simp [put, keys, h]
    · have h' : k ≠ p.1 := fun e => h e.symm
      simp only [keys] at ih
      by_cases hk : k ∈ r.map Prod.fst <;> simp_all [put, keys]

theorem nodup_keys_put (k : α) (v : β) {m : Assoc α β} (h : (keys m).Nodup) :
    (keys (put k v m)).Nodup := by
  rw [keys_put]
  split
  · exact h
  · rename_i hk
    rw [List.nodup_append]
    refine ⟨h, by simp, ?_⟩
    intro a ha b hb
    simp only [List.mem_singleton] at hb
    subst hb
    intro e
    exact hk (e ▸ ha)

end Assoc

/-- The first member that is among those seen or repeats an earlier one. -/
def firstRepeated? {α : Type} [DecidableEq α] : List α → List α → Option α
  | _, [] => none
  | seen, x :: xs => if x ∈ seen then some x else firstRepeated? (x :: seen) xs

theorem firstRepeated?_eq_none {α : Type} [DecidableEq α] {seen xs : List α} :
    firstRepeated? seen xs = none ↔ xs.Nodup ∧ ∀ x ∈ xs, x ∉ seen := by
  induction xs generalizing seen with
  | nil => simp [firstRepeated?]
  | cons x xs ih =>
      rw [firstRepeated?]
      by_cases hx : x ∈ seen
      · simp [hx]
      · rw [if_neg hx, ih, List.nodup_cons, List.forall_mem_cons]
        constructor
        · rintro ⟨hn, hs⟩
          exact ⟨⟨fun hm => hs x hm List.mem_cons_self, hn⟩, hx,
            fun y hy hys => hs y hy (List.mem_cons_of_mem x hys)⟩
        · rintro ⟨⟨hxs, hn⟩, _, hs⟩
          refine ⟨hn, fun y hy hys => ?_⟩
          rcases List.mem_cons.1 hys with rfl | hys
          · exact hxs hy
          · exact hs y hy hys

/-- Distinct members of a list, each at its first place. -/
def firsts {α : Type} [DecidableEq α] (xs : List α) : List α :=
  xs.foldl (fun seen x => if x ∈ seen then seen else seen ++ [x]) []

end MetaFed
