import MetaFed.Proofs.Session
import MetaFed.Session.Run

/-!
Running a search plan gives a window on the results of all its searches: stopping early, when there
is no room for more results, changes nothing in the window.
-/

namespace MetaFed

section Filling

variable {α : Type} {room : Option Nat} {xs ys us vs : List α}

/-- Results that are the leading ones of some others, all of them or as many as there is room for. -/
def Fills (room : Option Nat) (xs ys : List α) : Prop :=
  xs <+: ys ∧ (xs = ys ∨ ∃ n, room = some n ∧ n ≤ xs.length)

namespace Fills

theorem refl (room : Option Nat) (xs : List α) : Fills room xs xs := ⟨List.prefix_rfl, .inl rfl⟩

theorem of_no_room (ys : List α) : Fills (some 0) [] ys := ⟨List.nil_prefix, .inr ⟨0, rfl, Nat.zero_le 0⟩⟩

theorem of_full (h : room.map (fun n => n - xs.length) = some 0) (ys : List α) :
    Fills room xs (xs ++ ys) := by
  obtain ⟨n, rfl, hn⟩ := Option.map_eq_some_iff.1 h
  exact ⟨List.prefix_append xs ys, .inr ⟨n, rfl, by omega⟩⟩

theorem append_left (xs : List α) (h : Fills (room.map fun n => n - xs.length) us vs) :
    Fills room (xs ++ us) (xs ++ vs) := by
  refine ⟨(List.prefix_append_right_inj xs).2 h.1, ?_⟩
  rcases h.2 with rfl | ⟨k, hk, hl⟩
  · exact .inl rfl
  · obtain ⟨n, rfl, rfl⟩ := Option.map_eq_some_iff.1 hk
    exact .inr ⟨n, rfl, by rw [List.length_append]; omega⟩

theorem take_eq {n : Nat} (h : Fills (some n) xs ys) : xs.take n = ys.take n := by
  rcases h.2 with rfl | ⟨k, hk, hl⟩
  · rfl
  · obtain rfl := Option.some.inj hk
    obtain ⟨zs, rfl⟩ := h.1
    rw [List.take_append_of_le_length hl]

end Fills

theorem page_eq_drop_take (start : Nat) {size : Nat} (h : size ≠ 0) (xs : List α) :
    page start size xs = (xs.take (start + size)).drop start := by
  rw [page, if_neg h, List.drop_take, Nat.add_sub_cancel_left]

theorem page_eq_of_take_eq (start : Nat) {size : Nat} (h : size ≠ 0)
    (ht : xs.take (start + size) = ys.take (start + size)) :
    page start size xs = page start size ys := by
  rw [page_eq_drop_take start h, page_eq_drop_take start h, ht]

theorem page_zero_of_ne {size : Nat} (h : size ≠ 0) (xs : List α) : page 0 size xs = xs.take size := by
  rw [page_eq_drop_take 0 h, Nat.zero_add, List.drop_zero]

end Filling

namespace Scope

variable {α : Type} {read : Record → Attempt (List α)} {rs : List Record} {room : Option Nat}

theorem collect_none_cons {r : Record} {zs : List α} :
    collect read none (r :: rs) = .ok zs ↔
      ∃ xs ys, read r = .ok xs ∧ collect read none rs = .ok ys ∧ zs = xs ++ ys := by
  simp only [collect, Option.map_none, reduceCtorEq, if_false, Attempt.bind_eq_ok, Except.ok.injEq,
    eq_comm (b := zs), exists_and_left]

theorem collect_none_append {rs' : List Record} {zs : List α} :
    collect read none (rs ++ rs') = .ok zs ↔
      ∃ xs ys, collect read none rs = .ok xs ∧ collect read none rs' = .ok ys ∧ zs = xs ++ ys := by
  induction rs generalizing zs with
  | nil => simp [collect, eq_comm]
  | cons r rs ih =>
      rw [List.cons_append, collect_none_cons]
      constructor
      · rintro ⟨us, ws, hu, hw, rfl⟩
        obtain ⟨xs, ys, hx, hy, rfl⟩ := ih.1 hw
        exact ⟨us ++ xs, ys, collect_none_cons.2 ⟨us, xs, hu, hx, rfl⟩, hy, by simp⟩
      · rintro ⟨xs, ys, hx, hy, rfl⟩
        obtain ⟨us, ws, hu, hw, rfl⟩ := collect_none_cons.1 hx
        exact ⟨us, ws ++ ys, hu, ih.2 ⟨ws, ys, hw, hy, rfl⟩, by simp⟩

theorem mem_collect {zs : List α} (h : collect read none rs = .ok zs) {z : α} :
    z ∈ zs ↔ ∃ r ∈ rs, ∃ xs, read r = .ok xs ∧ z ∈ xs := by
  induction rs generalizing zs with
  | nil =>
      cases h
      simp
  | cons r rs ih =>
      obtain ⟨xs, ys, hx, hy, rfl⟩ := collect_none_cons.1 h
      rw [List.mem_append, ih hy, List.exists_mem_cons_iff, hx]
      simp

theorem exists_of_mem_collect {zs : List α} (h : collect read room rs = .ok zs) {z : α}
    (hz : z ∈ zs) : ∃ r ∈ rs, ∃ xs, read r = .ok xs ∧ z ∈ xs := by
  induction rs generalizing room zs with
  | nil =>
      cases h
      cases hz
  | cons r rs ih =>
      rw [collect] at h
      obtain ⟨xs, hx, h⟩ := Attempt.bind_eq_ok.1 h
      simp only at h
      split at h
      · cases h
        exact ⟨r, List.mem_cons_self, _, hx, hz⟩
      · obtain ⟨ys, hy, h⟩ := Attempt.bind_eq_ok.1 h
        cases h
        rcases List.mem_append.1 hz with hz | hz
        · exact ⟨r, List.mem_cons_self, xs, hx, hz⟩
        · obtain ⟨r', hr', hread⟩ := ih hy hz
          exact ⟨r', List.mem_cons_of_mem r hr', hread⟩

theorem exists_read_of_collect {zs : List α} (h : collect read none rs = .ok zs) :
    ∀ r ∈ rs, ∃ xs, read r = .ok xs := by
  induction rs generalizing zs with
  | nil => simp
  | cons r rs ih =>
      obtain ⟨xs, ys, hx, hy, _⟩ := collect_none_cons.1 h
      exact List.forall_mem_cons.2 ⟨⟨xs, hx⟩, ih hy⟩

theorem exists_collect (h : ∀ r ∈ rs, ∃ xs, read r = .ok xs) :
    ∃ zs, collect read none rs = .ok zs := by
  induction rs with
  | nil => exact ⟨[], rfl⟩
  | cons r rs ih =>
      obtain ⟨xs, hxs⟩ := h r List.mem_cons_self
      obtain ⟨ys, hys⟩ := ih fun r' hr' => h r' (List.mem_cons_of_mem r hr')
      exact ⟨xs ++ ys, collect_none_cons.2 ⟨xs, ys, hxs, hys, rfl⟩⟩

theorem collect_map (f : Record → Record) (rs : List Record) :
    collect read none (rs.map f) = collect (fun r => read (f r)) none rs := by
  induction rs with
  | nil => rfl
  | cons r rs ih => simp only [List.map_cons, collect, Option.map_none, ih]

/-- Leaving out records whose results are not kept leaves the results that are kept. -/
theorem collect_filter {read' : Record → Attempt (List α)} {keep : α → Bool} {kept : Record → Bool}
    {zs : List α} (h : collect read none rs = .ok zs)
    (hread : ∀ r ∈ rs, ∀ xs, read r = .ok xs →
      if kept r = true then read' r = .ok (xs.filter keep) else xs.filter keep = []) :
    collect read' none (rs.filter kept) = .ok (zs.filter keep) := by
  induction rs generalizing zs with
  | nil =>
      cases h
      rfl
  | cons r rs ih =>
      obtain ⟨xs, ys, hx, hy, rfl⟩ := collect_none_cons.1 h
      have hfirst := hread r List.mem_cons_self xs hx
      have hrest := ih hy fun r' hr' => hread r' (List.mem_cons_of_mem r hr')
      rw [List.filter_append, List.filter_cons]
      split
      · rename_i hkept
        rw [if_pos hkept] at hfirst
        exact collect_none_cons.2 ⟨_, _, hfirst, hrest, rfl⟩
      · rename_i hkept
        rw [if_neg hkept] at hfirst
        rw [hrest, hfirst, List.nil_append]

theorem collect_fills (room : Option Nat) {ys : List α} (h0 : room ≠ some 0) (h : collect read none rs = .ok ys) :
    ∃ xs, collect read room rs = .ok xs ∧ Fills room xs ys := by
  induction rs generalizing room ys with
  | nil => exact ⟨ys, h, .refl room ys⟩
  | cons r rs ih =>
      obtain ⟨us, vs, hu, hv, rfl⟩ := collect_none_cons.1 h
      by_cases hf : room.map (fun n => n - us.length) = some 0
      · exact ⟨us, by simp only [collect, hu, Attempt.ok_bind, if_pos hf], .of_full hf vs⟩
      · obtain ⟨ws, hw, hfill⟩ := ih _ hf hv
        exact ⟨us ++ ws, by simp only [collect, hu, Attempt.ok_bind, if_neg hf, hw], hfill.append_left us⟩

/-- Results of searches in order, until there is room for no more, without a session. -/
def gather (c : Scope) (read : NativeSearch → Option (Record → Attempt (List α))) :
    Option Nat → List NativeSearch → Attempt (List α)
  | _, [] => .ok []
  | room, n :: ns =>
    if room = some 0 then .ok []
    else
      match read n with
      | none => gather c read room ns
      | some f => do
        let hits ← c.backend.answer n
        let xs ← collect f room hits
        .ok (xs ++ (← gather c read (room.map fun k => k - xs.length) ns))

section

variable (c : Scope) (read : NativeSearch → Option (Record → Attempt (List α)))

theorem gather_no_room (ns : List NativeSearch) : c.gather read (some 0) ns = .ok [] := by
  cases ns <;> simp [gather]

theorem yields_collectAll (room : Option Nat) (ns : List NativeSearch) :
    (c.collectAll read room ns).Yields (c.gather read room ns) := by
  induction ns generalizing room with
  | nil => exact Session.yields_pure []
  | cons n ns ih =>
      rw [collectAll, gather]
      by_cases h0 : room = some 0
      · rw [if_pos h0, if_pos h0]
        exact Session.yields_pure []
      · rw [if_neg h0, if_neg h0]
        cases read n with
        | none => exact ih room
        | some f =>
            refine (c.backend.yields_runSearch n).bind fun hits _ => ?_
            refine (Session.yields_ofAttempt _).bind fun xs _ => ?_
            exact (ih _).bind fun rest _ => Session.yields_pure (xs ++ rest)

theorem yields_run (p : SearchPlan) : (c.run read p).Yields
    (c.gather read (Scope.room p) p.searches >>= fun xs => .ok (page p.skip p.pageSize xs)) :=
  (c.yields_collectAll read _ _).bind fun xs _ => Session.yields_pure (page p.skip p.pageSize xs)

variable {c read} {ns ns' : List NativeSearch}

theorem gather_none_cons {n : NativeSearch} {f : Record → Attempt (List α)} (hf : read n = some f)
    {zs : List α} : c.gather read none (n :: ns) = .ok zs ↔
      ∃ hits xs ys, c.backend.answer n = .ok hits ∧ collect f none hits = .ok xs ∧
        c.gather read none ns = .ok ys ∧ zs = xs ++ ys := by
  simp only [gather, reduceCtorEq, if_false, hf, Option.map_none, Attempt.bind_eq_ok,
    Except.ok.injEq, eq_comm (b := zs), exists_and_left]

theorem gather_none_append {zs : List α} : c.gather read none (ns ++ ns') = .ok zs ↔
    ∃ xs ys, c.gather read none ns = .ok xs ∧ c.gather read none ns' = .ok ys ∧ zs = xs ++ ys := by
  induction ns generalizing zs with
  | nil => simp [gather, eq_comm]
  | cons n ns ih =>
      rw [List.cons_append]
      cases hf : read n with
      | none =>
          simp only [gather, reduceCtorEq, if_false, hf]
          exact ih
      | some f =>
          rw [gather_none_cons hf]
          constructor
          · rintro ⟨hits, us, ws, ha, hu, hw, rfl⟩
            obtain ⟨xs, ys, hx, hy, rfl⟩ := ih.1 hw
            exact ⟨us ++ xs, ys, (gather_none_cons hf).2 ⟨hits, us, xs, ha, hu, hx, rfl⟩, hy,
              by simp⟩
          · rintro ⟨xs, ys, hx, hy, rfl⟩
            obtain ⟨hits, us, ws, ha, hu, hw, rfl⟩ := (gather_none_cons hf).1 hx
            exact ⟨hits, us, ws ++ ys, ha, hu, ih.2 ⟨ws, ys, hw, hy, rfl⟩, by simp⟩

theorem exists_gather (h : ∀ n ∈ ns, ∃ f, read n = some f ∧ ∃ hits, c.backend.answer n = .ok hits ∧
    ∀ r ∈ hits, ∃ xs, f r = .ok xs) : ∃ zs, c.gather read none ns = .ok zs := by
  induction ns with
  | nil => exact ⟨[], rfl⟩
  | cons n ns ih =>
      obtain ⟨f, hf, hits, hhits, hread⟩ := h n List.mem_cons_self
      obtain ⟨xs, hxs⟩ := exists_collect hread
      obtain ⟨ys, hys⟩ := ih fun n' hn' => h n' (List.mem_cons_of_mem n hn')
      exact ⟨xs ++ ys, (gather_none_cons hf).2 ⟨hits, xs, ys, hhits, hxs, hys, rfl⟩⟩

theorem mem_gather {zs : List α} (h : c.gather read none ns = .ok zs) {z : α} :
    z ∈ zs ↔ ∃ n ∈ ns, ∃ f, read n = some f ∧ ∃ hits, c.backend.answer n = .ok hits ∧
      ∃ r ∈ hits, ∃ xs, f r = .ok xs ∧ z ∈ xs := by
  induction ns generalizing zs with
  | nil =>
      cases h
      simp
  | cons n ns ih =>
      rw [List.exists_mem_cons_iff]
      cases hf : read n with
      | none =>
          simp only [gather, reduceCtorEq, if_false, hf] at h
          simp only [reduceCtorEq, false_and, exists_false, false_or, ih h]
      | some f =>
          obtain ⟨hits, xs, ys, ha, hx, hy, rfl⟩ := (gather_none_cons hf).1 h
          simp only [List.mem_append, mem_collect hx, ih hy, Option.some.injEq, exists_eq_left', ha,
            Except.ok.injEq]

theorem exists_of_mem_gather {room : Option Nat} {zs : List α}
    (h : c.gather read room ns = .ok zs) {z : α} (hz : z ∈ zs) : ∃ n ∈ ns, ∃ f, read n = some f ∧
      ∃ hits, c.backend.answer n = .ok hits ∧ ∃ r ∈ hits, ∃ xs, f r = .ok xs ∧ z ∈ xs := by
  induction ns generalizing room zs with
  | nil =>
      cases h
      cases hz
  | cons n ns ih =>
      rw [gather] at h
      split at h
      · cases h
        cases hz
      · rw [List.exists_mem_cons_iff]
        cases hf : read n with
        | none =>
            simp only [hf] at h
            exact .inr (ih h hz)
        | some f =>
            simp only [hf] at h
            obtain ⟨hits, ha, h⟩ := Attempt.bind_eq_ok.1 h
            obtain ⟨xs, hx, h⟩ := Attempt.bind_eq_ok.1 h
            obtain ⟨ys, hy, h⟩ := Attempt.bind_eq_ok.1 h
            cases h
            rcases List.mem_append.1 hz with hz | hz
            · exact .inl ⟨f, rfl, hits, ha, exists_of_mem_collect hx hz⟩
            · exact .inr (ih hy hz)

theorem exists_read_of_gather {zs : List α} (h : c.gather read none ns = .ok zs) {n : NativeSearch}
    (hn : n ∈ ns) {f : Record → Attempt (List α)} (hf : read n = some f) :
    ∃ hits, c.backend.answer n = .ok hits ∧ ∀ r ∈ hits, ∃ xs, f r = .ok xs := by
  induction ns generalizing zs with
  | nil => cases hn
  | cons n' ns ih =>
      cases hf' : read n' with
      | none =>
          simp only [gather, reduceCtorEq, if_false, hf'] at h
          rcases List.mem_cons.1 hn with rfl | hn
          · rw [hf] at hf'
            cases hf'
          · exact ih h hn
      | some g =>
          obtain ⟨hits, xs, ys, ha, hx, hy, _⟩ := (gather_none_cons hf').1 h
          rcases List.mem_cons.1 hn with rfl | hn
          · cases hf.symm.trans hf'
            exact ⟨hits, ha, exists_read_of_collect hx⟩
          · exact ih hy hn

theorem gather_fills (room : Option Nat) {ys : List α} (h : c.gather read none ns = .ok ys) :
    ∃ xs, c.gather read room ns = .ok xs ∧ Fills room xs ys := by
  induction ns generalizing room ys with
  | nil => exact ⟨ys, h, .refl room ys⟩
  | cons n ns ih =>
      by_cases h0 : room = some 0
      · subst h0
        exact ⟨[], by rw [gather, if_pos rfl], .of_no_room ys⟩
      · cases hf : read n with
        | none =>
            simp only [gather, hf, h0, reduceCtorEq, if_false] at h ⊢
            exact ih room h
        | some f =>
            obtain ⟨hits, us, vs, ha, hu, hv, rfl⟩ := (gather_none_cons hf).1 h
            obtain ⟨ws, hw, hfill⟩ := collect_fills room h0 hu
            obtain ⟨zs, hz, hrest⟩ := ih (room.map fun k => k - ws.length) hv
            refine ⟨ws ++ zs, by simp only [gather, hf, h0, if_false, ha, hw, hz, Attempt.ok_bind], ?_⟩
            rcases hfill.2 with rfl | ⟨k, rfl, hk⟩
            · exact hrest.append_left ws
            · rw [Option.map_some, Nat.sub_eq_zero_of_le hk] at hz
              rw [gather_no_room] at hz
              obtain rfl := Except.ok.inj hz
              rw [List.append_nil]
              exact ⟨hfill.1.trans (List.prefix_append us vs), .inr ⟨k, rfl, hk⟩⟩

/-- Leading results that fill the window of a plan give the same window as all of them. -/
theorem page_eq_of_fills {p : SearchPlan} {xs ys : List α} (h : Fills (Scope.room p) xs ys) :
    page p.skip p.pageSize xs = page p.skip p.pageSize ys := by
  by_cases h0 : p.pageSize = 0
  · rw [Scope.room, if_pos h0] at h
    rcases h.2 with rfl | ⟨k, hk, _⟩
    · rfl
    · cases hk
  · rw [Scope.room, if_neg h0] at h
    exact page_eq_of_take_eq p.skip h0 h.take_eq

/-- The results of a plan are a window on all that its searches find. -/
theorem yields_run_of_gather {p : SearchPlan} {ys : List α}
    (h : c.gather read none p.searches = .ok ys) :
    (c.run read p).Yields (.ok (page p.skip p.pageSize ys)) := by
  obtain ⟨xs, hx, hfill⟩ := gather_fills (Scope.room p) h
  intro s
  rw [c.yields_run read p s, hx, Attempt.ok_bind, page_eq_of_fills hfill]

end

end Scope

end MetaFed
