import MetaFed.Proofs.Answered

/-!
What running a plan comes to, said without its loops. All results of all searches in order are cut
to the window of the plan, and the searches that run are those with too few results before them to
fill it. A record that cannot be read ends the run, if it is met while there is still room.
-/

namespace MetaFed

open Session

/-- The room that some results leave. -/
def roomAfter {α : Type} (room : Option Nat) (xs : List α) : Option Nat :=
  room.map fun n => n - xs.length

section

variable {α : Type} {room : Option Nat} {xs ys : List α}

@[simp] theorem roomAfter_nil : roomAfter room ([] : List α) = room := by
  cases room <;> rfl

@[simp] theorem roomAfter_no_room : roomAfter (some 0) xs = some 0 := by
  rw [roomAfter, Option.map_some, Nat.zero_sub]

theorem roomAfter_append : roomAfter room (xs ++ ys) = roomAfter (roomAfter room xs) ys := by
  simp only [roomAfter, Option.map_map, List.length_append, Function.comp_def, Nat.sub_add_eq]

theorem roomAfter_eq_of_fills (h : Fills room xs ys) : roomAfter room xs = roomAfter room ys := by
  rcases h.2 with rfl | ⟨n, rfl, hn⟩
  · rfl
  · have hle := h.1.length_le
    simp only [roomAfter, Option.map_some, Option.some.injEq]
    omega

end

namespace Attempt

variable {α β : Type}

/-- Results of attempts in order, until there are as many as there is room for. -/
def fill : Option Nat → List (Attempt (List α)) → Attempt (List α)
  | _, [] => .ok []
  | room, a :: as =>
    if room = some 0 then .ok []
    else do
      let xs ← a
      .ok (xs ++ (← fill (roomAfter room xs) as))

theorem fill_no_room (as : List (Attempt (List α))) : fill (some 0) as = .ok [] := by
  cases as <;> rfl

theorem fill_append (room : Option Nat) (as bs : List (Attempt (List α))) :
    fill room (as ++ bs) = fill room as >>= fun xs =>
      fill (roomAfter room xs) bs >>= fun ys => .ok (xs ++ ys) := by
  induction as generalizing room with
  | nil =>
      rw [List.nil_append, fill, ok_bind, roomAfter_nil]
      cases fill room bs <;> rfl
  | cons a as ih =>
      rw [List.cons_append, fill, fill]
      by_cases h0 : room = some 0
      · rw [if_pos h0, if_pos h0, ok_bind, roomAfter_nil, h0, fill_no_room, ok_bind]
        rfl
      · rw [if_neg h0, if_neg h0]
        cases a with
        | error f => rfl
        | ok xs => simp only [ok_bind, ih, bind_assoc, roomAfter_append, List.append_assoc]

end Attempt

section Reading

variable {α β : Type} {room : Option Nat} {attempt : β → Attempt (List α)} {found : β → List α}
  {v : β} {vs ws : List β}

/-- While those before it leave room, everything that is met can be read. -/
def ReadsOn (attempt : β → Attempt (List α)) (found : β → List α) (room : Option Nat)
    (vs : List β) : Prop :=
  ∀ before v after, vs = before ++ v :: after → roomAfter room (before.flatMap found) ≠ some 0 →
    ∃ xs, attempt v = .ok xs

theorem readsOn_no_room (attempt : β → Attempt (List α)) (found : β → List α) (vs : List β) :
    ReadsOn attempt found (some 0) vs :=
  fun _ _ _ _ hroom => absurd roomAfter_no_room hroom

theorem readsOn_nil : ReadsOn attempt found room [] := by
  intro before v after h
  cases before <;> cases h

theorem readsOn_cons : ReadsOn attempt found room (v :: vs) ↔ (room ≠ some 0 →
    (∃ xs, attempt v = .ok xs) ∧ ReadsOn attempt found (roomAfter room (found v)) vs) := by
  constructor
  · intro h h0
    refine ⟨h [] v vs rfl (by simpa using h0), fun before w after hvs hroom => ?_⟩
    refine h (v :: before) w after (by rw [hvs, List.cons_append]) ?_
    rwa [List.flatMap_cons, roomAfter_append]
  · intro h before w after hvs hroom
    have h0 : room ≠ some 0 := by
      rintro rfl
      exact hroom roomAfter_no_room
    cases before with
    | nil =>
        cases hvs
        exact (h h0).1
    | cons v' before =>
        cases hvs
        rw [List.flatMap_cons, roomAfter_append] at hroom
        exact (h h0).2 before w after rfl hroom

theorem readsOn_append : ReadsOn attempt found room (vs ++ ws) ↔
    ReadsOn attempt found room vs ∧
      ReadsOn attempt found (roomAfter room (vs.flatMap found)) ws := by
  induction vs generalizing room with
  | nil =>
      simp [readsOn_nil]
  | cons v vs ih =>
      rw [List.cons_append, readsOn_cons, readsOn_cons, ih, List.flatMap_cons, roomAfter_append]
      by_cases h0 : room = some 0
      · subst h0
        simpa using readsOn_no_room attempt found ws
      · simp only [ne_eq, h0, not_false_eq_true, forall_const, and_assoc]

variable (hfound : ∀ v xs, attempt v = .ok xs → xs = found v)
include hfound

theorem exists_fill (h : ReadsOn attempt found room vs) :
    ∃ xs, Attempt.fill room (vs.map attempt) = .ok xs ∧ Fills room xs (vs.flatMap found) := by
  induction vs generalizing room with
  | nil => exact ⟨[], rfl, .refl room []⟩
  | cons v vs ih =>
      rw [List.map_cons, Attempt.fill, List.flatMap_cons]
      by_cases h0 : room = some 0
      · subst h0
        exact ⟨[], if_pos rfl, .of_no_room _⟩
      · obtain ⟨⟨xs, hxs⟩, hrest⟩ := readsOn_cons.1 h h0
        obtain rfl := hfound v xs hxs
        obtain ⟨ys, hys, hfills⟩ := ih hrest
        refine ⟨found v ++ ys, ?_, hfills.append_left (found v)⟩
        rw [if_neg h0, hxs, Attempt.ok_bind, hys, Attempt.ok_bind]

theorem readsOn_of_fill {xs : List α} (h : Attempt.fill room (vs.map attempt) = .ok xs) :
    ReadsOn attempt found room vs := by
  induction vs generalizing room xs with
  | nil => exact readsOn_nil
  | cons v vs ih =>
      rw [readsOn_cons]
      intro h0
      rw [List.map_cons, Attempt.fill, if_neg h0] at h
      obtain ⟨ys, hys, h⟩ := Attempt.bind_eq_ok.1 h
      obtain ⟨zs, hzs, _⟩ := Attempt.bind_eq_ok.1 h
      refine ⟨⟨ys, hys⟩, ?_⟩
      rw [← hfound v ys hys]
      exact ih hzs

end Reading

/-- The state after some more searches, each of them begun and answered. -/
def SessionState.searching (s : SessionState) (ns : List NativeSearch) : SessionState :=
  { s with events := s.events ++ ns.flatMap fun n => [.called .search, .searched n] }

theorem SessionState.searching_append (s : SessionState) (ns ns' : List NativeSearch) :
    (s.searching ns).searching ns' = s.searching (ns ++ ns') := by
  simp only [searching, List.flatMap_append, List.append_assoc]

@[simp] theorem SessionState.searching_nil (s : SessionState) : s.searching [] = s := by
  simp only [searching, List.flatMap_nil, List.append_nil]

theorem Backend.runFrom_runSearch {b : Backend} (hout : b.outage .search = none) {n : NativeSearch}
    {rs : List Record} (hn : b.search n = .ok rs) (s : SessionState) :
    runFrom s (b.runSearch n) = (.ok rs, s.searching [n]) := by
  have henter : runFrom s (b.enter .search) =
      (.ok (), { s with events := s.events ++ [.called .search] }) := by
    rw [enter, hout]
    rfl
  have hnote (s' : SessionState) : runFrom s' (note (.searched n)) =
      (.ok (), { s' with events := s'.events ++ [.searched n] }) := rfl
  rw [runSearch, runFrom_bind_ok henter, runFrom_bind_ok (hnote _), hn, runFrom_ofAttempt,
    SessionState.searching]
  simp only [List.append_assoc, List.flatMap_cons, List.flatMap_nil, List.append_nil,
    List.cons_append, List.nil_append]

namespace Scope

variable {α : Type} {c : Scope} {read : NativeSearch → Option (Record → Attempt (List α))}
  {hits : NativeSearch → List Record} {ns : List NativeSearch} {room : Option Nat}

theorem collect_eq_fill {f : Record → Attempt (List α)} (rs : List Record) (h0 : room ≠ some 0) :
    collect f room rs = Attempt.fill room (rs.map f) := by
  induction rs generalizing room with
  | nil => rfl
  | cons r rs ih =>
      rw [collect, List.map_cons, Attempt.fill, if_neg h0]
      refine congrArg (f r >>= ·) (funext fun xs => ?_)
      change (if roomAfter room xs = some 0 then Except.ok xs
        else collect f (roomAfter room xs) rs >>= fun ys => .ok (xs ++ ys)) = _
      by_cases hleft : roomAfter room xs = some 0
      · rw [if_pos hleft, hleft, Attempt.fill_no_room, Attempt.ok_bind, List.append_nil]
      · rw [if_neg hleft, ih hleft]

/-- The records that a run goes through, each with the search that found it. -/
def visits (read : NativeSearch → Option (Record → Attempt (List α)))
    (hits : NativeSearch → List Record) (ns : List NativeSearch) : List (NativeSearch × Record) :=
  ns.flatMap fun n => if (read n).isSome then (hits n).map fun r => (n, r) else []

/-- What is read off a record that a search found. -/
def attempt (read : NativeSearch → Option (Record → Attempt (List α)))
    (v : NativeSearch × Record) : Attempt (List α) :=
  match read v.1 with
  | none => .ok []
  | some f => f v.2

theorem visits_cons_of_none {n : NativeSearch} (h : read n = none) :
    visits read hits (n :: ns) = visits read hits ns := by
  rw [visits, List.flatMap_cons, h]
  rfl

theorem visits_cons_of_some {n : NativeSearch} {f : Record → Attempt (List α)}
    (h : read n = some f) : visits read hits (n :: ns) =
      (hits n).map (fun r => (n, r)) ++ visits read hits ns := by
  rw [visits, List.flatMap_cons, h]
  rfl

theorem map_attempt {n : NativeSearch} {f : Record → Attempt (List α)} (h : read n = some f)
    (rs : List Record) : (rs.map fun r => (n, r)).map (attempt read) = rs.map f := by
  rw [List.map_map]
  refine List.map_congr_left fun r _ => ?_
  simp only [Function.comp_apply, attempt, h]

/-- The searches that a run begins. -/
def begun (read : NativeSearch → Option (Record → Attempt (List α)))
    (hits : NativeSearch → List Record) : Option Nat → List NativeSearch → List NativeSearch
  | _, [] => []
  | room, n :: ns =>
    if room = some 0 then []
    else
      match read n with
      | none => begun read hits room ns
      | some f =>
        match Attempt.fill room ((hits n).map f) with
        | .error _ => [n]
        | .ok xs => n :: begun read hits (roomAfter room xs) ns

theorem begun_no_room (ns : List NativeSearch) : begun read hits (some 0) ns = [] := by
  cases ns <;> rfl

theorem runFrom_collectAll (hout : c.backend.outage .search = none)
    (hhits : ∀ n ∈ ns, c.backend.search n = .ok (hits n)) (s : SessionState) :
    runFrom s (c.collectAll read room ns) =
      (Attempt.fill room ((visits read hits ns).map (attempt read)),
        s.searching (begun read hits room ns)) := by
  -- By induction on the searches; what one of them leaves of the room is handed on.
  induction ns generalizing room s with
  | nil => simp [collectAll, visits, begun, Attempt.fill]
  | cons n ns ih =>
      obtain ⟨hn, hns⟩ := List.forall_mem_cons.1 hhits
      rw [collectAll, begun]
      by_cases h0 : room = some 0
      · rw [if_pos h0, if_pos h0, h0, Attempt.fill_no_room, runFrom_pure,
          SessionState.searching_nil]
      · rw [if_neg h0, if_neg h0]
        cases hf : read n with
        | none => rw [visits_cons_of_none hf, ← ih hns]
        | some f =>
            simp only
            rw [runFrom_bind_ok (Backend.runFrom_runSearch hout hn s), collect_eq_fill _ h0,
              visits_cons_of_some hf, List.map_append, Attempt.fill_append, map_attempt hf,
              runFrom_bind, runFrom_ofAttempt]
            cases Attempt.fill room ((hits n).map f) with
            | error e => rfl
            | ok xs =>
                simp only [Attempt.ok_bind]
                change runFrom (s.searching [n])
                  (c.collectAll read (roomAfter room xs) ns >>= fun rest => pure (xs ++ rest)) = _
                rw [runFrom_bind, ih hns, SessionState.searching_append]
                cases Attempt.fill (roomAfter room xs) ((visits read hits ns).map (attempt read)) with
                | error e => rfl
                | ok ys => rfl

end Scope

namespace SearchPlan

variable {α : Type} (p : SearchPlan) (hits : NativeSearch → List Record)
  (found : NativeSearch → Record → List α)

/-- All results of some searches in order, without a bound. -/
def results (ns : List NativeSearch) : List α :=
  ns.flatMap fun n => (hits n).flatMap (found n)

theorem results_append (ns ns' : List NativeSearch) :
    results hits found (ns ++ ns') = results hits found ns ++ results hits found ns' :=
  List.flatMap_append

/-- The room that some searches leave in a plan. -/
def left (ns : List NativeSearch) : Option Nat :=
  roomAfter (Scope.room p) (results hits found ns)

theorem left_nil : p.left hits found [] = Scope.room p := roomAfter_nil

theorem left_append (ns ns' : List NativeSearch) :
    p.left hits found (ns ++ ns') = roomAfter (p.left hits found ns) (results hits found ns') := by
  rw [left, results_append, roomAfter_append, left]

/-- All results of a plan. -/
def full : List α := results hits found p.searches

/-- Too few results to fill the window of a plan. -/
def wants (count : Nat) : Bool :=
  p.pageSize == 0 || decide (count < p.skip + p.pageSize)

/-- The searches that can be read and whose predecessors give too few results. -/
def issued (mapped : NativeSearch → Bool) : List NativeSearch :=
  (p.searches.zipIdx.filter fun x =>
    mapped x.1 && p.wants (results hits found (p.searches.take x.2)).length).map Prod.fst

end SearchPlan

namespace Scope

variable {α : Type} {c : Scope} {p : SearchPlan}
  {read : NativeSearch → Option (Record → Attempt (List α))} {hits : NativeSearch → List Record}
  {found : NativeSearch → Record → List α} {mapped : NativeSearch → Bool} {room : Option Nat}
  {ns : List NativeSearch}

/-- What is read off a record, where it can be, is what is found there. -/
structure ReadsAs (read : NativeSearch → Option (Record → Attempt (List α)))
    (found : NativeSearch → Record → List α) (mapped : NativeSearch → Bool) : Prop where
  mapped_eq : ∀ n, mapped n = (read n).isSome
  unread : ∀ n, read n = none → ∀ r, found n r = []
  eq_found : ∀ n f, read n = some f → ∀ r xs, f r = .ok xs → xs = found n r

/-- What is found in a record, by a search that is named with it. -/
def foundAt (found : NativeSearch → Record → List α) (v : NativeSearch × Record) : List α :=
  found v.1 v.2

theorem flatMap_foundAt (n : NativeSearch) :
    ((hits n).map fun r => (n, r)).flatMap (foundAt found) = SearchPlan.results hits found [n] := by
  rw [List.flatMap_map, SearchPlan.results, List.flatMap_singleton]
  rfl

namespace ReadsAs

variable (h : ReadsAs read found mapped)
include h

theorem eq_foundAt (v : NativeSearch × Record) (xs : List α) (hv : attempt read v = .ok xs) :
    xs = foundAt found v := by
  rw [attempt] at hv
  cases hf : read v.1 with
  | none =>
      rw [hf] at hv
      cases hv
      exact (h.unread v.1 hf v.2).symm
  | some f =>
      rw [hf] at hv
      exact h.eq_found v.1 f hf v.2 xs hv

theorem results_of_none {n : NativeSearch} (hn : read n = none) :
    SearchPlan.results hits found [n] = [] := by
  simp [SearchPlan.results, List.flatMap_eq_nil_iff, h.unread n hn]

theorem flatMap_visits (ns : List NativeSearch) :
    (visits read hits ns).flatMap (foundAt found) = SearchPlan.results hits found ns := by
  induction ns with
  | nil => rfl
  | cons n ns ih =>
      rw [← List.singleton_append, SearchPlan.results_append, ← ih, List.singleton_append]
      cases hf : read n with
      | none => rw [visits_cons_of_none hf, h.results_of_none hf, List.nil_append]
      | some f => rw [visits_cons_of_some hf, List.flatMap_append, flatMap_foundAt]

end ReadsAs

theorem wants_iff (ns : List NativeSearch) :
    p.wants (SearchPlan.results hits found ns).length = true ↔ p.left hits found ns ≠ some 0 := by
  rw [SearchPlan.wants, SearchPlan.left, Scope.room, roomAfter]
  by_cases h0 : p.pageSize = 0
  · simp [h0]
  · simp only [h0, if_false, Option.map_some, Bool.or_eq_true, beq_iff_eq, false_or,
      decide_eq_true_eq, ne_eq, Option.some.injEq]
    omega

theorem begun_cons_of_none {n : NativeSearch} (h : read n = none) :
    begun read hits room (n :: ns) = begun read hits room ns := by
  rw [begun, h]
  split
  · rename_i h0
    rw [h0, begun_no_room]
  · rfl

theorem begun_cons_of_some (h : ReadsAs read found mapped) {n : NativeSearch}
    {f : Record → Attempt (List α)} (hf : read n = some f) (h0 : room ≠ some 0)
    (hread : ReadsOn (attempt read) (foundAt found) room ((hits n).map fun r => (n, r))) :
    begun read hits room (n :: ns) =
      n :: begun read hits (roomAfter room (SearchPlan.results hits found [n])) ns := by
  obtain ⟨xs, hxs, hfills⟩ := exists_fill h.eq_foundAt hread
  rw [map_attempt hf] at hxs
  rw [flatMap_foundAt] at hfills
  simp only [begun, if_neg h0, hf, hxs, roomAfter_eq_of_fills hfills]

/-- The searches that are begun are those with too few results before them, if all that is met can
be read. -/
theorem begun_eq (h : ReadsAs read found mapped) (pre : List NativeSearch)
    (hread : ReadsOn (attempt read) (foundAt found) (p.left hits found pre)
      (visits read hits ns)) :
    begun read hits (p.left hits found pre) ns =
      ((ns.zipIdx pre.length).filter fun x => mapped x.1 &&
        p.wants (SearchPlan.results hits found ((pre ++ ns).take x.2)).length).map Prod.fst := by
  -- The searches before are carried along, since where a search stands among all counts.
  induction ns generalizing pre with
  | nil => rfl
  | cons n ns ih =>
      have hrest := ih (pre ++ [n])
      rw [SearchPlan.left_append, List.append_assoc, List.singleton_append, List.length_append,
        List.length_singleton] at hrest
      rw [List.zipIdx_cons, List.filter_cons, List.take_left, h.mapped_eq n]
      cases hf : read n with
      | none =>
          rw [h.results_of_none hf, roomAfter_nil] at hrest
          rw [visits_cons_of_none hf] at hread
          rw [begun_cons_of_none hf]
          exact hrest hread
      | some f =>
          rw [visits_cons_of_some hf, readsOn_append, flatMap_foundAt] at hread
          rw [Option.isSome_some, Bool.true_and]
          by_cases h0 : p.left hits found pre = some 0
          · rw [h0, roomAfter_no_room, begun_no_room] at hrest
            rw [if_neg fun hwants => (wants_iff pre).1 hwants h0, h0, begun_no_room]
            exact hrest (readsOn_no_room _ _ _)
          · rw [if_pos ((wants_iff pre).2 h0), begun_cons_of_some h hf h0 hread.1, hrest hread.2,
              List.map_cons]

/-- A run gives the window on all results after the searches that are needed, just if everything
that it meets can be read. -/
structure RunsWindow (c : Scope) (p : SearchPlan) (hits : NativeSearch → List Record)
    (read : NativeSearch → Option (Record → Attempt (List α)))
    (found : NativeSearch → Record → List α) (mapped : NativeSearch → Bool) (s : SessionState) :
    Prop where
  window : ReadsOn (attempt read) (foundAt found) (Scope.room p) (visits read hits p.searches) →
    runFrom s (c.run read p) =
      (.ok (page p.skip p.pageSize (p.full hits found)), s.searching (p.issued hits found mapped))
  readsOn : ∀ xs, (runFrom s (c.run read p)).1 = .ok xs →
    ReadsOn (attempt read) (foundAt found) (Scope.room p) (visits read hits p.searches)

theorem runsWindow (h : ReadsAs read found mapped) (hout : c.backend.outage .search = none)
    (hhits : ∀ n ∈ p.searches, c.backend.search n = .ok (hits n)) (s : SessionState) :
    c.RunsWindow p hits read found mapped s := by
  have hall : runFrom s (c.collectAll read (Scope.room p) p.searches) =
      (Attempt.fill (Scope.room p) ((visits read hits p.searches).map (attempt read)),
        s.searching (begun read hits (Scope.room p) p.searches)) :=
    runFrom_collectAll hout hhits s
  constructor
  · intro hread
    obtain ⟨xs, hxs, hfills⟩ := exists_fill h.eq_foundAt hread
    have hbegun : begun read hits (Scope.room p) p.searches = p.issued hits found mapped := by
      rw [← p.left_nil hits found] at hread ⊢
      exact begun_eq h [] hread
    rw [h.flatMap_visits] at hfills
    rw [hxs, hbegun] at hall
    rw [run, runFrom_bind_ok hall, runFrom_pure, page_eq_of_fills hfills]
    rfl
  · intro xs hxs
    obtain ⟨ys, s', hys, _⟩ := runFrom_bind_eq_ok.1 hxs
    rw [hall] at hys
    exact readsOn_of_fill h.eq_foundAt (Prod.ext_iff.1 hys).1

/-- The entity of a record that a search finds, if it can be made and passes what the search leaves
to be checked. -/
def entityIn (c : Scope) (n : NativeSearch) (r : Record) : List Entity :=
  match n.mapping with
  | none => []
  | some m => ((Entity.ofRecord c.home m r).toOption.filter fun e =>
      n.residual.all fun g => (g.matches e.properties).toOption == some true).toList

/-- The relationships of the links that a record yields, those whose ends are mapped. -/
def relationshipsIn (c : Scope) (n : NativeSearch) (r : Record) : List Relationship :=
  match n.relationshipMapping with
  | none => []
  | some k =>
    ((k.links r (if k.kind = .reference then some .one else none)).toOption.getD []).filterMap
      fun l => (l.relationship? c.home c.table).toOption.join

def relationshipReader (c : Scope) (n : NativeSearch) :
    Option (Record → Attempt (List Relationship)) :=
  n.relationshipMapping.map c.readRelationships

theorem toOption_ofRecord {home : String} {m : EntityMapping} {r : Record} {o : Option Entity}
    (h : Entity.ofRecord? home m r = .ok o) : (Entity.ofRecord home m r).toOption = o := by
  rw [Entity.ofRecord?] at h
  split at h
  · rename_i e he
    cases h
    rw [he]
    rfl
  · rename_i he
    cases h
    rw [he]
    rfl
  · cases h

theorem readsAs_entityIn (c : Scope) :
    ReadsAs c.entityReader c.entityIn fun n => n.mapping.isSome where
  mapped_eq n := (Option.isSome_map ..).symm
  unread n hn r := by rw [entityIn, Option.map_eq_none_iff.1 hn]
  eq_found n f hf r xs h := by
    obtain ⟨m, hm, rfl⟩ := Option.map_eq_some_iff.1 hf
    obtain ⟨o, ho, h⟩ := Attempt.bind_eq_ok.1 h
    simp only [entityIn, hm, toOption_ofRecord ho]
    cases o with
    | none =>
        cases h
        rfl
    | some e =>
        cases hg : n.residual with
        | none =>
            rw [hg] at h
            cases h
            rfl
        | some g =>
            rw [hg] at h
            obtain ⟨b, hb, h⟩ := Attempt.bind_eq_ok.1 h
            cases h
            cases b <;> simp [Option.filter, hb, Except.toOption]

theorem filterMap_relationships {home : String} {t : MappingTable} {ls : List Link}
    {xs : List Relationship} (h : Link.relationships home t ls = .ok xs) :
    xs = ls.filterMap fun l => (l.relationship? home t).toOption.join := by
  obtain ⟨os, hos, h⟩ := Attempt.bind_eq_ok.1 h
  cases h
  clear h
  rw [Attempt.mapM_eq_ok] at hos
  induction hos with
  | nil => rfl
  | @cons l o ls os ho _ ih =>
      rw [List.filterMap_cons, List.filterMap_cons, ho, ih]
      cases o <;> rfl

theorem readsAs_relationshipsIn (c : Scope) :
    ReadsAs c.relationshipReader c.relationshipsIn fun n => n.relationshipMapping.isSome where
  mapped_eq n := (Option.isSome_map ..).symm
  unread n hn r := by rw [relationshipsIn, Option.map_eq_none_iff.1 hn]
  eq_found n f hf r xs h := by
    obtain ⟨k, hk, rfl⟩ := Option.map_eq_some_iff.1 hf
    obtain ⟨ls, hls, h⟩ := Attempt.bind_eq_ok.1 h
    have hlinks : k.links r (if k.kind = .reference then some .one else none) = .ok ls := by
      rw [← hls]
      cases k.kind <;> rfl
    simp only [relationshipsIn, hk, hlinks]
    exact filterMap_relationships h

/-- Everything is read, if every record that is met can be. -/
theorem readsOn_visits {read : NativeSearch → Option (Record → Attempt (List α))}
    (h : ∀ n ∈ ns, ∀ f, read n = some f → ∀ r ∈ hits n, ∃ xs, f r = .ok xs) :
    ReadsOn (attempt read) (foundAt found) room (visits read hits ns) := by
  intro before v after hvs _
  have hv : v ∈ visits read hits ns := hvs ▸ List.mem_append_right _ List.mem_cons_self
  obtain ⟨n, hn, hv⟩ := List.mem_flatMap.1 hv
  rw [attempt]
  split at hv
  · obtain ⟨r, hr, rfl⟩ := List.mem_map.1 hv
    cases hf : read n with
    | none => exact ⟨[], rfl⟩
    | some f => exact h n hn f hf r hr
  · cases hv

/-- Running a plan on the records that a backend gives for its searches gives the window on the
entities, or on the relationships, that are found in all of them. No more searches run than those
with too few results before them. A record that cannot be read ends the run, where it is met while
there is room. Among well-formed records that can only be one that stands for a relationship. -/
theorem run_slices (c : Scope) (p : SearchPlan) (hits : NativeSearch → List Record)
    (hout : c.backend.outage .search = none)
    (hhits : ∀ n ∈ p.searches, c.backend.search n = .ok (hits n)) (s : SessionState) :
    c.RunsWindow p hits c.entityReader c.entityIn (fun n => n.mapping.isSome) s ∧
    c.RunsWindow p hits c.relationshipReader c.relationshipsIn
      (fun n => n.relationshipMapping.isSome) s ∧
    (c.home ≠ "" → (∀ n ∈ p.searches, ∀ r ∈ hits n, r.WellFormed) →
      (p.Checkable → runFrom s (c.runEntities p) =
        (.ok (page p.skip p.pageSize (p.full hits c.entityIn)),
          s.searching (p.issued hits c.entityIn fun n => n.mapping.isSome))) ∧
      ((∀ n ∈ p.searches, ∀ k, n.relationshipMapping = some k → k.type ≠ "" ∧
          (k.kind = .level → ∀ r ∈ hits n, ∃ ls, k.levelLinks r = .ok ls)) →
        runFrom s (c.runRelationships p) =
          (.ok (page p.skip p.pageSize (p.full hits c.relationshipsIn)),
            s.searching (p.issued hits c.relationshipsIn fun n =>
              n.relationshipMapping.isSome)))) := by
  have hentities := runsWindow c.readsAs_entityIn hout hhits s
  have hrelationships := runsWindow c.readsAs_relationshipsIn hout hhits s
  refine ⟨hentities, hrelationships, fun hh hw => ⟨fun hp => ?_, fun hk => ?_⟩⟩
  · refine hentities.window (readsOn_visits fun n hn f hf r hr => ?_)
    obtain ⟨m, _, rfl⟩ := Option.map_eq_some_iff.1 hf
    exact exists_readEntity hh (hw n hn r hr) m (hp n hn)
  · refine hrelationships.window (readsOn_visits fun n hn f hf r hr => ?_)
    obtain ⟨k, hmapping, rfl⟩ := Option.map_eq_some_iff.1 hf
    obtain ⟨ht, hlevel⟩ := hk n hn k hmapping
    exact exists_readRelationships hh
      ((hw n hn r hr).exists_links ht fun hkind => hlevel hkind r hr)

end Scope

namespace Sample

open MappingTable.Standard

/-- Answers searches for hosts, databases and columns with some records each. -/
def shelves (n : NativeSearch) : List Record :=
  match n.types with
  | ["host"] => [namelessHost, host]
  | ["database"] => [database, { database with ref := ⟨"database-2", "database", some "stock"⟩ }]
  | ["database_column"] => [columnOne, columnTwo]
  | _ => []

def shelf (hits : NativeSearch → List Record) (t : MappingTable) : Scope :=
  ⟨{ outage := fun _ => none, search := fun n => .ok (hits n), record := fun _ _ => none,
      stringProperties := fun _ => [], version := "11.7.1.0" }, t, "home-1"⟩

/-- The second of the entities, and of the foreign keys. -/
def secondPlan : SearchPlan :=
  { searches :=
      [{ types := ["host"], mapping := some MappingTable.Standard.host },
        { types := ["table"] },
        { types := ["database"], mapping := some MappingTable.Standard.database,
          residual := some (.single { property := "name", value := .text "sales" }) },
        { types := ["database_column"], relationshipMapping := some foreignKey },
        { types := ["database_column"], mapping := some column,
          relationshipMapping := some foreignKey }],
    skip := 1, pageSize := 1 }

theorem wellFormed_shelves (n : NativeSearch) : ∀ r ∈ shelves n, r.WellFormed := by
  rw [shelves]
  split <;> exact Record.wellFormed_of_properties (by decide)

/-- The host without a name and the database of another name do not count, the search without a
mapping does not run, and the last one is not needed. -/
theorem second_sliced :
    let c := shelf shelves MappingTable.standard
    let es := secondPlan.full shelves c.entityIn
    let xs := secondPlan.full shelves c.relationshipsIn
    let asked := secondPlan.issued shelves c.entityIn fun n => n.mapping.isSome
    let followed := secondPlan.issued shelves c.relationshipsIn fun n =>
      n.relationshipMapping.isSome
    runFrom {} (c.runEntities secondPlan) =
      (.ok (page 1 1 es), SessionState.searching {} asked) ∧
    runFrom {} (c.runRelationships secondPlan) =
      (.ok (page 1 1 xs), SessionState.searching {} followed) ∧
    es.map Entity.guid = ["e:home-1::host:host-2", "e:home-1::database:database-1",
      "e:home-1::database_column:column-1", "e:home-1::database_column:column-2"] ∧
    asked.map NativeSearch.types = [["host"], ["database"]] ∧
    (page 1 1 xs).map Relationship.guid =
      ["r:home-1:ForeignKey:0::database_column:column-1::database_column:column-3"] ∧
    xs.length = 6 ∧ followed.map NativeSearch.types = [["database_column"]] := by
  have hruns := (Scope.run_slices (shelf shelves MappingTable.standard) secondPlan shelves rfl
    (fun _ _ => rfl) {}).2.2 (by decide) fun n _ => wellFormed_shelves n
  refine ⟨hruns.1 ?_, hruns.2 ?_, by decide +kernel, by decide +kernel, by decide +kernel,
    by decide +kernel, by decide +kernel⟩
  · intro n hn g hg d hd
    simp only [secondPlan, List.mem_cons, List.not_mem_nil, or_false] at hn
    obtain rfl | rfl | rfl | rfl | rfl := hn <;> cases hg
    cases List.mem_singleton.1 hd
    rfl
  · have hkinds : ∀ n ∈ secondPlan.searches, ∀ k ∈ n.relationshipMapping,
        k.type ≠ "" ∧ k.kind ≠ .level := by decide
    exact fun n hn k hk => ⟨(hkinds n hn k hk).1, fun h => absurd h (hkinds n hn k hk).2⟩

def assessedDetection : Record :=
  { ref := ⟨"detection-2", "classification", none⟩,
    properties := detection.properties ++ [("status", .text "done")] }

def detections (_ : NativeSearch) : List Record := [detection, assessedDetection]

def detectionPlan : SearchPlan :=
  { searches := [{ types := ["classification"], relationshipMapping := some assessedClasses }] }

/-- A detection without status ends the run, and the next one is not given. -/
theorem detections_not_sliced :
    let c := shelf detections assessedTable
    assessedTable.Accepted ∧ (∀ k ∈ assessedTable.relationships, k.fault? = none ∧ k.type ≠ "") ∧
    (∀ n, ∀ r ∈ detections n, r.WellFormed) ∧
    (detectionPlan.full detections c.relationshipsIn).map Relationship.guid =
      ["r:home-1:DataClassAssignment:1::classification:detection-2::classification:detection-2"] ∧
    (runFrom {} (c.runRelationships detectionPlan)).1 =
      .error (.fault (.missingValue "status")) := by
  have hmappings : ∀ k ∈ assessedTable.relationships, k.fault?.isNone = true ∧ k.type ≠ "" := by
    decide +kernel
  have hdetections : ∀ r ∈ [detection, assessedDetection], r.WellFormed :=
    Record.wellFormed_of_properties (by decide)
  refine ⟨accepted_assessedTable,
    fun k hk => ⟨Option.isNone_iff_eq_none.1 (hmappings k hk).1, (hmappings k hk).2⟩,
    fun _ => hdetections, by decide +kernel, eq_of_faultOf (by decide +kernel)⟩

end Sample

end MetaFed
