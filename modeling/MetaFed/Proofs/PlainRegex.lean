import MetaFed.Proofs.QualifiedName
import MetaFed.SearchPattern
import Mathlib.Computability.Language

/-!
Plain expressions. Characters that stand for themselves, runs of any characters and anchors around
them are read one after the other, and the expression matches the texts put together of what its
parts take up.
-/

namespace MetaFed

namespace Text

/-- The texts without a line feed. -/
def line : Language Char := {w | '\n' ∉ w}

variable {c : Char} {r v w : List Char}

theorem mem_line : w ∈ line ↔ '\n' ∉ w := Iff.rfl

theorem starts_in_line : (∃ w ∈ line, w ++ v = c :: r) ↔
    c :: r = v ∨ c ≠ '\n' ∧ ∃ w ∈ line, w ++ v = r := by
  constructor
  · rintro ⟨w, hw, he⟩
    cases w with
    | nil => exact .inl he.symm
    | cons d w =>
        obtain ⟨rfl, rfl⟩ := List.cons.inj he
        rw [mem_line, List.mem_cons, not_or] at hw
        exact .inr ⟨Ne.symm hw.1, w, hw.2, rfl⟩
  · rintro (rfl | ⟨hc, w, hw, rfl⟩)
    · exact ⟨[], List.not_mem_nil, rfl⟩
    · refine ⟨c :: w, ?_, rfl⟩
      rw [mem_line, List.mem_cons, not_or]
      exact ⟨Ne.symm hc, hw⟩

end Text

namespace CharSet

variable {c d : Char}

theorem has_single : (single c).has d = true ↔ d = c := by
  have hrange : (c.toNat ≤ d.toNat ∧ d.toNat ≤ c.toNat) ↔ d = c := by
    constructor
    · intro h
      exact Char.toNat_inj.1 (by omega)
    · rintro rfl
      omega
  simp [has, single, Part.has, forms, hrange]

theorem has_notNewline : notNewline.has d = true ↔ d ≠ '\n' := by
  have h : notNewline.has d = !(single '\n').has d := by simp [has, notNewline, single]
  rw [h, Bool.not_eq_true', ← Bool.not_eq_true, has_single]

end CharSet

namespace Regex

variable {a b r : Regex} {p : Place} {c : Char} {cs s v : List Char} {L M : Language Char}

/-- Matches that start at the place take up the texts of the language. -/
def TakesAt (a : Regex) (p : Place) (L : Language Char) : Prop :=
  ∀ v, (∃ q ∈ a.ends p, q.after = v) ↔ ∃ w ∈ L, w ++ v = p.after

theorem matchesAll_iff (h : a.TakesAt (Place.start s) L) : a.matchesAll s = true ↔ s ∈ L := by
  rw [matchesAll, List.any_eq_true]
  simp only [List.isEmpty_iff]
  rw [h []]
  simp [Place.start]

theorem takesAt_empty (p : Place) : Regex.empty.TakesAt p 1 := by
  intro v
  simp [ends, eq_comm]

theorem TakesAt.seq (ha : a.TakesAt p L) (hb : ∀ q, b.TakesAt q M) :
    (Regex.seq a b).TakesAt p (L * M) := by
  intro v
  rw [ends]
  simp only [List.mem_eraseDups, List.mem_flatMap, Language.mem_mul]
  constructor
  · rintro ⟨q, ⟨q', hq', hq⟩, hv⟩
    obtain ⟨w', hw', he'⟩ := (hb q' v).1 ⟨q, hq, hv⟩
    obtain ⟨w, hw, he⟩ := (ha _).1 ⟨q', hq', rfl⟩
    refine ⟨w ++ w', ⟨w, hw, w', hw', rfl⟩, ?_⟩
    rw [List.append_assoc, he', he]
  · rintro ⟨_, ⟨w, hw, w', hw', rfl⟩, he⟩
    rw [List.append_assoc] at he
    obtain ⟨q', hq', he'⟩ := (ha _).2 ⟨w, hw, he⟩
    obtain ⟨q, hq, hv⟩ := (hb q' v).2 ⟨w', hw', he'.symm⟩
    exact ⟨q, ⟨q', hq', hq⟩, hv⟩

theorem ends_set (t : CharSet) (p : Place) (v : List Char) :
    (∃ q ∈ (Regex.set t).ends p, q.after = v) ↔ ∃ c, t.has c = true ∧ c :: v = p.after := by
  rw [ends]
  cases p.after with
  | nil => simp
  | cons d r =>
      dsimp only
      by_cases hd : t.has d = true
      · simp only [if_pos hd, List.mem_singleton, exists_eq_left]
        constructor
        · rintro rfl
          exact ⟨d, hd, rfl⟩
        · rintro ⟨c, _, h⟩
          exact (List.cons.inj h).2.symm
      · rw [if_neg hd]
        constructor
        · rintro ⟨q, hq, _⟩
          cases hq
        · rintro ⟨c, hc, h⟩
          exact absurd ((List.cons.inj h).1 ▸ hc) hd

theorem takesAt_single (c : Char) (p : Place) : (Regex.set (.single c)).TakesAt p {[c]} := by
  intro v
  have hmem (w : List Char) : w ∈ ({[c]} : Language Char) ↔ w = [c] := Iff.rfl
  rw [ends_set]
  simp only [CharSet.has_single, exists_eq_left, hmem, List.singleton_append]

theorem visit_stop {step : Place → List Place} (h : step p = []) (n : Nat) :
    visit false false step (n + 1) [] p = [(1, p)] := by
  simp [visit, h]

theorem visit_single {step : Place → List Place} {q : Place} (h : step p = [q])
    (hlt : q.after.length < p.after.length) (n : Nat) :
    visit false false step (n + 1) [] p = visit false false step n [] q ++ [(1, p)] := by
  simp [visit, h, hlt]

/-- A run of any characters visits all places up to the next line feed. -/
theorem visit_notNewline {n : Nat} (hn : n = p.after.length + 1) :
    (∃ q ∈ (visit false false (Regex.set .notNewline).ends n [] p).map (·.2), q.after = v) ↔
      ∃ w ∈ Text.line, w ++ v = p.after := by
  induction n generalizing p with
  | zero => cases hn
  | succ n ih =>
      obtain ⟨before, after, groups⟩ := p
      cases after with
      | nil =>
          rw [visit_stop rfl]
          simp [Text.mem_line, eq_comm]
      | cons c r =>
          rw [Text.starts_in_line]
          by_cases hc : c = '\n'
          · have hnone : (Regex.set .notNewline).ends ⟨before, c :: r, groups⟩ = [] :=
              if_neg fun h => CharSet.has_notNewline.1 h hc
            rw [visit_stop hnone]
            simp [hc]
          · have hnext : (Regex.set .notNewline).ends ⟨before, c :: r, groups⟩ =
                [⟨c :: before, r, groups⟩] := if_pos (CharSet.has_notNewline.2 hc)
            have hrest := ih (p := ⟨c :: before, r, groups⟩) (Nat.succ.inj hn)
            rw [visit_single hnext (Nat.lt_succ_self _), List.map_append]
            simp only [List.mem_append, or_and_right, exists_or, hrest]
            rw [or_comm]
            simp [hc]

theorem takesAt_line (p : Place) :
    (Regex.rep 0 none false (.set .notNewline)).TakesAt p Text.line := by
  intro v
  rw [← visit_notNewline rfl, ends, Nat.zero_min, steps]
  simp [stepsUpTo]

theorem takesAt_textStart (s : List Char) :
    (Regex.seq .empty (.anchor .textStart)).TakesAt (Place.start s) 1 := by
  have hends : (Regex.seq .empty (.anchor .textStart)).ends (Place.start s) = [Place.start s] := by
    rfl
  intro v
  rw [hends]
  exact takesAt_empty (Place.start s) v

theorem matchesAll_lastLineEnd (a : Regex) (s : List Char) :
    (Regex.seq a (.anchor .lastLineEnd)).matchesAll s = a.matchesAll s := by
  refine Bool.eq_iff_iff.2 ?_
  simp only [matchesAll, ends, List.any_eq_true, List.mem_eraseDups, List.mem_flatMap,
    List.isEmpty_iff]
  constructor
  · rintro ⟨q, ⟨q', hq', hq⟩, hnil⟩
    split at hq
    · rw [List.mem_singleton.1 hq] at hnil
      exact ⟨q', hq', hnil⟩
    · cases hq
  · rintro ⟨q, hq, hnil⟩
    refine ⟨q, ⟨q, hq, ?_⟩, hnil⟩
    simp [Anchor.holds, hnil]

section Reading

open SearchPattern (metacharacters unescape?)

/-- An expression is being read that has no flags, bars and groups so far. -/
structure State.Bare (st : State) : Prop where
  flags : st.flags = {}
  branches : st.branches = []
  outer : st.outer = []
  used : st.used = []
  broken : st.broken = false

/-- What has been read of an expression takes up the texts of the language at the start of a
text. -/
structure State.Plain (st : State) (L : Language Char) : Prop extends st.Bare where
  takes : ∀ s, (st.branch.keepOnly []).TakesAt (Place.start s) L

namespace State

variable {st st' : State} {l : List Char}

theorem bare_initial : Bare {} := ⟨rfl, rfl, rfl, rfl, rfl⟩

theorem Bare.push (h : st.Bare) (r : Regex) (kind : ItemKind) : (st.push r kind).Bare :=
  ⟨h.flags, h.branches, h.outer, h.used, h.broken⟩

theorem Plain.push (h : st.Plain L) (hr : ∀ q, (r.keepOnly []).TakesAt q M) (kind : ItemKind) :
    (st.push r kind).Plain (L * M) where
  toBare := h.toBare.push r kind
  takes s := (h.takes s).seq hr

theorem readFrom_step (h : st.step (c :: cs) = .ok (st', v)) (hv : v.length ≤ cs.length) :
    st.readFrom (c :: cs) = st'.readFrom v := by
  rw [readFrom, if_neg (by simp), h]
  exact if_pos (Nat.lt_succ_of_le hv)

theorem pushPoint_eq (h : st.Bare) (c : Char) :
    st.pushPoint c.toNat = st.push (.set (.single c)) .atom := by
  rw [pushPoint, setOf, h.flags]
  rfl

theorem step_plain (h : st.Bare) (hc : c ∉ metacharacters) (cs : List Char) :
    st.step (c :: cs) = .ok (st.pushPoint c.toNat, cs) := by
  have hverbose : st.flags.verbose = false := by rw [h.flags]
  rw [step]
  · simp [hverbose]
  all_goals
    rintro rfl
    exact hc (by decide)

theorem isAlphanum_of_isAlphanumeric (hc : Text.isAlphanumeric c = false) :
    c.isAlphanum = false := by
  rw [Text.isAlphanumeric] at hc
  split at hc
  · exact hc
  · -- Letters and digits of ASCII are below.
    rename_i hwide
    have hascii : ¬c.toNat < 128 := fun h => hwide (UInt32.lt_iff_toNat_lt.2 h)
    have hupper := mt QualifiedName.ascii_of_isUpper hascii
    have hlower := mt QualifiedName.ascii_of_isLower hascii
    have hdigit := mt QualifiedName.ascii_of_isDigit hascii
    have heq : c.isAlphanum = (c.isUpper || c.isLower || c.isDigit) := rfl
    simp [heq, hupper, hlower, hdigit]

theorem escape?_plain (hc : c.isAlphanum = false) (ascii : Bool) (cs : List Char) :
    escape? ascii (c :: cs) = some (.point c.toNat, cs) := by
  have hne {d : Char} (hd : d.isAlphanum = true) : c ≠ d := by
    rintro rfl
    cases hd.symm.trans hc
  have hclass : classEscape? c = none := by
    unfold classEscape?
    split
    all_goals first | rfl | exact absurd rfl (hne rfl)
  have hanchor : anchorEscape? ascii c = none := by
    unfold anchorEscape?
    split
    all_goals first | rfl | exact absurd rfl (hne rfl)
  have hletter : letterEscape? c = none := by
    unfold letterEscape?
    split
    all_goals first | rfl | exact absurd rfl (hne rfl)
  have hpoint : point? (c :: cs) = some (c.toNat, cs) := by
    rw [point?]
    · simp [hletter, hc]
    all_goals exact hne rfl
  simp [escape?, hclass, hanchor, hpoint, hne (d := '0') rfl]

theorem step_escaped (hc : Text.isAlphanumeric c = false) (st : State) (cs : List Char) :
    st.step ('\\' :: c :: cs) = .ok (st.pushPoint c.toNat, cs) := by
  have hplain := isAlphanum_of_isAlphanumeric hc
  have hdigit : c.isDigit = false := by
    rw [Char.isAlphanum, Bool.or_eq_false_iff] at hplain
    exact hplain.2
  rw [step, escape?_plain hplain]
  simp [hdigit, orMalformed, pushEscaped]

theorem Plain.pushPoint (h : st.Plain L) (c : Char) :
    (st.pushPoint c.toNat).Plain (L * {[c]}) := by
  rw [pushPoint_eq h.toBare]
  exact h.push (r := .set (.single c)) (takesAt_single c) .atom

theorem mul_singleton_cons (L : Language Char) (c : Char) (l : List Char) :
    L * {[c]} * {l} = L * {c :: l} := by
  rw [mul_assoc]
  exact congrArg (L * ·) Set.image2_singleton

theorem reads_cons {st₁ : State} {v w : List Char} (hone : st.readFrom cs = st₁.readFrom v)
    (hrest : ∃ st' : State, st'.Plain (L * {[c]} * {l}) ∧ st₁.readFrom v = st'.readFrom w) :
    ∃ st' : State, st'.Plain (L * {c :: l}) ∧ st.readFrom cs = st'.readFrom w := by
  obtain ⟨st', hst', hread⟩ := hrest
  rw [mul_singleton_cons] at hst'
  exact ⟨st', hst', hone.trans hread⟩

theorem readFrom_unescape (h : st.Plain L) (hl : unescape? cs = some l) (v : List Char) :
    ∃ st' : State, st'.Plain (L * {l}) ∧ st.readFrom (cs ++ v) = st'.readFrom v := by
  fun_induction unescape? cs generalizing st L l with
  | case1 =>
      cases hl
      exact ⟨st, (mul_one L).symm ▸ h, rfl⟩
  | case2 => cases hl
  | case3 c r hc => cases hl
  | case4 c r hc ih =>
      obtain ⟨t, ht, rfl⟩ := Option.map_eq_some_iff.1 hl
      have hstep := step_escaped (by simpa using hc) st (r ++ v)
      exact reads_cons (readFrom_step hstep (Nat.le_succ _)) (ih (h.pushPoint c) ht)
  | case5 c r => cases hl
  | case6 c r _ _ hc ih =>
      obtain ⟨t, ht, rfl⟩ := Option.map_eq_some_iff.1 hl
      have hstep := step_plain h.toBare hc (r ++ v)
      exact reads_cons (readFrom_step hstep le_rfl) (ih (h.pushPoint c) ht)

/-- A run of any characters is read as a whole where no other mark follows it. -/
theorem readFrom_any (h : st.Plain L) (hmark : cs.head? ≠ some '?') (hmark' : cs.head? ≠ some '+') :
    ∃ st' : State, st'.Plain (L * Text.line) ∧
      st.readFrom ('.' :: '*' :: cs) = st'.readFrom cs := by
  have hpoint : st.step ('.' :: '*' :: cs) =
      .ok (st.push (.set .notNewline) .atom, '*' :: cs) := by
    rw [step, h.flags]
    rfl
  have hrun : (st.push (.set .notNewline) .atom).step ('*' :: cs) =
      .ok (st.push (.rep 0 none false (.set .notNewline)) .repeated, cs) := by
    have hrepeats : st.flags.unrepeated = false := by rw [h.flags]
    rw [step, repeatLast, if_neg (by decide)]
    simp only [push, hrepeats, Bool.or_false, Option.all_none, and_self, if_true]
    split
    · exact absurd rfl hmark
    · exact absurd rfl hmark'
    · rfl
  refine ⟨_, h.push (r := .rep 0 none false (.set .notNewline)) takesAt_line .repeated, ?_⟩
  rw [readFrom_step hpoint (by simp), readFrom_step hrun (by simp)]

theorem readFrom_start (cs : List Char) :
    ∃ st' : State, st'.Plain 1 ∧ readFrom {} ('^' :: cs) = st'.readFrom cs := by
  have hanchor : State.step {} ('^' :: cs) = .ok (push {} (.anchor .textStart) .anchor, cs) := rfl
  refine ⟨_, ⟨bare_initial.push _ _, fun s => ?_⟩, readFrom_step hanchor le_rfl⟩
  exact takesAt_textStart s

theorem readFrom_nil (h : st.Bare) : st.readFrom [] = .ok (st.branch.keepOnly []) := by
  have hclash : st.clashing = false := by
    rw [clashing, h.flags]
    rfl
  have hbody : st.body = st.branch := by
    rw [body, h.branches]
    rfl
  rw [readFrom, if_pos List.isEmpty_nil, finish, hbody, hclash, h.outer, h.broken, h.used]
  rfl

theorem readFrom_end (h : st.Bare) : st.readFrom ['$'] =
    .ok (.seq (st.branch.keepOnly []) (.anchor .lastLineEnd)) := by
  have hanchor : st.step ['$'] = .ok (st.push (.anchor .lastLineEnd) .anchor, []) := by
    rw [step, h.flags]
    rfl
  rw [readFrom_step hanchor le_rfl, readFrom_nil (h.push _ _)]
  rfl

end State

end Reading

end Regex

end MetaFed
