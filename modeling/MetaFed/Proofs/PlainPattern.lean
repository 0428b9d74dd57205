import MetaFed.Proofs.Pieces
import MetaFed.Proofs.PlainRegex
import MetaFed.Request.Matching

/-!
Literal patterns without quotes. Such a pattern is taken apart by what stands at its ends: anchors
and runs of any characters. Read as a regular expression it has just these parts, so comparing with
its literal and matching the expression come to the same for a text of one line.
-/

namespace MetaFed

namespace SearchPattern

open Regex

variable {lead trail : Bool} {cs body l r s start stop : List Char} {kind : LiteralKind}

/-- A run of any characters, where there is one. -/
def wildcard (given : Bool) : List Char := if given then ['.', '*'] else []

def wild (given : Bool) : Language Char := if given then Text.line else 1

theorem mem_wild (hs : '\n' ∉ s) {given : Bool} : s ∈ wild given ↔ (given = false → s = []) := by
  cases given with
  | false => simp [wild]
  | true => simpa [wild, Text.mem_line] using hs

theorem mem_wild_iff (hs : '\n' ∉ s) :
    s ∈ wild lead * {l} * wild trail ↔ (LiteralKind.of lead trail).holds l s = true := by
  have hparts : s ∈ wild lead * {l} * wild trail ↔
      ∃ x y, (lead = false → x = []) ∧ (trail = false → y = []) ∧ x ++ l ++ y = s := by
    simp only [Language.mem_mul]
    constructor
    · rintro ⟨_, ⟨x, hx, _, rfl, rfl⟩, y, hy, rfl⟩
      simp only [List.mem_append, not_or] at hs
      exact ⟨x, y, (mem_wild hs.1.1).1 hx, (mem_wild hs.2).1 hy, rfl⟩
    · rintro ⟨x, y, hx, hy, rfl⟩
      simp only [List.mem_append, not_or] at hs
      exact ⟨x ++ l, ⟨x, (mem_wild hs.1.1).2 hx, l, rfl, rfl⟩, y, (mem_wild hs.2).2 hy, rfl⟩
  rw [hparts]
  cases lead with
  | false =>
      cases trail with
      | false => simpa [LiteralKind.of, LiteralKind.holds] using eq_comm
      | true => simp [LiteralKind.of, LiteralKind.holds, List.IsPrefix]
  | true =>
      cases trail with
      | false => simp [LiteralKind.of, LiteralKind.holds, List.IsSuffix]
      | true => simp [LiteralKind.of, LiteralKind.holds, Text.occursIn_iff, List.IsInfix]

theorem exists_start (cs : List Char) :
    ∃ start, (start = [] ∨ start = ['^']) ∧ cs = start ++ dropStartAnchor cs := by
  unfold dropStartAnchor
  split
  · exact ⟨['^'], .inr rfl, rfl⟩
  · exact ⟨[], .inl rfl, rfl⟩

theorem exists_stop (cs : List Char) :
    ∃ stop, (stop = [] ∨ stop = ['$']) ∧ cs = dropEndAnchor cs ++ stop := by
  rw [dropEndAnchor]
  split
  · rename_i h
    obtain ⟨r, rfl⟩ := List.isSuffixOf_iff_suffix.1 h.1
    exact ⟨['$'], .inr rfl, by simp⟩
  · exact ⟨[], .inl rfl, (List.append_nil cs).symm⟩

theorem eq_of_splitLead (h : splitLead cs = (lead, r)) : cs = wildcard lead ++ r := by
  rw [splitLead.eq_def] at h
  split at h
  · cases h
    rfl
  · cases h
    rfl

theorem eq_of_splitTrail (h : splitTrail cs = (trail, r)) : cs = r ++ wildcard trail := by
  rw [splitTrail] at h
  split at h
  · rename_i hdot
    cases h
    obtain ⟨r, rfl⟩ := List.isSuffixOf_iff_suffix.1 hdot.1
    simp [wildcard]
  · cases h
    simp [wildcard]

/-- No mark of repetition comes first. -/
def Unmarked (cs : List Char) : Prop := cs.head? ≠ some '?' ∧ cs.head? ≠ some '+'

theorem unmarked_wildcard (given : Bool) (hstop : stop = [] ∨ stop = ['$']) :
    Unmarked (wildcard given ++ stop) := by
  rcases hstop with rfl | rfl <;> cases given <;> exact ⟨by decide, by decide⟩

theorem unmarked_of_unescape? (h : unescape? cs = some l) (hr : Unmarked r) :
    Unmarked (cs ++ r) := by
  cases cs with
  | nil => exact hr
  | cons c t =>
      -- Neither mark stands for itself.
      constructor
      · intro hmark
        obtain rfl : c = '?' := Option.some.inj hmark
        cases h
      · intro hmark
        obtain rfl : c = '+' := Option.some.inj hmark
        cases h

theorem readFrom_wildcard {st : State} {L : Language Char} (h : st.Plain L) (given : Bool)
    (hr : Unmarked r) : ∃ st' : State, st'.Plain (L * wild given) ∧
      st.readFrom (wildcard given ++ r) = st'.readFrom r := by
  cases given with
  | false => exact ⟨st, (mul_one L).symm ▸ h, rfl⟩
  | true => exact State.readFrom_any h hr.1 hr.2

theorem readFrom_stop {st : State} {L : Language Char} (h : st.Plain L)
    (hstop : stop = [] ∨ stop = ['$']) :
    ∃ r, st.readFrom stop = .ok r ∧ ∀ s, r.matchesAll s = true ↔ s ∈ L := by
  rcases hstop with rfl | rfl
  · exact ⟨_, State.readFrom_nil h.toBare, fun s => matchesAll_iff (h.takes s)⟩
  · refine ⟨_, State.readFrom_end h.toBare, fun s => ?_⟩
    rw [matchesAll_lastLineEnd]
    exact matchesAll_iff (h.takes s)

theorem read_start (hstart : start = [] ∨ start = ['^']) (cs : List Char) :
    ∃ st : State, st.Plain 1 ∧ Regex.read (start ++ cs) = st.readFrom cs := by
  rcases hstart with rfl | rfl
  · exact ⟨{}, ⟨State.bare_initial, fun s => takesAt_empty (Place.start s)⟩, rfl⟩
  · exact State.readFrom_start cs

theorem read_plain (h : plain? body = some (kind, l)) (hstart : start = [] ∨ start = ['^'])
    (hstop : stop = [] ∨ stop = ['$']) : ∃ r, Regex.read (start ++ (body ++ stop)) = .ok r ∧
      ∀ s, '\n' ∉ s → r.matchesAll s = kind.holds l s := by
  cases hlead : splitLead body with
  | mk lead t =>
  cases htrail : splitTrail t with
  | mk trail inner =>
  simp only [plain?, hlead, htrail] at h
  obtain ⟨l', hl, h⟩ := Option.bind_eq_some_iff.1 h
  cases h
  rw [eq_of_splitLead hlead, eq_of_splitTrail htrail, List.append_assoc, List.append_assoc]
  have htail := unmarked_wildcard trail hstop
  obtain ⟨st, hst, hread⟩ :=
    read_start hstart (wildcard lead ++ (inner ++ (wildcard trail ++ stop)))
  obtain ⟨st₁, hst₁, hread₁⟩ := readFrom_wildcard hst lead (unmarked_of_unescape? hl htail)
  obtain ⟨st₂, hst₂, hread₂⟩ := State.readFrom_unescape hst₁ hl (wildcard trail ++ stop)
  have hunmarked : Unmarked stop := unmarked_wildcard false hstop
  obtain ⟨st₃, hst₃, hread₃⟩ := readFrom_wildcard hst₂ trail hunmarked
  obtain ⟨r, hr, hmatches⟩ := readFrom_stop hst₃ hstop
  refine ⟨r, ?_, fun s hs => ?_⟩
  · rw [hread, hread₁, hread₂, hread₃, hr]
  · rw [one_mul] at hmatches
    exact Bool.eq_iff_iff.2 ((hmatches s).trans (mem_wild_iff hs))

theorem classify_eq_literal_iff {value literal : String} : classify value = .literal kind literal ↔
    literal? value.toList = some (kind, literal.toList) := by
  rw [classify]
  split
  · rename_i hl
    rw [hl]
    constructor
    · rintro ⟨⟩
      rw [String.toList_ofList]
    · intro he
      cases he
      rw [String.ofList_toList]
  · rename_i hl
    simp [hl]

theorem read_of_classify {value literal : String}
    (hquoted : quoted? (dropEndAnchor (dropStartAnchor value.toList)) = none)
    (h : classify value = .literal kind literal) : ∃ r, Regex.read value.toList = .ok r ∧
      ∀ s, '\n' ∉ s → r.matchesAll s = kind.holds literal.toList s := by
  have hplain : plain? (dropEndAnchor (dropStartAnchor value.toList)) =
      some (kind, literal.toList) := by
    rw [← classify_eq_literal_iff.1 h]
    simp [literal?, hquoted]
  obtain ⟨start, hstart, hcs⟩ := exists_start value.toList
  obtain ⟨stop, hstop, hbody⟩ := exists_stop (dropStartAnchor value.toList)
  rw [hcs, hbody]
  exact read_plain hplain hstart hstop

/-- Comparing a text of one line with the literal of a pattern without quotes decides whether the
pattern, as a regular expression, matches the text from its start to its end. -/
theorem plain_literal_agrees {value text literal : String}
    (hquoted : quoted? (dropEndAnchor (dropStartAnchor value.toList)) = none)
    (h : classify value = .literal kind literal) (htext : '\n' ∉ text.toList) :
    ∃ r, Regex.read value.toList = .ok r ∧
      PropertyOperator.like.holds (.text text) (.text value) =
        .ok (kind.holds literal.toList text.toList) ∧
      kind.holds literal.toList text.toList = r.matchesAll text.toList := by
  obtain ⟨r, hr, hmatches⟩ := read_of_classify hquoted h
  refine ⟨r, hr, ?_, (hmatches _ htext).symm⟩
  have hlike : PropertyOperator.like.holds (.text text) (.text value) =
      matchesText value text := rfl
  rw [hlike]
  unfold matchesText
  rw [h]

end SearchPattern

namespace Sample

/-- A point that stands for itself, between runs of any characters. -/
def dottedPattern : String := "^.*a\\.b.*$"

/-- Texts, and whether the pattern matches them. -/
def dottedTexts : List (String × Bool) :=
  [("a.b", true), ("xa.by", true), ("xa-by", false), ("", false)]

theorem dottedPattern_agrees : SearchPattern.classify dottedPattern = .literal .contains "a.b" ∧
    ∀ q ∈ dottedTexts, ∃ r, Regex.read dottedPattern.toList = .ok r ∧
      PropertyOperator.like.holds (.text q.1) (.text dottedPattern) = .ok q.2 ∧
      r.matchesAll q.1.toList = q.2 := by
  have hclass : SearchPattern.classify dottedPattern = .literal .contains "a.b" := by
    decide +kernel
  have hgiven : ∀ q ∈ dottedTexts, '\n' ∉ q.1.toList ∧
      LiteralKind.contains.holds "a.b".toList q.1.toList = q.2 := by
    decide
  refine ⟨hclass, fun q hq => ?_⟩
  obtain ⟨htext, hvalue⟩ := hgiven q hq
  obtain ⟨r, hr, hlike, hsame⟩ := SearchPattern.plain_literal_agrees rfl hclass htext
  rw [hvalue] at hlike hsame
  exact ⟨r, hr, hlike, hsame.symm⟩

end Sample

end MetaFed
