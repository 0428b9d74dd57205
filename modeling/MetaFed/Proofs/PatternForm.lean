import MetaFed.Proofs.PatternBody

/-!
The written form of literal patterns. A pattern is literal if it is a text in quotes or a text with
its metacharacters escaped, with wildcards around it as its kind has them and perhaps an anchor at
either end. After a text in quotes one line feed is passed over.
-/

namespace MetaFed

namespace SearchPattern

variable {c : Char} {cs gap l r : List Char} {kind : LiteralKind} {value literal : String}

/-- The parts of a pattern: what stands inside its anchors and wildcards, and which of these it
has. -/
structure Parts where
  start : Bool
  lead : Bool
  body : List Char
  trail : Bool
  stop : Bool

def anchor (c : Char) (given : Bool) : List Char := if given then [c] else []

namespace Parts

def literalKind (p : Parts) : LiteralKind := .of p.lead p.trail

/-- The pattern without its anchors, with a gap at its end. -/
def inner (p : Parts) (gap : List Char) : List Char :=
  wildcard p.lead ++ (p.body ++ (wildcard p.trail ++ gap))

/-- The pattern the parts make, with a gap before its last anchor. -/
def spelled (p : Parts) (gap : List Char) : List Char :=
  anchor '^' p.start ++ (p.inner gap ++ anchor '$' p.stop)

/-- The parts are not read as others: a backslash that ends the body would escape what follows,
and a wildcard on its own is a leading one. -/
structure Apart (p : Parts) : Prop where
  backslash : p.body.getLast? = some '\\' → p.trail = false ∧ p.stop = false
  lone : p.body = [] → p.trail = true → p.lead = true

end Parts

theorem not_backslash_of_dropEndAnchor (h : cs = dropEndAnchor cs ++ ['$']) :
    (dropEndAnchor cs).getLast? ≠ some '\\' := by
  intro hlast
  have hmark : ['\\'] ++ ['$'] <:+ cs :=
    h ▸ List.suffix_append_self_iff.2 (List.singleton_suffix_iff_getLast?_eq_some.2 hlast)
  rw [dropEndAnchor] at h
  split_ifs at h with hcut
  · exact hcut.2 (List.isSuffixOf_iff_suffix.2 hmark)
  · exact absurd (List.self_eq_append_right.1 h) (List.cons_ne_nil _ _)

theorem exists_anchors (cs : List Char) : ∃ start stop,
    cs = anchor '^' start ++ (dropEndAnchor (dropStartAnchor cs) ++ anchor '$' stop) ∧
      (stop = true → (dropEndAnchor (dropStartAnchor cs)).getLast? ≠ some '\\') := by
  obtain ⟨u, hu, hcs⟩ := exists_start cs
  obtain ⟨v, hv, hbody⟩ := exists_stop (dropStartAnchor cs)
  have hstart : ∃ start, u = anchor '^' start := by
    rcases hu with rfl | rfl
    · exact ⟨false, rfl⟩
    · exact ⟨true, rfl⟩
  obtain ⟨start, rfl⟩ := hstart
  rcases hv with rfl | rfl
  · refine ⟨start, false, ?_, nofun⟩
    conv_lhs => rw [hcs, hbody]
    rfl
  · refine ⟨start, true, ?_, fun _ => not_backslash_of_dropEndAnchor hbody⟩
    conv_lhs => rw [hcs, hbody]
    rfl

theorem dropStartAnchor_append (h : r.head? ≠ some '^') (start : Bool) :
    dropStartAnchor (anchor '^' start ++ r) = r := by
  cases start with
  | true => rfl
  | false =>
      cases r with
      | nil => rfl
      | cons c r =>
          refine dropStartAnchor.eq_2 _ ?_
          rintro r he
          obtain rfl : c = '^' := (List.cons.inj he).1
          exact h rfl

theorem dropEndAnchor_append {stop : Bool} (hslash : stop = true → r.getLast? ≠ some '\\')
    (hkept : ['$'] <:+ r → ['\\', '$'] <:+ r) : dropEndAnchor (r ++ anchor '$' stop) = r := by
  cases stop with
  | true =>
      have hmark : ¬ ['\\', '$'] <:+ r ++ ['$'] := by
        intro (hs : ['\\'] ++ ['$'] <:+ r ++ ['$'])
        have hlast := List.suffix_append_self_iff.1 hs
        exact hslash rfl (List.singleton_suffix_iff_getLast?_eq_some.1 hlast)
      simp [dropEndAnchor, anchor, hmark]
  | false =>
      rw [dropEndAnchor, if_neg]
      · exact List.append_nil r
      · simp only [anchor, Bool.false_eq_true, if_false, List.append_nil,
          List.isSuffixOf_iff_suffix]
        exact fun hs => hs.2 (hkept hs.1)

namespace Parts

variable {p : Parts}

theorem drop_anchors (hhead : (p.inner gap ++ anchor '$' p.stop).head? ≠ some '^')
    (hslash : p.stop = true → (p.inner gap).getLast? ≠ some '\\')
    (hkept : ['$'] <:+ p.inner gap → ['\\', '$'] <:+ p.inner gap) :
    dropEndAnchor (dropStartAnchor (p.spelled gap)) = p.inner gap := by
  rw [spelled, dropStartAnchor_append hhead, dropEndAnchor_append hslash hkept]

theorem last_of_quoted (h : p.body = '\\' :: 'Q' :: (l ++ quoteEnd))
    (hgap : gap = [] ∨ gap = ['\n']) :
    (p.inner gap).getLast? = some 'E' ∨ (p.inner gap).getLast? = some '*' ∨
      (p.inner gap).getLast? = some '\n' := by
  have hbody : p.body = ('\\' :: 'Q' :: l) ++ quoteEnd := h
  simp only [inner, hbody, List.getLast?_append]
  rcases hgap with rfl | rfl
  · cases p.trail with
    | false => exact .inl rfl
    | true => exact .inr (.inl rfl)
  · exact .inr (.inr rfl)

theorem drop_anchors_of_quoted (h : p.body = '\\' :: 'Q' :: (l ++ quoteEnd))
    (hgap : gap = [] ∨ gap = ['\n']) :
    dropEndAnchor (dropStartAnchor (p.spelled gap)) = p.inner gap := by
  have hlast := last_of_quoted h hgap
  refine drop_anchors ?_ (fun _ he => ?_) fun hs => ?_
  · cases hlead : p.lead <;> simp [inner, hlead, wildcard, h]
  · simp [he] at hlast
  · simp [List.singleton_suffix_iff_getLast?_eq_some.1 hs] at hlast

/-- The pattern ends in a wildcard or with its body. -/
theorem eq_star_or_of_getLast? (h : (p.inner []).getLast? = some c) :
    c = '*' ∨ p.trail = false ∧ p.body.getLast? = some c := by
  have hwild (given : Bool) (h : (wildcard given).getLast? = some c) : c = '*' := by
    cases given with
    | true => exact (Option.some.inj h).symm
    | false => cases h
  rw [inner, List.append_nil, List.getLast?_append, List.getLast?_append] at h
  cases htrail : p.trail with
  | true =>
      rw [htrail] at h
      exact .inl (Option.some.inj h).symm
  | false =>
      cases hbody : p.body.getLast? with
      | some d =>
          rw [htrail, hbody] at h
          exact .inr ⟨rfl, h⟩
      | none =>
          rw [htrail, hbody] at h
          exact .inl (hwild _ h)

theorem drop_anchors_of_escaped (h : Escaped p.body l) (ha : p.Apart) :
    dropEndAnchor (dropStartAnchor (p.spelled [])) = p.inner [] := by
  refine drop_anchors ?_ (fun hstop hlast => ?_) fun hs => ?_
  · cases hlead : p.lead with
    | true => simp [inner, hlead, wildcard]
    | false =>
        cases hb : p.body with
        | nil =>
            simp only [inner, hlead, hb]
            cases p.trail <;> cases p.stop <;> decide
        | cons c t =>
            rintro he
            obtain rfl : c = '^' := by simpa [inner, hlead, hb, wildcard] using he
            exact h.head_ne (m := '^') (by decide) (by decide) (by rw [hb, List.head?_cons])
  · obtain he | ⟨_, hlast⟩ := eq_star_or_of_getLast? hlast
    · exact absurd he (by decide)
    · exact Bool.false_ne_true ((ha.backslash hlast).2.symm.trans hstop)
  · obtain he | ⟨htrail, hlast⟩ :=
      eq_star_or_of_getLast? (List.singleton_suffix_iff_getLast?_eq_some.1 hs)
    · exact absurd he (by decide)
    · have hmark :=
        h.backslash_before (by decide) (List.singleton_suffix_iff_getLast?_eq_some.2 hlast)
      simpa [inner, htrail, wildcard] using hmark.trans (List.suffix_append (wildcard p.lead) _)

end Parts

theorem literal?_eq_some_iff : literal? cs = some (kind, l) ↔
    (∃ p : Parts, p.literalKind = kind ∧ Quoted p.body l ∧
      ∃ gap, (gap = [] ∨ gap = ['\n']) ∧ p.spelled gap = cs) ∨
    ∃ p : Parts, p.literalKind = kind ∧ Escaped p.body l ∧ p.Apart ∧ p.spelled [] = cs := by
  constructor
  · intro h
    obtain ⟨start, stop, hcs, hslash⟩ := exists_anchors cs
    -- Quotes are tried first, and no escaped text is taken for one in quotes.
    rcases (Option.orElse_eq_some ..).1 h with h | ⟨_, h⟩
    · obtain ⟨lead, trail, q, gap, hkind, hq, hgap, hbody⟩ := quoted?_eq_some_iff.1 h
      refine .inl ⟨⟨start, lead, q, trail, stop⟩, hkind, hq, gap, hgap, ?_⟩
      rw [hcs, hbody]
      rfl
    · obtain ⟨lead, trail, t, hkind, ht, htrail, hlone, hbody⟩ := plain?_eq_some_iff.1 h
      refine .inr ⟨⟨start, lead, t, trail, stop⟩, hkind, ht, ⟨fun hlast => ?_, hlone⟩, ?_⟩
      · have hnot : trail = false := Bool.eq_false_iff.2 fun hgiven => htrail hgiven hlast
        refine ⟨hnot, Bool.eq_false_iff.2 fun hgiven => hslash hgiven ?_⟩
        rw [hbody, hnot]
        simp only [wildcard, Bool.false_eq_true, if_false, List.append_nil]
        rw [List.getLast?_append, hlast]
        rfl
      · rw [hcs, hbody]
        simp [Parts.spelled, Parts.inner]
  · rintro (⟨p, hkind, hq, gap, hgap, rfl⟩ | ⟨p, hkind, ht, ha, rfl⟩)
    · refine (Option.orElse_eq_some ..).2 (.inl ?_)
      rw [p.drop_anchors_of_quoted hq.spelled hgap]
      exact quoted?_eq_some_iff.2 ⟨_, _, _, gap, hkind, hq, hgap, rfl⟩
    · have hplain : plain? (p.inner []) = some (kind, l) :=
        plain?_eq_some_iff.2 ⟨_, _, _, hkind, ht, fun hgiven hlast => by
          simp [(ha.backslash hlast).1] at hgiven, ha.lone, by simp [Parts.inner]⟩
      rw [literal?, p.drop_anchors_of_escaped ht ha]
      exact (Option.orElse_eq_some ..).2 (.inr ⟨quoted?_of_plain? hplain, hplain⟩)

/-- The patterns that are taken for literals: a text in quotes or with its metacharacters escaped,
with the wildcards of the kind and perhaps anchors around it. Nothing else may stand before it, and
behind it only a line feed after a text in quotes. -/
theorem literal_iff_spelled : classify value = .literal kind literal ↔
    (∃ p : Parts, p.literalKind = kind ∧ p.spelled [] = value.toList ∧
      (Quoted p.body literal.toList ∨ Escaped p.body literal.toList ∧ p.Apart)) ∨
    ∃ p : Parts, p.literalKind = kind ∧ p.spelled ['\n'] = value.toList ∧
      Quoted p.body literal.toList := by
  rw [classify_eq_literal_iff, literal?_eq_some_iff]
  constructor
  · rintro (⟨p, hkind, hq, gap, rfl | rfl, hcs⟩ | ⟨p, hkind, ht, ha, hcs⟩)
    · exact .inl ⟨p, hkind, hcs, .inl hq⟩
    · exact .inr ⟨p, hkind, hcs, hq⟩
    · exact .inl ⟨p, hkind, hcs, .inr ⟨ht, ha⟩⟩
  · rintro (⟨p, hkind, hcs, hq | ⟨ht, ha⟩⟩ | ⟨p, hkind, hcs, hq⟩)
    · exact .inl ⟨p, hkind, hq, [], .inl rfl, hcs⟩
    · exact .inr ⟨p, hkind, ht, ha, hcs⟩
    · exact .inl ⟨p, hkind, hq, ['\n'], .inr rfl, hcs⟩

end SearchPattern

namespace Sample

open SearchPattern

/-- A text in quotes with a line feed after it is taken for the text, and is none of the patterns
that a text in quotes or with its metacharacters escaped makes with anchors and wildcards. -/
theorem literal_before_line_feed : classify "\\Qa\\E\n" = .literal .exact "a" ∧
    ¬ ∃ p : Parts, p.literalKind = .exact ∧ p.spelled [] = "\\Qa\\E\n".toList ∧
      (Quoted p.body ['a'] ∨ Escaped p.body ['a']) := by
  refine ⟨by decide +kernel, ?_⟩
  rintro ⟨⟨start, lead, body, trail, stop⟩, hkind, hs, hbody⟩
  have hnone : lead = false ∧ trail = false := by
    cases lead <;> cases trail <;> first | exact ⟨rfl, rfl⟩ | cases hkind
  obtain ⟨rfl, rfl⟩ := hnone
  have hs : anchor '^' start ++ (body ++ anchor '$' stop) =
      ['\\', 'Q', 'a', '\\', 'E'] ++ ['\n'] := by
    simpa [Parts.spelled, Parts.inner, wildcard] using hs
  cases start with
  | true => cases hs
  | false =>
  cases stop with
  | true =>
      have hs : body ++ ['$'] = ['\\', 'Q', 'a', '\\', 'E'] ++ ['\n'] := hs
      exact absurd (List.append_inj_right' hs rfl) (by decide)
  | false =>
  obtain rfl : body = ['\\', 'Q', 'a', '\\', 'E', '\n'] := by
    simpa [anchor] using hs
  rcases hbody with ⟨he, _⟩ | h
  · exact absurd he (by decide)
  · cases h

end Sample

namespace SearchPattern

theorem exists_of (kind : LiteralKind) : ∃ lead trail, LiteralKind.of lead trail = kind := by
  cases kind with
  | exact => exact ⟨false, false, rfl⟩
  | startsWith => exact ⟨false, true, rfl⟩
  | endsWith => exact ⟨true, false, rfl⟩
  | contains => exact ⟨true, true, rfl⟩

theorem toList_build (lead trail : Bool) (literal : String) :
    (build (.of lead trail) literal).toList = Parts.spelled
      ⟨false, lead, '\\' :: 'Q' :: (literal.toList ++ quoteEnd), trail, false⟩ [] := by
  cases lead <;> cases trail <;>
    simp [build, LiteralKind.of, Parts.spelled, Parts.inner, anchor, wildcard, quoteEnd]

/-- The pattern that quotes a text stands for the text, whatever it has in it but an end of quotes;
with one it is a general expression. -/
theorem classify_build (kind : LiteralKind) (literal : String) : classify (build kind literal) =
    if quoteEnd <:+: literal.toList then .general else .literal kind literal := by
  obtain ⟨lead, trail, rfl⟩ := exists_of kind
  have hlist := toList_build lead trail literal
  split_ifs with hopen
  · have hinner : dropEndAnchor (dropStartAnchor (build (.of lead trail) literal).toList) =
        wildcard lead ++ '\\' :: 'Q' :: (literal.toList ++ (quoteEnd ++ wildcard trail)) := by
      rw [hlist, Parts.drop_anchors_of_quoted rfl (.inl rfl)]
      simp [Parts.inner]
    have hnone : literal? (build (.of lead trail) literal).toList = none := by
      rw [literal?, hinner, quoted?_of_infix hopen, plain?_quoteStart]
      rfl
    rw [classify, hnone]
  · refine classify_eq_literal_iff.2 (literal?_eq_some_iff.2 (.inl ?_))
    exact ⟨_, rfl, ⟨rfl, hopen⟩, [], .inl rfl, hlist.symm⟩

end SearchPattern

end MetaFed
