import MetaFed.Proofs.PlainPattern

/-!
Texts inside literal patterns. A text is quoted if it stands in quotes, which the first end of
quotes closes, or if its metacharacters are escaped; wildcards may stand around it.
-/

namespace MetaFed

namespace SearchPattern

/-- What ends a text in quotes. -/
def quoteEnd : List Char := ['\\', 'E']

/-- A text in quotes, and the text itself. -/
structure Quoted (body l : List Char) : Prop where
  spelled : body = '\\' :: 'Q' :: (l ++ quoteEnd)
  closed : ¬ quoteEnd <:+: l

/-- A text with its metacharacters escaped, and the text itself. -/
inductive Escaped : List Char → List Char → Prop
  | nil : Escaped [] []
  | plain {c : Char} {t l : List Char} (hc : c ∉ metacharacters) (h : Escaped t l) :
      Escaped (c :: t) (c :: l)
  | escaped {c : Char} {t l : List Char} (hc : Text.isAlphanumeric c = false)
      (h : Escaped t l) : Escaped ('\\' :: c :: t) (c :: l)

variable {lead trail : Bool} {m : Char} {body l r t : List Char} {kind : LiteralKind}

theorem unescape?_eq_some_iff : unescape? t = some l ↔ Escaped t l := by
  constructor
  · intro h
    fun_induction unescape? t generalizing l with
    | case1 =>
        cases h
        exact .nil
    | case2 => cases h
    | case3 c r hc => cases h
    | case4 c r hc ih =>
        obtain ⟨l, hl, rfl⟩ := Option.map_eq_some_iff.1 h
        exact .escaped (Bool.eq_false_iff.2 hc) (ih hl)
    | case5 c r _ _ hc => cases h
    | case6 c r _ _ hc ih =>
        obtain ⟨l, hl, rfl⟩ := Option.map_eq_some_iff.1 h
        exact .plain hc (ih hl)
  · intro h
    induction h with
    | nil => rfl
    | @plain c t l hc h ih =>
        have hslash : c ≠ '\\' := by
          rintro rfl
          exact hc (by decide)
        rw [unescape?, if_neg hc, ih, Option.map_some]
        · rintro rfl
          exact absurd rfl hslash
        · rintro d r rfl
          exact absurd rfl hslash
    | escaped hc h ih => rw [unescape?, hc, if_neg Bool.false_ne_true, ih, Option.map_some]

theorem Escaped.head_ne (h : Escaped t l) (hm : m ∈ metacharacters) (hslash : m ≠ '\\') :
    t.head? ≠ some m := by
  cases h with
  | nil => simp
  | plain hc =>
      rintro he
      exact hc (Option.some.inj he ▸ hm)
  | escaped =>
      rintro he
      exact hslash (Option.some.inj he).symm

/-- A metacharacter that ends an escaped text is escaped. -/
theorem Escaped.backslash_before (h : Escaped t l) (hm : m ∈ metacharacters) (hs : [m] <:+ t) :
    ['\\', m] <:+ t := by
  induction h with
  | nil => exact absurd (List.suffix_nil.1 hs) (List.cons_ne_nil m [])
  | plain hc h ih =>
      rcases List.suffix_cons_iff.1 hs with he | hs
      · cases he
        exact absurd hm hc
      · exact (ih hs).trans (List.suffix_cons _ _)
  | escaped hc h ih =>
      rcases List.suffix_cons_iff.1 hs with he | hs
      · cases he
      · rcases List.suffix_cons_iff.1 hs with he | hs
        · cases he
          exact List.suffix_rfl
        · exact (ih hs).trans ((List.suffix_cons _ _).trans (List.suffix_cons _ _))

theorem upToQuoteEnd?_eq_some_iff :
    upToQuoteEnd? r = some (l, t) ↔ r = l ++ (quoteEnd ++ t) ∧ ¬ quoteEnd <:+: l := by
  constructor
  · intro h
    fun_induction upToQuoteEnd? r generalizing l with
    | case1 => cases h
    | case2 r =>
        cases h
        exact ⟨rfl, by simp [quoteEnd]⟩
    | case3 c r hend ih =>
        obtain ⟨⟨l, t⟩, hl, he⟩ := Option.map_eq_some_iff.1 h
        cases he
        obtain ⟨rfl, hclosed⟩ := ih hl
        refine ⟨rfl, fun hin => ?_⟩
        rcases List.infix_cons_iff.1 hin with ⟨u, hu⟩ | hin
        · cases hu
          exact hend _ rfl rfl
        · exact hclosed hin
  · rintro ⟨rfl, hclosed⟩
    induction l with
    | nil => rfl
    | cons c l ih =>
        have hrest := ih fun hin => hclosed (hin.trans (List.suffix_cons c l).isInfix)
        rw [List.cons_append, upToQuoteEnd?, hrest, Option.map_some]
        rintro u rfl hu
        -- A backslash and an E after it would be an end inside of the text.
        cases l with
        | nil => cases hu
        | cons d l =>
            cases hu
            exact hclosed ⟨[], l, rfl⟩

theorem upToQuoteEnd?_eq_none_iff : upToQuoteEnd? r = none ↔ ¬ quoteEnd <:+: r := by
  constructor
  · intro h
    fun_induction upToQuoteEnd? r with
    | case1 => simp [quoteEnd]
    | case2 => cases h
    | case3 c r hend ih =>
        intro hin
        rcases List.infix_cons_iff.1 hin with ⟨u, hu⟩ | hin
        · cases hu
          exact hend _ rfl rfl
        · exact ih (Option.map_eq_none_iff.1 h) hin
  · intro h
    cases hr : upToQuoteEnd? r with
    | none => rfl
    | some q =>
        obtain ⟨l, t⟩ := q
        obtain ⟨rfl, _⟩ := upToQuoteEnd?_eq_some_iff.1 hr
        exact absurd ⟨l, t, List.append_assoc ..⟩ h

theorem quotedTail?_eq_some_iff : quotedTail? t = some trail ↔
    ∃ gap, (gap = [] ∨ gap = ['\n']) ∧ t = wildcard trail ++ gap := by
  constructor
  · intro h
    rw [quotedTail?] at h
    split_ifs at h with hnone hany
    · cases h
      exact ⟨t, hnone, rfl⟩
    · cases h
      rcases hany with rfl | rfl
      · exact ⟨[], .inl rfl, rfl⟩
      · exact ⟨['\n'], .inr rfl, rfl⟩
  · rintro ⟨gap, rfl | rfl, rfl⟩ <;> cases trail <;> rfl

theorem quoted?_quoteStart (lead : Bool) (r : List Char) :
    quoted? (wildcard lead ++ '\\' :: 'Q' :: r) =
      (upToQuoteEnd? r).bind fun q =>
        (quotedTail? q.2).bind fun trail => some (LiteralKind.of lead trail, q.1) := by
  cases lead <;> rfl

theorem quoted?_quoteStart_eq_some_iff :
    quoted? (wildcard lead ++ '\\' :: 'Q' :: r) = some (kind, l) ↔
      ∃ trail gap, (gap = [] ∨ gap = ['\n']) ∧ LiteralKind.of lead trail = kind ∧
        r = l ++ (quoteEnd ++ (wildcard trail ++ gap)) ∧ ¬ quoteEnd <:+: l := by
  rw [quoted?_quoteStart]
  constructor
  · intro h
    obtain ⟨⟨l, t⟩, hr, h⟩ := Option.bind_eq_some_iff.1 h
    obtain ⟨trail, ht, he⟩ := Option.bind_eq_some_iff.1 h
    cases he
    obtain ⟨rfl, hclosed⟩ := upToQuoteEnd?_eq_some_iff.1 hr
    obtain ⟨gap, hgap, rfl⟩ := quotedTail?_eq_some_iff.1 ht
    exact ⟨trail, gap, hgap, rfl, rfl, hclosed⟩
  · rintro ⟨trail, gap, hgap, rfl, rfl, hclosed⟩
    rw [upToQuoteEnd?_eq_some_iff.2 ⟨rfl, hclosed⟩, Option.bind_some,
      quotedTail?_eq_some_iff.2 ⟨gap, hgap, rfl⟩, Option.bind_some]

theorem exists_quoteStart_of_quoted? (h : quoted? body = some (kind, l)) :
    ∃ lead r, body = wildcard lead ++ '\\' :: 'Q' :: r := by
  cases hlead : splitLead body with
  | mk lead t =>
  rw [quoted?, hlead] at h
  split at h
  · rename_i r he
    cases he
    exact ⟨_, r, eq_of_splitLead hlead⟩
  · cases h

theorem quoted?_eq_some_iff : quoted? body = some (kind, l) ↔
    ∃ lead trail q gap, LiteralKind.of lead trail = kind ∧ Quoted q l ∧
      (gap = [] ∨ gap = ['\n']) ∧ body = wildcard lead ++ (q ++ (wildcard trail ++ gap)) := by
  constructor
  · intro h
    obtain ⟨lead, r, rfl⟩ := exists_quoteStart_of_quoted? h
    obtain ⟨trail, gap, hgap, hkind, rfl, hclosed⟩ := quoted?_quoteStart_eq_some_iff.1 h
    exact ⟨lead, trail, _, gap, hkind, ⟨rfl, hclosed⟩, hgap, by simp⟩
  · rintro ⟨lead, trail, q, gap, hkind, ⟨rfl, hclosed⟩, hgap, rfl⟩
    simp only [List.cons_append, List.append_assoc]
    exact quoted?_quoteStart_eq_some_iff.2 ⟨trail, gap, hgap, hkind, rfl, hclosed⟩

theorem splitLead_append (hlone : t = [] → trail = true → lead = true) (h : Escaped t l) :
    splitLead (wildcard lead ++ (t ++ wildcard trail)) = (lead, t ++ wildcard trail) := by
  cases lead with
  | true => rfl
  | false =>
      cases h with
      | nil =>
          cases trail with
          | true => cases hlone rfl rfl
          | false => rfl
      | @plain c t l hc h =>
          rw [splitLead.eq_2]
          · rfl
          · rintro r he
            obtain rfl : c = '.' := (List.cons.inj he).1
            exact hc (by decide)
      | escaped => rfl

theorem splitTrail_append (hslash : trail = true → t.getLast? ≠ some '\\') (h : Escaped t l) :
    splitTrail (t ++ wildcard trail) = (trail, t) := by
  cases trail with
  | true =>
      have hmark : ¬ ['\\', '.', '*'] <:+ t ++ ['.', '*'] := by
        intro (hs : ['\\'] ++ ['.', '*'] <:+ t ++ ['.', '*'])
        have hlast := List.suffix_append_self_iff.1 hs
        exact hslash rfl (List.singleton_suffix_iff_getLast?_eq_some.1 hlast)
      simp [splitTrail, wildcard, hmark]
  | false =>
      have hany : ¬ ['.', '*'] <:+ t := fun hs => by
        -- A star at the end has a backslash before it and not a point.
        obtain ⟨u, hu⟩ := hs
        obtain ⟨v, hv⟩ := h.backslash_before (m := '*') (by decide) ⟨u ++ ['.'], by simpa using hu⟩
        have he : u ++ ['.', '*'] = v ++ ['\\', '*'] := hu.trans hv.symm
        exact absurd (List.append_inj_right' he rfl) (by decide)
      simp [splitTrail, wildcard, hany]

theorem not_backslash_of_splitTrail (h : splitTrail r = (true, t)) : t.getLast? ≠ some '\\' := by
  intro hlast
  have hr := eq_of_splitTrail h
  rw [splitTrail] at h
  split_ifs at h with hany
  · have hmark : ['\\'] ++ ['.', '*'] <:+ t ++ ['.', '*'] :=
      List.suffix_append_self_iff.2 (List.singleton_suffix_iff_getLast?_eq_some.2 hlast)
    exact hany.2 (List.isSuffixOf_iff_suffix.2 (hr ▸ hmark))
  · cases h

theorem plain?_of_splitLead (hlead : splitLead body = (lead, r)) :
    plain? body = some (kind, l) ↔
      ∃ trail t, LiteralKind.of lead trail = kind ∧ Escaped t l ∧ splitTrail r = (trail, t) := by
  cases htrail : splitTrail r with
  | mk trail t =>
  simp only [plain?, hlead, htrail]
  constructor
  · intro h
    obtain ⟨l, hl, he⟩ := Option.bind_eq_some_iff.1 h
    cases he
    exact ⟨trail, t, rfl, unescape?_eq_some_iff.1 hl, rfl⟩
  · rintro ⟨_, _, rfl, h, he⟩
    cases he
    rw [unescape?_eq_some_iff.2 h]
    rfl

theorem plain?_eq_some_iff : plain? body = some (kind, l) ↔
    ∃ lead trail t, LiteralKind.of lead trail = kind ∧ Escaped t l ∧
      (trail = true → t.getLast? ≠ some '\\') ∧ (t = [] → trail = true → lead = true) ∧
      body = wildcard lead ++ (t ++ wildcard trail) := by
  constructor
  · intro h
    cases hlead : splitLead body with
    | mk lead r =>
    obtain ⟨trail, t, hkind, ht, htrail⟩ := (plain?_of_splitLead hlead).1 h
    have hr := eq_of_splitTrail htrail
    refine ⟨lead, trail, t, hkind, ht, ?_, ?_, ?_⟩
    · rintro rfl
      exact not_backslash_of_splitTrail htrail
    · rintro rfl rfl
      rw [hr] at hlead
      cases lead with
      | true => rfl
      | false => cases (eq_of_splitLead hlead) ▸ hlead
    · rw [eq_of_splitLead hlead, hr]
  · rintro ⟨lead, trail, t, hkind, ht, hslash, hlone, rfl⟩
    exact (plain?_of_splitLead (splitLead_append hlone ht)).2
      ⟨trail, t, hkind, ht, splitTrail_append hslash ht⟩

theorem plain?_quoteStart (lead : Bool) (r : List Char) :
    plain? (wildcard lead ++ '\\' :: 'Q' :: r) = none := by
  refine Option.eq_none_iff_forall_ne_some.2 fun ⟨kind, l⟩ h => ?_
  have hlead : splitLead (wildcard lead ++ '\\' :: 'Q' :: r) = (lead, '\\' :: 'Q' :: r) := by
    cases lead <;> rfl
  obtain ⟨trail, t, _, ht, htrail⟩ := (plain?_of_splitLead hlead).1 h
  have he := eq_of_splitTrail htrail
  cases ht with
  | nil => cases trail <;> cases he
  | plain hc =>
      obtain ⟨rfl, _⟩ := List.cons.inj he
      exact hc (by decide)
  | escaped hc =>
      obtain ⟨_, he⟩ := List.cons.inj he
      obtain ⟨rfl, _⟩ := List.cons.inj he
      exact absurd hc (by decide)

theorem quoted?_of_plain? (h : plain? body = some (kind, l)) : quoted? body = none := by
  refine Option.eq_none_iff_forall_ne_some.2 fun q hq => ?_
  obtain ⟨lead, r, rfl⟩ := exists_quoteStart_of_quoted? hq
  rw [plain?_quoteStart] at h
  cases h

theorem quotedTail?_append_quoteEnd (t u : List Char) :
    quotedTail? (t ++ (quoteEnd ++ u)) = none := by
  refine Option.eq_none_iff_forall_ne_some.2 fun trail h => ?_
  obtain ⟨gap, hgap, he⟩ := quotedTail?_eq_some_iff.1 h
  have hmem : 'E' ∈ wildcard trail ++ gap := by
    rw [← he]
    simp [quoteEnd]
  rcases hgap with rfl | rfl <;> cases trail <;> exact absurd hmem (by decide)

/-- A text with an end of quotes in it is cut there, and what is left of it is no wildcard. -/
theorem quoted?_of_infix (h : quoteEnd <:+: l) (lead : Bool) (u : List Char) :
    quoted? (wildcard lead ++ '\\' :: 'Q' :: (l ++ (quoteEnd ++ u))) = none := by
  cases hl : upToQuoteEnd? l with
  | none => exact absurd h (upToQuoteEnd?_eq_none_iff.1 hl)
  | some q =>
      obtain ⟨r, t⟩ := q
      obtain ⟨rfl, hclosed⟩ := upToQuoteEnd?_eq_some_iff.1 hl
      have hcut : upToQuoteEnd? (r ++ (quoteEnd ++ t) ++ (quoteEnd ++ u)) =
          some (r, t ++ (quoteEnd ++ u)) :=
        upToQuoteEnd?_eq_some_iff.2 ⟨by simp only [List.append_assoc], hclosed⟩
      rw [quoted?_quoteStart, hcut, Option.bind_some, quotedTail?_append_quoteEnd, Option.bind_none]

end SearchPattern

end MetaFed
