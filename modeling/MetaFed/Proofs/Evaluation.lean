import MetaFed.Plan.Condition
import MetaFed.Proofs.Attempt
import MetaFed.Request.Matching

/-!
A condition is decided by the catalog, through its native condition, or by the federation, on the
value it has read. The two decide alike but for a pattern match with null, and for an exact text
that is the text of a stored value which is no text.
-/

namespace MetaFed

namespace NativeOperator

variable {o : NativeOperator} {stored : Option Value} {v expected : Value} {b : Bool}

/-- A property with at most one value is decided by that value, an absent one by null. -/
theorem holds_toList (h : ∀ v ∈ stored, v.isNull = false) (o : NativeOperator) (expected : Value) :
    o.holds stored.toList expected = o.holdsFor (stored.getD .null) expected := by
  cases stored with
  | none => rfl
  | some v =>
      have hv := h v rfl
      have hany : (o.holdsFor v expected >>= fun t => if t then .ok true else .ok false) =
          o.holdsFor v expected := by
        cases o.holdsFor v expected with
        | ok t => cases t <;> rfl
        | error e => rfl
      cases o with
      | isNull => simp [holds, holdsFor, hv]
      | _ => simpa [holds, List.anyM, List.allM] using hany

theorem evaluate_eq_ok {known : List NativeOperator} {values : List Value}
    (h : o.evaluate known values expected = .ok b) : o.holds values expected = .ok b := by
  unfold evaluate at h
  split at h
  · exact h
  · cases h

theorem ordered_eq_ok {test : Ordering → Bool} (h : ordered test v expected = .ok b) :
    PropertyOperator.ordered test v expected = b := by
  unfold ordered at h
  split at h
  · next hn => cases h; rcases hn with hn | hn <;> simp [PropertyOperator.ordered, hn]
  · next hn =>
      simp only [not_or, Bool.not_eq_true] at hn
      unfold ordering at h
      unfold PropertyOperator.ordered
      cases hc : v.compare? expected with
      | none => rw [hc] at h; cases h
      | some c => rw [hc] at h; cases h; simp [hn.1, hn.2]

end NativeOperator

namespace PropertyOperator

variable {o : PropertyOperator} {property : String} {v expected : Value} {b : Bool}
  {c : NativeCondition}

/-- A pattern that the catalog compares a value with other than the federation does: null, which
no absent value matches, and the exact text of a value that is no text. -/
def strayMatch (v pattern : Value) : Bool :=
  match v, pattern with
  | .null, .null => true
  | .null, _ => false
  | .text _, _ => false
  | v, .text p => SearchPattern.classify p == .literal .exact v.asText
  | _, _ => false

/-- A value is decided otherwise by the catalog than by the federation. -/
def strays (o : PropertyOperator) (v expected : Value) : Bool :=
  o == .like && strayMatch v expected

theorem strays_of_ne (h : o ≠ .like) (v expected : Value) : o.strays v expected = false := by
  rw [strays, beq_false_of_ne h, Bool.false_and]

theorem holds_of_comparison {n : NativeOperator} (h : o.comparison? = some n)
    (hb : n.holdsFor v expected = .ok b) : o.holds v expected = .ok b := by
  cases o <;> cases h
  case eq | neq => exact hb
  all_goals exact congrArg Except.ok (NativeOperator.ordered_eq_ok hb)

theorem strayMatch_literal {kind : LiteralKind} {p l : String}
    (hp : SearchPattern.classify p = .literal kind l) (hk : kind ≠ .exact) (v : Value) :
    strayMatch v (.text p) = false := by
  have hne (t : String) : (SearchPattern.classify p == .literal .exact t) = false := by
    rw [hp]
    exact beq_false_of_ne fun h => hk (SearchPattern.literal.inj h).1
  cases v with
  | null | text => rfl
  | _ => exact hne _

theorem strayMatch_exact {p l : String} (hp : SearchPattern.classify p = .literal .exact l)
    (hv : ∀ s, v ≠ .text s) (hn : v.isNull = false) :
    strayMatch v (.text p) = (v.asText == l) := by
  have hs : strayMatch v (.text p) = (SearchPattern.classify p == .literal .exact v.asText) := by
    cases v with
    | text s => exact absurd rfl (hv s)
    | null => cases hn
    | _ => rfl
  rw [hs, hp, Bool.eq_iff_iff, beq_iff_eq, beq_iff_eq, SearchPattern.literal.injEq]
  exact ⟨fun h => h.2.symm, fun h => ⟨rfl, h.symm⟩⟩

/-- Of the patterns that are no text only null strays, on an absent value. -/
theorem strayMatch_value (hp : ∀ p, expected ≠ .text p) (v : Value) :
    strayMatch v expected = (v.isNull && expected.isNull) := by
  cases expected with
  | text p => exact absurd rfl (hp p)
  | _ => cases v <;> rfl

theorem toList_beq (s l : String) : (s.toList == l.toList) = (s == l) := by
  rw [Bool.eq_iff_iff, beq_iff_eq, beq_iff_eq, String.toList_inj]

/-- A literal pattern is compared with the text of a value by each kind but the exact one, which
compares values. -/
theorem matchesText_literal {kind : LiteralKind} {p l : String}
    (hp : SearchPattern.classify p = .literal kind l) (hn : v.isNull = false)
    (hb : kind.native.holdsFor v (.text l) = .ok b) :
    SearchPattern.matchesText p v.asText = .ok (b ^^ strayMatch v (.text p)) := by
  unfold SearchPattern.matchesText
  simp only [hp]
  cases kind with
  | exact =>
      obtain rfl := Except.ok.inj hb
      rw [LiteralKind.holds, toList_beq]
      by_cases hv : ∃ s, v = .text s
      · obtain ⟨s, rfl⟩ := hv
        have hstray : strayMatch (.text s) (.text p) = false := rfl
        rw [hstray, Bool.xor_false, Value.text_same_text, Value.asText]
      · have hv : ∀ s, v ≠ .text s := fun s hs => hv ⟨s, hs⟩
        rw [strayMatch_exact hp hv hn, Value.same_text_of_not_text hv, Bool.false_xor]
  | _ =>
      obtain rfl := Except.ok.inj hb
      rw [strayMatch_literal hp (by decide), Bool.xor_false, hn]
      rfl

theorem matchesPattern_text (hl : ∀ vs, v ≠ .list vs) (hn : v.isNull = false) (p : String) :
    matchesPattern v (.text p) = SearchPattern.matchesText p v.asText := by
  cases v with
  | null => cases hn
  | list vs => exact absurd rfl (hl vs)
  | _ => rfl

theorem matchesPattern_value (hp : ∀ p, expected ≠ .text p) :
    matchesPattern v expected = .ok (v.same expected ^^ strayMatch v expected) := by
  rw [strayMatch_value hp]
  cases v with
  | null =>
      rw [Value.null_same, Value.isNull, Bool.true_and, Bool.xor_self]
      rfl
  | _ =>
      simp only [Value.isNull, Bool.false_and, Bool.xor_false]
      cases expected with
      | text p => exact absurd rfl (hp p)
      | _ => rfl

/-- The native condition that a condition is compiled to. -/
inductive Compiles (property : String) : PropertyOperator → Value → NativeCondition → Prop
  | comparison {o : PropertyOperator} {n : NativeOperator} (v : Value) :
      o.comparison? = some n → Compiles property o v (.of property n v)
  | isNull (v : Value) : Compiles property .isNull v (.of property .isNull .null)
  | notNull (v : Value) : Compiles property .notNull v (.of property .isNotNull .null)
  | members (vs : List Value) :
      Compiles property .memberOf (.list vs) (.of property .memberOf (.list vs))
  | member {v : Value} : (∀ vs, v ≠ .list vs) →
      Compiles property .memberOf v (.of property .memberOf (.list [v]))
  | pattern {p l : String} {kind : LiteralKind} : SearchPattern.classify p = .literal kind l →
      Compiles property .like (.text p) (.of property kind.native (.text l))
  | value {v : Value} : (∀ p, v ≠ .text p) → Compiles property .like v (.of property .eq v)

theorem compiles (h : o.compile property expected = .ok c) : Compiles property o expected c := by
  -- Only `like` and `memberOf` look at the value when they are compiled.
  cases o with
  | like =>
      simp only [compile, standard?, comparison?, null?, set?, Option.map_none] at h
      obtain ⟨d, hd, hc⟩ := Attempt.bind_eq_ok.1 h
      obtain rfl := Except.ok.inj hc
      cases expected with
      | text p =>
          unfold string? at hd
          cases hp : SearchPattern.classify p with
          | general =>
              simp only [hp] at hd
              cases hd
          | literal kind l =>
              simp only [hp] at hd
              obtain rfl := Except.ok.inj hd
              exact .pattern hp
      | _ =>
          obtain rfl := Except.ok.inj hd
          exact .value fun p h => by cases h
  | memberOf =>
      cases expected with
      | list vs =>
          obtain rfl := Except.ok.inj h
          exact .members vs
      | _ =>
          obtain rfl := Except.ok.inj h
          exact .member fun vs h => by cases h
  | isNull =>
      obtain rfl := Except.ok.inj h
      exact .isNull expected
  | notNull =>
      obtain rfl := Except.ok.inj h
      exact .notNull expected
  | _ =>
      obtain rfl := Except.ok.inj h
      exact .comparison expected rfl

theorem holds_of_compiles (h : Compiles property o expected c) (hl : ∀ vs, v ≠ .list vs)
    (hb : c.operator.holdsFor v c.value = .ok b) :
    o.holds v expected = .ok (b ^^ o.strays v expected) := by
  have hv : v = .null ∨ v.isNull = false := by cases v <;> simp [Value.isNull]
  cases h with
  | comparison _ hn =>
      rw [strays_of_ne (fun ho => by rw [ho] at hn; cases hn), Bool.xor_false]
      exact holds_of_comparison hn hb
  | pattern hp =>
      rcases hv with rfl | hn
      · -- Neither side matches an absent value with a text, whatever the kind of the literal.
        obtain rfl : false = b := by
          rename_i kind
          cases kind <;> exact Except.ok.inj hb
        rfl
      · rw [holds, matchesPattern_text hl hn, matchesText_literal hp hn hb]
        rfl
  | value hp =>
      obtain rfl := Except.ok.inj hb
      exact matchesPattern_value hp
  | member hs =>
      rw [strays_of_ne (by decide), Bool.xor_false, ← hb]
      cases expected with
      | list vs => exact absurd rfl (hs vs)
      | _ => simp [holds, NativeOperator.holdsFor, NativeCondition.of, Value.isAmong]
  | isNull | notNull | members =>
      rw [strays_of_ne (by decide), Bool.xor_false]
      exact hb

/-- Where the catalog decides a condition on a stored value, or on an absent one, the federation
decides it too, and alike unless the pattern strays. -/
theorem compile_agrees {stored : Option Value}
    (hs : ∀ v ∈ stored, v.isNull = false ∧ ∀ vs, v ≠ .list vs)
    (h : o.compile property expected = .ok c) {known : List NativeOperator}
    (hb : c.operator.evaluate known stored.toList c.value = .ok b) :
    o.holds (stored.getD .null) expected = .ok (b ^^ o.strays (stored.getD .null) expected) := by
  have hb := NativeOperator.evaluate_eq_ok hb
  rw [NativeOperator.holds_toList fun v hv => (hs v hv).1] at hb
  refine holds_of_compiles (compiles h) (fun vs hv => ?_) hb
  cases stored with
  | none => cases hv
  | some v => exact (hs v rfl).2 vs hv

end PropertyOperator

namespace Sample

theorem started_number_agrees :
    PropertyOperator.like.compile "length" (.text "\\Q1\\E.*") =
        .ok (.of "length" .startsWith (.text "1")) ∧
      NativeOperator.startsWith.evaluate NativeOperator.all [.int 15] (.text "1") = .ok true ∧
      PropertyOperator.like.strays (.int 15) (.text "\\Q1\\E.*") = false ∧
      PropertyOperator.like.holds (.int 15) (.text "\\Q1\\E.*") = .ok true := by
  have hs : ∀ v ∈ some (Value.int 15), v.isNull = false ∧ ∀ vs, v ≠ .list vs := by
    rintro v ⟨⟩
    exact ⟨rfl, fun vs hv => by cases hv⟩
  have h : PropertyOperator.like.compile "length" (.text "\\Q1\\E.*") =
      .ok (.of "length" .startsWith (.text "1")) := by rfl
  have hb : NativeOperator.startsWith.evaluate NativeOperator.all [.int 15] (.text "1") = .ok true := by rfl
  have hn : PropertyOperator.like.strays (.int 15) (.text "\\Q1\\E.*") = false := by
    decide +kernel
  have := PropertyOperator.compile_agrees hs h hb
  rw [Option.getD_some, hn] at this
  exact ⟨h, hb, hn, this⟩

/-- A number is no match of its own text for the catalog, but is one for the federation; an absent
value is equal to null for the catalog, but matches no pattern for the federation. -/
theorem exact_number_disagrees :
    PropertyOperator.like.compile "length" (.text "\\Q5\\E") =
        .ok (.of "length" .eq (.text "5")) ∧
      NativeOperator.eq.evaluate NativeOperator.all [.int 5] (.text "5") = .ok false ∧
      PropertyOperator.like.holds (.int 5) (.text "\\Q5\\E") = .ok true ∧
      PropertyOperator.like.compile "length" .null = .ok (.of "length" .eq .null) ∧
      NativeOperator.eq.evaluate NativeOperator.all [] .null = .ok true ∧
      PropertyOperator.like.holds .null .null = .ok false := by
  exact ⟨by rfl, by rfl, by rfl, by rfl, by rfl, by rfl⟩

end Sample

end MetaFed
