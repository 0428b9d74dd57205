import MetaFed.Proofs.NameParts

/-!
Starts, ends and parts of joined pieces. A text that cuts no separator in two stands at the start,
or at the end, of joined pieces just if its own pieces meet theirs there; a text without a colon
stands in them just if it stands in one of them.
-/

namespace MetaFed.Text

variable {l p q x y : List Char} {ps qs ss : List (List Char)} {c : Char}

/-- The text begins with a colon that no other one follows. -/
def startsInSeparator (l : List Char) : Bool :=
  l.head? == some ':' && l.tail.head? != some ':'

def endsInSeparator (l : List Char) : Bool :=
  startsInSeparator l.reverse

theorem startsInSeparator_append (h : ':' ∉ p) (r : List Char) :
    startsInSeparator (p ++ ':' :: ':' :: r) = false := by
  cases p with
  | nil => simp [startsInSeparator]
  | cons c p =>
      have hc : c ≠ ':' := fun e => h (e ▸ List.mem_cons_self)
      simp [startsInSeparator, hc]

theorem startsInSeparator_of_not_mem (h : ':' ∉ p) : startsInSeparator p = false := by
  cases p with
  | nil => rfl
  | cons c p =>
      have hc : c ≠ ':' := fun e => h (e ▸ List.mem_cons_self)
      simp [startsInSeparator, hc]

theorem endsInSeparator_of_not_mem (h : ':' ∉ p) : endsInSeparator p = false :=
  startsInSeparator_of_not_mem (mt List.mem_reverse.1 h)

/-- What stands before more than one colon does not change how a text ends. -/
theorem endsInSeparator_append (x : List Char) (hl : l ≠ []) (hone : l ≠ [':']) :
    endsInSeparator (x ++ l) = endsInSeparator l := by
  rw [endsInSeparator, endsInSeparator, List.reverse_append]
  match hr : l.reverse with
  | [] => exact absurd (List.reverse_eq_nil_iff.1 hr) hl
  | [a] =>
      have ha : (a == ':') = false := by
        refine beq_eq_false_iff_ne.2 ?_
        rintro rfl
        exact hone (List.reverse_eq_iff.1 hr)
      simp [startsInSeparator, ha]
  | a :: b :: r => rfl

theorem prefix_append_iff : l <+: x ++ y ↔ l <+: x ∨ ∃ r, l = x ++ r ∧ r <+: y := by
  constructor
  · intro h
    rcases List.prefix_or_prefix_of_prefix h (List.prefix_append x y) with hl | ⟨r, rfl⟩
    · exact .inl hl
    · exact .inr ⟨r, rfl, (List.prefix_append_right_inj x).1 h⟩
  · rintro (h | ⟨r, rfl, h⟩)
    · exact h.trans (List.prefix_append x y)
    · exact (List.prefix_append_right_inj x).2 h

theorem suffix_append_iff : l <:+ x ++ y ↔ l <:+ y ∨ ∃ r, r <:+ x ∧ l = r ++ y := by
  rw [← List.reverse_prefix, List.reverse_append, prefix_append_iff, List.reverse_prefix]
  refine or_congr_right ⟨?_, ?_⟩
  · rintro ⟨r, hl, hr⟩
    refine ⟨r.reverse, ?_, ?_⟩
    · rwa [← List.reverse_prefix, List.reverse_reverse]
    · rw [← List.reverse_reverse l, hl, List.reverse_append, List.reverse_reverse]
  · rintro ⟨r, hr, rfl⟩
    exact ⟨r.reverse, List.reverse_append, List.reverse_prefix.2 hr⟩

/-- A text at the start of joined pieces ends in the first one, in the separator after it, or
further on. -/
theorem prefix_joined_cons (p : List Char) (hne : ps ≠ []) :
    l <+: joined separator (p :: ps) ↔ l <+: p ∨ l = p ++ [':'] ∨
      ∃ r, l = p ++ ':' :: ':' :: r ∧ r <+: joined separator ps := by
  rw [joined_cons p hne, prefix_append_iff]
  simp only [List.prefix_cons_iff]
  constructor
  · rintro (h | ⟨r, rfl, rfl | ⟨t, rfl, rfl | ⟨r, rfl, h⟩⟩⟩)
    · exact .inl h
    · exact .inl (by simp)
    · exact .inr (.inl rfl)
    · exact .inr (.inr ⟨r, rfl, h⟩)
  · rintro (h | rfl | ⟨r, rfl, h⟩)
    · exact .inl h
    · exact .inr ⟨_, rfl, .inr ⟨[], rfl, .inl rfl⟩⟩
    · exact .inr ⟨_, rfl, .inr ⟨_, rfl, .inr ⟨r, rfl, h⟩⟩⟩

theorem suffix_joined_cons (p : List Char) (hne : ps ≠ []) :
    l <:+ joined separator (p :: ps) ↔ l <:+ joined separator ps ∨
      l = ':' :: joined separator ps ∨
      ∃ r, r <:+ p ∧ l = r ++ ':' :: ':' :: joined separator ps := by
  rw [joined_cons p hne, suffix_append_iff, List.suffix_cons_iff, List.suffix_cons_iff]
  constructor
  · rintro ((rfl | rfl | h) | h)
    · exact .inr (.inr ⟨[], List.nil_suffix, rfl⟩)
    · exact .inr (.inl rfl)
    · exact .inl h
    · exact .inr (.inr h)
  · rintro (h | rfl | h)
    · exact .inl (.inr (.inr h))
    · exact .inl (.inr (.inl rfl))
    · exact .inr h

theorem startsInSeparator_joined (h : ':' ∉ p) (ps : List (List Char)) :
    startsInSeparator (joined separator (p :: ps)) = false := by
  by_cases hne : ps = []
  · rw [hne]
    exact startsInSeparator_of_not_mem h
  · rw [joined_cons p hne]
    exact startsInSeparator_append h _

theorem endsInSeparator_joined (h : ∀ q ∈ ps, ':' ∉ q) :
    endsInSeparator (joined separator ps) = false := by
  induction ps with
  | nil => rfl
  | cons p ps ih =>
      obtain ⟨hp, hps⟩ := List.forall_mem_cons.1 h
      by_cases hne : ps = []
      · rw [hne]
        exact endsInSeparator_of_not_mem hp
      · rw [joined_cons p hne, endsInSeparator_append p (List.cons_ne_nil _ _) (by simp)]
        by_cases hlast : joined separator ps = []
        · rw [hlast]
          rfl
        · have hone : joined separator ps ≠ [':'] := fun e => by
            rw [e] at ih
            exact absurd (ih hps) (by decide)
          exact (endsInSeparator_append [':', ':'] hlast hone).trans (ih hps)

/-- Pieces of a text are the first ones of others, the last of them at least in part. -/
def startPieces (t : List Char) : List (List Char) → List (List Char) → Bool
  | _, [] => false
  | [], q :: _ => t.isPrefixOf q
  | s :: ss, q :: qs => t == q && startPieces s ss qs

theorem startPieces_cons : startPieces p (q :: qs) ps = true ↔
    ∃ rs, ps = p :: rs ∧ startPieces q qs rs = true := by
  cases ps with
  | nil => simp [startPieces]
  | cons r rs =>
      rw [startPieces, Bool.and_eq_true, beq_iff_eq]
      constructor
      · rintro ⟨rfl, h⟩
        exact ⟨rs, rfl, h⟩
      · rintro ⟨rs', e, h⟩
        cases e
        exact ⟨rfl, h⟩

theorem startPieces_nil : startPieces p [] ps = true ↔ ∃ q rs, ps = q :: rs ∧ p <+: q := by
  cases ps with
  | nil => simp [startPieces]
  | cons r rs => simp [startPieces]

theorem lt_length_of_startPieces (h : startPieces p ss ps = true) : ss.length < ps.length := by
  induction ss generalizing p ps with
  | nil =>
      obtain ⟨q, rs, rfl, _⟩ := startPieces_nil.1 h
      simp
  | cons s ss ih =>
      obtain ⟨rs, rfl, hrest⟩ := startPieces_cons.1 h
      simpa using ih hrest

theorem colon_not_mem_of_startPieces (h : startPieces p ss ps = true) (hps : ∀ q ∈ ps, ':' ∉ q) :
    ∀ s ∈ p :: ss, ':' ∉ s := by
  induction ss generalizing p ps with
  | nil =>
      obtain ⟨q, rs, rfl, hpq⟩ := startPieces_nil.1 h
      intro s hs
      rw [List.mem_singleton.1 hs]
      exact fun hc => hps q List.mem_cons_self (hpq.subset hc)
  | cons s ss ih =>
      obtain ⟨rs, rfl, hrest⟩ := startPieces_cons.1 h
      obtain ⟨hp, hrs⟩ := List.forall_mem_cons.1 hps
      exact List.forall_mem_cons.2 ⟨hp, ih hrest hrs⟩

theorem prefix_of_startPieces (h : startPieces p ss ps = true) :
    joined separator (p :: ss) <+: joined separator ps := by
  induction ss generalizing p ps with
  | nil =>
      obtain ⟨q, rs, rfl, hpq⟩ := startPieces_nil.1 h
      refine hpq.trans ?_
      by_cases hrs : rs = []
      · rw [hrs]
        exact List.prefix_rfl
      · rw [joined_cons q hrs]
        exact List.prefix_append q _
  | cons s ss ih =>
      obtain ⟨rs, rfl, hrest⟩ := startPieces_cons.1 h
      have hrs : rs ≠ [] := by
        rintro rfl
        simp [startPieces] at hrest
      rw [joined_cons p (List.cons_ne_nil s ss), joined_cons p hrs]
      simpa using ih hrest

/-- No piece but the first is empty, so no colon starts the rest. -/
theorem not_colon_prefix_joined (h : ∀ q ∈ ps, q ≠ [] ∧ ':' ∉ q) :
    ¬[':'] <+: joined separator ps := by
  cases ps with
  | nil => simp [joined]
  | cons p ps =>
      obtain ⟨⟨hne, hc⟩, _⟩ := List.forall_mem_cons.1 h
      obtain ⟨c, p, rfl⟩ := List.exists_cons_of_ne_nil hne
      have hcc : ':' ≠ c := fun e => hc (e ▸ List.mem_cons_self)
      cases ps with
      | nil => simp [joined, hcc]
      | cons q qs => simp [joined, hcc]

theorem startPieces_of_prefix_first (hp : ':' ∉ p) (h : l <+: p) :
    startPieces (segments l).1 (segments l).2 (p :: ps) = true := by
  rw [segments_of_not_mem fun hc => hp (h.subset hc)]
  exact startPieces_nil.2 ⟨p, ps, rfl, h⟩

theorem startPieces_of_prefix (hp : ':' ∉ p) (hps : ∀ q ∈ ps, q ≠ [] ∧ ':' ∉ q)
    (h : l <+: joined separator (p :: ps)) (hend : endsInSeparator l = false) :
    startPieces (segments l).1 (segments l).2 (p :: ps) = true := by
  induction ps generalizing p l with
  | nil => exact startPieces_of_prefix_first hp h
  | cons q qs ih =>
      obtain ⟨⟨_, hq⟩, hqs⟩ := List.forall_mem_cons.1 hps
      rcases (prefix_joined_cons p (List.cons_ne_nil q qs)).1 h with hlp | rfl | ⟨r, rfl, hr⟩
      · exact startPieces_of_prefix_first hp hlp
      · -- Half a separator ends the text.
        have hlast : p.getLast? ≠ some ':' := fun e => hp (List.mem_of_getLast? e)
        simp [endsInSeparator, startsInSeparator, hlast] at hend
      · have hrend : endsInSeparator r = false := by
          by_cases hnil : r = []
          · rw [hnil]
            rfl
          · have hone : r ≠ [':'] := by
              rintro rfl
              exact not_colon_prefix_joined hps hr
            rwa [List.append_cons, List.append_cons, endsInSeparator_append _ hnil hone] at hend
        rw [segments_append_of_not_mem hp r]
        exact startPieces_cons.2 ⟨q :: qs, rfl, ih hq hqs hr hrend⟩

/-- A text that does not end between two colons starts joined pieces just if its own pieces are
the first ones of them. -/
theorem prefix_joined_iff (hp : ':' ∉ p) (hps : ∀ q ∈ ps, q ≠ [] ∧ ':' ∉ q) :
    l <+: joined separator (p :: ps) ∧ endsInSeparator l = false ↔
      startPieces (segments l).1 (segments l).2 (p :: ps) = true := by
  constructor
  · rintro ⟨h, hend⟩
    exact startPieces_of_prefix hp hps h hend
  · intro h
    have hcolons : ∀ q ∈ p :: ps, ':' ∉ q := List.forall_mem_cons.2 ⟨hp, fun q hq => (hps q hq).2⟩
    have hstart := prefix_of_startPieces h
    have hend := endsInSeparator_joined (colon_not_mem_of_startPieces h hcolons)
    rw [joined_segments] at hstart hend
    exact ⟨hstart, hend⟩

theorem suffix_joined_append (front : List (List Char)) (hne : ps ≠ []) :
    joined separator ps <:+ joined separator (front ++ ps) := by
  induction front with
  | nil => exact List.suffix_rfl
  | cons p front ih =>
      have hrest : front ++ ps ≠ [] := by simp [hne]
      rw [List.cons_append, joined_cons p hrest]
      exact ih.trans ⟨p ++ [':', ':'], by simp⟩

/-- A text that does not begin between two colons ends joined pieces just if its own pieces are the
last ones of them, the first of its pieces at least in part. -/
theorem suffix_joined_iff (hp : ':' ∉ p) (hps : ∀ q ∈ ps, q ≠ [] ∧ ':' ∉ q) :
    l <:+ joined separator (p :: ps) ∧ startsInSeparator l = false ↔
      ∃ front q, p :: ps = front ++ q :: (segments l).2 ∧ (segments l).1 <:+ q := by
  constructor
  · rintro ⟨h, hstart⟩
    induction ps generalizing p with
    | nil =>
        have hl : l <:+ p := h
        rw [segments_of_not_mem fun hc => hp (hl.subset hc)]
        exact ⟨[], p, rfl, hl⟩
    | cons q qs ih =>
        obtain ⟨⟨_, hq⟩, hqs⟩ := List.forall_mem_cons.1 hps
        rcases (suffix_joined_cons p (List.cons_ne_nil q qs)).1 h with h | rfl | ⟨r, hr, rfl⟩
        · obtain ⟨front, x, hx, hfirst⟩ := ih hq hqs h
          exact ⟨p :: front, x, congrArg (p :: ·) hx, hfirst⟩
        · -- Half a separator begins the text.
          have hhead : (joined separator (q :: qs)).head? ≠ some ':' := by
            intro e
            obtain ⟨r, hr⟩ := List.head?_eq_some_iff.1 e
            exact not_colon_prefix_joined hps ⟨r, hr.symm⟩
          simp [startsInSeparator, hhead] at hstart
        · have hall : ∀ x ∈ q :: qs, ':' ∉ x := fun x hx => (hps x hx).2
          rw [segments_append_of_not_mem (fun hc => hp (hr.subset hc)), segments_joined hall]
          exact ⟨[], p, rfl, hr⟩
  · rintro ⟨front, q, heq, hfirst⟩
    have hq : ':' ∉ q := by
      have hmem : q ∈ p :: ps := by simp [heq]
      rcases List.mem_cons.1 hmem with rfl | hmem
      · exact hp
      · exact (hps q hmem).2
    have hwhole : joined separator ((segments l).1 :: (segments l).2) <:+
        joined separator (q :: (segments l).2) := by
      by_cases hrest : (segments l).2 = []
      · rw [hrest]
        exact hfirst
      · rw [joined_cons _ hrest, joined_cons _ hrest]
        exact suffix_append_iff.2 (.inr ⟨_, hfirst, rfl⟩)
    have hlast := hwhole.trans (suffix_joined_append front (List.cons_ne_nil q _))
    have hstart := startsInSeparator_joined (fun hc => hq (hfirst.subset hc)) (segments l).2
    rw [joined_segments] at hlast hstart
    exact ⟨heq ▸ hlast, hstart⟩

theorem occursIn_iff : occursIn l x = true ↔ l <:+: x := by
  induction x with
  | nil => simp [occursIn]
  | cons c x ih =>
      rw [occursIn, Bool.or_eq_true, ih, List.isPrefixOf_iff_prefix, List.infix_cons_iff]

theorem eq_nil_of_prefix_colon (hl : ':' ∉ l) (h : l <+: ':' :: x) : l = [] := by
  rcases List.prefix_cons_iff.1 h with rfl | ⟨t, rfl, _⟩
  · rfl
  · exact absurd List.mem_cons_self hl

/-- A text without a colon stands inside joined pieces just if it stands inside one of them. -/
theorem infix_joined_iff (hl : ':' ∉ l) (hne : ps ≠ []) :
    l <:+: joined separator ps ↔ ∃ q ∈ ps, l <:+: q := by
  induction ps with
  | nil => exact absurd rfl hne
  | cons p ps ih =>
      by_cases hps : ps = []
      · rw [hps]
        simp [joined]
      · rw [joined_cons p hps, List.infix_append_iff, List.infix_cons_iff, List.infix_cons_iff,
          ih hps]
        constructor
        · rintro (h | (h | h | ⟨q, hq, h⟩) | ⟨a, b, rfl, ha, hb⟩)
          · exact ⟨p, List.mem_cons_self, h⟩
          · rw [eq_nil_of_prefix_colon hl h]
            exact ⟨p, List.mem_cons_self, List.nil_infix⟩
          · rw [eq_nil_of_prefix_colon hl h]
            exact ⟨p, List.mem_cons_self, List.nil_infix⟩
          · exact ⟨q, List.mem_cons_of_mem p hq, h⟩
          · have hb : b = [] := eq_nil_of_prefix_colon (fun hc => hl (by simp [hc])) hb
            rw [hb, List.append_nil]
            exact ⟨p, List.mem_cons_self, ha.isInfix⟩
        · rintro ⟨q, hq, h⟩
          rcases List.mem_cons.1 hq with rfl | hq
          · exact .inl h
          · exact .inr (.inl (.inr (.inr ⟨q, hq, h⟩)))

end MetaFed.Text
