import MetaFed.Proofs.QualifiedName

/-!
Qualified names and their parts: a qualified name is taken apart into the names it was made of if
no separator stands in one of them or begins with its end, and a text that can be taken apart is
the qualified name of its parts.
-/

namespace MetaFed

namespace Text

variable {c : Char} {p x : List Char} {ps : List (List Char)}

/-- The double colon between two pieces. -/
def separator : List Char := [':', ':']

theorem joined_cons (p : List Char) (hne : ps ≠ []) :
    joined separator (p :: ps) = p ++ ':' :: ':' :: joined separator ps := by
  cases ps with
  | nil => exact absurd rfl hne
  | cons q qs => simp [joined, separator]

theorem map_ofList_toList (names : List String) :
    (names.map String.toList).map String.ofList = names := by
  rw [List.map_map]
  exact (List.map_congr_left fun n _ => String.ofList_toList).trans (List.map_id' names)

theorem map_toList_ofList (ps : List (List Char)) :
    (ps.map String.ofList).map String.toList = ps := by
  rw [List.map_map]
  exact (List.map_congr_left fun p _ => String.toList_ofList).trans (List.map_id' ps)

theorem joined_segments (s : List Char) :
    joined separator ((segments s).1 :: (segments s).2) = s := by
  fun_induction segments s with
  | case1 => rfl
  | case2 r ih => rw [joined_cons _ (List.cons_ne_nil _ _), ih, List.nil_append]
  | case3 c r _ ih =>
      cases hr : (segments r).2 with
      | nil =>
          rw [hr] at ih
          exact congrArg (c :: ·) ih
      | cons q qs =>
          rw [hr, joined_cons _ (List.cons_ne_nil _ _)] at ih
          rw [joined_cons _ (List.cons_ne_nil _ _), List.cons_append, ih]

theorem segments_cons_of_head (h : c = ':' → x.head? ≠ some ':') :
    segments (c :: x) = (c :: (segments x).1, (segments x).2) := by
  rw [segments]
  rintro r rfl rfl
  exact h rfl rfl

/-- Pieces that a text is cut into: no separator stands in a piece or begins with its end. -/
structure Cuttable (ps : List (List Char)) : Prop where
  whole : ∀ p ∈ ps, ¬ separator <:+: p
  ended : ∀ p ∈ ps.dropLast, p.getLast? ≠ some ':'

theorem not_infix_of_not_mem (h : ':' ∉ p) : ¬ separator <:+: p := fun hin =>
  h (hin.subset List.mem_cons_self)

theorem cuttable_of_not_mem (h : ∀ q ∈ ps, ':' ∉ q) : Cuttable ps where
  whole q hq := not_infix_of_not_mem (h q hq)
  ended q hq he := h q (List.dropLast_subset ps hq) (List.mem_of_getLast? he)

theorem Cuttable.tail (h : Cuttable (p :: ps)) : Cuttable ps where
  whole q hq := h.whole q (List.mem_cons_of_mem p hq)
  ended q hq := by
    cases ps with
    | nil => cases hq
    | cons r rs => exact h.ended q (List.mem_cons_of_mem p hq)

theorem segments_of_not_infix (h : ¬ separator <:+: p) : segments p = (p, []) := by
  induction p with
  | nil => rfl
  | cons c p ih =>
      have hhead : c = ':' → p.head? ≠ some ':' := by
        rintro rfl hp
        cases p with
        | nil => cases hp
        | cons d p =>
            obtain rfl := Option.some.inj hp
            exact h ⟨[], p, rfl⟩
      rw [segments_cons_of_head hhead, ih fun hin => h (List.infix_cons hin)]

/-- A separator is cut where it begins, if what stands before it does not reach into it. -/
theorem segments_append (h : ¬ separator <:+: p) (hend : p.getLast? ≠ some ':') (s : List Char) :
    segments (p ++ ':' :: ':' :: s) = (p, (segments s).1 :: (segments s).2) := by
  induction p with
  | nil => rfl
  | cons c p ih =>
      have hhead : c = ':' → (p ++ ':' :: ':' :: s).head? ≠ some ':' := by
        rintro rfl hp
        cases p with
        | nil => exact hend rfl
        | cons d p =>
            obtain rfl := Option.some.inj hp
            exact h ⟨[], p, rfl⟩
      have hlast : p.getLast? ≠ some ':' := by
        cases p with
        | nil => simp
        | cons d p => rwa [List.getLast?_cons_cons] at hend
      rw [List.cons_append, segments_cons_of_head hhead,
        ih (fun hin => h (List.infix_cons hin)) hlast]

/-- The pieces are found again in the text they are joined to. -/
theorem segments_of_cuttable (h : Cuttable (p :: ps)) :
    segments (joined separator (p :: ps)) = (p, ps) := by
  induction ps generalizing p with
  | nil => exact segments_of_not_infix (h.whole p List.mem_cons_self)
  | cons q qs ih =>
      have hp := h.whole p List.mem_cons_self
      rw [joined_cons _ (List.cons_ne_nil _ _),
        segments_append hp (h.ended p List.mem_cons_self), ih h.tail]

/-- What a text is cut into are pieces of this kind. -/
theorem cuttable_segments (s : List Char) : Cuttable ((segments s).1 :: (segments s).2) := by
  fun_induction segments s with
  | case1 => exact ⟨by simp [separator], by simp⟩
  | case2 r ih =>
      refine ⟨?_, ?_⟩
      · exact List.forall_mem_cons.2 ⟨by simp [separator], ih.whole⟩
      · exact List.forall_mem_cons.2 ⟨by simp, ih.ended⟩
  | case3 c r hcr ih =>
      have hhead : c = ':' → r.head? ≠ some ':' := by
        rintro rfl hd
        obtain ⟨t, rfl⟩ := List.head?_eq_some_iff.1 hd
        exact hcr t rfl rfl
      have hr := joined_segments r
      generalize (segments r).1 = p at hr ih
      generalize (segments r).2 = ps at hr ih
      refine ⟨List.forall_mem_cons.2 ⟨fun hin => ?_, ih.tail.whole⟩, ?_⟩
      · rcases List.infix_cons_iff.1 hin with ⟨u, hu⟩ | hin
        · -- A separator here would have been cut.
          cases hu
          refine hhead rfl ?_
          rw [← hr]
          cases ps <;> rfl
        · exact ih.whole p List.mem_cons_self hin
      · cases ps with
        | nil => simp
        | cons q qs =>
            refine List.forall_mem_cons.2 ⟨fun hlast => ?_, ih.tail.ended⟩
            cases p with
            | nil =>
                obtain rfl := Option.some.inj hlast
                exact hhead rfl (by rw [← hr]; rfl)
            | cons d p =>
                rw [List.getLast?_cons_cons] at hlast
                exact ih.ended _ List.mem_cons_self hlast

/-- A text is joined of its pieces, and of no others that could be cut from it. -/
theorem segments_eq_iff {s : List Char} :
    segments s = (p, ps) ↔ joined separator (p :: ps) = s ∧ Cuttable (p :: ps) := by
  constructor
  · intro h
    have hjoined := joined_segments s
    have hcut := cuttable_segments s
    rw [h] at hjoined hcut
    exact ⟨hjoined, hcut⟩
  · rintro ⟨rfl, h⟩
    exact segments_of_cuttable h

theorem segments_of_not_mem (h : ':' ∉ p) : segments p = (p, []) :=
  segments_of_not_infix (not_infix_of_not_mem h)

theorem segments_append_of_not_mem (h : ':' ∉ p) (s : List Char) :
    segments (p ++ ':' :: ':' :: s) = (p, (segments s).1 :: (segments s).2) :=
  segments_append (not_infix_of_not_mem h) (fun hlast => h (List.mem_of_getLast? hlast)) s

theorem segments_joined (h : ∀ q ∈ p :: ps, ':' ∉ q) :
    segments (joined separator (p :: ps)) = (p, ps) :=
  segments_of_cuttable (cuttable_of_not_mem h)

end Text

/-- A name that can stand in a qualified name. -/
def QualifiedName.IsName (n : String) : Prop := n ≠ "" ∧ ':' ∉ n.toList

instance (n : String) : Decidable (QualifiedName.IsName n) := inferInstanceAs (Decidable (_ ∧ _))

namespace QualifiedName

variable {head assetType literal : String} {names : List String} {mark : Option String}
  {q : QualifiedName}

theorem toList_format (assetType : String) (names : List String) (mark : Option String) :
    (format assetType names mark).toList =
      Text.joined Text.separator ((headOf assetType mark).toList :: names.map String.toList) := by
  rw [format, Text.joinedWith, String.toList_ofList, List.map_cons]
  rfl

/-- A head has no colon, so the first double colon ends it. -/
theorem colon_not_mem_headOf (h : parseHead? head = some (assetType, mark)) :
    ':' ∉ (headOf assetType mark).toList := by
  have hasset {asset : List Char} (ha : isAsset asset = true) : ':' ∉ asset := fun hc =>
    absurd (isAssetChar_of_isAsset ha _ hc) (by decide)
  rw [headOf_of_parseHead? h, String.toList_ofList]
  obtain ⟨asset, ha, _, ⟨_, hd⟩ | ⟨m, hm, _, hd⟩⟩ := parseHead?_eq_some h
  · rw [hd]
    exact hasset ha
  · rw [hd, List.mem_append, List.mem_cons]
    rintro (hc | hc | hc)
    · exact absurd (isMarkChar_of_isMark hm _ hc) (by decide)
    · exact absurd hc (by decide)
    · exact hasset ha hc

/-- Names that are told apart in a qualified name. -/
structure Separable (names : List String) : Prop where
  given : names ≠ []
  named : ∀ n ∈ names, n ≠ ""
  whole : ∀ n ∈ names, ¬ Text.separator <:+: n.toList
  ended : ∀ n ∈ names.dropLast, n.toList.getLast? ≠ some ':'

theorem separable_of_isName (hne : names ≠ []) (hnames : ∀ n ∈ names, IsName n) :
    Separable names where
  given := hne
  named n hn := (hnames n hn).1
  whole n hn := Text.not_infix_of_not_mem (hnames n hn).2
  ended n hn hlast :=
    (hnames n (List.dropLast_subset names hn)).2 (List.mem_of_getLast? hlast)

theorem Separable.cuttable (h : Separable names) {p : List Char} (hp : ':' ∉ p) :
    Text.Cuttable (p :: names.map String.toList) where
  whole := by
    refine List.forall_mem_cons.2 ⟨Text.not_infix_of_not_mem hp, ?_⟩
    simpa using h.whole
  ended := by
    have hne : names.map String.toList ≠ [] := fun he => h.given (List.map_eq_nil_iff.1 he)
    rw [List.dropLast_cons_of_ne_nil hne, ← List.map_dropLast]
    refine List.forall_mem_cons.2 ⟨fun hlast => hp (List.mem_of_getLast? hlast), ?_⟩
    exact List.forall_mem_map.2 h.ended

theorem colon_not_mem_pieces (hhead : ':' ∉ (headOf assetType mark).toList)
    (hnames : ∀ n ∈ names, IsName n) :
    ∀ p ∈ (headOf assetType mark).toList :: names.map String.toList, ':' ∉ p := by
  intro p hp
  rcases List.mem_cons.1 hp with rfl | hp
  · exact hhead
  · obtain ⟨n, hn, rfl⟩ := List.mem_map.1 hp
    exact (hnames n hn).2

theorem parse?_joined {p : List Char} {a : String} {m : Option String} (hp : ':' ∉ p)
    (hhead : parseHead? (String.ofList p) = some (a, m)) (hnames : Separable names)
    (isPartial : Bool) :
    parse? (String.ofList (Text.joined Text.separator (p :: names.map String.toList))) isPartial =
      some ⟨a, names, if isPartial then none else m, isPartial⟩ := by
  refine parse?_eq_some_iff.2 ⟨p, names.map String.toList, a, m, ?_, hhead, ?_, ?_, ?_⟩
  · rw [String.toList_ofList, Text.segments_of_cuttable (hnames.cuttable hp)]
  · exact fun he => hnames.given (List.map_eq_nil_iff.1 he)
  · simpa using hnames.named
  · rw [Text.map_ofList_toList]

/-- A qualified name is taken apart into the names it was made of. -/
theorem parse?_format (hhead : parseHead? (headOf assetType mark) = some (assetType, mark))
    (hne : names ≠ []) (hnames : ∀ n ∈ names, IsName n) :
    parse? (format assetType names mark) false = some ⟨assetType, names, mark, false⟩ := by
  have hparsed := parse?_joined (colon_not_mem_headOf hhead)
    ((congrArg parseHead? String.ofList_toList).trans hhead) (separable_of_isName hne hnames) false
  rwa [← toList_format, String.ofList_toList] at hparsed

/-- A text that is taken apart is the qualified name of its parts, a line feed behind the head
apart. -/
theorem toList_of_parse? {value : String} (h : parse? value false = some q) :
    value.toList = Text.joined Text.separator
        ((Text.segments value.toList).1 :: q.names.map String.toList) ∧
      dropFinalNewline (Text.segments value.toList).1 = q.head.toList := by
  obtain ⟨p, ns, a, m, hs, hhead, _, _, rfl⟩ := parse?_eq_some_iff.1 h
  constructor
  · have hsplit := Text.joined_segments value.toList
    rw [hs] at hsplit ⊢
    rw [Text.map_toList_ofList, hsplit]
  · have hhead := headOf_of_parseHead? hhead
    rw [String.toList_ofList] at hhead
    rw [hs]
    exact (String.toList_ofList ▸ congrArg String.toList hhead).symm

/-- A text without line breaks that can be taken apart is the qualified name of its parts. -/
theorem text_of_parse? (hl : '\n' ∉ literal.toList) (h : parse? literal false = some q) :
    q.text = literal := by
  obtain ⟨hlist, hhead⟩ := toList_of_parse? h
  have hlast : (Text.segments literal.toList).1.getLast? ≠ some '\n' := by
    intro he
    refine hl ?_
    have hmem := List.mem_of_getLast? he
    rw [hlist]
    cases q.names.map String.toList with
    | nil => exact hmem
    | cons n ns =>
        rw [Text.joined_cons _ (List.cons_ne_nil _ _)]
        exact List.mem_append_left _ hmem
  rw [dropFinalNewline_of_last hlast] at hhead
  refine String.toList_inj.1 ?_
  rw [text, toList_format, hlist, hhead]
  rfl

section Named

variable {ancestors : List String} {name : Option String}
  (hhead : parseHead? (headOf assetType mark) = some (assetType, mark))
  (hancestors : ∀ n ∈ ancestors, IsName n) (hname : ∀ n ∈ name, IsName n)

include hhead hancestors hname

/-- The qualified name of a record is taken apart into the names of its ancestors and its own. -/
theorem parse?_of_named
    (h : (name.map fun n => format assetType (ancestors ++ [n]) mark) = some literal) :
    ∃ n, name = some n ∧
      parse? literal false = some ⟨assetType, ancestors ++ [n], mark, false⟩ := by
  obtain ⟨n, rfl, rfl⟩ := Option.map_eq_some_iff.1 h
  refine ⟨n, rfl, parse?_format hhead (by simp) fun x hx => ?_⟩
  rcases List.mem_append.1 hx with hx | hx
  · exact hancestors x hx
  · rw [List.mem_singleton.1 hx]
    exact hname n rfl

theorem named_eq_some_iff (hl : '\n' ∉ literal.toList) (hq : parse? literal false = some q)
    (hqh : q.head = headOf assetType mark) :
    (name.map fun n => format assetType (ancestors ++ [n]) mark) = some literal ↔
      ancestors.map some ++ [name] = q.names.map some := by
  constructor
  · intro h
    obtain ⟨n, rfl, hparts⟩ := parse?_of_named hhead hancestors hname h
    rw [hq] at hparts
    cases hparts
    simp
  · intro h
    cases name with
    | none => exact absurd (h ▸ List.mem_append_right _ List.mem_cons_self) (by simp)
    | some n =>
        have hnames : ancestors ++ [n] = q.names :=
          (List.map_inj_right fun _ _ => Option.some.inj).1 (by simpa using h)
        rw [Option.map_some, ← text_of_parse? hl hq, text, format, format, ← hqh, hnames]
        rfl

end Named

end QualifiedName

end MetaFed
