import MetaFed.QualifiedName
import Mathlib.Data.List.TakeWhile

/-!
Heads of qualified names: a head that can be taken apart is the head of the parts, so no two pairs
of asset type and synthetic prefix that come from heads share one. A text is taken apart if it has
such a head and names behind it.
-/

namespace MetaFed

namespace Text

variable {c : Char} {cs : List Char}

theorem of_ascii {P : Char → Prop} (h : ∀ i : Fin 128, P (Char.ofNat i)) (hc : c.toNat < 128) :
    P c := by
  have hp := h ⟨c.toNat, hc⟩
  rwa [Char.ofNat_toNat] at hp

theorem upperChar_ascii (hc : c.toNat < 128) : upperChar c = [c.toUpper] := by
  have hv : c.val < 128 := UInt32.lt_iff_toNat_lt.2 hc
  rw [upperChar, if_pos hv]

theorem lowerChar_ascii (hc : c.toNat < 128) : lowerChar c = [c.toLower] := by
  have hv : c.val < 128 := UInt32.lt_iff_toNat_lt.2 hc
  rw [lowerChar, if_pos hv]

theorem upper_ascii (h : ∀ c ∈ cs, c.toNat < 128) :
    upper (String.ofList cs) = String.ofList (cs.map Char.toUpper) := by
  rw [upper, String.toList_ofList]
  congr 1
  induction cs with
  | nil => rfl
  | cons c cs ih =>
      obtain ⟨hc, hcs⟩ := List.forall_mem_cons.1 h
      rw [List.flatMap_cons, upperChar_ascii hc, ih hcs]
      rfl

theorem lowerFrom_ascii (h : ∀ c ∈ cs, c.toNat < 128) (afterCased : Bool) :
    lowerFrom afterCased cs = cs.map Char.toLower := by
  induction cs generalizing afterCased with
  | nil => rfl
  | cons c cs ih =>
      obtain ⟨hc, hcs⟩ := List.forall_mem_cons.1 h
      have hsigma : c ≠ 'Σ' := by
        rintro rfl
        exact absurd hc (by decide)
      rw [lowerFrom, ih hcs]
      simp [hsigma, lowerChar_ascii hc]

theorem lower_ascii (h : ∀ c ∈ cs, c.toNat < 128) :
    lower (String.ofList cs) = String.ofList (cs.map Char.toLower) := by
  rw [lower, String.toList_ofList, lowerFrom_ascii h]

end Text

namespace QualifiedName

variable {c : Char} {cs : List Char} {head assetType value : String} {mark : Option String}
  {q : QualifiedName} {isPartial : Bool}

theorem ascii_of_isUpper (h : c.isUpper = true) : c.toNat < 128 := by
  have hc : c.val ≥ 'A'.val ∧ c.val ≤ 'Z'.val := of_decide_eq_true h
  exact Nat.lt_of_le_of_lt (UInt32.le_iff_toNat_le.1 hc.2) (by decide)

theorem ascii_of_isLower (h : c.isLower = true) : c.toNat < 128 := by
  have hc : c.val ≤ 'z'.val := of_decide_eq_true (Bool.and_eq_true_iff.1 h).2
  exact Nat.lt_of_le_of_lt (UInt32.le_iff_toNat_le.1 hc) (by decide)

theorem ascii_of_isDigit (h : c.isDigit = true) : c.toNat < 128 := by
  have hc : c.val ≤ '9'.val := of_decide_eq_true (Bool.and_eq_true_iff.1 h).2
  exact Nat.lt_of_le_of_lt (UInt32.le_iff_toNat_le.1 hc) (by decide)

theorem ascii_of_isAssetChar (h : isAssetChar c = true) : c.toNat < 128 := by
  simp only [isAssetChar, Bool.or_eq_true, beq_iff_eq] at h
  rcases h with (h | h) | rfl
  · exact ascii_of_isUpper h
  · exact ascii_of_isDigit h
  · decide

theorem ascii_of_isMarkChar (h : isMarkChar c = true) : c.toNat < 128 := by
  simp only [isMarkChar, Bool.or_eq_true] at h
  rcases h with h | h
  · exact ascii_of_isLower h
  · exact ascii_of_isDigit h

theorem toUpper_toLower (h : isAssetChar c = true) : c.toLower.toUpper = c :=
  Text.of_ascii (P := fun c => isAssetChar c = true → c.toLower.toUpper = c) (by decide)
    (ascii_of_isAssetChar h) h

theorem toNat_toLower (h : isAssetChar c = true) : c.toLower.toNat < 128 :=
  Text.of_ascii (P := fun c => isAssetChar c = true → c.toLower.toNat < 128) (by decide)
    (ascii_of_isAssetChar h) h

theorem toLower_of_isMarkChar (h : isMarkChar c = true) : c.toLower = c :=
  Text.of_ascii (P := fun c => isMarkChar c = true → c.toLower = c) (by decide)
    (ascii_of_isMarkChar h) h

theorem isAssetChar_of_isAsset (h : isAsset cs = true) : ∀ c ∈ cs, isAssetChar c = true := by
  cases cs with
  | nil => cases h
  | cons c cs =>
      simp only [isAsset, Bool.and_eq_true, List.all_eq_true] at h
      refine List.forall_mem_cons.2 ⟨?_, h.2⟩
      simp [isAssetChar, h.1]

theorem upper_lowered (h : isAsset cs = true) :
    Text.upper (parseHead?.lowered cs) = String.ofList cs := by
  have hc := isAssetChar_of_isAsset h
  have hmap : cs.map (fun c => c.toLower.toUpper) = cs :=
    (List.map_congr_left fun c hm => toUpper_toLower (hc c hm)).trans (List.map_id' cs)
  rw [parseHead?.lowered, Text.upper_ascii, List.map_map]
  · exact congrArg String.ofList hmap
  · intro c hm
    obtain ⟨d, hd, rfl⟩ := List.mem_map.1 hm
    exact toNat_toLower (hc d hd)

theorem lower_mark (h : ∀ c ∈ cs, isMarkChar c = true) :
    Text.lower (String.ofList cs) = String.ofList cs := by
  rw [Text.lower_ascii fun c hm => ascii_of_isMarkChar (h c hm),
    List.map_congr_left fun c hm => toLower_of_isMarkChar (h c hm), List.map_id']

/-- A synthetic prefix in a head starts with a letter and has letters and digits. -/
def isMark : List Char → Bool
  | [] => false
  | c :: cs => c.isLower && cs.all isMarkChar

theorem ne_nil_of_isMark (h : isMark cs = true) : cs ≠ [] := by
  rintro rfl
  cases h

theorem isMarkChar_of_isMark (h : isMark cs = true) : ∀ c ∈ cs, isMarkChar c = true := by
  cases cs with
  | nil => cases h
  | cons c cs =>
      simp only [isMark, Bool.and_eq_true, List.all_eq_true] at h
      refine List.forall_mem_cons.2 ⟨?_, h.2⟩
      simp [isMarkChar, h.1]

/-- A head is an asset type in upper case, perhaps after a synthetic prefix. -/
theorem parseHead?_eq_some (h : parseHead? head = some (assetType, mark)) :
    ∃ asset, isAsset asset = true ∧ assetType = parseHead?.lowered asset ∧
      ((mark = none ∧ dropFinalNewline head.toList = asset) ∨
        ∃ m, isMark m = true ∧ mark = some (String.ofList m) ∧
          dropFinalNewline head.toList = m ++ '_' :: asset) := by
  have hsplit := List.takeWhile_append_dropWhile (p := isMarkChar)
    (l := dropFinalNewline head.toList)
  have hmark : ∀ c ∈ (dropFinalNewline head.toList).takeWhile isMarkChar, isMarkChar c = true :=
    fun c hc => List.mem_takeWhile_imp hc
  -- The longest run of mark characters tells the two forms of a head apart.
  simp only [parseHead?] at h
  split at h
  · rename_i hm
    split at h
    · rename_i hasset
      cases h
      rw [hm, List.nil_append] at hsplit
      exact ⟨_, hasset, rfl, .inl ⟨rfl, hsplit.symm⟩⟩
    · cases h
  · rename_i c m asset hm ha
    split at h
    · rename_i hasset
      cases h
      rw [hm] at hmark
      refine ⟨asset, hasset.2, rfl, .inr ⟨c :: m, ?_, by rw [hm], ?_⟩⟩
      · simp only [isMark, hasset.1, Bool.true_and, List.all_eq_true]
        exact (List.forall_mem_cons.1 hmark).2
      · rw [← hsplit, hm, ha]
    · cases h
  · cases h

theorem dropFinalNewline_of_last (h : cs.getLast? ≠ some '\n') : dropFinalNewline cs = cs := by
  rw [dropFinalNewline, if_neg h]

theorem getLast?_of_isAsset (h : isAsset cs = true) (pre : List Char) :
    (pre ++ cs).getLast? ≠ some '\n' := by
  intro he
  have hne : cs ≠ [] := by
    rintro rfl
    cases h
  rw [List.getLast?_append, List.getLast?_eq_some_getLast hne, Option.some_or] at he
  have hc := isAssetChar_of_isAsset h _ (List.getLast_mem hne)
  rw [Option.some.inj he] at hc
  exact absurd hc (by decide)

theorem headOf_of_parseHead? (h : parseHead? head = some (assetType, mark)) :
    headOf assetType mark = String.ofList (dropFinalNewline head.toList) := by
  obtain ⟨asset, hasset, rfl, ⟨rfl, hd⟩ | ⟨m, hm, rfl, hd⟩⟩ := parseHead?_eq_some h
  · rw [headOf, upper_lowered hasset, hd]
  · have hs : String.ofList m ≠ "" := fun e =>
      ne_nil_of_isMark hm (by simpa using congrArg String.toList e)
    rw [headOf, if_neg hs, upper_lowered hasset, lower_mark (isMarkChar_of_isMark hm), hd]
    exact String.toList_inj.1 (by simp)

theorem parseHead?_headOf (h : parseHead? head = some (assetType, mark)) :
    parseHead? (headOf assetType mark) = some (assetType, mark) := by
  have hlast : (dropFinalNewline head.toList).getLast? ≠ some '\n' := by
    obtain ⟨asset, hasset, _, ⟨_, hd⟩ | ⟨m, _, _, hd⟩⟩ := parseHead?_eq_some h
    · rw [hd]
      exact getLast?_of_isAsset hasset []
    · rw [hd, List.append_cons]
      exact getLast?_of_isAsset hasset _
  rw [headOf_of_parseHead? h, ← h]
  simp only [parseHead?, String.toList_ofList, dropFinalNewline_of_last hlast]

/-- A text that is taken apart has a head and names, none of them empty. -/
theorem parse?_eq_some_iff : parse? value isPartial = some q ↔
    ∃ h ns a m, Text.segments value.toList = (h, ns) ∧
      parseHead? (String.ofList h) = some (a, m) ∧ ns ≠ [] ∧ (∀ n ∈ ns, n ≠ []) ∧
      q = ⟨a, ns.map String.ofList, if isPartial then none else m, isPartial⟩ := by
  cases hs : Text.segments value.toList with
  | mk h ns =>
  have hgiven : ((ns.map String.ofList).isEmpty = true ∨
      ((ns.map String.ofList).any fun n => decide (n = "")) = true) ↔
        ¬ (ns ≠ [] ∧ ∀ n ∈ ns, n ≠ []) := by
    simp [or_iff_not_imp_left]
  simp only [parse?, hs]
  by_cases hn : ns ≠ [] ∧ ∀ n ∈ ns, n ≠ []
  · rw [if_neg fun he => hgiven.1 he hn]
    constructor
    · intro hq
      obtain ⟨⟨a, m⟩, hhead, rfl⟩ := Option.map_eq_some_iff.1 hq
      exact ⟨h, ns, a, m, rfl, hhead, hn.1, hn.2, rfl⟩
    · rintro ⟨_, _, a, m, he, hhead, _, _, rfl⟩
      cases he
      rw [hhead]
      rfl
  · rw [if_pos (hgiven.2 hn)]
    constructor
    · intro hq
      cases hq
    · rintro ⟨_, _, _, _, he, _, hne, hnames, _⟩
      cases he
      exact absurd ⟨hne, hnames⟩ hn

theorem exists_head_of_parse? (h : parse? value false = some q) :
    ∃ head, parseHead? head = some (q.assetType, q.mark) := by
  obtain ⟨head, _, _, _, _, hhead, _, _, rfl⟩ := parse?_eq_some_iff.1 h
  exact ⟨_, hhead⟩

end QualifiedName

end MetaFed
