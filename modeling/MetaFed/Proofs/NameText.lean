import MetaFed.Proofs.NameParts

/-!
Qualified names as texts. What is formatted is taken apart into the same parts, and what is taken
apart is formatted back, but for one line feed behind the head, which is passed over.
-/

namespace MetaFed

namespace QualifiedName

variable {c : Char} {cs : List Char} {assetType : String} {mark : Option String}
  {names : List String}

/-- A character of an asset type, after its first one. -/
def isAssetTypeChar (c : Char) : Bool := isMarkChar c || c == '_'

/-- An asset type starts with a letter and has letters, digits and underscores. -/
def isAssetType : List Char → Bool
  | [] => false
  | c :: cs => c.isLower && cs.all isAssetTypeChar

theorem ascii_of_isAssetTypeChar (h : isAssetTypeChar c = true) : c.toNat < 128 := by
  simp only [isAssetTypeChar, Bool.or_eq_true, beq_iff_eq] at h
  rcases h with h | rfl
  · exact ascii_of_isMarkChar h
  · decide

theorem isAssetChar_toUpper (h : isAssetTypeChar c = true) :
    isAssetChar c.toUpper = true ∧ c.toUpper.toLower = c :=
  Text.of_ascii (P := fun c => isAssetTypeChar c = true →
    isAssetChar c.toUpper = true ∧ c.toUpper.toLower = c) (by decide)
    (ascii_of_isAssetTypeChar h) h

theorem isUpper_toUpper (h : c.isLower = true) : c.toUpper.isUpper = true :=
  Text.of_ascii (P := fun c => c.isLower = true → c.toUpper.isUpper = true) (by decide)
    (ascii_of_isLower h) h

theorem not_isMarkChar_of_isUpper (h : c.isUpper = true) : isMarkChar c = false :=
  Text.of_ascii (P := fun c => c.isUpper = true → isMarkChar c = false) (by decide)
    (ascii_of_isUpper h) h

theorem isAssetTypeChar_of_isAssetType (h : isAssetType cs = true) :
    ∀ c ∈ cs, isAssetTypeChar c = true := by
  cases cs with
  | nil => cases h
  | cons c cs =>
      simp only [isAssetType, Bool.and_eq_true, List.all_eq_true] at h
      refine List.forall_mem_cons.2 ⟨?_, h.2⟩
      simp [isAssetTypeChar, isMarkChar, h.1]

/-- The upper case of an asset type is an asset type of a head, and has it for its lower case. -/
theorem isAsset_map_toUpper (h : isAssetType cs = true) :
    isAsset (cs.map Char.toUpper) = true ∧
      parseHead?.lowered (cs.map Char.toUpper) = String.ofList cs := by
  have hc := isAssetTypeChar_of_isAssetType h
  constructor
  · cases cs with
    | nil => cases h
    | cons c cs =>
        simp only [isAssetType, Bool.and_eq_true] at h
        simp only [List.map_cons, isAsset, isUpper_toUpper h.1, Bool.true_and, List.all_map,
          List.all_eq_true]
        exact fun d hd => (isAssetChar_toUpper (hc d (List.mem_cons_of_mem c hd))).1
  · rw [parseHead?.lowered, List.map_map]
    exact congrArg String.ofList
      ((List.map_congr_left fun d hd => (isAssetChar_toUpper (hc d hd)).2).trans (List.map_id' cs))

theorem toList_upper (h : isAssetType assetType.toList = true) :
    (Text.upper assetType).toList = assetType.toList.map Char.toUpper := by
  have hascii : ∀ c ∈ assetType.toList, c.toNat < 128 := fun c hc =>
    ascii_of_isAssetTypeChar (isAssetTypeChar_of_isAssetType h c hc)
  have hupper := Text.upper_ascii hascii
  rw [String.ofList_toList] at hupper
  rw [hupper, String.toList_ofList]

theorem parseHead?_asset (h : isAsset cs = true) :
    parseHead? (String.ofList cs) = some (parseHead?.lowered cs, none) := by
  have hlast : dropFinalNewline cs = cs := dropFinalNewline_of_last (getLast?_of_isAsset h [])
  cases cs with
  | nil => cases h
  | cons c cs =>
      have hc : isMarkChar c = false :=
        not_isMarkChar_of_isUpper (Bool.and_eq_true_iff.1 h).1
      simp only [parseHead?, String.toList_ofList, hlast, List.takeWhile_cons, List.dropWhile_cons,
        hc, Bool.false_eq_true, if_false, h, if_true]

theorem parseHead?_marked {m : List Char} (hm : isMark m = true) (h : isAsset cs = true) :
    parseHead? (String.ofList (m ++ '_' :: cs)) =
      some (parseHead?.lowered cs, some (String.ofList m)) := by
  have hlast : dropFinalNewline (m ++ '_' :: cs) = m ++ '_' :: cs := by
    rw [List.append_cons]
    exact dropFinalNewline_of_last (getLast?_of_isAsset h _)
  have htake : (m ++ '_' :: cs).takeWhile isMarkChar = m := by
    rw [List.takeWhile_append_of_pos (isMarkChar_of_isMark hm)]
    exact List.append_nil m
  have hdrop : (m ++ '_' :: cs).dropWhile isMarkChar = '_' :: cs := by
    rw [List.dropWhile_append_of_pos (isMarkChar_of_isMark hm)]
    rfl
  simp only [parseHead?, String.toList_ofList, hlast, htake, hdrop]
  cases m with
  | nil => cases hm
  | cons c m => exact if_pos ⟨(Bool.and_eq_true_iff.1 hm).1, h⟩

theorem parseHead?_headOf_of_parts (ha : isAssetType assetType.toList = true)
    (hm : ∀ m ∈ mark, isMark m.toList = true) :
    parseHead? (headOf assetType mark) = some (assetType, mark) := by
  obtain ⟨hasset, hlower⟩ := isAsset_map_toUpper ha
  rw [← toList_upper ha] at hasset hlower
  rw [String.ofList_toList] at hlower
  cases mark with
  | none =>
      have hhead := parseHead?_asset hasset
      rwa [hlower, String.ofList_toList] at hhead
  | some m =>
      have hm := hm m rfl
      have hne : m ≠ "" := fun he => ne_nil_of_isMark hm (by rw [he]; rfl)
      have hmark := lower_mark (isMarkChar_of_isMark hm)
      rw [String.ofList_toList] at hmark
      have hhead : headOf assetType (some m) =
          String.ofList (m.toList ++ '_' :: (Text.upper assetType).toList) := by
        rw [headOf, if_neg hne, hmark]
        exact String.toList_inj.1 (by simp)
      rw [hhead, parseHead?_marked hm hasset, hlower, String.ofList_toList]

/-- A qualified name that is formatted of an asset type, a synthetic prefix and separable names is
taken apart into them. As the end of a longer one it has no known prefix. -/
theorem format_round_trip (ha : isAssetType assetType.toList = true)
    (hm : ∀ m ∈ mark, isMark m.toList = true) (hnames : Separable names) (isPartial : Bool) :
    parse? (format assetType names mark) isPartial =
      some ⟨assetType, names, if isPartial then none else mark, isPartial⟩ := by
  have hhead := parseHead?_headOf_of_parts ha hm
  have hparsed := parse?_joined (colon_not_mem_headOf hhead)
    ((congrArg parseHead? String.ofList_toList).trans hhead) hnames isPartial
  rwa [← toList_format, String.ofList_toList] at hparsed

end QualifiedName

namespace Sample

open QualifiedName

/-- Names with colons at their ends. -/
def colonNames : List String := [":sales", "public", "orders:"]

/-- The qualified name of a table with these names. -/
def colonText : String := "tt_DATABASE_TABLE:::sales::public::orders:"

def colonParts : QualifiedName := ⟨"database_table", colonNames, some "tt", false⟩

theorem separable_colonNames : Separable colonNames where
  given := by decide
  named := by decide
  whole := by decide +kernel
  ended := by decide

theorem colonNames_round_trip : isAssetType "database_table".toList = true ∧
    (∀ m ∈ some "tt", isMark m.toList = true) ∧ Separable colonNames ∧
    QualifiedName.format "database_table" colonNames (some "tt") = colonText ∧
    parse? (QualifiedName.format "database_table" colonNames (some "tt")) false =
      some colonParts ∧
    parse? (QualifiedName.format "database_table" colonNames (some "tt")) true =
      some ⟨"database_table", colonNames, none, true⟩ := by
  have hasset : isAssetType "database_table".toList = true := by decide
  have hmark : ∀ m ∈ some "tt", isMark m.toList = true := by decide
  refine ⟨hasset, hmark, separable_colonNames, by decide +kernel, ?_, ?_⟩
  · exact format_round_trip hasset hmark separable_colonNames false
  · exact format_round_trip hasset hmark separable_colonNames true

end Sample

namespace QualifiedName

variable {assetType value : String} {mark : Option String} {q : QualifiedName}

/-- A line feed ends the head of a text. -/
def breaksHead (value : String) : Bool :=
  (Text.segments value.toList).1.getLast? = some '\n'

/-- What a text has between its head and its names. -/
def headBreak (value : String) : List Char := if breaksHead value then ['\n'] else []

theorem dropFinalNewline_append (cs : List Char) :
    cs = dropFinalNewline cs ++ if cs.getLast? = some '\n' then ['\n'] else [] := by
  rw [dropFinalNewline]
  split_ifs with h
  · obtain ⟨ds, rfl⟩ := List.getLast?_eq_some_iff.1 h
    rw [List.dropLast_concat]
  · exact (List.append_nil cs).symm

theorem head_of_accepted (h : parse? value false = some q) :
    (Text.segments value.toList).1 = q.head.toList ++ headBreak value := by
  have hsplit := dropFinalNewline_append (Text.segments value.toList).1
  rw [(toList_of_parse? h).2] at hsplit
  simpa [headBreak, breaksHead] using hsplit

theorem toList_of_accepted (h : parse? value false = some q) :
    value.toList = Text.joined Text.separator
      ((q.head.toList ++ headBreak value) :: q.names.map String.toList) := by
  rw [← head_of_accepted h]
  exact (toList_of_parse? h).1

theorem names_ne_nil (h : parse? value false = some q) : q.names ≠ [] := by
  obtain ⟨_, ns, _, _, _, _, hne, _, rfl⟩ := parse?_eq_some_iff.1 h
  exact fun he => hne (List.map_eq_nil_iff.1 he)

theorem text_eq_iff (h : parse? value false = some q) :
    q.text = value ↔ breaksHead value = false := by
  have hlist := toList_of_accepted h
  have hne : q.names.map String.toList ≠ [] := fun he =>
    names_ne_nil h (List.map_eq_nil_iff.1 he)
  have htext : q.text.toList =
      Text.joined Text.separator (q.head.toList :: q.names.map String.toList) := toList_format ..
  rw [Text.joined_cons _ hne] at hlist htext
  rw [← String.toList_inj, hlist, htext, headBreak]
  cases breaksHead value <;> simp

theorem exists_head_parts {head : String} (h : parseHead? head = some (assetType, mark)) :
    ∃ marked asset, (marked = [] ∨ ∃ m, isMark m = true ∧ marked = m ++ ['_']) ∧
      isAsset asset = true ∧ (headOf assetType mark).toList = marked ++ asset := by
  rw [headOf_of_parseHead? h, String.toList_ofList]
  obtain ⟨asset, hasset, _, ⟨_, hd⟩ | ⟨m, hm, _, hd⟩⟩ := parseHead?_eq_some h
  · exact ⟨[], asset, .inl rfl, hasset, hd⟩
  · exact ⟨m ++ ['_'], asset, .inr ⟨m, hm, rfl⟩, hasset, hd.trans (List.append_cons ..)⟩

/-- A text that is taken apart is formatted back, and no other one has its parts, unless a line
feed ends the head; this one is passed over. The head is an asset type in upper case, perhaps
after a synthetic prefix in lower case and an underscore, and the line feed. -/
theorem accepted_text (h : parse? value false = some q) :
    (q.text = value ↔ breaksHead value = false) ∧
      (∀ other, parse? other false = some q → breaksHead other = breaksHead value →
        other = value) ∧
      ∃ marked asset, (marked = [] ∨ ∃ m, isMark m = true ∧ marked = m ++ ['_']) ∧
        isAsset asset = true ∧
        (Text.segments value.toList).1 = marked ++ asset ++ headBreak value := by
  refine ⟨text_eq_iff h, fun other hother hb => ?_, ?_⟩
  · refine String.toList_inj.1 ?_
    rw [toList_of_accepted hother, toList_of_accepted h, headBreak, headBreak, hb]
  · obtain ⟨head, hhead⟩ := exists_head_of_parse? h
    obtain ⟨marked, asset, hmarked, hasset, hlist⟩ := exists_head_parts hhead
    refine ⟨marked, asset, hmarked, hasset, ?_⟩
    rw [head_of_accepted h, ← hlist]
    rfl

end QualifiedName

namespace Sample

open QualifiedName

theorem colonText_accepted : parse? colonText false = some colonParts ∧
    colonParts.text = colonText ∧
    ∀ other, parse? other false = some colonParts → breaksHead other = false →
      other = colonText := by
  have h : parse? colonText false = some colonParts := by decide +kernel
  have hplain : breaksHead colonText = false := by decide +kernel
  obtain ⟨htext, honly, _⟩ := accepted_text h
  exact ⟨h, htext.2 hplain, fun other hother hb => honly other hother (hb.trans hplain.symm)⟩

/-- A text with a line feed behind its head has the parts of the text without it. -/
theorem line_feed_passed_over :
    parse? "HOST\n::alpha" false = some ⟨"host", ["alpha"], none, false⟩ ∧
      QualifiedName.text ⟨"host", ["alpha"], none, false⟩ = "HOST::alpha" ∧
      parse? "HOST::alpha" false = some ⟨"host", ["alpha"], none, false⟩ := by
  decide +kernel

end Sample

end MetaFed
