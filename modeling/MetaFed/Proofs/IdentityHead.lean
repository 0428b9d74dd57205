import MetaFed.Proofs.Table
import MetaFed.Proofs.QualifiedName

/-!
Colons in the heads of qualified names. A head is made of the asset type in upper case, and a colon
is the upper case of a colon only, so a head has none where the asset type has none.
-/

namespace MetaFed

namespace Text

variable {c : Char} {cs : List Char}

theorem ofNat_ne_colon {n : Nat} (h : 58 < n) : Char.ofNat n ≠ ':' := by
  intro e
  have hn := congrArg Char.toNat e
  by_cases hvalid : n.isValidChar
  · rw [Char.ofNat, dif_pos hvalid] at hn
    have h58 : n = 58 := hn
    omega
  · rw [Char.ofNat, dif_neg hvalid] at hn
    exact absurd hn (by decide)

theorem lt_of_shifted? {n k : Nat} (h : shifted? upperSpans n = some k) : 58 < k := by
  have hspans : ∀ s ∈ upperSpans, 58 < (s.1 : Int) + s.2.2.2 := by decide +kernel
  obtain ⟨⟨first, count, step, shift⟩, hs, h⟩ := List.exists_of_findSome?_eq_some h
  have hlow : 58 < (first : Int) + shift := hspans _ hs
  dsimp only at h
  split at h
  · rename_i hn
    cases h
    omega
  · cases h

theorem colon_not_mem_expansions : ∀ e ∈ upperExpansions,
    ':' ∉ e.2.map Char.ofNat ∧ e.2.map Char.ofNat ≠ [] := by
  decide +kernel

theorem caseImage_upper : caseImage upperSpans upperExpansions c ≠ [] ∧
    (':' ∈ caseImage upperSpans upperExpansions c → c = ':') := by
  rw [caseImage]
  split
  · rename_i e he
    have hcolon := colon_not_mem_expansions e (List.mem_of_find?_eq_some he)
    exact ⟨hcolon.2, fun h => absurd h hcolon.1⟩
  · split
    · rename_i n hn
      refine ⟨List.cons_ne_nil _ _, fun h => ?_⟩
      exact absurd (List.mem_singleton.1 h).symm (ofNat_ne_colon (lt_of_shifted? hn))
    · exact ⟨List.cons_ne_nil _ _, fun h => (List.mem_singleton.1 h).symm⟩

theorem upperChar_ne_nil (c : Char) : upperChar c ≠ [] := by
  rw [upperChar]
  split
  · exact List.cons_ne_nil _ _
  · exact caseImage_upper.1

theorem eq_colon_of_mem_upperChar (h : ':' ∈ upperChar c) : c = ':' := by
  rw [upperChar] at h
  split at h
  · rename_i hc
    have hascii : ∀ i : Fin 128, ':' ∈ [(Char.ofNat i).toUpper] → Char.ofNat i = ':' := by decide
    exact of_ascii (P := fun c => ':' ∈ [c.toUpper] → c = ':') hascii
      (UInt32.lt_iff_toNat_lt.1 hc) h
  · exact caseImage_upper.2 h

theorem colon_not_mem_upper {s : String} (h : ':' ∉ s.toList) : ':' ∉ (upper s).toList := by
  rw [upper, String.toList_ofList, List.mem_flatMap]
  rintro ⟨c, hc, hcolon⟩
  exact h (eq_colon_of_mem_upperChar hcolon ▸ hc)

theorem getLast?_upper {s : String} (h : (upper s).toList.getLast? = some ':') :
    s.toList.getLast? = some ':' := by
  rw [upper, String.toList_ofList] at h
  rcases List.eq_nil_or_concat s.toList with hs | ⟨cs, c, hs⟩
  · rw [hs] at h
    cases h
  · rw [hs, List.concat_eq_append, List.flatMap_append, List.flatMap_singleton,
      List.getLast?_append_of_ne_nil _ (upperChar_ne_nil c)] at h
    rw [hs, eq_colon_of_mem_upperChar (List.mem_of_getLast? h), List.concat_eq_append,
      List.getLast?_concat]

end Text

namespace EntityMapping

variable {m n : EntityMapping}

theorem fault?_of_checked (h : m.checked = .ok n) : n.fault? = none := by
  rw [checked] at h
  split at h
  · cases h
  · rename_i hf
    cases h
    exact hf

theorem mark_of_checked (h : m.checked = .ok n) {p : String} (hp : n.mark = some p) :
    p ≠ "" ∧ p.toList.all Text.isAlphanumeric = true ∧ Text.lower p = p := by
  refine ⟨fun e => mark_ne_of_checked h (e ▸ hp), ?_⟩
  have hf := fault?_of_checked h
  simp only [fault?, hp] at hf
  split at hf
  · cases hf
  · cases hf
  · rename_i hmark _
    split at hmark
    · cases hmark
    · split at hmark
      · cases hmark
      · rename_i hall
        split at hmark
        · cases hmark
        · rename_i hlower
          exact ⟨not_not.1 hall, (not_not.1 hlower).symm⟩

theorem exists_identityHead (h : m.checked = .ok n) : ∃ before, ':' ∉ before ∧
    before.getLast? ≠ some ':' ∧
    n.identityHead.toList = before ++ (Text.upper n.assetType).toList := by
  rw [identityHead]
  cases hmark : n.mark with
  | none => exact ⟨[], by simp, by simp, rfl⟩
  | some p =>
      obtain ⟨hne, hall, hlower⟩ := mark_of_checked h hmark
      have hp : ':' ∉ p.toList := fun hc =>
        absurd (List.all_eq_true.1 hall ':' hc) (by decide)
      refine ⟨p.toList ++ ['_'], by simp [hp], by simp, ?_⟩
      simp [QualifiedName.headOf, hne, hlower]

theorem colon_not_mem_identityHead (h : m.checked = .ok n) (ha : ':' ∉ n.assetType.toList) :
    ':' ∉ n.identityHead.toList := by
  obtain ⟨before, hbefore, _, heq⟩ := exists_identityHead h
  rw [heq, List.mem_append]
  rintro (hc | hc)
  · exact hbefore hc
  · exact Text.colon_not_mem_upper ha hc

theorem getLast?_identityHead (h : m.checked = .ok n)
    (ha : n.assetType.toList.getLast? ≠ some ':') : n.identityHead.toList.getLast? ≠ some ':' := by
  obtain ⟨before, _, hlast, heq⟩ := exists_identityHead h
  intro hc
  rw [heq] at hc
  by_cases hne : (Text.upper n.assetType).toList = []
  · rw [hne, List.append_nil] at hc
    exact hlast hc
  · rw [List.getLast?_append_of_ne_nil _ hne] at hc
    exact ha (Text.getLast?_upper hc)

end EntityMapping

end MetaFed
