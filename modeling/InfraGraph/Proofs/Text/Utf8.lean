import InfraGraph.Text.Utf8

/-!
UTF-8 as characters one after another. What text is written to reads back, and bytes are text if they are
made of encoded characters. A character is one byte below 128, or all its bytes are above.
-/

namespace InfraGraph.Text

theorem utf8_ofList (cs : List Char) :
    utf8 (String.ofList cs) = cs.flatMap String.utf8EncodeChar := by
  simp [utf8, String.toUTF8, List.utf8Encode]

theorem utf8_eq (text : String) : utf8 text = text.toList.flatMap String.utf8EncodeChar := by
  rw [← utf8_ofList, String.ofList_toList]

theorem ofUtf8?_utf8 (text : String) : ofUtf8? (utf8 text) = some text := by
  simp only [ofUtf8?, utf8, String.fromUTF8?, String.toUTF8_eq_toByteArray, Array.toArray_toList,
    dif_pos text.isValidUTF8]
  rfl

theorem ofUtf8?_eq_some_iff {bytes : List UInt8} {text : String} :
    ofUtf8? bytes = some text ↔ bytes = utf8 text := by
  constructor
  · intro h
    unfold ofUtf8? String.fromUTF8? at h
    split at h
    · cases h
      rfl
    · cases h
  · rintro rfl
    exact ofUtf8?_utf8 text

theorem utf8EncodeChar_injective {c d : Char} (h : String.utf8EncodeChar c = String.utf8EncodeChar d) :
    c = d := by
  have texts : utf8 (String.ofList [c]) = utf8 (String.ofList [d]) := by
    rw [utf8_ofList, utf8_ofList, List.flatMap_singleton, List.flatMap_singleton, h]
  have same := congrArg ofUtf8? texts
  rw [ofUtf8?_utf8, ofUtf8?_utf8] at same
  simpa using same

def IsUtf8 (bytes : List UInt8) : Prop :=
  ∃ cs : List Char, bytes = cs.flatMap String.utf8EncodeChar

theorem IsUtf8.exists_text {bytes : List UInt8} (h : IsUtf8 bytes) :
    ∃ text, ofUtf8? bytes = some text := by
  obtain ⟨cs, rfl⟩ := h
  exact ⟨String.ofList cs, by rw [← utf8_ofList, ofUtf8?_utf8]⟩

theorem isUtf8_utf8 (text : String) : IsUtf8 (utf8 text) :=
  ⟨text.toList, utf8_eq text⟩

theorem IsUtf8.append {xs ys : List UInt8} (hx : IsUtf8 xs) (hy : IsUtf8 ys) : IsUtf8 (xs ++ ys) := by
  obtain ⟨cs, rfl⟩ := hx
  obtain ⟨ds, rfl⟩ := hy
  exact ⟨cs ++ ds, List.flatMap_append.symm⟩

theorem IsUtf8.flatMap {α : Type} {xs : List α} {f : α → List UInt8} (h : ∀ x ∈ xs, IsUtf8 (f x)) :
    IsUtf8 (xs.flatMap f) := by
  induction xs with
  | nil => exact ⟨[], rfl⟩
  | cons x xs ih =>
    rw [List.flatMap_cons]
    exact (h x List.mem_cons_self).append (ih fun y hy => h y (List.mem_cons_of_mem _ hy))

theorem utf8EncodeChar_ascii : ∀ n < 128, String.utf8EncodeChar (Char.ofNat n) = [UInt8.ofNat n] := by
  decide +kernel

theorem toNat_of_ascii {c : Char} {b : UInt8} (one : String.utf8EncodeChar c = [b]) (small : b < 128) :
    c.toNat = b.toNat := by
  have bytes := utf8EncodeChar_ascii b.toNat small
  rw [UInt8.ofNat_toNat] at bytes
  have numbers : ∀ n < 128, (Char.ofNat n).toNat = n := by decide +kernel
  rw [utf8EncodeChar_injective (one.trans bytes.symm), numbers b.toNat small]

theorem isUtf8_of_ascii {bytes : List UInt8} (h : ∀ b ∈ bytes, b < 128) : IsUtf8 bytes := by
  refine ⟨bytes.map fun b => Char.ofNat b.toNat, ?_⟩
  induction bytes with
  | nil => rfl
  | cons b bytes ih =>
    have small : b.toNat < 128 := h b List.mem_cons_self
    have one : String.utf8EncodeChar (Char.ofNat b.toNat) = [b] := by
      rw [utf8EncodeChar_ascii _ small, UInt8.ofNat_toNat]
    rw [List.map_cons, List.flatMap_cons, one, ← ih fun b hb => h b (List.mem_cons_of_mem _ hb)]
    rfl

theorem utf8EncodeChar_cases (c : Char) :
    (∃ b, String.utf8EncodeChar c = [b] ∧ b < 128) ∨ ∀ b ∈ String.utf8EncodeChar c, 128 ≤ b := by
  have high : ∀ {n : Nat}, 128 ≤ n → n < 256 → (128 : UInt8) ≤ UInt8.ofNat n := by
    intro n low small
    rw [UInt8.le_iff_toNat_le, UInt8.toNat_ofNat_of_lt' small]
    exact low
  fun_cases String.utf8EncodeChar c with
  | case1 v small =>
    refine .inl ⟨_, rfl, ?_⟩
    rw [UInt8.lt_iff_toNat_lt, UInt8.toNat_ofNat_of_lt' (by simp only [UInt8.size]; omega)]
    exact Nat.lt_succ_of_le small
  | case2 v _ _ =>
    refine .inr ?_
    simp only [List.mem_cons, List.not_mem_nil, or_false, forall_eq_or_imp, forall_eq]
    exact ⟨high (by omega) (by omega), high (by omega) (by omega)⟩
  | case3 v _ _ _ =>
    refine .inr ?_
    simp only [List.mem_cons, List.not_mem_nil, or_false, forall_eq_or_imp, forall_eq]
    exact ⟨high (by omega) (by omega), high (by omega) (by omega), high (by omega) (by omega)⟩
  | case4 v _ _ _ =>
    refine .inr ?_
    simp only [List.mem_cons, List.not_mem_nil, or_false, forall_eq_or_imp, forall_eq]
    exact ⟨high (by omega) (by omega), high (by omega) (by omega), high (by omega) (by omega),
      high (by omega) (by omega)⟩

end InfraGraph.Text
