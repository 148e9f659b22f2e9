import InfraGraph.Json.Quoted
import InfraGraph.Proofs.Text.Utf8

/-!
JSON strings read back what was written. A byte is written as a letter after a backslash, by its number,
or as it is; each of the three reads back as the byte, keeps the scanner inside of the string, and is
UTF-8 where the text was.
-/

namespace InfraGraph.Json

open Text

namespace Token

/-- Scanning to a place inside of a text: the tokens so far and what the automaton is inside of. -/
def read : Mode → List UInt8 → Option (List Token × Mode)
  | mode, [] => some ([], mode)
  | mode, b :: rest => do
      let (ts, mode) ← mode.next b
      let (more, mode) ← read mode rest
      some (ts ++ more, mode)

theorem read_append {mode mode₁ mode₂ : Mode} {xs ys : List UInt8} {ts us : List Token}
    (first : read mode xs = some (ts, mode₁)) (second : read mode₁ ys = some (us, mode₂)) :
    read mode (xs ++ ys) = some (ts ++ us, mode₂) := by
  induction xs generalizing mode ts with
  | nil =>
    simp only [read, Option.some.injEq, Prod.mk.injEq] at first
    obtain ⟨rfl, rfl⟩ := first
    exact second
  | cons x xs ih =>
    simp only [read, Option.bind_eq_bind, Option.bind_eq_some_iff, Option.some.injEq,
      Prod.mk.injEq, Prod.exists] at first
    obtain ⟨ts₁, mode', next, ts₂, mode'', rest, rfl, rfl⟩ := first
    simp [read, next, ih rest]

theorem scanFrom_of_read {mode mode' : Mode} {text : List UInt8} {ts us : List Token}
    (h : read mode text = some (ts, mode')) (last : mode'.finish = some us) :
    scanFrom mode text = some (ts ++ us) := by
  induction text generalizing mode ts with
  | nil =>
    simp only [read, Option.some.injEq, Prod.mk.injEq] at h
    obtain ⟨rfl, rfl⟩ := h
    simpa [scanFrom] using last
  | cons b rest ih =>
    simp only [read, Option.bind_eq_bind, Option.bind_eq_some_iff, Option.some.injEq,
      Prod.mk.injEq, Prod.exists] at h
    obtain ⟨ts₁, mode₁, next, ts₂, mode₂, more, rfl, rfl⟩ := h
    simp [scanFrom, next, ih more]

end Token

namespace Quoted

inductive Writes (b : UInt8) : List UInt8 → Prop
  | letter {e : UInt8} (form : isSimpleEscape e) (other : e ≠ 117) (meant : simple? e = some b) :
      Writes b [92, e]
  | number {h l : UInt8} (high : isHex h) (low : isHex l) (meant : unit 48 48 h l = b.toNat)
      (control : b.toNat < 32) : Writes b [92, 117, 48, 48, h, l]
  | plain (quote : b ≠ 34) (backslash : b ≠ 92) (shown : ¬ b < 32) : Writes b [b]

theorem hexDigit_control : ∀ n < 32, isHex (hexDigit (UInt8.ofNat n / 16)) ∧
    isHex (hexDigit (UInt8.ofNat n % 16)) ∧
    unit 48 48 (hexDigit (UInt8.ofNat n / 16)) (hexDigit (UInt8.ofNat n % 16)) = n := by
  decide +kernel

theorem escape_writes (b : UInt8) : Writes b (escape b) := by
  fun_cases escape b with
  | case1 h => exact .letter rfl (by decide) (by rw [h]; rfl)
  | case2 _ h => exact .letter rfl (by decide) (by rw [h]; rfl)
  | case3 _ _ h => exact .letter rfl (by decide) (by rw [h]; rfl)
  | case4 _ _ _ h => exact .letter rfl (by decide) (by rw [h]; rfl)
  | case5 _ _ _ _ h => exact .letter rfl (by decide) (by rw [h]; rfl)
  | case6 _ _ _ _ _ h => exact .letter rfl (by decide) (by rw [h]; rfl)
  | case7 _ _ _ _ _ _ h => exact .letter rfl (by decide) (by rw [h]; rfl)
  | case8 _ _ _ _ _ _ _ control =>
    have small : b.toNat < 32 := control
    obtain ⟨high, low, meant⟩ := hexDigit_control b.toNat small
    rw [UInt8.ofNat_toNat] at high low meant
    exact .number high low meant small
  | case9 quote backslash _ _ _ _ _ shown => exact .plain quote backslash shown

theorem codeBytes_control {n : Nat} (small : n < 32) : codeBytes n = [UInt8.ofNat n] :=
  utf8EncodeChar_ascii n (by omega)

theorem unescape_plain {b : UInt8} (h : b ≠ 92) (rest : List UInt8) :
    unescape (b :: rest) = (unescape rest).map (b :: ·) := by
  cases rest with
  | nil => simp [unescape, h]
  | cons e rest =>
    rw [unescape.eq_def]
    simp [h]

theorem unescape_letter {e s : UInt8} (other : e ≠ 117) (meant : simple? e = some s)
    (rest : List UInt8) : unescape (92 :: e :: rest) = (unescape rest).map (s :: ·) := by
  rw [unescape.eq_def]
  simp only [ne_eq, not_true, if_false, other, not_false_iff, if_true, meant, Option.bind_eq_bind,
    Option.bind_some]
  cases unescape rest <;> rfl

theorem Writes.unescape {b : UInt8} {bs : List UInt8} (w : Writes b bs) (rest : List UInt8) :
    unescape (bs ++ rest) = (unescape rest).map (b :: ·) := by
  cases w with
  | letter _ other meant => exact unescape_letter other meant rest
  | number _ _ meant control =>
    have high : isHighSurrogate b.toNat = false := by simp [isHighSurrogate]; omega
    have low : isLowSurrogate b.toNat = false := by simp [isLowSurrogate]; omega
    simp [Quoted.unescape, meant, high, low, codeBytes_control control]
  | plain _ backslash _ => exact unescape_plain backslash rest

theorem unescape_flatMap (bytes : List UInt8) : unescape (bytes.flatMap escape) = some bytes := by
  induction bytes with
  | nil => rfl
  | cons b bytes ih => rw [List.flatMap_cons, (escape_writes b).unescape, ih]; rfl

theorem decode_encode (text : String) : decode (encode text) = some text := by
  rw [decode, encode, unescape_flatMap, Option.bind_some, ofUtf8?_utf8]

theorem Writes.read {b : UInt8} {bs : List UInt8} (w : Writes b bs) (text : List UInt8) :
    Token.read (.quoted text) bs = some ([], .quoted (bs.reverse ++ text)) := by
  cases w with
  | letter form other _ => simp [Token.read, Token.Mode.next, form, other]
  | number high low _ _ =>
    have zero : isHex 48 := rfl
    simp [Token.read, Token.Mode.next, high, low, zero]
  | plain quote backslash shown => simp [Token.read, Token.Mode.next, quote, backslash, shown]

theorem read_flatMap (bytes text : List UInt8) :
    Token.read (.quoted text) (bytes.flatMap escape) =
      some ([], .quoted ((bytes.flatMap escape).reverse ++ text)) := by
  induction bytes generalizing text with
  | nil => rfl
  | cons b bytes ih =>
    have first := (escape_writes b).read text
    simpa using Token.read_append first (ih _)

theorem read_quoted (text : String) :
    Token.read .between ([34] ++ encode text ++ [34]) = some ([.string (encode text)], .between) := by
  have opens : Token.read .between [34] = some ([], .quoted []) := rfl
  have inside : Token.read (.quoted []) (encode text) = some ([], .quoted (encode text).reverse) := by
    simpa [encode] using read_flatMap (utf8 text) []
  have closes : Token.read (.quoted (encode text).reverse) [34] =
      some ([.string (encode text)], .between) := by
    simp [Token.read, Token.Mode.next]
  exact Token.read_append (Token.read_append opens inside) closes

theorem escape_ascii : ∀ n < 128, ∀ b ∈ escape (UInt8.ofNat n), b < 128 := by
  decide +kernel

theorem escape_high : ∀ n < 256, 128 ≤ n → escape (UInt8.ofNat n) = [UInt8.ofNat n] := by
  decide +kernel

theorem isUtf8_encode (text : String) : IsUtf8 (encode text) := by
  rw [encode, utf8_eq, List.flatMap_assoc]
  refine .flatMap fun c _ => ?_
  rcases utf8EncodeChar_cases c with ⟨b, one, small⟩ | high
  · rw [one, List.flatMap_singleton]
    have ascii := escape_ascii b.toNat small
    rw [UInt8.ofNat_toNat] at ascii
    exact isUtf8_of_ascii ascii
  · have plain : ∀ b ∈ String.utf8EncodeChar c, escape b = [b] := by
      intro b hb
      have same := escape_high b.toNat b.toNat_lt (high b hb)
      rwa [UInt8.ofNat_toNat] at same
    refine ⟨[c], ?_⟩
    rw [List.flatMap_singleton, List.flatMap_def, List.map_congr_left plain, ← List.flatMap_def,
      List.flatMap_singleton']

end Quoted

end InfraGraph.Json
