import InfraGraph.Proofs.Json.Grammar
import InfraGraph.Proofs.Json.Quoted

/-!
Strings of JSON read back. However a character is written, the scanner stays inside of the string and what it
keeps decodes to the bytes of the character; so a string in its quotes is one token, which decodes to the text
that is meant.
-/

namespace InfraGraph.Json.Quoted

open Text Grammar

theorem read_plain {bs : List UInt8} (plain : ∀ b ∈ bs, b ≠ 34 ∧ b ≠ 92 ∧ ¬ b < 32) (text : List UInt8) :
    Token.read (.quoted text) bs = some ([], .quoted (bs.reverse ++ text)) := by
  induction bs generalizing text with
  | nil => rfl
  | cons b bs ih =>
    obtain ⟨quote, backslash, shown⟩ := plain b List.mem_cons_self
    have rest := ih (fun c mem => plain c (List.mem_cons_of_mem _ mem)) (b :: text)
    simp [Token.read, Token.Mode.next, quote, backslash, shown, rest]

theorem unescape_plain_append {bs : List UInt8} (plain : ∀ b ∈ bs, b ≠ 92) (rest : List UInt8) :
    unescape (bs ++ rest) = (unescape rest).map (bs ++ ·) := by
  induction bs with
  | nil => simp
  | cons b bs ih =>
    have more := ih fun c mem => plain c (List.mem_cons_of_mem _ mem)
    rw [List.cons_append, unescape_plain (plain b List.mem_cons_self), more, Option.map_map]
    rfl

theorem plain_of_char {c : Char} (shown : 32 ≤ c.toNat) (quote : c ≠ '"') (backslash : c ≠ '\\') :
    ∀ b ∈ String.utf8EncodeChar c, b ≠ 34 ∧ b ≠ 92 ∧ ¬ b < 32 := by
  rcases utf8EncodeChar_cases c with ⟨b, one, small⟩ | high
  · have number := toNat_of_ascii one small
    rw [one, List.forall_mem_singleton, UInt8.not_lt, UInt8.le_iff_toNat_le, ← number]
    refine ⟨?_, ?_, shown⟩
    · rintro rfl
      exact quote (Char.toNat_inj.mp number)
    · rintro rfl
      exact backslash (Char.toNat_inj.mp number)
  · intro b mem
    have large := high b mem
    refine ⟨?_, ?_, UInt8.not_lt.mpr (UInt8.le_trans (by decide) large)⟩ <;> rintro rfl <;>
      exact absurd large (by decide)

theorem hex_facts {b : UInt8} {n : Nat} (h : Hex b n) : isHex b = true ∧ hexValue b = n := by
  cases h with
  | digit small =>
    have all : ∀ n < 10, isHex (UInt8.ofNat (48 + n)) = true ∧ hexValue (UInt8.ofNat (48 + n)) = n := by decide
    exact all n small
  | @upper m small =>
    have all : ∀ n < 6, isHex (UInt8.ofNat (65 + n)) = true ∧ hexValue (UInt8.ofNat (65 + n)) = 10 + n := by
      decide
    exact all m small
  | @lower m small =>
    have all : ∀ n < 6, isHex (UInt8.ofNat (97 + n)) = true ∧ hexValue (UInt8.ofNat (97 + n)) = 10 + n := by
      decide
    exact all m small

theorem codeUnit_facts {bs : List UInt8} {u : Nat} (h : CodeUnit bs u) :
    ∃ a b c d, bs = [92, 117, a, b, c, d] ∧ unit a b c d = u ∧
      isHex a = true ∧ isHex b = true ∧ isHex c = true ∧ isHex d = true := by
  cases h with
  | mk first second third fourth =>
    obtain ⟨isFirst, rfl⟩ := hex_facts first
    obtain ⟨isSecond, rfl⟩ := hex_facts second
    obtain ⟨isThird, rfl⟩ := hex_facts third
    obtain ⟨isFourth, rfl⟩ := hex_facts fourth
    exact ⟨_, _, _, _, rfl, rfl, isFirst, isSecond, isThird, isFourth⟩

theorem read_codeUnit {bs : List UInt8} {u : Nat} (h : CodeUnit bs u) (text : List UInt8) :
    Token.read (.quoted text) bs = some ([], .quoted (bs.reverse ++ text)) := by
  obtain ⟨a, b, c, d, rfl, -, first, second, third, fourth⟩ := codeUnit_facts h
  simp [Token.read, Token.Mode.next, first, second, third, fourth]

theorem codeBytes_toNat (c : Char) : codeBytes c.toNat = String.utf8EncodeChar c := by
  rw [codeBytes, Char.ofNat_toNat]

theorem not_surrogate (c : Char) : isHighSurrogate c.toNat = false ∧ isLowSurrogate c.toNat = false := by
  have valid : c.toNat < 0xD800 ∨ 0xDFFF < c.toNat ∧ c.toNat < 0x110000 := c.valid
  simp only [isHighSurrogate, isLowSurrogate, Bool.and_eq_false_iff, decide_eq_false_iff_not]
  omega

theorem unescape_codeUnit {bs : List UInt8} {c : Char} (h : CodeUnit bs c.toNat) (rest : List UInt8) :
    unescape (bs ++ rest) = (unescape rest).map (String.utf8EncodeChar c ++ ·) := by
  obtain ⟨a, b, c', d, rfl, meant, -⟩ := codeUnit_facts h
  obtain ⟨high, low⟩ := not_surrogate c
  simp [unescape, meant, high, low, codeBytes_toNat]

theorem letter_facts : ∀ p ∈ letters, isSimpleEscape p.1 = true ∧ p.1 ≠ 117 ∧
    (simple? p.1).map ([·]) = some (String.utf8EncodeChar p.2) := by
  decide

theorem read_character {c : Char} {bs : List UInt8} (h : Character c bs) (text : List UInt8) :
    Token.read (.quoted text) bs = some ([], .quoted (bs.reverse ++ text)) := by
  cases h with
  | plain shown quote backslash => exact read_plain (plain_of_char shown quote backslash) text
  | letter stands =>
    obtain ⟨form, other, -⟩ := letter_facts _ stands
    simp [Token.read, Token.Mode.next, form, other]
  | unit meant => exact read_codeUnit meant text
  | surrogates first second _ _ _ =>
    have whole := Token.read_append (read_codeUnit first text) (read_codeUnit second _)
    simpa using whole

theorem unescape_character {c : Char} {bs : List UInt8} (h : Character c bs) (rest : List UInt8) :
    unescape (bs ++ rest) = (unescape rest).map (String.utf8EncodeChar c ++ ·) := by
  cases h with
  | plain shown quote backslash =>
    exact unescape_plain_append (fun b mem => (plain_of_char shown quote backslash b mem).2.1) rest
  | letter stands =>
    obtain ⟨-, other, meant⟩ := letter_facts _ stands
    obtain ⟨s, simple, bytes⟩ := Option.map_eq_some_iff.mp meant
    rw [← bytes]
    exact unescape_letter other simple rest
  | unit meant => exact unescape_codeUnit meant rest
  | @surrogates _ _ u v first second isHigh isLow number =>
    obtain ⟨_, _, _, _, rfl, meant, -⟩ := codeUnit_facts first
    obtain ⟨_, _, _, _, rfl, meant', -⟩ := codeUnit_facts second
    have high : isHighSurrogate u = true := by simpa [isHighSurrogate] using isHigh
    have low : isLowSurrogate u = false := by
      simp [isLowSurrogate]
      omega
    have low' : isLowSurrogate v = true := by simpa [isLowSurrogate] using isLow
    simp [unescape, meant, meant', high, low, low', ← number, codeBytes_toNat]

theorem read_characters {cs : List Char} {bs : List UInt8} (h : Characters cs bs) (text : List UInt8) :
    Token.read (.quoted text) bs = some ([], .quoted (bs.reverse ++ text)) := by
  induction h generalizing text with
  | nil => rfl
  | cons first _ ih =>
    have whole := Token.read_append (read_character first text) (ih _)
    simpa using whole

theorem unescape_characters {cs : List Char} {bs : List UInt8} (h : Characters cs bs) :
    unescape bs = some (cs.flatMap String.utf8EncodeChar) := by
  induction h with
  | nil => rfl
  | cons first _ ih =>
    rw [unescape_character first, ih]
    rfl

theorem read_quotation {text : String} {bs : List UInt8} (h : Quotation text bs) :
    ∃ raw, Token.read .between bs = some ([.string raw], .between) ∧ decode raw = some text := by
  cases h with
  | @mk raw inside =>
    refine ⟨raw, ?_, ?_⟩
    · have opens : Token.read .between [34] = some ([], .quoted []) := rfl
      have closes : Token.read (.quoted (raw.reverse ++ [])) [34] = some ([.string raw], .between) := by
        simp [Token.read, Token.Mode.next]
      exact Token.read_append (Token.read_append opens (read_characters inside [])) closes
    · rw [decode, unescape_characters inside, ← utf8_eq, Option.bind_some, ofUtf8?_utf8]

end InfraGraph.Json.Quoted
