import InfraGraph.Text.Base64
import Mathlib.Tactic.SplitIfs

/-!
Base64 reads back what it writes, and reads nothing else. Both alphabets give each number below 64 a letter
of its own, none of them the padding; the rest is arithmetic on groups of three bytes.
-/

namespace InfraGraph.Text.Base64

structure Faithful (b : Base64) : Prop where
  value : ∀ n < 64, b.value? (b.letter n) = some n
  pad : b.value? '=' = none

theorem faithful_standard : Faithful standard where
  value := by decide +kernel
  pad := by decide

theorem faithful_urlSafe : Faithful urlSafe where
  value := by decide +kernel
  pad := by decide

variable {b : Base64}

theorem Faithful.letter_ne (f : Faithful b) {n : Nat} (small : n < 64) : b.letter n ≠ '=' := by
  intro eq
  have value := f.value n small
  rw [eq, f.pad] at value
  simp at value

theorem ofNat_of_eq_toNat {n : Nat} {x : UInt8} (h : n = x.toNat) : UInt8.ofNat n = x := by
  rw [h, UInt8.ofNat_toNat]

theorem lastByte?_letters (f : Faithful b) (x : UInt8) :
    b.lastByte? (b.letter (x.toNat / 4)) (b.letter (x.toNat % 4 * 16)) = some [x] := by
  have hx := x.toNat_lt
  have high := f.value (x.toNat / 4) (by omega)
  have low := f.value (x.toNat % 4 * 16) (by omega)
  have even : x.toNat % 4 * 16 % 16 = 0 := by omega
  have whole : UInt8.ofNat (x.toNat / 4 * 4 + x.toNat % 4 * 16 / 16) = x :=
    ofNat_of_eq_toNat (by omega)
  simp only [lastByte?, high, low, Option.bind_eq_bind, Option.bind_some, even, if_true, whole]

theorem lastBytes?_letters (f : Faithful b) (x y : UInt8) :
    b.lastBytes? (b.letter (x.toNat / 4)) (b.letter (x.toNat % 4 * 16 + y.toNat / 16))
      (b.letter (y.toNat % 16 * 4)) = some [x, y] := by
  have hx := x.toNat_lt
  have hy := y.toNat_lt
  have first := f.value (x.toNat / 4) (by omega)
  have second := f.value (x.toNat % 4 * 16 + y.toNat / 16) (by omega)
  have third := f.value (y.toNat % 16 * 4) (by omega)
  have even : y.toNat % 16 * 4 % 4 = 0 := by omega
  have one : UInt8.ofNat (x.toNat / 4 * 4 + (x.toNat % 4 * 16 + y.toNat / 16) / 16) = x :=
    ofNat_of_eq_toNat (by omega)
  have two : UInt8.ofNat ((x.toNat % 4 * 16 + y.toNat / 16) % 16 * 16 + y.toNat % 16 * 4 / 4) = y :=
    ofNat_of_eq_toNat (by omega)
  simp only [lastBytes?, first, second, third, Option.bind_eq_bind, Option.bind_some, even, if_true,
    one, two]

theorem bytes?_letters (f : Faithful b) (bytes : List UInt8) :
    b.bytes? (b.letters bytes) = some bytes := by
  fun_induction b.letters bytes with
  | case1 => rfl
  | case2 x =>
    by_cases hp : b.padded
    · simp [padding, hp, List.replicate, bytes?, lastByte?_letters f]
    · simp [padding, hp, bytes?, lastByte?_letters f]
  | case3 x y =>
    by_cases hp : b.padded
    · have hy := y.toNat_lt
      have letter := f.letter_ne (n := y.toNat % 16 * 4) (by omega)
      simp [padding, hp, List.replicate, bytes?, letter, lastBytes?_letters f]
    · simp [padding, hp, bytes?, lastBytes?_letters f]
  | case4 x y z rest ih =>
    have hx := x.toNat_lt
    have hy := y.toNat_lt
    have hz := z.toNat_lt
    have letter := f.letter_ne (n := z.toNat % 64) (by omega)
    have first := f.value (x.toNat / 4) (by omega)
    have second := f.value (x.toNat % 4 * 16 + y.toNat / 16) (by omega)
    have third := f.value (y.toNat % 16 * 4 + z.toNat / 64) (by omega)
    have fourth := f.value (z.toNat % 64) (by omega)
    have one : UInt8.ofNat (x.toNat / 4 * 4 + (x.toNat % 4 * 16 + y.toNat / 16) / 16) = x :=
      ofNat_of_eq_toNat (by omega)
    have two : UInt8.ofNat ((x.toNat % 4 * 16 + y.toNat / 16) % 16 * 16 +
        (y.toNat % 16 * 4 + z.toNat / 64) / 4) = y := ofNat_of_eq_toNat (by omega)
    have three : UInt8.ofNat ((y.toNat % 16 * 4 + z.toNat / 64) % 4 * 64 + z.toNat % 64) = z :=
      ofNat_of_eq_toNat (by omega)
    simp only [bytes?, letter, false_and, and_false, if_false, first, second, third, fourth, ih,
      Option.bind_eq_bind, Option.bind_some, one, two, three]

theorem decode_encode (f : Faithful b) (bytes : List UInt8) :
    b.decode (b.encode bytes) = some bytes := by
  rw [decode, encode, String.toList_ofList, bytes?_letters f]

theorem toNat_ofNat {n : Nat} (small : n < 256) : (UInt8.ofNat n).toNat = n :=
  UInt8.toNat_ofNat_of_lt' small

theorem letter_of_value? {c : Char} {n : Nat} (h : b.value? c = some n) :
    n < 64 ∧ b.letter n = c := by
  have same : ∀ {m : Nat}, m = c.toNat → Char.ofNat m = c := by
    rintro m rfl
    exact Char.ofNat_toNat c
  unfold value? at h
  split_ifs at h with upper lower digit plus slash <;> cases h
  · obtain ⟨low, high⟩ : 65 ≤ c.toNat ∧ c.toNat ≤ 90 := upper
    refine ⟨by omega, ?_⟩
    rw [letter, if_pos (by omega)]
    exact same (by omega)
  · obtain ⟨low, high⟩ : 97 ≤ c.toNat ∧ c.toNat ≤ 122 := lower
    refine ⟨by omega, ?_⟩
    rw [letter, if_neg (by omega), if_pos (by omega)]
    exact same (by omega)
  · obtain ⟨low, high⟩ : 48 ≤ c.toNat ∧ c.toNat ≤ 57 := digit
    refine ⟨by omega, ?_⟩
    rw [letter, if_neg (by omega), if_neg (by omega), if_pos (by omega)]
    exact same (by omega)
  · exact ⟨by decide, plus.symm⟩
  · exact ⟨by decide, slash.symm⟩

theorem letters_of_lastByte? {p q : Char} {bytes : List UInt8} (h : b.lastByte? p q = some bytes) :
    b.letters bytes = p :: q :: b.padding 2 := by
  simp only [lastByte?, Option.bind_eq_bind, Option.bind_eq_some_iff, Option.ite_none_right_eq_some,
    Option.some.injEq] at h
  obtain ⟨x, hp, y, hq, even, rfl⟩ := h
  obtain ⟨hx, rfl⟩ := letter_of_value? hp
  obtain ⟨hy, rfl⟩ := letter_of_value? hq
  have byte := toNat_ofNat (n := x * 4 + y / 16) (by omega)
  have first : (x * 4 + y / 16) / 4 = x := by omega
  have second : (x * 4 + y / 16) % 4 * 16 = y := by omega
  rw [letters, byte, first, second]

theorem letters_of_lastBytes? {p q r : Char} {bytes : List UInt8}
    (h : b.lastBytes? p q r = some bytes) : b.letters bytes = p :: q :: r :: b.padding 1 := by
  simp only [lastBytes?, Option.bind_eq_bind, Option.bind_eq_some_iff, Option.ite_none_right_eq_some,
    Option.some.injEq] at h
  obtain ⟨x, hp, y, hq, z, hr, even, rfl⟩ := h
  obtain ⟨hx, rfl⟩ := letter_of_value? hp
  obtain ⟨hy, rfl⟩ := letter_of_value? hq
  obtain ⟨hz, rfl⟩ := letter_of_value? hr
  have one := toNat_ofNat (n := x * 4 + y / 16) (by omega)
  have two := toNat_ofNat (n := y % 16 * 16 + z / 4) (by omega)
  have first : (x * 4 + y / 16) / 4 = x := by omega
  have second : (x * 4 + y / 16) % 4 * 16 + (y % 16 * 16 + z / 4) / 16 = y := by omega
  have third : (y % 16 * 16 + z / 4) % 16 * 4 = z := by omega
  rw [letters, one, two, first, second, third]

theorem letters_of_bytes? {cs : List Char} {bytes : List UInt8} (h : b.bytes? cs = some bytes) :
    b.letters bytes = cs := by
  fun_induction b.bytes? cs generalizing bytes with
  | case1 => cases h; rfl
  | case2 p q padded => cases h
  | case3 p q plain =>
    rw [letters_of_lastByte? h, padding, if_neg plain]
  | case4 p q r padded => cases h
  | case5 p q r plain =>
    rw [letters_of_lastBytes? h, padding, if_neg plain]
  | case6 p q s rest last =>
    obtain ⟨padded, rfl, rfl⟩ := last
    rw [letters_of_lastByte? h, padding, if_pos padded]
    rfl
  | case7 p q r s rest last _ =>
    obtain ⟨padded, rfl, rfl⟩ := last
    rw [letters_of_lastBytes? h, padding, if_pos padded]
    rfl
  | case8 p q r s rest _ ih =>
    simp only [Option.bind_eq_bind, Option.bind_eq_some_iff, Option.some.injEq] at h
    obtain ⟨v, hp, w, hq, x, hr, y, hs, more, read, rfl⟩ := h
    obtain ⟨hv, rfl⟩ := letter_of_value? hp
    obtain ⟨hw, rfl⟩ := letter_of_value? hq
    obtain ⟨hx, rfl⟩ := letter_of_value? hr
    obtain ⟨hy, rfl⟩ := letter_of_value? hs
    have one := toNat_ofNat (n := v * 4 + w / 16) (by omega)
    have two := toNat_ofNat (n := w % 16 * 16 + x / 4) (by omega)
    have three := toNat_ofNat (n := x % 4 * 64 + y) (by omega)
    have first : (v * 4 + w / 16) / 4 = v := by omega
    have second : (v * 4 + w / 16) % 4 * 16 + (w % 16 * 16 + x / 4) / 16 = w := by omega
    have third : (w % 16 * 16 + x / 4) % 16 * 4 + (x % 4 * 64 + y) / 64 = x := by omega
    have fourth : (x % 4 * 64 + y) % 64 = y := by omega
    rw [letters, one, two, three, first, second, third, fourth, ih read]
  | case9 => cases h

theorem decode_eq_some_iff (f : Faithful b) {text : String} {bytes : List UInt8} :
    b.decode text = some bytes ↔ text = b.encode bytes := by
  constructor
  · intro h
    rw [encode, letters_of_bytes? h, String.ofList_toList]
  · rintro rfl
    exact decode_encode f bytes

end InfraGraph.Text.Base64
