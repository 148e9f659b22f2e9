import Mathlib.Data.List.Induction
import Mathlib.Tactic.Ring
import InfraGraph.Text.Digits

/-!
Numerals read back. Digits of a given width say one number below a power of ten, and this number is written
with no other digits of that width. What stands behind digits counts less the more of them there are.
-/

namespace InfraGraph.Text

theorem digit_ofNat {n : Nat} (h : n < 10) :
    isDigit (Char.ofNat (n + 48)) ∧ (Char.ofNat (n + 48)).toNat - 48 = n := by
  have each : ∀ n < 10, isDigit (Char.ofNat (n + 48)) ∧ (Char.ofNat (n + 48)).toNat - 48 = n := by
    decide
  exact each n h

theorem isDigit_iff {c : Char} : isDigit c ↔ 48 ≤ c.toNat ∧ c.toNat ≤ 57 := by
  rw [isDigit, Bool.and_eq_true, decide_eq_true_iff, decide_eq_true_iff]
  exact Iff.rfl

theorem ofNat_digit {c : Char} (h : isDigit c) : Char.ofNat (c.toNat - 48 + 48) = c := by
  rw [Nat.sub_add_cancel (isDigit_iff.mp h).1, Char.ofNat_toNat]

theorem digitsValue_append_digit (cs : List Char) (c : Char) :
    digitsValue (cs ++ [c]) = digitsValue cs * 10 + (c.toNat - 48) := by
  simp [digitsValue, List.foldl_append]

theorem digitsValue_lt {cs : List Char} (digits : ∀ c ∈ cs, isDigit c) :
    digitsValue cs < 10 ^ cs.length := by
  induction cs using List.reverseRecOn with
  | nil => decide
  | append_singleton cs c ih =>
    have last := isDigit_iff.mp (digits c (by simp))
    have front := ih fun d mem => digits d (List.mem_append_left _ mem)
    rw [digitsValue_append_digit, List.length_append, List.length_singleton, Nat.pow_succ]
    omega

theorem digitsValue_append (xs ys : List Char) :
    digitsValue (xs ++ ys) = digitsValue xs * 10 ^ ys.length + digitsValue ys := by
  induction ys using List.reverseRecOn with
  | nil => simp [digitsValue]
  | append_singleton ys c ih =>
    rw [← List.append_assoc, digitsValue_append_digit, digitsValue_append_digit, ih,
      List.length_append, List.length_singleton, Nat.pow_succ]
    ring

theorem digitsValue_zeros (k : Nat) : digitsValue (List.replicate k '0') = 0 := by
  induction k with
  | zero => rfl
  | succ k ih => rw [List.replicate_succ', digitsValue_append_digit, ih]; rfl

theorem lastDigits_length (width n : Nat) : (lastDigits width n).length = width := by
  induction width generalizing n with
  | zero => rfl
  | succ width ih => rw [lastDigits, List.length_append, ih]; rfl

theorem lastDigits_digits {width n : Nat} : ∀ c ∈ lastDigits width n, isDigit c := by
  induction width generalizing n with
  | zero => simp [lastDigits]
  | succ width ih =>
    rw [lastDigits]
    intro c mem
    rcases List.mem_append.mp mem with front | last
    · exact ih c front
    · rw [List.mem_singleton.mp last]
      exact (digit_ofNat (Nat.mod_lt n (by decide))).1

theorem digitsValue_lastDigits (width n : Nat) : digitsValue (lastDigits width n) = n % 10 ^ width := by
  induction width generalizing n with
  | zero => rw [pow_zero, Nat.mod_one]; rfl
  | succ width ih =>
    rw [lastDigits, digitsValue_append_digit, ih, (digit_ofNat (Nat.mod_lt n (by decide))).2,
      Nat.pow_succ, Nat.mul_comm (10 ^ width), Nat.mod_mul, Nat.mul_comm, Nat.add_comm]

theorem lastDigits_digitsValue {cs : List Char} (digits : ∀ c ∈ cs, isDigit c) :
    lastDigits cs.length (digitsValue cs) = cs := by
  induction cs using List.reverseRecOn with
  | nil => rfl
  | append_singleton cs c ih =>
    have last := digits c (by simp)
    have front := ih fun d mem => digits d (List.mem_append_left _ mem)
    have bound := isDigit_iff.mp last
    have value := digitsValue_append_digit cs c
    have tens : digitsValue (cs ++ [c]) / 10 = digitsValue cs := by omega
    have ones : digitsValue (cs ++ [c]) % 10 = c.toNat - 48 := by omega
    rw [List.length_append, List.length_singleton, lastDigits, tens, ones, front, ofNat_digit last]

theorem padded_eq {width n : Nat} (h : n < 10 ^ width) : padded width n = lastDigits width n :=
  if_pos h

theorem takeDigits?_eq_some_iff {width n : Nat} {cs rest : List Char} :
    takeDigits? width cs = some (n, rest) ↔ n < 10 ^ width ∧ cs = padded width n ++ rest := by
  constructor
  · intro read
    rw [takeDigits?, Option.ite_none_right_eq_some] at read
    obtain ⟨⟨length, digits⟩, same⟩ := read
    have digits : ∀ c ∈ cs.take width, isDigit c := List.all_eq_true.mp digits
    obtain ⟨rfl, rfl⟩ := Prod.mk.inj (Option.some.inj same)
    have bound := digitsValue_lt digits
    have written := lastDigits_digitsValue digits
    rw [length] at bound written
    rw [padded_eq bound, written, List.take_append_drop]
    exact ⟨bound, rfl⟩
  · rintro ⟨bound, rfl⟩
    have width' := lastDigits_length width n
    have digits : (lastDigits width n).all isDigit = true := List.all_eq_true.mpr lastDigits_digits
    rw [padded_eq bound, takeDigits?, List.take_left' width', List.drop_left' width',
      if_pos ⟨width', digits⟩, digitsValue_lastDigits, Nat.mod_eq_of_lt bound]

end InfraGraph.Text
