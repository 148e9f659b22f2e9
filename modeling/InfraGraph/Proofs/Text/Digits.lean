import InfraGraph.Text.Digits

/-!
Texts in the order of numbers. Digits of one width are in the order of what they say, and so are rows of
them: what stands in front counts first, and what is the same in both does not count.
-/

namespace InfraGraph.Text

/-- Two texts of one length that compare like two numbers. -/
structure ComparesAs (xs ys : List Char) (n m : Nat) : Prop where
  length : xs.length = ys.length
  lt_iff : xs < ys ↔ n < m
  eq_iff : xs = ys ↔ n = m

theorem append_lt_append_iff {xs ys us vs : List Char} (same : xs.length = ys.length) :
    xs ++ us < ys ++ vs ↔ xs < ys ∨ xs = ys ∧ us < vs := by
  induction xs generalizing ys with
  | nil =>
    obtain rfl := List.length_eq_zero_iff.mp same.symm
    simp
  | cons x xs ih =>
    cases ys with
    | nil => simp at same
    | cons y ys =>
      have rest := ih (Nat.succ.inj same)
      simp only [List.cons_append, List.cons_lt_cons_iff, rest, List.cons.injEq]
      rw [and_or_left, or_assoc, and_assoc]

theorem mul_add_lt_iff {b n m k l : Nat} (hk : k < b) (hl : l < b) :
    n * b + k < m * b + l ↔ n < m ∨ n = m ∧ k < l := by
  rcases Nat.lt_trichotomy n m with less | rfl | more
  · have step : (n + 1) * b ≤ m * b := Nat.mul_le_mul_right b less
    rw [Nat.succ_mul] at step
    omega
  · omega
  · have step : (m + 1) * b ≤ n * b := Nat.mul_le_mul_right b more
    rw [Nat.succ_mul] at step
    omega

namespace ComparesAs

variable {xs ys us vs : List Char} {n m k l : Nat}

theorem append (h : ComparesAs xs ys n m) (h' : ComparesAs us vs k l) {b : Nat} (hk : k < b)
    (hl : l < b) : ComparesAs (xs ++ us) (ys ++ vs) (n * b + k) (m * b + l) where
  length := by rw [List.length_append, List.length_append, h.length, h'.length]
  lt_iff := by
    rw [append_lt_append_iff h.length, h.lt_iff, h.eq_iff, h'.lt_iff, mul_add_lt_iff hk hl]
  eq_iff := by
    have lt := mul_add_lt_iff (n := n) (m := m) hk hl
    have gt := mul_add_lt_iff (n := m) (m := n) hl hk
    rw [List.append_eq_append_iff_of_size_eq_left h.length, h.eq_iff, h'.eq_iff]
    omega

theorem cons (h : ComparesAs xs ys n m) (c : Char) : ComparesAs (c :: xs) (c :: ys) n m where
  length := congrArg Nat.succ h.length
  lt_iff := by simp [h.lt_iff]
  eq_iff := by simp [h.eq_iff]

theorem append_same (h : ComparesAs xs ys n m) (us : List Char) :
    ComparesAs (xs ++ us) (ys ++ us) n m where
  length := by rw [List.length_append, List.length_append, h.length]
  lt_iff := by
    rw [append_lt_append_iff h.length, h.lt_iff]
    exact or_iff_left fun both => List.lt_irrefl us both.2
  eq_iff := by simp [h.eq_iff]

end ComparesAs

theorem comparesAs_digit {n m : Nat} (hn : n < 10) (hm : m < 10) :
    ComparesAs [Char.ofNat (n + 48)] [Char.ofNat (m + 48)] n m := by
  have each : ∀ n < 10, ∀ m < 10,
      ([Char.ofNat (n + 48)] < [Char.ofNat (m + 48)] ↔ n < m) ∧
        ([Char.ofNat (n + 48)] = [Char.ofNat (m + 48)] ↔ n = m) := by
    decide
  exact ⟨rfl, (each n hn m hm).1, (each n hn m hm).2⟩

theorem comparesAs_lastDigits (width : Nat) {n m : Nat} (hn : n < Nat.pow 10 width)
    (hm : m < Nat.pow 10 width) : ComparesAs (lastDigits width n) (lastDigits width m) n m := by
  induction width generalizing n m with
  | zero =>
    obtain rfl := Nat.lt_one_iff.mp hn
    obtain rfl := Nat.lt_one_iff.mp hm
    exact ⟨rfl, by simp [lastDigits], by simp⟩
  | succ width ih =>
    rw [show Nat.pow 10 (width + 1) = Nat.pow 10 width * 10 from rfl] at hn hm
    have front := ih (Nat.div_lt_of_lt_mul (Nat.mul_comm _ _ ▸ hn))
      (Nat.div_lt_of_lt_mul (Nat.mul_comm _ _ ▸ hm))
    have last := comparesAs_digit (Nat.mod_lt n (by decide)) (Nat.mod_lt m (by decide))
    have whole := front.append last (Nat.mod_lt n (by decide)) (Nat.mod_lt m (by decide))
    rwa [Nat.div_add_mod', Nat.div_add_mod'] at whole

theorem comparesAs_padded {width bound : Nat} (size : Nat.pow 10 width = bound) {n m : Nat} (hn : n < bound)
    (hm : m < bound) : ComparesAs (padded width n) (padded width m) n m := by
  have plain : ∀ k, k < bound → padded width k = lastDigits width k := fun k hk => if_pos (size ▸ hk)
  rw [plain n hn, plain m hm]
  exact comparesAs_lastDigits width (size ▸ hn) (size ▸ hm)

theorem ComparesAs.twoDigits {xs ys : List Char} {n m k l : Nat} (h : ComparesAs xs ys n m) (c : Char)
    (hk : k < 100) (hl : l < 100) :
    ComparesAs (xs ++ c :: padded 2 k) (ys ++ c :: padded 2 l) (n * 100 + k) (m * 100 + l) :=
  h.append ((comparesAs_padded (show Nat.pow 10 2 = 100 from rfl) hk hl).cons c) hk hl

end InfraGraph.Text
