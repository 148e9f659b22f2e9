import InfraGraph.Proofs.Json.Grammar
import InfraGraph.Proofs.Json.Quoted

/-!
Phrases of JSON scanned to tokens. Blanks are passed over, a word or a number is one token when something else
follows, and a string is one token that decodes to the text that is meant.
-/

namespace InfraGraph.Json

open Text Grammar

namespace Token

/-- Bytes that are scanned to tokens, of which the last one may be a word that could still go on. -/
inductive Scans : List UInt8 → List Token → Prop
  | done {bs : List UInt8} {ts : List Token} (all : read .between bs = some (ts, .between)) : Scans bs ts
  | pending {bs word : List UInt8} {ts : List Token} {t : Token}
      (front : read .between bs = some (ts, .word word)) (last : ofWord? word.reverse = some t) :
      Scans bs (ts ++ [t])

theorem start_blank {b : UInt8} (blank : b = 32 ∨ b = 9 ∨ b = 10 ∨ b = 13) :
    Mode.start b = some ([], .between) ∧ isWord b = false := by
  rcases blank with rfl | rfl | rfl | rfl <;> decide

theorem read_blanks {bs : List UInt8} (blank : Blanks bs) : read .between bs = some ([], .between) := by
  induction bs with
  | nil => rfl
  | cons b bs ih =>
    obtain ⟨start, -⟩ := start_blank (blank b List.mem_cons_self)
    have rest := ih fun c mem => blank c (List.mem_cons_of_mem _ mem)
    simp [read, Mode.next, start, rest]

theorem next_word {word : List UInt8} {t : Token} (last : ofWord? word.reverse = some t) {b : UInt8}
    (other : isWord b = false) {ts : List Token} {mode : Mode} (start : Mode.start b = some (ts, mode)) :
    Mode.next (.word word) b = some (t :: ts, mode) := by
  simp [Mode.next, other, last, start]

namespace Scans

variable {bs cs : List UInt8} {ts us : List Token}

theorem after (first : read .between bs = some (ts, .between)) (second : Scans cs us) :
    Scans (bs ++ cs) (ts ++ us) := by
  cases second with
  | done all => exact .done (read_append first all)
  | pending front last =>
    rw [← List.append_assoc]
    exact .pending (read_append first front) last

theorem blanks (first : Scans bs ts) (blank : Blanks cs) : Scans (bs ++ cs) ts := by
  cases first with
  | done all =>
    have whole := read_append all (read_blanks blank)
    rw [List.append_nil] at whole
    exact .done whole
  | @pending word _ u front last =>
    cases cs with
    | nil =>
      rw [List.append_nil]
      exact .pending front last
    | cons b cs =>
      obtain ⟨start, other⟩ := start_blank (blank b List.mem_cons_self)
      have next := next_word last other start
      have rest := read_blanks fun c mem => blank c (List.mem_cons_of_mem _ mem)
      have ended : read (.word word) (b :: cs) = some ([u], .between) := by simp [read, next, rest]
      exact .done (read_append front ended)

theorem mark (first : Scans bs ts) {b : UInt8} {t : Token} (other : isWord b = false)
    (start : Mode.start b = some ([t], .between)) :
    read .between (bs ++ [b]) = some (ts ++ [t], .between) := by
  cases first with
  | done all =>
    have last : read .between [b] = some ([t], .between) := by simp [read, Mode.next, start]
    exact read_append all last
  | @pending word _ u front last =>
    have next := next_word last other start
    have ended : read (.word word) [b] = some ([u, t], .between) := by simp [read, next]
    have whole := read_append front ended
    rwa [List.append_assoc]

theorem enclosed (inside : Scans bs ts) {o c : UInt8} {l r : Token}
    (opens : Mode.start o = some ([l], .between)) (other : isWord c = false)
    (closes : Mode.start c = some ([r], .between)) :
    Scans ([o] ++ bs ++ [c]) ([l] ++ ts ++ [r]) := by
  have first : read .between [o] = some ([l], .between) := by simp [read, Mode.next, opens]
  exact .done (mark (.after first inside) other closes)

theorem scan (whole : Scans bs ts) : Token.scan bs = some ts := by
  cases whole with
  | done all =>
    have finish : Mode.between.finish = some [] := rfl
    have scanned := scanFrom_of_read all finish
    rwa [List.append_nil] at scanned
  | pending front last => exact scanFrom_of_read front (by simp [Mode.finish, last])

end Scans

/-! Words and numbers. -/

theorem start_word {b : UInt8} (h : isWord b = true) : Mode.start b = some ([], .word [b]) := by
  have all : ∀ n < 256, isWord (UInt8.ofNat n) = true →
      Mode.start (UInt8.ofNat n) = some ([], .word [UInt8.ofNat n]) := by
    decide +kernel
  have here := all b.toNat b.toNat_lt
  rw [UInt8.ofNat_toNat] at here
  exact here h

theorem read_word {bs : List UInt8} (all : ∀ b ∈ bs, isWord b = true) (text : List UInt8) :
    read (.word text) bs = some ([], .word (bs.reverse ++ text)) := by
  induction bs generalizing text with
  | nil => rfl
  | cons b bs ih =>
    have rest := ih (fun c mem => all c (List.mem_cons_of_mem _ mem)) (b :: text)
    simp [read, Mode.next, all b List.mem_cons_self, rest]

theorem scans_word {bs : List UInt8} {t : Token} (some : bs ≠ []) (all : ∀ b ∈ bs, isWord b = true)
    (word : ofWord? bs = .some t) : Scans bs [t] := by
  cases bs with
  | nil => exact absurd rfl some
  | cons b bs =>
    have rest := read_word (fun c mem => all c (List.mem_cons_of_mem _ mem)) [b]
    have front : read .between (b :: bs) = .some ([], .word (bs.reverse ++ [b])) := by
      simp [read, Mode.next, start_word (all b List.mem_cons_self), rest]
    exact .pending front (by simpa using word)

theorem isDigit_of {b : UInt8} (h : 48 ≤ b ∧ b ≤ 57) : isDigit b = true := by
  simp [isDigit, h]

theorem span_digits {ds rest : List UInt8} (all : Digits ds)
    (stop : ∀ b, rest.head? = some b → isDigit b = false) :
    (ds ++ rest).takeWhile isDigit = ds ∧ (ds ++ rest).dropWhile isDigit = rest := by
  have digits : ∀ b ∈ ds, isDigit b = true := fun b mem => isDigit_of (all b mem)
  rw [List.takeWhile_append_of_pos digits, List.dropWhile_append_of_pos digits]
  cases rest with
  | nil => simp
  | cons b rest => simp [stop b rfl]

theorem isDigits_of {ds : List UInt8} (some : ds ≠ []) (all : Digits ds) : isDigits ds = true := by
  have digits : ∀ b ∈ ds, isDigit b = true := fun b mem => isDigit_of (all b mem)
  simpa [isDigits, some] using digits

theorem isExponent_of {bs : List UInt8} (h : Exponent bs) :
    isExponent bs = true ∧ ∀ b, bs.head? = some b → isDigit b = false ∧ b ≠ 46 := by
  cases h with
  | absent => exact ⟨rfl, nofun⟩
  | @digits e sign ds letter signed some all =>
    have whole := isDigits_of some all
    refine ⟨?_, ?_⟩
    · cases ds with
      | nil => exact absurd rfl some
      | cons d ds =>
        have digit := all d List.mem_cons_self
        have plus : d ≠ 43 := by rintro rfl; exact absurd digit (by decide)
        have minus : d ≠ 45 := by rintro rfl; exact absurd digit (by decide)
        rcases letter with rfl | rfl <;> rcases signed with rfl | rfl | rfl <;>
          simp [isExponent, whole, plus, minus]
    · rintro b here
      cases here
      rcases letter with rfl | rfl <;> decide

theorem isFraction_of {bs cs : List UInt8} (h : Fraction bs) (h' : Exponent cs) :
    isFraction (bs ++ cs) = true ∧ ∀ b, (bs ++ cs).head? = some b → isDigit b = false := by
  obtain ⟨exponent, head⟩ := isExponent_of h'
  cases h with
  | absent =>
    refine ⟨?_, fun b here => (head b here).1⟩
    rw [List.nil_append]
    cases cs with
    | nil => rfl
    | cons c cs =>
      have point := (head c rfl).2
      simpa [isFraction, point] using exponent
  | digits some all =>
    obtain ⟨take, drop⟩ := span_digits all fun b here => (head b here).1
    refine ⟨?_, ?_⟩
    · simp [isFraction, take, drop, isDigits_of some all, exponent]
    · rintro b here
      cases here
      rfl

theorem isNatural_of {bs : List UInt8} (h : Whole bs) :
    isNatural bs = true ∧ Digits bs ∧ ∃ b rest, bs = b :: rest ∧ 48 ≤ b ∧ b ≤ 57 := by
  cases h with
  | zero => exact ⟨rfl, List.forall_mem_singleton.mpr (by decide), 48, [], rfl, by decide⟩
  | @digits b bs first more =>
    have digit : 48 ≤ b ∧ b ≤ 57 := ⟨UInt8.le_trans (by decide) first.1, first.2⟩
    have nonzero : b ≠ 48 := by rintro rfl; exact absurd first.1 (by decide)
    refine ⟨?_, List.forall_mem_cons.mpr ⟨digit, more⟩, b, bs, rfl, digit⟩
    cases bs with
    | nil => exact isDigit_of digit
    | cons c bs =>
      have digits : ∀ d ∈ c :: bs, isDigit d = true := fun d mem => isDigit_of (more d mem)
      simpa [isNatural, nonzero, isDigit_of digit] using digits

/-- A number by the grammar is one by the scanner. -/
theorem isNumber_of {bs : List UInt8} (h : Number bs) : isNumber bs = true := by
  cases h with
  | @mk minus whole fraction exponent signed isWhole isFraction isExponent =>
    obtain ⟨natural, digits, b, rest, rfl, digit⟩ := isNatural_of isWhole
    obtain ⟨tail, stop⟩ := isFraction_of isFraction isExponent
    obtain ⟨take, drop⟩ := span_digits digits stop
    have positive : b ≠ 45 := by rintro rfl; exact absurd digit (by decide)
    have unsigned : dropMinus (minus ++ (b :: rest ++ (fraction ++ exponent))) =
        b :: rest ++ (fraction ++ exponent) := by
      rcases signed with rfl | rfl
      · simp [dropMinus, positive]
      · rfl
    simp only [isNumber, unsigned, take, drop, natural, tail, Bool.and_self]

theorem head_of_number {b : UInt8} {bs : List UInt8} (h : Number (b :: bs)) :
    b = 45 ∨ 48 ≤ b ∧ b ≤ 57 := by
  generalize same : b :: bs = cs at h
  cases h with
  | mk signed isWhole _ _ =>
    obtain ⟨-, -, d, rest, rfl, digit⟩ := isNatural_of isWhole
    rcases signed with rfl | rfl
    · cases same
      exact .inr digit
    · cases same
      exact .inl rfl

theorem ofWord?_of_number {bs : List UInt8} (h : Number bs) : ofWord? bs = some (.number bs) := by
  have other : ∀ {w : UInt8} {word : List UInt8}, ¬ (w = 45 ∨ 48 ≤ w ∧ w ≤ 57) → bs ≠ w :: word := by
    rintro w word letter rfl
    exact letter (head_of_number h)
  have null : bs ≠ "null".toUTF8.data.toList := other (w := 110) (by decide)
  have isTrue : bs ≠ "true".toUTF8.data.toList := other (w := 116) (by decide)
  have isFalse : bs ≠ "false".toUTF8.data.toList := other (w := 102) (by decide)
  rw [ofWord?, if_neg null, if_neg isTrue, if_neg isFalse, if_pos (isNumber_of h)]

theorem isWord_of_digits {ds : List UInt8} (all : Digits ds) : ∀ b ∈ ds, isWord b = true := by
  intro b mem
  simp [isWord, isDigit_of (all b mem)]

theorem isWord_of_number {bs : List UInt8} (h : Number bs) : ∀ b ∈ bs, isWord b = true := by
  cases h with
  | mk signed isWhole isFraction isExponent =>
    simp only [List.forall_mem_append]
    refine ⟨?_, isWord_of_digits (isNatural_of isWhole).2.1, ?_, ?_⟩
    · rcases signed with rfl | rfl
      · exact nofun
      · exact List.forall_mem_singleton.mpr rfl
    · cases isFraction with
      | absent => exact nofun
      | digits _ all => exact List.forall_mem_cons.mpr ⟨rfl, isWord_of_digits all⟩
    · cases isExponent with
      | absent => exact nofun
      | digits letter signed _ all =>
        refine List.forall_mem_cons.mpr ⟨?_, List.forall_mem_append.mpr ⟨?_, isWord_of_digits all⟩⟩
        · rcases letter with rfl | rfl <;> rfl
        · rcases signed with rfl | rfl | rfl
          · exact nofun
          · exact List.forall_mem_singleton.mpr rfl
          · exact List.forall_mem_singleton.mpr rfl

theorem scans_number {bs : List UInt8} (h : Number bs) : Scans bs [.number bs] := by
  have some : bs ≠ [] := by
    rintro rfl
    exact absurd (ofWord?_of_number h) (by decide)
  exact scans_word some (isWord_of_number h) (ofWord?_of_number h)

end Token

end InfraGraph.Json
