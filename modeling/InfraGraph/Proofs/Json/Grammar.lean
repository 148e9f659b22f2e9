import InfraGraph.Text.Utf8

/-!
JSON texts by their grammar. A phrase of JSON is written as bytes by rules, and the rules say at the same time
what the bytes mean: strings and keys are the texts that are meant, whichever way their characters are written,
and blanks around values mean nothing. Nothing here says how a text is read.
-/

namespace InfraGraph.Json

open Text

/-- What a JSON text says. A number stays as it is written, and an object keeps all its members in order. -/
inductive Value
  | null
  | bool (value : Bool)
  | number (lexeme : List UInt8)
  | string (text : String)
  | array (items : List Value)
  | object (members : List (String × Value))

namespace Grammar

def Blanks (bs : List UInt8) : Prop :=
  ∀ b ∈ bs, b = 32 ∨ b = 9 ∨ b = 10 ∨ b = 13

def Digits (bs : List UInt8) : Prop :=
  ∀ b ∈ bs, 48 ≤ b ∧ b ≤ 57

inductive Whole : List UInt8 → Prop
  | zero : Whole [48]
  | digits {b : UInt8} {bs : List UInt8} (first : 49 ≤ b ∧ b ≤ 57) (more : Digits bs) : Whole (b :: bs)

inductive Fraction : List UInt8 → Prop
  | absent : Fraction []
  | digits {bs : List UInt8} (some : bs ≠ []) (all : Digits bs) : Fraction (46 :: bs)

/-- An `e` of either case, a sign or none, and at least one digit, or nothing. -/
inductive Exponent : List UInt8 → Prop
  | absent : Exponent []
  | digits {e : UInt8} {sign bs : List UInt8} (letter : e = 101 ∨ e = 69)
      (signed : sign = [] ∨ sign = [43] ∨ sign = [45]) (some : bs ≠ []) (all : Digits bs) :
      Exponent (e :: (sign ++ bs))

inductive Number : List UInt8 → Prop
  | mk {minus whole fraction exponent : List UInt8} (signed : minus = [] ∨ minus = [45])
      (isWhole : Whole whole) (isFraction : Fraction fraction) (isExponent : Exponent exponent) :
      Number (minus ++ (whole ++ (fraction ++ exponent)))

inductive Hex : UInt8 → Nat → Prop
  | digit {n : Nat} (small : n < 10) : Hex (UInt8.ofNat (48 + n)) n
  | upper {n : Nat} (small : n < 6) : Hex (UInt8.ofNat (65 + n)) (10 + n)
  | lower {n : Nat} (small : n < 6) : Hex (UInt8.ofNat (97 + n)) (10 + n)

inductive CodeUnit : List UInt8 → Nat → Prop
  | mk {a b c d : UInt8} {k l m n : Nat} (first : Hex a k) (second : Hex b l) (third : Hex c m)
      (fourth : Hex d n) : CodeUnit [92, 117, a, b, c, d] (((k * 16 + l) * 16 + m) * 16 + n)

def letters : List (UInt8 × Char) :=
  [(34, '"'), (92, '\\'), (47, '/'), (98, '\x08'), (102, '\x0c'), (110, '\n'), (114, '\r'), (116, '\t')]

/-- A character of a string: as it is, unless it is a quote, a backslash or a control character, or by a letter,
or by its number, or by the two surrogates of its number. -/
inductive Character (c : Char) : List UInt8 → Prop
  | plain (shown : 32 ≤ c.toNat) (quote : c ≠ '"') (backslash : c ≠ '\\') :
      Character c (String.utf8EncodeChar c)
  | letter {e : UInt8} (stands : (e, c) ∈ letters) : Character c [92, e]
  | unit {bs : List UInt8} (meant : CodeUnit bs c.toNat) : Character c bs
  | surrogates {high low : List UInt8} {u v : Nat} (first : CodeUnit high u) (second : CodeUnit low v)
      (isHigh : 0xD800 ≤ u ∧ u < 0xDC00) (isLow : 0xDC00 ≤ v ∧ v < 0xE000)
      (meant : c.toNat = 0x10000 + (u - 0xD800) * 0x400 + (v - 0xDC00)) : Character c (high ++ low)

inductive Characters : List Char → List UInt8 → Prop
  | nil : Characters [] []
  | cons {c : Char} {cs : List Char} {bs more : List UInt8} (first : Character c bs)
      (rest : Characters cs more) : Characters (c :: cs) (bs ++ more)

inductive Quotation (text : String) : List UInt8 → Prop
  | mk {bs : List UInt8} (inside : Characters text.toList bs) : Quotation text ([34] ++ bs ++ [34])

theorem Characters.plain {cs : List Char} (ordinary : ∀ c ∈ cs, 32 ≤ c.toNat ∧ c ≠ '"' ∧ c ≠ '\\') :
    Characters cs (cs.flatMap String.utf8EncodeChar) := by
  induction cs with
  | nil => exact .nil
  | cons c cs ih =>
    obtain ⟨shown, quote, backslash⟩ := ordinary c List.mem_cons_self
    exact .cons (.plain shown quote backslash) (ih fun d mem => ordinary d (List.mem_cons_of_mem _ mem))

end Grammar

/-- What is written as a whole: a value, the items of an array with their commas, a member of an object, and the
members of an object with their commas. -/
inductive Phrase
  | value (v : Value)
  | items (vs : List Value)
  | member (key : String) (v : Value)
  | members (ms : List (String × Value))

open Grammar in
inductive Written : Phrase → List UInt8 → Prop
  | null : Written (.value .null) (utf8 "null")
  | isFalse : Written (.value (.bool false)) (utf8 "false")
  | isTrue : Written (.value (.bool true)) (utf8 "true")
  | number {bs : List UInt8} (form : Number bs) : Written (.value (.number bs)) bs
  | string {text : String} {bs : List UInt8} (quotation : Quotation text bs) :
      Written (.value (.string text)) bs
  | noItems {bs : List UInt8} (blank : Blanks bs) : Written (.value (.array [])) ([91] ++ bs ++ [93])
  | array {vs : List Value} {bs : List UInt8} (items : Written (.items vs) bs) :
      Written (.value (.array vs)) ([91] ++ bs ++ [93])
  | noMembers {bs : List UInt8} (blank : Blanks bs) : Written (.value (.object [])) ([123] ++ bs ++ [125])
  | object {ms : List (String × Value)} {bs : List UInt8} (members : Written (.members ms) bs) :
      Written (.value (.object ms)) ([123] ++ bs ++ [125])
  | blanks {v : Value} {before bs after : List UInt8} (front : Blanks before)
      (value : Written (.value v) bs) (back : Blanks after) : Written (.value v) (before ++ bs ++ after)
  | lastItem {v : Value} {bs : List UInt8} (item : Written (.value v) bs) : Written (.items [v]) bs
  | item {v : Value} {vs : List Value} {bs more : List UInt8} (first : Written (.value v) bs)
      (rest : Written (.items vs) more) : Written (.items (v :: vs)) (bs ++ [44] ++ more)
  | member {key : String} {v : Value} {before quoted after bs : List UInt8} (front : Blanks before)
      (quotation : Quotation key quoted) (back : Blanks after) (value : Written (.value v) bs) :
      Written (.member key v) (before ++ quoted ++ after ++ [58] ++ bs)
  | lastMember {key : String} {v : Value} {bs : List UInt8} (member : Written (.member key v) bs) :
      Written (.members [(key, v)]) bs
  | nextMember {key : String} {v : Value} {ms : List (String × Value)} {bs more : List UInt8}
      (first : Written (.member key v) bs) (rest : Written (.members ms) more) :
      Written (.members ((key, v) :: ms)) (bs ++ [44] ++ more)

end InfraGraph.Json
