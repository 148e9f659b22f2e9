import InfraGraph.Text.Uuid

/-!
The grammar of UUID texts. A text counts as an identifier if it is made of groups of hexadecimal digits in
one of four ways; the checks in their order find just these.
-/

namespace InfraGraph.Text.Uuid

/-- Groups of hexadecimal digits of the given lengths, with one hyphen between groups. -/
inductive Grouped : List Nat → List Char → Prop
  | last {n : Nat} {digits : List Char} (length : digits.length = n) (hex : ∀ c ∈ digits, isHex c) :
      Grouped [n] digits
  | more {n m : Nat} {ns : List Nat} {digits rest : List Char} (length : digits.length = n)
      (hex : ∀ c ∈ digits, isHex c) (others : Grouped (m :: ns) rest) :
      Grouped (n :: m :: ns) (digits ++ '-' :: rest)

/-- The four spellings of a UUID. -/
inductive Spelled : List Char → Prop
  | simple {cs : List Char} (digits : Grouped [32] cs) : Spelled cs
  | hyphenated {cs : List Char} (groups : Grouped [8, 4, 4, 4, 12] cs) : Spelled cs
  | urn {label cs : List Char} (labelled : label.map Char.toLower = "urn:uuid:".toList)
      (groups : Grouped [8, 4, 4, 4, 12] cs) : Spelled (label ++ cs)
  | braced {cs : List Char} (groups : Grouped [8, 4, 4, 4, 12] cs) : Spelled ('\x7b' :: cs ++ ['\x7d'])

theorem isGrouped_iff {n : Nat} {ns : List Nat} {cs : List Char} :
    isGrouped (n :: ns) cs ↔ Grouped (n :: ns) cs := by
  induction ns generalizing n cs with
  | nil =>
    simp only [isGrouped, Bool.and_eq_true, beq_iff_eq, List.all_eq_true]
    exact ⟨fun ⟨length, hex⟩ => .last length hex, fun | .last length hex => ⟨length, hex⟩⟩
  | cons m ns ih =>
    constructor
    · intro h
      simp only [isGrouped, Bool.and_eq_true, beq_iff_eq, List.all_eq_true] at h
      obtain ⟨⟨length, hex⟩, others⟩ := h
      split at others
      · next rest tail =>
        rw [← List.take_append_drop n cs, tail]
        exact .more length hex (ih.mp others)
      · cases others
    · rintro (_ | ⟨length, hex, others⟩)
      subst length
      simp only [isGrouped, List.take_left, List.drop_left, beq_self_eq_true, Bool.true_and,
        Bool.and_eq_true, List.all_eq_true]
      exact ⟨hex, ih.mpr others⟩

theorem isUrn_iff {cs : List Char} : isUrn cs ↔
    ∃ label rest, cs = label ++ rest ∧ label.map Char.toLower = urnLabel ∧
      Grouped [8, 4, 4, 4, 12] rest := by
  simp only [isUrn, isHyphenated, Bool.and_eq_true, beq_iff_eq, isGrouped_iff]
  constructor
  · rintro ⟨labelled, groups⟩
    exact ⟨_, _, (List.take_append_drop _ cs).symm, labelled, groups⟩
  · rintro ⟨label, rest, rfl, labelled, groups⟩
    have length : label.length = urnLabel.length := by rw [← labelled, List.length_map]
    rw [← length, List.take_left, List.drop_left]
    exact ⟨labelled, groups⟩

theorem isBraced_iff {cs : List Char} : isBraced cs ↔
    ∃ rest, cs = '\x7b' :: rest ++ ['\x7d'] ∧ Grouped [8, 4, 4, 4, 12] rest := by
  constructor
  · intro h
    unfold isBraced at h
    split at h
    · next rest =>
      simp only [isHyphenated, Bool.and_eq_true, beq_iff_eq, isGrouped_iff] at h
      obtain ⟨closed, groups⟩ := h
      obtain ⟨inner, rfl⟩ := List.getLast?_eq_some_iff.mp closed
      rw [List.dropLast_concat] at groups
      exact ⟨inner, rfl, groups⟩
    · cases h
  · rintro ⟨rest, rfl, groups⟩
    simp [isBraced, isHyphenated, isGrouped_iff, groups]

theorem isUuid_iff {text : String} : isUuid text ↔ Spelled text.toList := by
  simp only [isUuid, Bool.or_eq_true, isSimple, isHyphenated, isGrouped_iff, isUrn_iff, isBraced_iff]
  constructor
  · rintro (((digits | groups) | ⟨label, rest, eq, labelled, groups⟩) | ⟨rest, eq, groups⟩)
    · exact .simple digits
    · exact .hyphenated groups
    · exact eq ▸ .urn labelled groups
    · exact eq ▸ .braced groups
  · generalize text.toList = cs
    rintro (digits | groups | ⟨labelled, groups⟩ | groups)
    · exact .inl (.inl (.inl digits))
    · exact .inl (.inl (.inr groups))
    · exact .inl (.inr ⟨_, _, rfl, labelled, groups⟩)
    · exact .inr ⟨_, rfl, groups⟩

end InfraGraph.Text.Uuid
