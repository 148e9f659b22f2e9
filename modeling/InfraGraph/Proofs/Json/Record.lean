import InfraGraph.Proofs.Json.Reading
import Mathlib.Data.List.Nodup

/-!
Records read from objects, by the values that the members of an object give to each key. A record is refused
when a known key is repeated, and beyond that a field only depends on the one value of its key or on its
absence: neither the order of the members nor unknown ones matter.
-/

namespace InfraGraph.Json

def valuesAt {α : Type} (key : String) (members : List (String × α)) : List α :=
  (members.filter (·.1 = key)).map (·.2)

section

variable {α : Type} (key : String) (name : String) (a : α) (members : List (String × α))

theorem valuesAt_cons : valuesAt key ((name, a) :: members) =
    if name = key then a :: valuesAt key members else valuesAt key members := by
  by_cases here : name = key <;> simp [valuesAt, here]

theorem lookup_eq_head? : members.lookup key = (valuesAt key members).head? := by
  induction members with
  | nil => rfl
  | cons m members ih =>
    obtain ⟨name, a⟩ := m
    rw [valuesAt_cons, List.lookup_cons]
    by_cases here : name = key
    · simp [here]
    · have other : (key == name) = false := beq_false_of_ne (Ne.symm here)
      rw [if_neg here, other]
      exact ih

theorem length_valuesAt : (valuesAt key members).length = (members.map (·.1)).count key := by
  induction members with
  | nil => rfl
  | cons m members ih =>
    obtain ⟨name, a⟩ := m
    rw [valuesAt_cons, List.map_cons, List.count_cons, ← ih]
    by_cases here : name = key <;> simp [here]

theorem valuesAt_filter {p : String → Bool} {key : String} (kept : p key = true) :
    valuesAt key (members.filter fun m => p m.1) = valuesAt key members := by
  have same : ∀ m : String × α, (decide (m.1 = key) && p m.1) = decide (m.1 = key) := by
    intro m
    by_cases here : m.1 = key <;> simp [here, kept]
  simp only [valuesAt, List.filter_filter, same]

end

namespace Document

def Means (docs : List (String × Document)) (ms : List (String × Value)) : Prop :=
  List.Forall₂ (fun m m' => m.1 = m'.1 ∧ m.2.value? = some m'.2) docs ms

theorem means_of_pairs? {members : List (List UInt8 × Document)} {ms : List (String × Value)}
    (pairs : pairs? members = some ms) : ∃ docs, members? members = some docs ∧ Means docs ms := by
  induction members generalizing ms with
  | nil =>
    cases pairs
    exact ⟨[], rfl, .nil⟩
  | cons m members ih =>
    obtain ⟨raw, d⟩ := m
    simp only [pairs?, Option.bind_eq_bind, Option.bind_eq_some_iff, Option.some.injEq] at pairs
    obtain ⟨key, decoded, v, value, more, rest, rfl⟩ := pairs
    obtain ⟨docs, read, means⟩ := ih rest
    exact ⟨(key, d) :: docs, by simp [members?, decoded, read], .cons ⟨rfl, value⟩ means⟩

theorem Means.valuesAt {docs : List (String × Document)} {ms : List (String × Value)} (means : Means docs ms)
    (key : String) : List.Forall₂ (fun d v => d.value? = some v) (valuesAt key docs) (valuesAt key ms) := by
  induction means with
  | nil => exact .nil
  | @cons m m' _ _ first _ ih =>
    obtain ⟨name, d⟩ := m
    obtain ⟨name', v⟩ := m'
    obtain ⟨rfl, value⟩ := first
    rw [valuesAt_cons, valuesAt_cons]
    split
    · exact .cons value ih
    · exact ih

variable {names : List String} {members : List (List UInt8 × Document)} {docs : List (String × Document)}

theorem known_nodup_iff :
    ((known names docs).map (·.1)).Nodup ↔ ∀ key ∈ names, (Json.valuesAt key docs).length ≤ 1 := by
  rw [List.nodup_iff_count_le_one]
  constructor
  · intro once key mem
    have here := once key
    rwa [← length_valuesAt, known, valuesAt_filter _ (List.contains_iff_mem.mpr mem)] at here
  · intro once key
    by_cases mem : key ∈ names
    · rw [← length_valuesAt, known, valuesAt_filter _ (List.contains_iff_mem.mpr mem)]
      exact once key mem
    · have none : key ∉ (known names docs).map (·.1) := by
        simp [known, mem]
      rw [List.count_eq_zero.mpr none]
      exact Nat.zero_le 1

/-- An object is a record when no known key is repeated, and each field is what the members give to its key. -/
theorem fields?_object (read : members? members = some docs) :
    fields? names .complete (.object members) =
      if ∀ key ∈ names, (Json.valuesAt key docs).length ≤ 1 then
        some (names.map fun key => (Json.valuesAt key docs).head?)
      else none := by
  have same : names.map (fun key => (known names docs).lookup key) =
      names.map fun key => (Json.valuesAt key docs).head? := by
    refine List.map_congr_left fun key mem => ?_
    rw [lookup_eq_head?, known, valuesAt_filter _ (List.contains_iff_mem.mpr mem)]
  simp only [fields?, read, Option.bind_eq_bind, Option.bind_some, known_nodup_iff, same]

/-! Fields of the types that records have. -/

inductive Kinds : Document → Value → Prop
  | null : Kinds .null .null
  | bool (b : Bool) : Kinds (.bool b) (.bool b)
  | number (lexeme : List UInt8) : Kinds (.number lexeme) (.number lexeme)
  | string {raw : List UInt8} {text : String} (decoded : Quoted.decode raw = some text) :
      Kinds (.string raw) (.string text)
  | array (ds : List Document) (vs : List Value) : Kinds (.array ds) (.array vs)
  | object {members : List (List UInt8 × Document)} {ms : List (String × Value)}
      (pairs : pairs? members = some ms) : Kinds (.object members) (.object ms)

variable {d : Document} {v : Value}

theorem kinds_of_value? (means : d.value? = some v) : Kinds d v := by
  cases d with
  | null => cases means; exact .null
  | bool b => cases means; exact .bool b
  | number lexeme => cases means; exact .number lexeme
  | string raw =>
    obtain ⟨text, decoded, rfl⟩ := Option.map_eq_some_iff.mp means
    exact .string decoded
  | array ds =>
    obtain ⟨vs, -, rfl⟩ := Option.map_eq_some_iff.mp means
    exact .array ds vs
  | object members =>
    obtain ⟨ms, pairs, rfl⟩ := Option.map_eq_some_iff.mp means
    exact .object pairs

theorem text?_eq_some_iff (means : d.value? = some v) (text : String) :
    d.text? = some text ↔ v = .string text := by
  cases kinds_of_value? means with
  | string decoded => simp [text?, decoded]
  | _ => simp [text?]

theorem bool?_eq_some_iff (means : d.value? = some v) (flag : Bool) :
    d.bool? = some flag ↔ v = .bool flag := by
  cases kinds_of_value? means <;> simp [bool?]

theorem eq_null_iff (means : d.value? = some v) : d = .null ↔ v = .null := by
  cases kinds_of_value? means <;> simp

variable {ds : List Document} {vs : List Value} (means : List.Forall₂ (fun d v => d.value? = some v) ds vs)
  (once : ds.length ≤ 1)

include means once

theorem only_cases : ds = [] ∧ vs = [] ∨ ∃ d v, ds = [d] ∧ vs = [v] ∧ d.value? = some v := by
  cases means with
  | nil => exact .inl ⟨rfl, rfl⟩
  | @cons d v _ _ first rest =>
    cases rest with
    | nil => exact .inr ⟨d, v, rfl, rfl, first⟩
    | cons _ _ => exact absurd once (by simp)

theorem required_iff {α : Type} {read : Document → Option α} {say : α → Value}
    (reads : ∀ {d v}, d.value? = some v → ∀ a, read d = some a ↔ v = say a) (a : α) :
    required? read ds.head? = some a ↔ vs = [say a] := by
  obtain ⟨rfl, rfl⟩ | ⟨d, v, rfl, rfl, value⟩ := only_cases means once
  · simp [required?]
  · simpa [required?] using reads value a

theorem optional_text_iff (o : Option String) : optional? text? ds.head? = some o ↔
    vs = o.toList.map .string ∨ o = none ∧ vs = [.null] := by
  obtain ⟨rfl, rfl⟩ | ⟨d, v, rfl, rfl, value⟩ := only_cases means once
  · cases o <;> simp [optional?]
  · have null := eq_null_iff value
    have text := text?_eq_some_iff value
    cases kinds_of_value? value <;> cases o <;> simp_all [optional?]

end Document

end InfraGraph.Json
