import InfraGraph.Activity.Detail
import InfraGraph.Proofs.Json.Record

/-!
What the details of an event are decoded to. A shape asks for fields by their keys, and a text of JSON has
details of the shape exactly when each field finds what it asks for among the values of its key. So details
are decoded as a whole or not at all, and neither the order of the members nor unknown ones make a difference.
-/

namespace InfraGraph.Detail

open Json (Document Value Written valuesAt valuesAt_filter)
open Json.Grammar (Blanks CodeUnit Characters Quotation)
open Json.Document (text? bool? required? optional?)

def Shape.table : List (ActivityAction × TargetType × Shape) :=
  [(.createMembership, .group, createMembership),
   (.createMembership, .workspace, createMembership),
   (.removeMembership, .group, removeMembership),
   (.removeMembership, .workspace, removeMembership),
   (.update, .namespaceMembership, updateMembership),
   (.deleteChildResource, .group, deleteChildResource),
   (.deleteChildResource, .workspace, deleteChildResource),
   (.update, .team, updateTeam),
   (.migrate, .group, migrate),
   (.migrate, .workspace, migrate)]

theorem Shape.of?_eq_some_iff {action : ActivityAction} {target : TargetType} {s : Shape} :
    of? action target = some s ↔ (action, target, s) ∈ table := by
  cases action <;> cases target <;> simp [of?, table, eq_comm]

inductive FieldType
  | text
  | flag
  | optionalText

/-- A required field occurs once with a value of its type, an optional one at most once with a string or
null. -/
def FieldType.Fits : FieldType → List Value → Prop
  | text, vs => ∃ t, vs = [.string t]
  | flag, vs => ∃ b, vs = [.bool b]
  | optionalText, vs => vs = [] ∨ vs = [.null] ∨ ∃ t, vs = [.string t]

def Shape.schema : Shape → List (String × FieldType)
  | createMembership =>
      [("userId", .optionalText), ("serviceAccountId", .optionalText), ("teamId", .optionalText),
       ("role", .text)]
  | removeMembership =>
      [("userId", .optionalText), ("serviceAccountId", .optionalText), ("teamId", .optionalText)]
  | updateMembership => [("prevRole", .text), ("newRole", .text)]
  | deleteChildResource => [("name", .text), ("id", .text), ("type", .text)]
  | updateTeam => [("userId", .text), ("changeType", .text), ("maintainer", .flag)]
  | migrate => [("previousGroupPath", .text)]

def Shape.Fits (s : Shape) (ms : List (String × Value)) : Prop :=
  ∀ f ∈ s.schema, f.2.Fits (valuesAt f.1 ms)

inductive Entry
  | text (t : String)
  | flag (b : Bool)
  | optionalText (o : Option String)

namespace Entry

def type : Entry → FieldType
  | text _ => .text
  | flag _ => .flag
  | optionalText _ => .optionalText

/-- The one value of the key; an optional field without text has no value, or null. -/
def Holds : Entry → List Value → Prop
  | text t, vs => vs = [.string t]
  | flag b, vs => vs = [.bool b]
  | optionalText (some t), vs => vs = [.string t]
  | optionalText none, vs => vs = [] ∨ vs = [.null]

def Reads : Entry → Option Document → Prop
  | text t, found => required? text? found = some t
  | flag b, found => required? bool? found = some b
  | optionalText o, found => optional? text? found = some o

end Entry

def entries : Detail → List (String × Entry)
  | createMembership user account team role =>
      [("userId", .optionalText user), ("serviceAccountId", .optionalText account),
       ("teamId", .optionalText team), ("role", .text role)]
  | removeMembership user account team =>
      [("userId", .optionalText user), ("serviceAccountId", .optionalText account),
       ("teamId", .optionalText team)]
  | updateMembership prev new => [("prevRole", .text prev), ("newRole", .text new)]
  | deleteChildResource name id type => [("name", .text name), ("id", .text id), ("type", .text type)]
  | updateTeam user change maintainer =>
      [("userId", .text user), ("changeType", .text change), ("maintainer", .flag maintainer)]
  | migrate path => [("previousGroupPath", .text path)]

def Holds (d : Detail) (ms : List (String × Value)) : Prop :=
  ∀ e ∈ d.entries, e.2.Holds (valuesAt e.1 ms)

theorem entries_types (d : Detail) : d.entries.map (fun e => (e.1, e.2.type)) = d.shape.schema := by
  cases d <;> rfl

theorem Shape.schema_keys (s : Shape) : s.schema.map (·.1) = s.fields := by
  cases s <;> rfl

theorem entries_keys (d : Detail) : d.entries.map (·.1) = d.shape.fields := by
  rw [← Shape.schema_keys, ← entries_types, List.map_map]
  rfl

namespace Entry

variable {e : Entry} {vs : List Value}

theorem Holds.length_le (holds : e.Holds vs) : vs.length ≤ 1 := by
  cases e with
  | text t => exact Nat.le_of_eq (congrArg List.length holds)
  | flag b => exact Nat.le_of_eq (congrArg List.length holds)
  | optionalText o =>
    cases o with
    | none => rcases holds with rfl | rfl <;> simp
    | some t => exact Nat.le_of_eq (congrArg List.length holds)

theorem Holds.perm (holds : e.Holds vs) {vs' : List Value} (same : vs'.Perm vs) : e.Holds vs' := by
  have one := holds.length_le
  cases vs with
  | nil => rwa [same.eq_nil]
  | cons v rest =>
    cases rest with
    | nil => rwa [List.perm_singleton.mp same]
    | cons _ _ => exact absurd one (by simp)

theorem reads_iff {ds : List Document} (means : List.Forall₂ (fun d v => d.value? = some v) ds vs)
    (once : ds.length ≤ 1) : e.Reads ds.head? ↔ e.Holds vs := by
  cases e with
  | text t => exact Document.required_iff means once Document.text?_eq_some_iff t
  | flag b => exact Document.required_iff means once Document.bool?_eq_some_iff b
  | optionalText o =>
    rw [Reads, Document.optional_text_iff means once]
    cases o <;> simp [Holds]

end Entry

theorem FieldType.exists_optional {vs : List Value} (fits : optionalText.Fits vs) :
    ∃ o, (Entry.optionalText o).Holds vs := by
  obtain absent | null | ⟨t, only⟩ := fits
  · exact ⟨none, .inl absent⟩
  · exact ⟨none, .inr null⟩
  · exact ⟨some t, only⟩

theorem FieldType.fits_iff {f : FieldType} {vs : List Value} :
    f.Fits vs ↔ ∃ e : Entry, e.type = f ∧ e.Holds vs := by
  constructor
  · intro fits
    cases f with
    | text =>
      obtain ⟨t, only⟩ := fits
      exact ⟨.text t, rfl, only⟩
    | flag =>
      obtain ⟨b, only⟩ := fits
      exact ⟨.flag b, rfl, only⟩
    | optionalText =>
      obtain ⟨o, holds⟩ := exists_optional fits
      exact ⟨.optionalText o, rfl, holds⟩
  · rintro ⟨e, rfl, holds⟩
    cases e with
    | text t => exact ⟨t, holds⟩
    | flag b => exact ⟨b, holds⟩
    | optionalText o =>
      cases o with
      | none => exact holds.imp_right .inl
      | some t => exact .inr (.inr ⟨t, holds⟩)

theorem ofFields?_eq_some_iff {s : Shape} {d : Detail} {found : String → Option Document} :
    ofFields? s (s.fields.map found) = some d ↔ d.shape = s ∧ ∀ e ∈ d.entries, e.2.Reads (found e.1) := by
  cases s <;> cases d <;>
    simp [Shape.fields, ofFields?, shape, entries, Entry.Reads, Option.bind_eq_some_iff, -Bool.exists_bool]

section

variable {s : Shape} {ms : List (String × Value)}

theorem Shape.Fits.exists_detail (fits : s.Fits ms) : ∃ d : Detail, d.shape = s ∧ d.Holds ms := by
  unfold Shape.Fits at fits
  unfold Detail.Holds
  cases s <;> simp only [Shape.schema, List.forall_mem_cons] at fits
  case createMembership =>
    obtain ⟨user, account, team, ⟨role, isRole⟩, -⟩ := fits
    obtain ⟨user, isUser⟩ := FieldType.exists_optional user
    obtain ⟨account, isAccount⟩ := FieldType.exists_optional account
    obtain ⟨team, isTeam⟩ := FieldType.exists_optional team
    refine ⟨.createMembership user account team role, rfl, ?_⟩
    simpa [entries, Entry.Holds, isRole] using ⟨isUser, isAccount, isTeam⟩
  case removeMembership =>
    obtain ⟨user, account, team, -⟩ := fits
    obtain ⟨user, isUser⟩ := FieldType.exists_optional user
    obtain ⟨account, isAccount⟩ := FieldType.exists_optional account
    obtain ⟨team, isTeam⟩ := FieldType.exists_optional team
    refine ⟨.removeMembership user account team, rfl, ?_⟩
    simpa [entries] using ⟨isUser, isAccount, isTeam⟩
  case updateMembership =>
    obtain ⟨⟨prev, isPrev⟩, ⟨new, isNew⟩, -⟩ := fits
    exact ⟨.updateMembership prev new, rfl, by simp [entries, Entry.Holds, isPrev, isNew]⟩
  case deleteChildResource =>
    obtain ⟨⟨name, isName⟩, ⟨id, isId⟩, ⟨type, isType⟩, -⟩ := fits
    exact ⟨.deleteChildResource name id type, rfl, by simp [entries, Entry.Holds, isName, isId, isType]⟩
  case updateTeam =>
    obtain ⟨⟨user, isUser⟩, ⟨change, isChange⟩, ⟨maintainer, isMaintainer⟩, -⟩ := fits
    refine ⟨.updateTeam user change maintainer, rfl, ?_⟩
    simp [entries, Entry.Holds, isUser, isChange, isMaintainer]
  case migrate =>
    obtain ⟨⟨path, isPath⟩, -⟩ := fits
    exact ⟨.migrate path, rfl, by simp [entries, Entry.Holds, isPath]⟩

theorem Shape.fits_iff : s.Fits ms ↔ ∃ d : Detail, d.shape = s ∧ d.Holds ms := by
  refine ⟨Shape.Fits.exists_detail, ?_⟩
  rintro ⟨d, rfl, holds⟩ f mem
  rw [← entries_types] at mem
  obtain ⟨e, isEntry, rfl⟩ := List.mem_map.mp mem
  exact FieldType.fits_iff.mpr ⟨e.2, rfl, holds e isEntry⟩

theorem ofDocument?_eq_some_iff {members : List (List UInt8 × Document)}
    (pairs : Document.pairs? members = some ms) {d : Detail} :
    ofDocument? s (.object members) = some d ↔ d.shape = s ∧ d.Holds ms := by
  obtain ⟨docs, read, means⟩ := Document.means_of_pairs? pairs
  rw [ofDocument?, Document.fields?_object read]
  split
  next once =>
    rw [Option.bind_some, ofFields?_eq_some_iff]
    refine and_congr_right ?_
    rintro rfl
    refine forall₂_congr fun e mem => ?_
    exact Entry.reads_iff (means.valuesAt e.1) (once e.1 (entries_keys d ▸ List.mem_map_of_mem mem))
  next repeated =>
    refine iff_of_false (Option.some_ne_none d).symm ?_
    rintro ⟨rfl, holds⟩
    -- details have at most one value for each of their keys, and their keys are those of the shape
    refine repeated fun key mem => ?_
    rw [← entries_keys] at mem
    obtain ⟨e, isEntry, rfl⟩ := List.mem_map.mp mem
    rw [(means.valuesAt e.1).length_eq]
    exact (holds e isEntry).length_le

variable {action : ActivityAction} {target : TargetType} {raw : List UInt8}

theorem decode_eq (listed : (action, target, s) ∈ Shape.table) : decode action target raw =
    ((Document.ofBytes? raw).bind (ofDocument? s)).elim (.error (.undecodable s.name "<json>")) .ok := by
  simp only [decode, Shape.of?_eq_some_iff.mpr listed]
  cases (Document.ofBytes? raw).bind (ofDocument? s) <;> rfl

theorem decode_eq_ok_iff (listed : (action, target, s) ∈ Shape.table) (text : Written (.value (.object ms)) raw)
    {d : Detail} : decode action target raw = .ok d ↔ d.shape = s ∧ d.Holds ms := by
  obtain ⟨document, read, means⟩ := text.ofBytes?
  cases Document.kinds_of_value? means with
  | @object members _ pairs =>
    rw [← ofDocument?_eq_some_iff pairs, decode_eq listed, read, Option.bind_some]
    cases ofDocument? s (.object members) <;> simp

theorem decode_refused (listed : (action, target, s) ∈ Shape.table)
    (none : ∀ d, decode action target raw ≠ .ok d) :
    decode action target raw = .error (.undecodable s.name "<json>") := by
  rw [decode_eq listed] at none ⊢
  cases found : (Document.ofBytes? raw).bind (ofDocument? s) with
  | none => rfl
  | some d => exact absurd (by rw [found]; rfl) (none d)

def Shape.known (s : Shape) (ms : List (String × Value)) : List (String × Value) :=
  ms.filter fun m => s.fields.contains m.1

theorem Holds.of_known {d : Detail} (holds : d.Holds ms) {ms' : List (String × Value)}
    (same : (d.shape.known ms').Perm (d.shape.known ms)) : d.Holds ms' := by
  intro e mem
  have field : d.shape.fields.contains e.1 = true :=
    List.contains_iff_mem.mpr (entries_keys d ▸ List.mem_map_of_mem mem)
  have values := (same.filter (·.1 = e.1)).map (·.2)
  have here := valuesAt_filter ms (p := d.shape.fields.contains) field
  have there := valuesAt_filter ms' (p := d.shape.fields.contains) field
  exact (holds e mem).perm (by rwa [← here, ← there])

end

/-- A pair without a shape is refused whatever is recorded. A text of JSON that is an object, in whichever way
it is written, is decoded exactly when its members fit the shape of the pair, to the details that they give and
to no others; else it is refused by the name of the shape. Texts whose known members are the same but for their
order are decoded alike. -/
theorem decoded_whole_or_refused (action : ActivityAction) (target : TargetType) :
    ((∀ s, (action, target, s) ∉ Shape.table) → ∀ raw,
      decode action target raw = .error (.unsupportedCombination action.name target.kind.name)) ∧
    ∀ s, (action, target, s) ∈ Shape.table → ∀ ms raw, Written (.value (.object ms)) raw →
      ((∃ d, decode action target raw = .ok d) ↔ s.Fits ms) ∧
      (∀ d, decode action target raw = .ok d ↔ d.shape = s ∧ d.Holds ms) ∧
      (¬ s.Fits ms → decode action target raw = .error (.undecodable s.name "<json>")) ∧
      ∀ ms' raw', Written (.value (.object ms')) raw' → (s.known ms').Perm (s.known ms) →
        decode action target raw' = decode action target raw := by
  refine ⟨fun unlisted raw => ?_, fun s listed ms raw text => ?_⟩
  · have none : Shape.of? action target = none :=
      Option.eq_none_iff_forall_ne_some.mpr fun s found => unlisted s (Shape.of?_eq_some_iff.mp found)
    rw [decode, none]
  · have fits : (∃ d, decode action target raw = .ok d) ↔ s.Fits ms := by
      rw [Shape.fits_iff]
      exact exists_congr fun d => decode_eq_ok_iff listed text
    refine ⟨fits, fun d => decode_eq_ok_iff listed text, fun unfit => ?_, fun ms' raw' text' same => ?_⟩
    · exact decode_refused listed fun d ok => unfit (fits.mp ⟨d, ok⟩)
    · -- both texts are decoded to the same details, or neither is, and then the refusal is the shape's
      have both : ∀ d, decode action target raw' = .ok d ↔ decode action target raw = .ok d := by
        intro d
        rw [decode_eq_ok_iff listed text, decode_eq_ok_iff listed text']
        refine and_congr_right ?_
        rintro rfl
        exact ⟨fun holds => holds.of_known same.symm, fun holds => holds.of_known same⟩
      cases here : decode action target raw with
      | ok d => exact (both d).mpr here
      | error _ =>
        have none : ∀ d, decode action target raw ≠ .ok d := by simp [here]
        rw [← here, decode_refused listed none, decode_refused listed fun d => mt (both d).mp (none d)]

open Text (utf8) in
def moved : List UInt8 :=
  utf8 "\x7b\"x\":[0], \"previousGroupPath\" :\"a\\u0062\"\x7d"

open Text (utf8) in
theorem moved_written :
    Written (.value (.object [("x", .array [.number [48]]), ("previousGroupPath", .string "ab")])) moved := by
  have none : Blanks [] := nofun
  have blank : Blanks [32] := by simp [Blanks]
  have x : Quotation "x" (utf8 "\"x\"") := .mk (.plain (by simp))
  have path : Quotation "previousGroupPath" (utf8 "\"previousGroupPath\"") := .mk (.plain (by simp))
  have zero : Written (.value (.array [.number [48]])) (utf8 "[0]") :=
    .array (.lastItem (.number (.mk (.inl rfl) .zero .absent .absent)))
  have unit : CodeUnit (utf8 "\\u0062") 98 :=
    .mk (.digit (n := 0) (by decide)) (.digit (n := 0) (by decide)) (.digit (n := 6) (by decide))
      (.digit (n := 2) (by decide))
  have last := Characters.cons (c := 'b') (.unit unit) .nil
  have inside : Characters "ab".toList (utf8 "a\\u0062") :=
    .cons (.plain (by decide) (by decide) (by decide)) last
  have text : Quotation "ab" (utf8 "\"a\\u0062\"") := .mk inside
  exact .object (.nextMember (.member none x none zero)
    (.lastMember (.member blank path blank (.string text))))

theorem decoded_whole_or_refused_moved :
    (.migrate, .group, .migrate) ∈ Shape.table ∧ decode .migrate .group moved = .ok (.migrate "ab") ∧
      (∀ s, (.lock, .run, s) ∉ Shape.table) ∧
      decode .lock .run moved = .error (.unsupportedCombination "Lock" "Run") := by
  have listed : (.migrate, .group, .migrate) ∈ Shape.table := by decide
  have unlisted : ∀ s, (.lock, .run, s) ∉ Shape.table := by
    intro s
    cases s <;> decide
  have given : (migrate "ab").Holds [("x", .array [.number [48]]), ("previousGroupPath", .string "ab")] := by
    simp [Holds, entries, Entry.Holds, valuesAt]
  obtain ⟨-, decoded, -⟩ := (decoded_whole_or_refused .migrate .group).2 .migrate listed _ moved moved_written
  exact ⟨listed, (decoded _).mpr ⟨rfl, given⟩, unlisted, (decoded_whole_or_refused .lock .run).1 unlisted moved⟩

end InfraGraph.Detail
