import InfraGraph.Proofs.Json.Quotations
import InfraGraph.Proofs.Json.Scanning
import InfraGraph.Json.Record

/-!
Every text that the grammar allows is read as a document that says what the text means. Each rule of the grammar
is one step: what the bytes are scanned to, and what the automaton of documents does with these tokens in
whatever open arrays and objects it is.
-/

namespace InfraGraph.Json

open Grammar

namespace Document

mutual

def value? : Document → Option Value
  | .null => some .null
  | .bool b => some (.bool b)
  | .number lexeme => some (.number lexeme)
  | .string raw => (Quoted.decode raw).map .string
  | .array items => (values? items).map .array
  | .object members => (pairs? members).map .object

def values? : List Document → Option (List Value)
  | [] => some []
  | d :: ds => do
      let v ← value? d
      let vs ← values? ds
      some (v :: vs)

def pairs? : List (List UInt8 × Document) → Option (List (String × Value))
  | [] => some []
  | (raw, d) :: rest => do
      let key ← Quoted.decode raw
      let v ← value? d
      let more ← pairs? rest
      some ((key, v) :: more)

end

/-- Tokens of one document, wherever a value may come. -/
structure Feeds (ts : List Token) (d : Document) : Prop where
  begins : ∃ t more, ts = t :: more ∧ t ≠ .rightBracket
  value : ∀ stack us, (Reader.value stack).feed (ts ++ us) = (Reader.accept d stack).feed us

structure FeedsItems (ts : List Token) (ds : List Document) : Prop where
  begins : ∃ t more, ts = t :: more ∧ t ≠ .rightBracket
  value : ∀ done stack us, (Reader.value (.array done :: stack)).feed (ts ++ us) =
    (Reader.afterItem (ds.reverse ++ done) stack).feed us

structure FeedsMembers (ts : List Token) (ms : List (List UInt8 × Document)) : Prop where
  begins : ∃ raw more, ts = .string raw :: more
  key : ∀ done stack us,
    (Reader.key done stack).feed (ts ++ us) = (Reader.afterMember (ms.reverse ++ done) stack).feed us

variable {ts us : List Token} {d : Document} {ds : List Document} {raw : List UInt8}
  {ms : List (List UInt8 × Document)}

theorem Feeds.of_token {t : Token} (other : t ≠ .rightBracket)
    (single : ∀ stack, Reader.begin? stack t = some (Reader.accept d stack)) : Feeds [t] d where
  begins := ⟨t, [], rfl, other⟩
  value stack vs := by simp [Reader.feed, Reader.next?, single]

theorem Feeds.item (h : Feeds ts d) : FeedsItems ts [d] where
  begins := h.begins
  value done stack vs := h.value (.array done :: stack) vs

theorem FeedsItems.cons (first : Feeds ts d) (rest : FeedsItems us ds) :
    FeedsItems (ts ++ [.comma] ++ us) (d :: ds) where
  begins := by
    obtain ⟨t, more, rfl, other⟩ := first.begins
    exact ⟨t, _, rfl, other⟩
  value done stack vs := by
    have more := rest.value (d :: done) stack vs
    rw [List.append_assoc, List.append_assoc, first.value, List.reverse_cons, List.append_assoc]
    exact more

/-- The first item is read as every other one, since no value begins with the end of an array. -/
theorem FeedsItems.firstItem (h : FeedsItems ts ds) (stack : List Frame) (vs : List Token) :
    (Reader.firstItem stack).feed (ts ++ vs) = (Reader.afterItem ds.reverse stack).feed vs := by
  have items := h.value [] stack vs
  rw [List.append_nil] at items
  rw [← items]
  obtain ⟨t, more, rfl, other⟩ := h.begins
  cases t <;> first | rfl | exact absurd rfl other

theorem FeedsItems.array (h : FeedsItems ts ds) :
    Feeds ([.leftBracket] ++ ts ++ [.rightBracket]) (.array ds) where
  begins := ⟨.leftBracket, _, rfl, nofun⟩
  value stack vs := by
    have inside := h.firstItem stack ([.rightBracket] ++ vs)
    rw [List.append_assoc, List.append_assoc, ← List.reverse_reverse ds]
    exact inside

theorem Feeds.member (h : Feeds ts d) : FeedsMembers ([.string raw, .colon] ++ ts) [(raw, d)] where
  begins := ⟨raw, _, rfl⟩
  key done stack vs := h.value (.object done raw :: stack) vs

theorem FeedsMembers.cons (first : Feeds ts d) (rest : FeedsMembers us ms) :
    FeedsMembers ([.string raw, .colon] ++ ts ++ [.comma] ++ us) ((raw, d) :: ms) where
  begins := ⟨raw, _, rfl⟩
  key done stack vs := by
    have member := first.value (.object done raw :: stack) ([.comma] ++ (us ++ vs))
    have more := rest.key ((raw, d) :: done) stack vs
    rw [List.append_assoc, List.append_assoc, List.append_assoc, List.reverse_cons, List.append_assoc]
    exact member.trans more

theorem FeedsMembers.firstKey (h : FeedsMembers ts ms) (stack : List Frame) (vs : List Token) :
    (Reader.firstKey stack).feed (ts ++ vs) = (Reader.afterMember ms.reverse stack).feed vs := by
  have members := h.key [] stack vs
  rw [List.append_nil] at members
  rw [← members]
  obtain ⟨raw, more, rfl⟩ := h.begins
  rfl

theorem FeedsMembers.object (h : FeedsMembers ts ms) :
    Feeds ([.leftBrace] ++ ts ++ [.rightBrace]) (.object ms) where
  begins := ⟨.leftBrace, _, rfl, nofun⟩
  value stack vs := by
    have inside := h.firstKey stack ([.rightBrace] ++ vs)
    rw [List.append_assoc, List.append_assoc, ← List.reverse_reverse ms]
    exact inside

theorem Feeds.ofTokens? (h : Feeds ts d) : ofTokens? ts = some d := by
  have whole := h.value [] []
  rw [List.append_nil] at whole
  rw [Document.ofTokens?, whole]
  rfl

end Document

open Token (Scans)
open Document (Feeds FeedsItems FeedsMembers)

/-- The bytes of a phrase are scanned to tokens of documents that say what the phrase means. -/
def Phrase.IsRead : Phrase → List UInt8 → Prop
  | .value v, bs => ∃ ts d, Scans bs ts ∧ Feeds ts d ∧ d.value? = some v
  | .items vs, bs => ∃ ts ds, Scans bs ts ∧ FeedsItems ts ds ∧ Document.values? ds = some vs
  | .member key v, bs => ∃ raw ts d, Scans bs ([.string raw, .colon] ++ ts) ∧ Feeds ts d ∧
      Quoted.decode raw = some key ∧ d.value? = some v
  | .members ms, bs => ∃ ts members, Scans bs ts ∧ FeedsMembers ts members ∧
      Document.pairs? members = some ms

theorem Phrase.isRead_token {bs : List UInt8} {t : Token} {d : Document} {v : Value} (scans : Scans bs [t])
    (other : t ≠ .rightBracket)
    (single : ∀ stack, Document.Reader.begin? stack t = some (Document.Reader.accept d stack))
    (means : d.value? = some v) : (Phrase.value v).IsRead bs :=
  ⟨[t], d, scans, .of_token other single, means⟩

/-- One rule after the other: the bytes of a phrase are scanned piece by piece, and the tokens of the pieces are
fed one after the other. -/
theorem Written.isRead {p : Phrase} {bs : List UInt8} (h : Written p bs) : p.IsRead bs := by
  induction h with
  | null =>
    have scans : Scans (Text.utf8 "null") [.null] := Token.scans_word (by decide) (by decide +kernel) rfl
    exact Phrase.isRead_token scans nofun (fun _ => rfl) rfl
  | isFalse =>
    have scans : Scans (Text.utf8 "false") [.bool false] := Token.scans_word (by decide) (by decide +kernel) rfl
    exact Phrase.isRead_token scans nofun (fun _ => rfl) rfl
  | isTrue =>
    have scans : Scans (Text.utf8 "true") [.bool true] := Token.scans_word (by decide) (by decide +kernel) rfl
    exact Phrase.isRead_token scans nofun (fun _ => rfl) rfl
  | @number bs form =>
    exact Phrase.isRead_token (d := .number bs) (Token.scans_number form) nofun (fun _ => rfl) rfl
  | @string text _ quotation =>
    obtain ⟨raw, read, decoded⟩ := Quoted.read_quotation quotation
    have means : (Document.string raw).value? = some (.string text) := by rw [Document.value?, decoded]; rfl
    exact Phrase.isRead_token (.done read) nofun (fun _ => rfl) means
  | noItems blank =>
    have inside := Scans.done (Token.read_blanks blank)
    exact ⟨[.leftBracket, .rightBracket], .array [], inside.enclosed rfl rfl rfl,
      ⟨⟨_, _, rfl, nofun⟩, fun _ _ => rfl⟩, rfl⟩
  | array _ ih =>
    obtain ⟨ts, ds, scans, feeds, means⟩ := ih
    exact ⟨_, .array ds, scans.enclosed rfl rfl rfl, feeds.array, by rw [Document.value?, means]; rfl⟩
  | noMembers blank =>
    have inside := Scans.done (Token.read_blanks blank)
    exact ⟨[.leftBrace, .rightBrace], .object [], inside.enclosed rfl rfl rfl,
      ⟨⟨_, _, rfl, nofun⟩, fun _ _ => rfl⟩, rfl⟩
  | object _ ih =>
    obtain ⟨ts, members, scans, feeds, means⟩ := ih
    exact ⟨_, .object members, scans.enclosed rfl rfl rfl, feeds.object,
      by rw [Document.value?, means]; rfl⟩
  | blanks front _ back ih =>
    obtain ⟨ts, d, scans, feeds, means⟩ := ih
    have led := Scans.after (Token.read_blanks front) scans
    exact ⟨ts, d, led.blanks back, feeds, means⟩
  | lastItem _ ih =>
    obtain ⟨ts, d, scans, feeds, means⟩ := ih
    exact ⟨ts, [d], scans, feeds.item, by rw [Document.values?, means]; rfl⟩
  | item _ _ first rest =>
    obtain ⟨ts, d, scans, feeds, means⟩ := first
    obtain ⟨us, ds, scans', feeds', means'⟩ := rest
    have comma := scans.mark (b := 44) rfl rfl
    exact ⟨_, d :: ds, .after comma scans', .cons feeds feeds',
      by rw [Document.values?, means, means']; rfl⟩
  | member front quotation back _ ih =>
    obtain ⟨raw, read, decoded⟩ := Quoted.read_quotation quotation
    obtain ⟨ts, d, scans, feeds, means⟩ := ih
    -- blanks on both sides of the key leave no token behind
    have key := Scans.after (Token.read_blanks front) (.done read)
    have colon := (key.blanks back).mark (b := 58) rfl rfl
    exact ⟨raw, ts, d, .after colon scans, feeds, decoded, means⟩
  | lastMember _ ih =>
    obtain ⟨raw, ts, d, scans, feeds, decoded, means⟩ := ih
    exact ⟨_, [(raw, d)], scans, feeds.member, by rw [Document.pairs?, decoded, means]; rfl⟩
  | nextMember _ _ first rest =>
    obtain ⟨raw, ts, d, scans, feeds, decoded, means⟩ := first
    obtain ⟨us, members, scans', feeds', means'⟩ := rest
    have comma := scans.mark (b := 44) rfl rfl
    exact ⟨_, (raw, d) :: members, .after comma scans', .cons feeds feeds',
      by rw [Document.pairs?, decoded, means, means']; rfl⟩

theorem Written.ofBytes? {v : Value} {bs : List UInt8} (h : Written (.value v) bs) :
    ∃ d, Document.ofBytes? bs = some d ∧ d.value? = some v := by
  obtain ⟨ts, d, scans, feeds, means⟩ := h.isRead
  refine ⟨d, ?_, means⟩
  rw [Document.ofBytes?, scans.scan, Option.bind_some, feeds.ofTokens?]

end InfraGraph.Json
