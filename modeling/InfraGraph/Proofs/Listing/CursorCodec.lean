import InfraGraph.Listing.Cursor
import InfraGraph.Proofs.Json.Quoted
import InfraGraph.Proofs.Text.Base64

/-!
Cursors read back. The JSON of a cursor is scanned piece by piece to the tokens of one object, the object
is read member by member, and around it base64 and UTF-8 lose nothing.
-/

namespace InfraGraph.Cursor

open Json Text

def pair (name value : String) : List UInt8 :=
  [34] ++ Quoted.encode name ++ [34] ++ [58] ++ ([34] ++ Quoted.encode value ++ [34])

theorem read_pair (name value : String) :
    Token.read .between (pair name value) =
      some ([.string (Quoted.encode name), .colon, .string (Quoted.encode value)], .between) := by
  have colon : Token.read .between [58] = some ([.colon], .between) := rfl
  exact Token.read_append (Token.read_append (Quoted.read_quoted name) colon) (Quoted.read_quoted value)

theorem member_eq {name : String} (plain : Quoted.encode name = utf8 name) (value : String) :
    member name value = [44] ++ pair name value := by
  have opens : utf8 ",\"" = [44, 34] := rfl
  have between : utf8 "\":\"" = [34, 58, 34] := rfl
  have closes : utf8 "\"" = [34] := rfl
  simp [member, pair, opens, between, closes, plain]

def front (version : Nat) : List UInt8 :=
  utf8 "\x7b\"v\":" ++ utf8 version.repr ++ [44]

theorem read_front : ∀ n < 256, Token.read .between (front n) =
    some ([.leftBrace, .string (Quoted.encode "v"), .colon, .number (utf8 (Nat.repr n)), .comma],
      .between) := by
  decide +kernel

theorem json_eq (c : Cursor) : c.json =
    front c.version.toNat ++ pair "f" c.field ++ [44] ++ pair "d" c.direction.name ++ [44] ++
      pair "k" c.value ++ [44] ++ pair "id" c.id ++ [125] := by
  have closes : utf8 "\x7d" = [125] := rfl
  simp only [json, front, member_eq (by decide : Quoted.encode "f" = utf8 "f"),
    member_eq (by decide : Quoted.encode "d" = utf8 "d"),
    member_eq (by decide : Quoted.encode "k" = utf8 "k"),
    member_eq (by decide : Quoted.encode "id" = utf8 "id"), closes, List.append_assoc]

def document (c : Cursor) : Document :=
  .object [(Quoted.encode "v", .number (utf8 c.version.toNat.repr)),
    (Quoted.encode "f", .string (Quoted.encode c.field)),
    (Quoted.encode "d", .string (Quoted.encode c.direction.name)),
    (Quoted.encode "k", .string (Quoted.encode c.value)),
    (Quoted.encode "id", .string (Quoted.encode c.id))]

theorem ofBytes?_json (c : Cursor) : Document.ofBytes? c.json = some c.document := by
  have comma : Token.read .between [44] = some ([.comma], .between) := rfl
  have brace : Token.read .between [125] = some ([.rightBrace], .between) := rfl
  have field := Token.read_append (read_front _ c.version.toNat_lt) (read_pair "f" c.field)
  have direction := Token.read_append (Token.read_append field comma) (read_pair "d" c.direction.name)
  have value := Token.read_append (Token.read_append direction comma) (read_pair "k" c.value)
  have id := Token.read_append (Token.read_append value comma) (read_pair "id" c.id)
  have whole := Token.read_append id brace
  rw [← json_eq] at whole
  rw [Document.ofBytes?, Token.scan, Token.scanFrom_of_read whole rfl]
  rfl

theorem version_int : ∀ n < 256,
    Document.intWithin? 0 255 (.number (utf8 (Nat.repr n))) = some (n : Int) := by
  decide +kernel

theorem direction?_name (d : Direction) :
    direction? (.string (Quoted.encode d.name)) = some d := by
  rw [direction?, Quoted.decode_encode]
  cases d <;> rfl

theorem fields?_document (c : Cursor) :
    c.document.fields? ["v", "f", "d", "k", "id"] .complete =
      some [some (.number (utf8 c.version.toNat.repr)), some (.string (Quoted.encode c.field)),
        some (.string (Quoted.encode c.direction.name)), some (.string (Quoted.encode c.value)),
        some (.string (Quoted.encode c.id))] := by
  simp [Document.fields?, document, Document.members?, Quoted.decode_encode, Document.known,
    List.lookup_cons]

theorem ofDocument?_document (c : Cursor) : ofDocument? c.document = some c := by
  have version := version_int _ c.version.toNat_lt
  simp [ofDocument?, fields?_document, Document.required?, version, Document.text?,
    Quoted.decode_encode, direction?_name]

theorem isUtf8_pair (name value : String) : IsUtf8 (pair name value) := by
  have quote : IsUtf8 [34] := isUtf8_utf8 "\""
  have colon : IsUtf8 [58] := isUtf8_utf8 ":"
  have key := (quote.append (Quoted.isUtf8_encode name)).append quote
  exact (key.append colon).append ((quote.append (Quoted.isUtf8_encode value)).append quote)

theorem isUtf8_json (c : Cursor) : IsUtf8 c.json := by
  have comma : IsUtf8 [44] := isUtf8_utf8 ","
  have brace : IsUtf8 [125] := isUtf8_utf8 "\x7d"
  have front : IsUtf8 (front c.version.toNat) := ((isUtf8_utf8 _).append (isUtf8_utf8 _)).append comma
  rw [json_eq]
  exact (((((((front.append (isUtf8_pair "f" c.field)).append comma).append
    (isUtf8_pair "d" c.direction.name)).append comma).append (isUtf8_pair "k" c.value)).append
    comma).append (isUtf8_pair "id" c.id)).append brace

theorem decode_encode (c : Cursor) :
    decode c.encode = if c.version = 1 then .ok c else .error (.unknownVersion c.version) := by
  obtain ⟨text, utf8⟩ := c.isUtf8_json.exists_text
  rw [decode, encode, Base64.decode_encode Base64.faithful_standard]
  simp only [utf8, ofBytes?_json, Option.bind_some, ofDocument?_document]

theorem encode_injective {c c' : Cursor} (h : c.encode = c'.encode) : c = c' := by
  have bytes := congrArg Base64.standard.decode h
  rw [encode, encode, Base64.decode_encode Base64.faithful_standard,
    Base64.decode_encode Base64.faithful_standard, Option.some.injEq] at bytes
  have documents := congrArg Document.ofBytes? bytes
  rw [ofBytes?_json, ofBytes?_json, Option.some.injEq] at documents
  have cursors := congrArg ofDocument? documents
  rwa [ofDocument?_document, ofDocument?_document, Option.some.injEq] at cursors

/-- Every cursor of version 1 reads back, whatever its texts; a cursor of any other version is refused by
its version; and cursors that are written alike are the same. -/
theorem cursor_round_trip :
    (∀ c : Cursor, c.version = 1 → decode c.encode = .ok c) ∧
    (∀ c : Cursor, c.version ≠ 1 → (decode c.encode).mapError Flaw.rejection =
      .error (.invalidCursor ("unsupported cursor version " ++ c.version.toNat.repr))) ∧
    ∀ c c' : Cursor, c.encode = c'.encode → c = c' := by
  refine ⟨fun c first => ?_, fun c other => ?_, fun c c' => encode_injective⟩
  · rw [decode_encode, if_pos first]
  · have reason : (Flaw.unknownVersion c.version).reason =
        "unsupported cursor version " ++ c.version.toNat.repr := rfl
    rw [decode_encode, if_neg other, ← reason]
    rfl

theorem cursor_round_trip_escapes :
    decode (encode ⟨1, "full_path", .descending, "\"a\\b\x01\n\u00e9𝄞", "1"⟩) =
      .ok ⟨1, "full_path", .descending, "\"a\\b\x01\n\u00e9𝄞", "1"⟩ ∧
    (decode (encode ⟨9, "name", .ascending, "", ""⟩)).mapError Flaw.rejection =
      .error (.invalidCursor "unsupported cursor version 9") := by
  obtain ⟨known, unknown, _⟩ := cursor_round_trip
  have words : "unsupported cursor version " ++ (9 : UInt8).toNat.repr =
      "unsupported cursor version 9" := by
    decide
  have refused := unknown ⟨9, "name", .ascending, "", ""⟩ (by decide)
  rw [words] at refused
  exact ⟨known ⟨1, "full_path", .descending, "\"a\\b\x01\n\u00e9𝄞", "1"⟩ rfl, refused⟩

end InfraGraph.Cursor
