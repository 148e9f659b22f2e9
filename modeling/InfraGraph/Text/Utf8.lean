/-!
Text as its UTF-8 bytes. Every text has bytes; only valid sequences are read back, so surrogates,
overlong forms and values past the last code point are refused.
-/

namespace InfraGraph.Text

def utf8 (text : String) : List UInt8 :=
  text.toUTF8.data.toList

def ofUtf8? (bytes : List UInt8) : Option String :=
  String.fromUTF8? ⟨bytes.toArray⟩

end InfraGraph.Text
