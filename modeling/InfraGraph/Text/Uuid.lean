/-!
The spellings of a UUID that count as an identifier: 32 hexadecimal digits, the same digits grouped
8-4-4-4-12 by hyphens, and the grouped form after `urn:uuid:` or inside braces. Letters may be of
either case.
-/

namespace InfraGraph.Text.Uuid

def isHex (c : Char) : Bool :=
  ('0' ≤ c && c ≤ '9') || ('a' ≤ c && c ≤ 'f') || ('A' ≤ c && c ≤ 'F')

def isGrouped : List Nat → List Char → Bool
  | [], cs => cs.isEmpty
  | [n], cs => cs.length == n && cs.all isHex
  | n :: ns, cs =>
      (cs.take n).length == n && (cs.take n).all isHex &&
        match cs.drop n with
        | '-' :: rest => isGrouped ns rest
        | _ => false

def isHyphenated (cs : List Char) : Bool :=
  isGrouped [8, 4, 4, 4, 12] cs

def urnLabel : List Char := "urn:uuid:".toList

def isUrn (cs : List Char) : Bool :=
  (cs.take urnLabel.length).map Char.toLower == urnLabel && isHyphenated (cs.drop urnLabel.length)

def isBraced : List Char → Bool
  | '\x7b' :: rest => rest.getLast? == some '\x7d' && isHyphenated rest.dropLast
  | _ => false

def isSimple (cs : List Char) : Bool :=
  isGrouped [32] cs

def isUuid (text : String) : Bool :=
  let cs := text.toList
  isSimple cs || isHyphenated cs || isUrn cs || isBraced cs

end InfraGraph.Text.Uuid
