/-!
Texts within texts.
-/

namespace InfraGraph.Text

def occurs (part : List Char) : List Char → Bool
  | [] => part.isEmpty
  | c :: cs => part.isPrefixOf (c :: cs) || occurs part cs

def contains (text part : String) : Bool :=
  occurs part.toList text.toList

def beginsWith (text start : String) : Bool :=
  start.toList.isPrefixOf text.toList

end InfraGraph.Text
