import InfraGraph.Listing.Cursor
import InfraGraph.Settings

/-!
Windows of a listing. A request may bound the page size from either end and may start from a cursor;
a coherent request becomes a window, which is a size counted forward after a cursor or backward before
one.
-/

namespace InfraGraph

structure PageRequest where
  first : Option Int
  last : Option Int
  after : Option String
  before : Option String
  deriving DecidableEq, Repr

inductive Window
  | forward (size : Int) (after : Option Cursor)
  | backward (size : Int) (before : Option Cursor)
  deriving DecidableEq, Repr

def Window.size : Window → Int
  | forward n _ => n
  | backward n _ => n

namespace PageRequest

inductive Flaw
  | bothSizes
  | bothCursors
  | firstBefore
  | lastAfter
  | negative (argument : String)
  | tooLarge (argument : String) (max : Int)
  deriving DecidableEq, Repr

def Flaw.reason : Flaw → String
  | bothSizes => "Cannot specify both 'first' and 'last'"
  | bothCursors => "Cannot specify both 'after' and 'before'"
  | firstBefore => "'before' can only be used with 'last'"
  | lastAfter => "'after' can only be used with 'first'"
  | negative argument => s!"'{argument}' must be non-negative"
  | tooLarge argument max => s!"'{argument}' cannot exceed {max}"

def Flaw.rejection (f : Flaw) : Rejection :=
  .pagination f.reason

def checkSize (argument : String) (max : Int) : Option Int → Except Flaw Unit
  | none => .ok ()
  | some n =>
      if n < 0 then .error (.negative argument)
      else if max < n then .error (.tooLarge argument max)
      else .ok ()

def validate (r : PageRequest) (s : PageSettings) : Except Flaw Unit :=
  if r.first.isSome ∧ r.last.isSome then .error .bothSizes
  else if r.after.isSome ∧ r.before.isSome then .error .bothCursors
  else if r.first.isSome ∧ r.before.isSome then .error .firstBefore
  else if r.last.isSome ∧ r.after.isSome then .error .lastAfter
  else
    match checkSize "first" s.maxSize r.first with
    | .error f => .error f
    | .ok () => checkSize "last" s.maxSize r.last

def readCursor {α : Type} (o : Order α) : Option String → Except Cursor.Flaw (Option Cursor)
  | none => .ok none
  | some text =>
      match Cursor.decode text with
      | .error f => .error f
      | .ok c => (c.forOrder o).map some

/-- The default size counts backward when the request starts before a cursor, else forward. -/
def window {α : Type} (r : PageRequest) (o : Order α) (s : PageSettings) :
    Except Rejection Window :=
  match r.validate s with
  | .error f => .error f.rejection
  | .ok () =>
    match readCursor o r.after with
    | .error f => .error f.rejection
    | .ok after =>
      match readCursor o r.before with
      | .error f => .error f.rejection
      | .ok before =>
        match r.first, r.last with
        | some n, _ => .ok (.forward n after)
        | none, some n => .ok (.backward n before)
        | none, none =>
            if before.isSome then .ok (.backward s.defaultSize before)
            else .ok (.forward s.defaultSize after)

end PageRequest

end InfraGraph
