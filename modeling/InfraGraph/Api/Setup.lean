import InfraGraph.Entity.GlobalId
import InfraGraph.Graph.Plan
import InfraGraph.Graph.Selection
import InfraGraph.Listing.Connection
import InfraGraph.Settings

/-!
What resolvers work with: the parts that a schema and a request were set up with, and the readings of
arguments that many fields share. A part that is missing is a fault of the program, and fails only the
fields that need it.
-/

namespace InfraGraph.Api

open InfraGraph.Graph

structure Setup where
  catalog : Bool
  settings : Option Settings
  factory : Bool
  loaders : Bool

namespace Setup

def complete (s : Settings) : Setup :=
  ⟨true, some s, true, true⟩

def need (present : Bool) (part owner : String) : Resolver Unit :=
  if present then pure () else throw (.internal s!"{part} missing from {owner} data")

def needCatalog (s : Setup) : Resolver Unit :=
  need s.catalog "service catalog" "schema"

def needFactory (s : Setup) : Resolver Unit :=
  need s.factory "loader factory" "schema"

def needLoaders (s : Setup) : Resolver Unit :=
  need s.loaders "loader registry" "request"

def needSettings (s : Setup) : Resolver Settings := do
  need s.settings.isSome "resolver config" "schema"
  return s.settings.getD .standard

end Setup

def decodeId (kind : Kind) (text : String) : Except Fault String :=
  match GlobalId.decodeAs kind text with
  | .error f => .error f.rejection.fault
  | .ok id => .ok id

def decodeId? (kind : Kind) : Option String → Except Fault (Option String)
  | none => .ok none
  | some text => (decodeId kind text).map some

inductive Locator
  | id (id : String)
  | path (path : String)
  deriving DecidableEq, Repr

/-- Exactly one of a global identifier and a path names an entity. -/
def locate (kind : Kind) (id path : Option String) : Except Fault Locator :=
  let kindName := kind.name
  match id, path with
  | some text, none =>
      match decodeId kind text with
      | .error f => .error (f.onField "id")
      | .ok id => .ok (.id id)
  | none, some path => .ok (.path path)
  | some _, some _ =>
      .error ((Fault.invalidInput
        s!"only one of the {kindName} ID or path may be specified").onField "id")
  | none, none =>
      .error ((Fault.invalidInput
        s!"either the {kindName} ID or path must be specified").onField "id")

def groupId (id path : Option String) : Resolver String := do
  match ← Resolver.ofExcept (locate .group id path) with
  | .id id => return id
  | .path path => return (← Resolver.ask (.groupAt path)).id

def workspaceId (id path : Option String) : Resolver String := do
  match ← Resolver.ofExcept (locate .workspace id path) with
  | .id id => return id
  | .path path => return (← Resolver.ask (.workspaceAt path)).id

def orderOf {α : Type} [Listed α] (args : Arguments) : Order α :=
  ((args.choice? "sort").bind Order.ofLabel?).getD Listed.standard

def pageRequest (args : Arguments) : PageRequest :=
  ⟨args.int? "first", args.int? "last", args.text? "after", args.text? "before"⟩

def listing {α : Type} [Listed α] (s : Setup) (args : Arguments) : Resolver (Listing α) := do
  let settings ← s.needSettings
  let order := orderOf args
  match (pageRequest args).window order settings.pages with
  | .error r => throw r.fault
  | .ok window => return ⟨order, window⟩

end InfraGraph.Api
