import InfraGraph.Entity.Kind
import InfraGraph.Loader.Schedule

/-!
Registries of loaders. A loader is registered for a kind of entity, for the type of value it gives and
with the source its batches go to. The latest registration for a kind is the one that counts. A lookup
names the type it wants, and a loader of another type is a fault of the program, as is none at all.
-/

namespace InfraGraph

/-- One registration; `τ` names types of value and `ρ` sources. -/
structure Registry.Entry (τ ρ ν : Type) where
  kind : Kind
  type : τ
  source : ρ
  loader : Loader String ν

structure Registry (τ ρ ν : Type) where
  settings : LoaderSettings
  entries : List (Registry.Entry τ ρ ν)

namespace Registry

variable {τ ρ ν σ : Type}

def new (s : LoaderSettings) : Registry τ ρ ν :=
  ⟨s, []⟩

def register (r : Registry τ ρ ν) (kind : Kind) (type : τ) (source : ρ) : Registry τ ρ ν :=
  { r with entries := ⟨kind, type, source, Loader.new r.settings⟩ :: r.entries }

def notRegistered (kind : Kind) : Fault :=
  let kind := kind.name
  .internal s!"no loader registered for {kind}"

def wrongType (kind : Kind) : Fault :=
  let kind := kind.name
  .internal s!"loader for {kind} does not produce the requested type"

/-- The latest entry for a kind, given that it has the wanted type. -/
def find [DecidableEq τ] (r : Registry τ ρ ν) (kind : Kind) (type : τ) :
    Except Fault (Entry τ ρ ν) :=
  match r.entries.find? (·.kind = kind) with
  | none => .error (notRegistered kind)
  | some e => if e.type = type then .ok e else .error (wrongType kind)

def replaceIn (kind : Kind) (l : Loader String ν) : List (Entry τ ρ ν) → List (Entry τ ρ ν)
  | [] => []
  | e :: es => if e.kind = kind then { e with loader := l } :: es else e :: replaceIn kind l es

def setLoader (r : Registry τ ρ ν) (kind : Kind) (l : Loader String ν) : Registry τ ρ ν :=
  { r with entries := replaceIn kind l r.entries }

def demand (kind : Kind) (id : String) : Except Fault (Option ν) → Except Fault ν
  | .error f => .error f
  | .ok none => .error (.missing kind id)
  | .ok (some v) => .ok v

def prime [DecidableEq τ] (r : Registry τ ρ ν) (kind : Kind) (type : τ) (id : String) (value : ν) :
    Except Fault (Registry τ ρ ν) := do
  let e ← r.find kind type
  return r.setLoader kind (e.loader.prime id value)

def enqueue [DecidableEq τ] (r : Registry τ ρ ν) (kind : Kind) (type : τ) (id : String) :
    Except Fault (Ticket ν × Registry τ ρ ν) := do
  let e ← r.find kind type
  let (ticket, l) := e.loader.enqueue id
  return (ticket, r.setLoader kind l)

def await [DecidableEq τ] (backend : ρ → Loader.Backend String ν σ) (now : Nat)
    (r : Registry τ ρ ν) (kind : Kind) (type : τ) (id : String) (ticket : Ticket ν) (s : σ) :
    Option (Except Fault (Option ν)) × Registry τ ρ ν × σ :=
  match r.find kind type with
  | .error f => (some (.error f), r, s)
  | .ok e =>
      let (answer, l, s) := e.loader.await (backend e.source) now id ticket s
      (answer, r.setLoader kind l, s)

def load [DecidableEq τ] (backend : ρ → Loader.Backend String ν σ) (now : Nat)
    (r : Registry τ ρ ν) (s : σ) (kind : Kind) (type : τ) (id : String) :
    Except Fault (Option ν) × Nat × Registry τ ρ ν × σ :=
  match r.find kind type with
  | .error f => (.error f, now, r, s)
  | .ok e =>
      match e.loader.run (backend e.source) now s [.load id] with
      | ([.loaded result], now, l, s) => (result, now, r.setLoader kind l, s)
      | (_, now, l, s) => (.ok none, now, r.setLoader kind l, s)

end Registry

end InfraGraph
