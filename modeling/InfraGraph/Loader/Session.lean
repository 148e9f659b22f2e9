import InfraGraph.Loader.Registry

/-!
Sessions with a registry. Its loaders are registered first; then steps are taken one after another, and
each has its reply before the next one begins.
-/

namespace InfraGraph.Registry

variable {τ ρ ν σ : Type}

inductive Action (ν : Type)
  | load (id : String)
  | require (id : String)
  | prime (id : String) (value : ν)
  | has

structure Step (τ ν : Type) where
  kind : Kind
  type : τ
  action : Action ν

inductive Reply (ν : Type)
  | loaded (value : Option ν)
  | required (value : ν)
  | primed
  | present

def registerAll (s : LoaderSettings) (registrations : List ((Kind × τ) × ρ)) : Registry τ ρ ν :=
  registrations.foldl (fun r x => r.register x.1.1 x.1.2 x.2) (new s)

def apart [DecidableEq ρ] (backends : ρ → Loader.Backend String ν σ) :
    ρ → Loader.Backend String ν (ρ → σ) := fun source keys states =>
  let (answer, s) := backends source keys (states source)
  (answer, fun other => if other = source then s else states other)

structure Session (τ ρ ν σ : Type) where
  now : Nat
  registry : Registry τ ρ ν
  state : σ

namespace Session

variable [DecidableEq τ]

def step (backend : ρ → Loader.Backend String ν σ) (s : Session τ ρ ν σ) (x : Step τ ν) :
    Except Fault (Reply ν) × Session τ ρ ν σ :=
  match x.action with
  | .load id =>
      let (result, now, r, w) := s.registry.load backend s.now s.state x.kind x.type id
      (result.map .loaded, ⟨now, r, w⟩)
  | .require id =>
      let (result, now, r, w) := s.registry.load backend s.now s.state x.kind x.type id
      ((demand x.kind id result).map .required, ⟨now, r, w⟩)
  | .prime id value =>
      match s.registry.prime x.kind x.type id value with
      | .error f => (.error f, s)
      | .ok r => (.ok .primed, { s with registry := r })
  | .has => ((s.registry.find x.kind x.type).map fun _ => .present, s)

def run (backend : ρ → Loader.Backend String ν σ) (s : Session τ ρ ν σ) :
    List (Step τ ν) → List (Except Fault (Reply ν)) × Session τ ρ ν σ
  | [] => ([], s)
  | x :: xs =>
      let (reply, s) := s.step backend x
      let (replies, s) := run backend s xs
      (reply :: replies, s)

end Session

end InfraGraph.Registry
