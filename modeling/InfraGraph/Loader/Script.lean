import InfraGraph.Loader.Basic

/-!
A scripted backend: it answers from a table of values, fails on the calls it is told to, and keeps the
keys of every call. It may answer with the whole table instead of the keys asked for.
-/

namespace InfraGraph.Loader

structure Script (ν : Type) where
  values : List (String × ν)
  failing : List Nat
  wholeTable : Bool
  calls : List (List String)

namespace Script

variable {ν : Type}

def failure (call : Nat) : Fault :=
  ⟨.serviceUnavailable, s!"backend down at call {call}", none⟩

def backend : Backend String ν (Script ν) := fun keys s =>
  let call := s.calls.length
  let s' := { s with calls := s.calls ++ [keys] }
  if s.failing.contains call then (.error (failure call), s')
  else
    (.ok fun key => if s.wholeTable || keys.contains key then s.values.lookup key else none, s')

end Script

end InfraGraph.Loader
