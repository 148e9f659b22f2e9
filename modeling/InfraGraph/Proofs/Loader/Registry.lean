import Mathlib.Data.List.Induction
import InfraGraph.Loader.Session

/-!
The entries of a registry. For each kind the latest registration counts, and its loader is the only part of
it that changes.
-/

namespace InfraGraph.Registry

variable {τ ρ ν : Type}

theorem find?_replaceIn (kind k : Kind) (l : Loader String ν) (es : List (Entry τ ρ ν)) :
    (replaceIn kind l es).find? (·.kind = k) =
      if k = kind then (es.find? (·.kind = k)).map fun e => { e with loader := l }
      else es.find? (·.kind = k) := by
  induction es with
  | nil => simp [replaceIn]
  | cons e es ih =>
    by_cases he : e.kind = kind
    · by_cases hk : k = kind
      · simp [replaceIn, he, hk]
      · simp [replaceIn, he, hk, Ne.symm hk]
    · by_cases hk : k = kind
      · subst hk
        simpa [replaceIn, he] using ih
      · simp only [hk, if_false] at ih ⊢
        simp [replaceIn, he, List.find?_cons, ih]

def latest? (r : Registry τ ρ ν) (kind : Kind) : Option (Entry τ ρ ν) :=
  r.entries.find? (·.kind = kind)

theorem setLoader_latest? (r : Registry τ ρ ν) (kind k : Kind) (l : Loader String ν) :
    (r.setLoader kind l).latest? k =
      if k = kind then (r.latest? k).map fun e => { e with loader := l } else r.latest? k :=
  find?_replaceIn kind k l r.entries

theorem registerAll_concat (s : LoaderSettings) (xs : List ((Kind × τ) × ρ)) (x : (Kind × τ) × ρ) :
    registerAll (ν := ν) s (xs ++ [x]) = (registerAll s xs).register x.1.1 x.1.2 x.2 := by
  rw [registerAll, List.foldl_append]
  rfl

theorem registerAll_settings (s : LoaderSettings) (xs : List ((Kind × τ) × ρ)) :
    (registerAll (ν := ν) s xs).settings = s := by
  induction xs using List.reverseRecOn with
  | nil => rfl
  | append_singleton xs x ih =>
    rw [registerAll_concat]
    exact ih

theorem registerAll_latest? (s : LoaderSettings) (xs : List ((Kind × τ) × ρ)) (kind : Kind) :
    (registerAll (ν := ν) s xs).latest? kind =
      (xs.filter (·.1.1 = kind)).getLast?.map fun x => ⟨kind, x.1.2, x.2, Loader.new s⟩ := by
  induction xs using List.reverseRecOn with
  | nil => rfl
  | append_singleton xs x ih =>
    have settings := registerAll_settings (ν := ν) s xs
    rw [registerAll_concat, List.filter_append]
    by_cases own : x.1.1 = kind
    · simp [latest?, register, own, settings]
    · simp only [latest?] at ih
      simp [latest?, register, own, ih]

section Find

variable [DecidableEq τ]

theorem find_eq_ok {r : Registry τ ρ ν} {kind : Kind} {type : τ} {e : Entry τ ρ ν}
    (here : r.latest? kind = some e) (same : e.type = type) : r.find kind type = .ok e := by
  rw [latest?] at here
  simp [find, here, same]

theorem find_eq_error {r : Registry τ ρ ν} {kind : Kind} {type : τ}
    (other : ∀ e, r.latest? kind = some e → e.type ≠ type) :
    r.find kind type = .error (if r.latest? kind = none then notRegistered kind else wrongType kind) := by
  cases here : r.latest? kind with
  | none =>
    rw [latest?] at here
    simp [find, here]
  | some e =>
    have wrong := other e here
    rw [latest?] at here
    simp [find, here, wrong]

end Find

end InfraGraph.Registry
