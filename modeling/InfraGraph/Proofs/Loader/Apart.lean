import InfraGraph.Proofs.Loader.Quiet
import InfraGraph.Proofs.Loader.Recording
import InfraGraph.Proofs.Loader.Registry

/-!
Loaders of one registry do not meddle with each other. A step that finds the loader it asks for does with it
what it would do if there were no other, and leaves all other loaders and sources alone; a step that does not
find it leaves everything alone.
-/

namespace InfraGraph.Registry

open Loader (Fetches Quiet recording)

variable {τ ρ ν σ : Type}

abbrev Lookups (ν σ : Type) :=
  String → Loader String ν → σ → Except Fault (Option ν) → Loader String ν → σ → Prop

inductive Does (looks : Lookups ν σ) (kind : Kind) :
    Action ν → Loader String ν → σ → Except Fault (Reply ν) → Loader String ν → σ → Prop
  | load {id : String} {l l' : Loader String ν} {s s' : σ} {result : Except Fault (Option ν)} :
      looks id l s result l' s' → Does looks kind (.load id) l s (result.map .loaded) l' s'
  | require {id : String} {l l' : Loader String ν} {s s' : σ} {result : Except Fault (Option ν)} :
      looks id l s result l' s' →
      Does looks kind (.require id) l s ((demand kind id result).map .required) l' s'
  | prime {l : Loader String ν} {s : σ} (id : String) (value : ν) :
      Does looks kind (.prime id value) l s (.ok .primed) (l.prime id value) s
  | has {l : Loader String ν} {s : σ} : Does looks kind .has l s (.ok .present) l s

def Looks (backend : Loader.Backend String ν σ) : Lookups ν σ := fun id l s result l' s' =>
  ∀ now, ∃ now', l.run backend now s [.load id] = ([.loaded result], now', l', s')

theorem Looks.unique {backend : Loader.Backend String ν σ} {id : String} {l l₁ l₂ : Loader String ν}
    {s s₁ s₂ : σ} {result₁ result₂ : Except Fault (Option ν)} (one : Looks backend id l s result₁ l₁ s₁)
    (two : Looks backend id l s result₂ l₂ s₂) : result₁ = result₂ ∧ l₁ = l₂ ∧ s₁ = s₂ := by
  obtain ⟨now₁, run₁⟩ := one 0
  obtain ⟨now₂, run₂⟩ := two 0
  rw [run₁] at run₂
  obtain ⟨outcomes, rest⟩ := Prod.mk.inj run₂
  obtain ⟨-, rest⟩ := Prod.mk.inj rest
  exact ⟨Loader.Outcome.loaded.inj (List.cons.inj outcomes).1, Prod.mk.inj rest⟩

namespace Does

variable {backend : Loader.Backend String ν σ} {kind : Kind} {action : Action ν} {l l' l₁ l₂ : Loader String ν}
  {s s' s₁ s₂ : σ} {reply reply₁ reply₂ : Except Fault (Reply ν)}

theorem quiet (does : Does (Fetches backend) kind action l s reply l' s') (before : Quiet l) :
    Quiet l' := by
  cases does with
  | load fetches => exact fetches.quiet before
  | require fetches => exact fetches.quiet before
  | prime id value => exact before.prime id value
  | has => exact before

theorem looks (does : Does (Fetches backend) kind action l s reply l' s') (before : Quiet l) :
    Does (Looks backend) kind action l s reply l' s' := by
  cases does with
  | load fetches => exact .load (fetches.run before)
  | require fetches => exact .require (fetches.run before)
  | prime id value => exact .prime id value
  | has => exact .has

theorem unique (one : Does (Looks backend) kind action l s reply₁ l₁ s₁)
    (two : Does (Looks backend) kind action l s reply₂ l₂ s₂) : reply₁ = reply₂ ∧ l₁ = l₂ ∧ s₁ = s₂ := by
  cases one with
  | load one =>
    cases two with
    | load two =>
      obtain ⟨rfl, rfl, rfl⟩ := one.unique two
      exact ⟨rfl, rfl, rfl⟩
  | require one =>
    cases two with
    | require two =>
      obtain ⟨rfl, rfl, rfl⟩ := one.unique two
      exact ⟨rfl, rfl, rfl⟩
  | prime id value =>
    cases two
    exact ⟨rfl, rfl, rfl⟩
  | has =>
    cases two
    exact ⟨rfl, rfl, rfl⟩

section Sources

variable [DecidableEq ρ] {backends : ρ → Loader.Backend String ν σ} {source : ρ} {w w' : ρ → σ}

theorem fetches_apart {id : String} {result : Except Fault (Option ν)}
    (fetches : Fetches (apart backends source) id l w result l' w') :
    Fetches (backends source) id l (w source) result l' (w' source) ∧
      ∀ other, other ≠ source → w' other = w other := by
  cases fetches with
  | known ticket read => exact ⟨.known ticket read, fun _ _ => rfl⟩
  | fresh unknown =>
    have own : (apart backends source [id] w).2 source = (backends source [id] (w source)).2 := if_pos rfl
    rw [own]
    exact ⟨.fresh unknown, fun other ne => if_neg ne⟩

theorem apart (does : Does (Fetches (apart backends source)) kind action l w reply l' w') :
    Does (Fetches (backends source)) kind action l (w source) reply l' (w' source) ∧
      ∀ other, other ≠ source → w' other = w other := by
  cases does with
  | load fetches => exact (fetches_apart fetches).imp .load id
  | require fetches => exact (fetches_apart fetches).imp .require id
  | prime key value => exact ⟨.prime key value, fun _ _ => rfl⟩
  | has => exact ⟨.has, fun _ _ => rfl⟩

end Sources

end Does

namespace Session

variable [DecidableEq τ]

theorem step_refused (backend : ρ → Loader.Backend String ν σ) {s : Session τ ρ ν σ} {x : Step τ ν} {f : Fault}
    (refused : s.registry.find x.kind x.type = .error f) : s.step backend x = (.error f, s) := by
  unfold step
  cases x.action with
  | load id =>
    simp only [Registry.load, refused]
    rfl
  | require id =>
    simp only [Registry.load, refused]
    rfl
  | prime id value =>
    simp only [Registry.prime, refused]
    rfl
  | has =>
    simp only [refused]
    rfl

theorem step_found (backend : ρ → Loader.Backend String ν σ) {s : Session τ ρ ν σ} {x : Step τ ν}
    {e : Entry τ ρ ν} (here : s.registry.latest? x.kind = some e) (same : e.type = x.type)
    (quiet : Quiet e.loader) :
    ∃ l, Does (Fetches (backend e.source)) x.kind x.action e.loader s.state (s.step backend x).1 l
        (s.step backend x).2.state ∧
      ∀ k, (s.step backend x).2.registry.latest? k =
        if k = x.kind then some { e with loader := l } else s.registry.latest? k := by
  have found := find_eq_ok here same
  have changed (l : Loader String ν) (k : Kind) : (s.registry.setLoader x.kind l).latest? k =
      if k = x.kind then some { e with loader := l } else s.registry.latest? k := by
    rw [setLoader_latest?]
    split
    next eq => rw [eq, here]; rfl
    next => rfl
  have lookup (id : String) : ∃ result l w now', Fetches (backend e.source) id e.loader s.state result l w ∧
      s.registry.load backend s.now s.state x.kind x.type id =
        (result, now', s.registry.setLoader x.kind l, w) := by
    obtain ⟨result, l, w, fetches⟩ := quiet.fetches (backend e.source) id s.state
    obtain ⟨now', run⟩ := fetches.run quiet s.now
    exact ⟨result, l, w, now', fetches, by simp only [Registry.load, found, run]⟩
  unfold step
  cases x.action with
  | load id =>
    obtain ⟨result, l, w, now', fetches, load⟩ := lookup id
    simp only [load]
    exact ⟨l, .load fetches, changed l⟩
  | require id =>
    obtain ⟨result, l, w, now', fetches, load⟩ := lookup id
    simp only [load]
    exact ⟨l, .require fetches, changed l⟩
  | prime id value =>
    have primed : s.registry.prime x.kind x.type id value =
        .ok (s.registry.setLoader x.kind (e.loader.prime id value)) := by
      rw [Registry.prime, found]
      rfl
    simp only [primed]
    exact ⟨_, .prime id value, changed _⟩
  | has =>
    simp only [found]
    refine ⟨e.loader, .has, fun k => ?_⟩
    split
    next eq => rw [eq, here]
    next => rfl

end Session

def shape (r : Registry τ ρ ν) (kind : Kind) : Option (τ × ρ) :=
  (r.latest? kind).map fun e => (e.type, e.source)

theorem shape_of_latest? {r : Registry τ ρ ν} {kind : Kind} {e : Entry τ ρ ν} (here : r.latest? kind = some e) :
    r.shape kind = some (e.type, e.source) := by
  rw [shape, here, Option.map_some]

namespace Session

/-- All loaders wait for nothing, and no two kinds share a source. -/
structure Sound (s : Session τ ρ ν σ) : Prop where
  quiet : ∀ k e, s.registry.latest? k = some e → Quiet e.loader
  own : ∀ k k' t t' p, s.registry.shape k = some (t, p) → s.registry.shape k' = some (t', p) → k = k'

section Sources

variable {backends : ρ → Loader.Backend String ν σ} {s s' : Session τ ρ ν (ρ → σ)} {x : Step τ ν}
  {reply : Except Fault (Reply ν)}

inductive Steps (backends : ρ → Loader.Backend String ν σ) (s : Session τ ρ ν (ρ → σ)) (x : Step τ ν) :
    Except Fault (Reply ν) → Session τ ρ ν (ρ → σ) → Prop
  | refused : (∀ e, s.registry.latest? x.kind = some e → e.type ≠ x.type) →
      Steps backends s x
        (.error (if s.registry.latest? x.kind = none then notRegistered x.kind else wrongType x.kind)) s
  | found {e : Entry τ ρ ν} {l : Loader String ν} {reply : Except Fault (Reply ν)}
      {s' : Session τ ρ ν (ρ → σ)} :
      s.registry.latest? x.kind = some e → e.type = x.type →
      Does (Fetches (backends e.source)) x.kind x.action e.loader (s.state e.source) reply l
        (s'.state e.source) →
      (∀ other, other ≠ e.source → s'.state other = s.state other) →
      (∀ k, s'.registry.latest? k =
        if k = x.kind then some { e with loader := l } else s.registry.latest? k) →
      Steps backends s x reply s'

theorem Sound.steps [DecidableEq τ] [DecidableEq ρ] (sound : s.Sound)
    (backends : ρ → Loader.Backend String ν σ) (x : Step τ ν) :
    Steps backends s x (s.step (apart backends) x).1 (s.step (apart backends) x).2 := by
  by_cases finds : ∃ e, s.registry.latest? x.kind = some e ∧ e.type = x.type
  · obtain ⟨e, here, same⟩ := finds
    obtain ⟨l, does, entries⟩ := step_found (apart backends) here same (sound.quiet _ e here)
    exact .found here same does.apart.1 does.apart.2 entries
  · have other : ∀ e, s.registry.latest? x.kind = some e → e.type ≠ x.type :=
      fun e here same => finds ⟨e, here, same⟩
    rw [step_refused _ (find_eq_error other)]
    exact .refused other

theorem Steps.shape (steps : Steps backends s x reply s') (k : Kind) :
    s'.registry.shape k = s.registry.shape k := by
  cases steps with
  | refused => rfl
  | found here same does rest entries =>
    rw [Registry.shape, entries]
    split
    next eq => rw [eq, shape_of_latest? here, Option.map_some]
    next => rfl

theorem Steps.sound (steps : Steps backends s x reply s') (sound : s.Sound) : s'.Sound where
  quiet k e' here' := by
    cases steps with
    | refused => exact sound.quiet k e' here'
    | found here same does rest entries =>
      rw [entries] at here'
      split at here'
      next =>
        obtain rfl := Option.some.inj here'
        exact does.quiet (sound.quiet _ _ here)
      next => exact sound.quiet k e' here'
  own k k' t t' p one two := by
    rw [steps.shape] at one two
    exact sound.own k k' t t' p one two

theorem Steps.unused (steps : Steps backends s x reply s') {source : ρ}
    (unused : ∀ k t, s.registry.shape k ≠ some (t, source)) : s'.state source = s.state source := by
  cases steps with
  | refused => rfl
  | @found e l reply s' here same does rest entries =>
    apply rest
    rintro rfl
    exact unused x.kind e.type (shape_of_latest? here)

theorem Steps.other (steps : Steps backends s x reply s') (sound : s.Sound) {kind : Kind} (other : x.kind ≠ kind)
    {e : Entry τ ρ ν} (here : s.registry.latest? kind = some e) :
    s'.registry.latest? kind = some e ∧ s'.state e.source = s.state e.source := by
  cases steps with
  | refused => exact ⟨here, rfl⟩
  | found here' same does rest entries =>
    refine ⟨by rw [entries, if_neg other.symm, here], rest _ fun shared => other ?_⟩
    exact sound.own _ _ _ _ _ (shape_of_latest? here') (shared ▸ shape_of_latest? here)

end Sources

end Session

def repliesTo (kind : Kind) (xs : List (Step τ ν)) (replies : List (Except Fault (Reply ν))) :
    List (Except Fault (Reply ν)) :=
  ((xs.zip replies).filter (·.1.kind = kind)).map (·.2)

theorem repliesTo_cons (kind : Kind) (x : Step τ ν) (xs : List (Step τ ν)) (reply : Except Fault (Reply ν))
    (replies : List (Except Fault (Reply ν))) : repliesTo kind (x :: xs) (reply :: replies) =
      if x.kind = kind then reply :: repliesTo kind xs replies else repliesTo kind xs replies := by
  by_cases own : x.kind = kind <;> simp [repliesTo, own]

/-- Steps on one kind, taken with nothing but the loader that was registered for it. -/
inductive Alone (looks : Lookups ν σ) (kind : Kind) (type : τ) : List (Step τ ν) → Loader String ν → σ →
    List (Except Fault (Reply ν)) → Loader String ν → σ → Prop
  | nil {l : Loader String ν} {s : σ} : Alone looks kind type [] l s [] l s
  | mistyped {x : Step τ ν} {xs : List (Step τ ν)} {l l' : Loader String ν} {s s' : σ}
      {replies : List (Except Fault (Reply ν))} : x.type ≠ type →
      Alone looks kind type xs l s replies l' s' →
      Alone looks kind type (x :: xs) l s (.error (wrongType kind) :: replies) l' s'
  | cons {x : Step τ ν} {xs : List (Step τ ν)} {l l₁ l' : Loader String ν} {s s₁ s' : σ}
      {reply : Except Fault (Reply ν)} {replies : List (Except Fault (Reply ν))} : x.type = type →
      Does looks kind x.action l s reply l₁ s₁ → Alone looks kind type xs l₁ s₁ replies l' s' →
      Alone looks kind type (x :: xs) l s (reply :: replies) l' s'

theorem Alone.unique {backend : Loader.Backend String ν σ} {kind : Kind} {type : τ} {xs : List (Step τ ν)}
    {l l₁ l₂ : Loader String ν} {s s₁ s₂ : σ} {replies₁ replies₂ : List (Except Fault (Reply ν))}
    (one : Alone (Looks backend) kind type xs l s replies₁ l₁ s₁)
    (two : Alone (Looks backend) kind type xs l s replies₂ l₂ s₂) :
    replies₁ = replies₂ ∧ l₁ = l₂ ∧ s₁ = s₂ := by
  induction one generalizing replies₂ with
  | nil =>
    cases two
    exact ⟨rfl, rfl, rfl⟩
  | mistyped other _ ih =>
    cases two with
    | mistyped _ rest =>
      obtain ⟨rfl, same⟩ := ih rest
      exact ⟨rfl, same⟩
    | cons same _ _ => exact absurd same other
  | cons same does _ ih =>
    cases two with
    | mistyped other _ => exact absurd same other
    | cons _ does' rest =>
      obtain ⟨rfl, rfl, rfl⟩ := does.unique does'
      obtain ⟨rfl, same⟩ := ih rest
      exact ⟨rfl, same⟩

def Step.lenient (x : Step τ ν) : Step τ ν :=
  match x.action with
  | .require id => { x with action := .load id }
  | _ => x

def Step.insist (x : Step τ ν) (reply : Except Fault (Reply ν)) : Except Fault (Reply ν) :=
  match x.action, reply with
  | .require id, .ok (.loaded none) => .error (.missing x.kind id)
  | .require _, .ok (.loaded (some value)) => .ok (.required value)
  | _, reply => reply

namespace Session

section Run

variable [DecidableEq τ]

theorem run_cons (backend : ρ → Loader.Backend String ν σ) (s : Session τ ρ ν σ) (x : Step τ ν)
    (xs : List (Step τ ν)) : s.run backend (x :: xs) =
      ((s.step backend x).1 :: ((s.step backend x).2.run backend xs).1,
        ((s.step backend x).2.run backend xs).2) :=
  rfl

theorem run_append (backend : ρ → Loader.Backend String ν σ) (s : Session τ ρ ν σ) (xs ys : List (Step τ ν)) :
    s.run backend (xs ++ ys) =
      ((s.run backend xs).1 ++ ((s.run backend xs).2.run backend ys).1,
        ((s.run backend xs).2.run backend ys).2) := by
  induction xs generalizing s with
  | nil => rfl
  | cons x xs ih => simp only [List.cons_append, run_cons, ih]

theorem run_length (backend : ρ → Loader.Backend String ν σ) (s : Session τ ρ ν σ) (xs : List (Step τ ν)) :
    (s.run backend xs).1.length = xs.length := by
  induction xs generalizing s with
  | nil => rfl
  | cons x xs ih => simp only [run_cons, List.length_cons, ih]

theorem step_lenient (backend : ρ → Loader.Backend String ν σ) (s : Session τ ρ ν σ) (x : Step τ ν) :
    s.step backend x = (x.insist (s.step backend x.lenient).1, (s.step backend x.lenient).2) := by
  obtain ⟨kind, type, action⟩ := x
  cases action with
  | require id =>
    simp only [step, Step.lenient]
    generalize s.registry.load backend s.now s.state kind type id = out
    obtain ⟨result, now, r, w⟩ := out
    match result with
    | .error f => rfl
    | .ok none => rfl
    | .ok (some value) => rfl
  | load id => rfl
  | prime id value => rfl
  | has => rfl

theorem run_lenient (backend : ρ → Loader.Backend String ν σ) (s : Session τ ρ ν σ) (xs : List (Step τ ν)) :
    s.run backend xs = (xs.zipWith Step.insist (s.run backend (xs.map Step.lenient)).1,
      (s.run backend (xs.map Step.lenient)).2) := by
  induction xs generalizing s with
  | nil => rfl
  | cons x xs ih => rw [run_cons, step_lenient, ih, List.map_cons, run_cons, List.zipWith_cons_cons]

variable [DecidableEq ρ] {backends : ρ → Loader.Backend String ν σ} {s : Session τ ρ ν (ρ → σ)}

theorem Sound.run_shape (sound : s.Sound) (xs : List (Step τ ν)) (k : Kind) :
    (s.run (apart backends) xs).2.registry.shape k = s.registry.shape k := by
  induction xs generalizing s with
  | nil => rfl
  | cons x xs ih =>
    have steps := sound.steps backends x
    rw [run_cons, ih (steps.sound sound), steps.shape]

theorem Sound.run_unused (sound : s.Sound) (xs : List (Step τ ν)) {source : ρ}
    (unused : ∀ k t, s.registry.shape k ≠ some (t, source)) :
    (s.run (apart backends) xs).2.state source = s.state source := by
  induction xs generalizing s with
  | nil => rfl
  | cons x xs ih =>
    have steps := sound.steps backends x
    rw [run_cons, ih (steps.sound sound) fun k t => by rw [steps.shape]; exact unused k t, steps.unused unused]

theorem Sound.run_alone (sound : s.Sound) (backends : ρ → Loader.Backend String ν σ) {kind : Kind} {e : Entry τ ρ ν}
    (here : s.registry.latest? kind = some e) (xs : List (Step τ ν)) :
    ∃ l, Alone (Looks (backends e.source)) kind e.type (xs.filter (·.kind = kind)) e.loader (s.state e.source)
      (repliesTo kind xs (s.run (apart backends) xs).1) l
      ((s.run (apart backends) xs).2.state e.source) := by
  induction xs generalizing s e with
  | nil => exact ⟨e.loader, .nil⟩
  | cons x xs ih =>
    have steps := sound.steps backends x
    have sound' := steps.sound sound
    rw [run_cons, repliesTo_cons]
    generalize (s.step (apart backends) x).1 = reply at steps
    generalize (s.step (apart backends) x).2 = s' at steps sound'
    -- a step on this kind is one for its loader alone, and a step on another kind is none
    by_cases own : x.kind = kind
    · subst own
      rw [if_pos rfl, List.filter_cons_of_pos (by simp)]
      cases steps with
      | refused wrong =>
        obtain ⟨l, rest⟩ := ih sound here
        rw [here, if_neg nofun]
        exact ⟨l, .mistyped (wrong e here).symm rest⟩
      | found here' same does rest entries =>
        obtain rfl := Option.some.inj (here'.symm.trans here)
        obtain ⟨l, rest⟩ := ih sound' (by rw [entries, if_pos rfl])
        exact ⟨l, .cons same.symm (does.looks (sound.quiet _ _ here)) rest⟩
    · obtain ⟨kept, untouched⟩ := steps.other sound own here
      rw [if_neg own, List.filter_cons_of_neg (by simpa using own), ← untouched]
      exact ih sound' kept

end Run

end Session

def lastOf (kind : Kind) (registrations : List (Kind × τ)) : Option (τ × Nat) :=
  (registrations.zipIdx.filter (·.1.1 = kind)).getLast?.map fun x => (x.1.2, x.2)

theorem lastOf_eq_some {kind : Kind} {registrations : List (Kind × τ)} {type : τ} {n : Nat}
    (last : lastOf kind registrations = some (type, n)) : registrations[n]? = some (kind, type) ∧
      ∀ i type', registrations[i]? = some (kind, type') → i ≤ n := by
  obtain ⟨⟨⟨own, type⟩, n⟩, final, same⟩ := Option.map_eq_some_iff.mp last
  obtain ⟨rfl, rfl⟩ := Prod.mk.inj same
  obtain ⟨front, parts⟩ := List.getLast?_eq_some_iff.mp final
  have ordered : (registrations.zipIdx.filter (·.1.1 = kind)).Pairwise fun x y => x.2 < y.2 := by
    apply List.Pairwise.filter
    rw [← List.pairwise_map (f := Prod.snd) (R := (· < ·)), List.zipIdx_map_snd]
    exact List.pairwise_lt_range'
  have here : ((own, type), n) ∈ registrations.zipIdx.filter (·.1.1 = kind) := by
    rw [parts]
    exact List.mem_append_right _ (List.mem_singleton_self _)
  obtain ⟨listed, rfl⟩ : ((own, type), n) ∈ registrations.zipIdx ∧ own = kind := by
    simpa only [List.mem_filter, decide_eq_true_iff] using here
  refine ⟨List.mk_mem_zipIdx_iff_getElem?.mp listed, fun i type' found => ?_⟩
  have earlier : ((own, type'), i) ∈ registrations.zipIdx.filter (·.1.1 = own) := by
    simpa using List.mk_mem_zipIdx_iff_getElem?.mpr found
  rw [parts] at ordered earlier
  rcases List.mem_append.mp earlier with before | final
  · exact Nat.le_of_lt ((List.pairwise_append.mp ordered).2.2 _ before _ (List.mem_singleton_self _))
  · exact Nat.le_of_eq (congrArg Prod.snd (List.mem_singleton.mp final))

namespace Session

/-- A session at its beginning: each loader that was registered has a source of its own, and no calls have
been made. -/
def start (settings : LoaderSettings) (registrations : List (Kind × τ)) (w : Nat → σ) :
    Session τ Nat ν (Nat → σ × List (List String)) :=
  ⟨0, registerAll settings registrations.zipIdx, fun n => (w n, [])⟩

variable (settings : LoaderSettings) (registrations : List (Kind × τ)) (w : Nat → σ)

theorem start_latest? (kind : Kind) : (start (ν := ν) settings registrations w).registry.latest? kind =
    (lastOf kind registrations).map fun x => ⟨kind, x.1, x.2, .new settings⟩ := by
  rw [start, registerAll_latest?, lastOf, Option.map_map]
  rfl

theorem start_shape (kind : Kind) :
    (start (ν := ν) settings registrations w).registry.shape kind = lastOf kind registrations := by
  rw [shape, start_latest?, Option.map_map]
  exact Option.map_id'

theorem start_sound : (start (ν := ν) settings registrations w).Sound where
  quiet k e here := by
    rw [start_latest?] at here
    obtain ⟨x, -, rfl⟩ := Option.map_eq_some_iff.mp here
    exact Loader.quiet_new settings
  own k k' t t' p one two := by
    rw [start_shape] at one two
    have same := (lastOf_eq_some one).1.symm.trans (lastOf_eq_some two).1
    exact congrArg Prod.fst (Option.some.inj same)

end Session

/-- Whatever steps are taken: the replies to the steps on one kind, and the calls of its source, are those of
these steps taken with the last loader that was registered for it alone; a source that was registered earlier
for the same kind is left as it was; a step on a kind or of a type that was not registered fails, and the
session goes on as it would have without it; and a lookup that must find something differs from one that may
find nothing in its reply only. -/
theorem loaders_apart [DecidableEq τ] (settings : LoaderSettings) (registrations : List (Kind × τ))
    (backends : Nat → Loader.Backend String ν σ) (w : Nat → σ) (xs : List (Step τ ν)) :
    let run := (Session.start settings registrations w).run (apart fun n => recording (backends n))
    (∀ kind type n, lastOf kind registrations = some (type, n) → ∃ l, ∀ replies l' s',
      Alone (Looks (recording (backends n))) kind type (xs.filter (·.kind = kind)) (.new settings) (w n, [])
        replies l' s' ↔ replies = repliesTo kind xs (run xs).1 ∧ l' = l ∧ s' = (run xs).2.state n) ∧
    (∀ i j kind type type', i < j → registrations[i]? = some (kind, type) →
      registrations[j]? = some (kind, type') → (run xs).2.state i = (w i, [])) ∧
    (∀ before x after, xs = before ++ x :: after → (∀ n, lastOf x.kind registrations ≠ some (x.type, n)) →
      ∃ f replies replies', f.code = .internal ∧ replies.length = before.length ∧
        (run xs).1 = replies ++ .error f :: replies' ∧
        run (before ++ after) = (replies ++ replies', (run xs).2)) ∧
    run xs = (xs.zipWith Step.insist (run (xs.map Step.lenient)).1, (run (xs.map Step.lenient)).2) := by
  intro run
  have sound := Session.start_sound (ν := ν) settings registrations w
  refine ⟨fun kind type n last => ?_, fun i j kind type type' before first second => ?_,
    fun before x after parts other => ?_, Session.run_lenient _ _ xs⟩
  · have here := Session.start_latest? (ν := ν) settings registrations w kind
    rw [last] at here
    obtain ⟨l, alone⟩ := sound.run_alone (fun n => recording (backends n)) here xs
    refine ⟨l, fun replies l' s' => ⟨fun other => other.unique alone, ?_⟩⟩
    rintro ⟨rfl, rfl, rfl⟩
    exact alone
  -- a source stays unused unless it is the last one of its kind
  · refine sound.run_unused xs fun k t => ?_
    rw [Session.start_shape]
    intro last
    obtain ⟨here, latest⟩ := lastOf_eq_some last
    obtain ⟨rfl, -⟩ := Prod.mk.inj (Option.some.inj (first.symm.trans here))
    exact absurd (latest j type' second) (Nat.not_le_of_lt before)
  · have refused : ∀ e, (run before).2.registry.latest? x.kind = some e → e.type ≠ x.type := by
      intro e here same
      have last := shape_of_latest? here
      rw [sound.run_shape before, Session.start_shape, same] at last
      exact other e.source last
    have skipped := Session.step_refused (apart fun n => recording (backends n)) (find_eq_error refused)
    have all : run xs = _ := parts ▸ Session.run_append _ _ before (x :: after)
    rw [Session.run_cons, skipped] at all
    refine ⟨_, (run before).1, _, ?_, Session.run_length _ _ before, congrArg Prod.fst all, ?_⟩
    · split <;> rfl
    · rw [all]
      exact Session.run_append _ _ before after

def lengths : Loader.Backend String Nat Unit := fun _ s =>
  (.ok fun id => some id.length, s)

def groupsTwice : List (Kind × Nat) :=
  [(.group, 0), (.role, 1), (.group, 1)]

def mistypedBetween : List (Step Nat Nat) :=
  [⟨.group, 1, .load "ops"⟩, ⟨.role, 0, .load "dev"⟩, ⟨.group, 1, .require "ops"⟩]

theorem loaders_apart_mistyped :
    let run := (Session.start ⟨1, 10⟩ groupsTwice fun _ => ()).run (apart fun _ => recording lengths)
    (run mistypedBetween).2.state 0 = ((), []) ∧ (run mistypedBetween).2.state 2 = ((), [["ops"]]) ∧
    (∃ l, Alone (Looks (recording lengths)) .group 1
      [⟨.group, 1, .load "ops"⟩, ⟨.group, 1, .require "ops"⟩] (.new ⟨1, 10⟩) ((), [])
      [.ok (.loaded (some 3)), .ok (.required 3)] l ((), [["ops"]])) ∧
    ∃ f replies replies', f.code = .internal ∧ replies.length = 1 ∧
      (run mistypedBetween).1 = replies ++ .error f :: replies' := by
  obtain ⟨alone, earlier, refused, -⟩ :=
    loaders_apart (τ := Nat) ⟨1, 10⟩ groupsTwice (fun _ => lengths) (fun _ => ()) mistypedBetween
  obtain ⟨l, own⟩ := alone .group 1 2 (by decide)
  obtain ⟨f, replies, replies', code, length, all, -⟩ :=
    refused [⟨.group, 1, .load "ops"⟩] ⟨.role, 0, .load "dev"⟩ [⟨.group, 1, .require "ops"⟩] rfl
      fun _ last => nomatch (show some (1, 1) = some (0, _) from last)
  exact ⟨earlier 0 2 .group 0 1 (by decide) rfl rfl, rfl, ⟨l, (own _ l _).mpr ⟨rfl, rfl, rfl⟩⟩,
    f, replies, replies', code, length, all⟩

end InfraGraph.Registry
