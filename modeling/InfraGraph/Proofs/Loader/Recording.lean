import InfraGraph.Loader.Schedule

/-!
The calls of a run. A backend can keep a record of its calls beside its state. No loader sees the record, so
a run with it is the run without it, and the record tells which calls were made and in which order.
-/

namespace InfraGraph.Loader

variable {κ ν σ τ : Type}

/-- A backend that also keeps the keys of its calls, the first call first. -/
def recording (backend : Backend κ ν σ) : Backend κ ν (σ × List (List κ)) := fun keys s =>
  ((backend keys s.1).1, (backend keys s.1).2, s.2 ++ [keys])

/-- A backend answers as another does whose state is a part of its own. -/
def Refines (forget : τ → σ) (fine : Backend κ ν τ) (backend : Backend κ ν σ) : Prop :=
  ∀ keys s, backend keys (forget s) = ((fine keys s).1, forget (fine keys s).2)

theorem recording_refines (backend : Backend κ ν σ) : Refines Prod.fst (recording backend) backend :=
  fun _ _ => rfl

def lower {α : Type} (forget : τ → σ) (out : α × Loader κ ν × τ) : α × Loader κ ν × σ :=
  (out.1, out.2.1, forget out.2.2)

section Forget

variable {forget : τ → σ} {fine : Backend κ ν τ} {backend : Backend κ ν σ}

theorem dispatch_forget (refines : Refines forget fine backend) (i : Nat) (l : Loader κ ν) (s : τ) :
    l.dispatch backend i (forget s) = ((l.dispatch fine i s).1, forget (l.dispatch fine i s).2) := by
  unfold dispatch
  cases l.close i with
  | none => rfl
  | some closed =>
    obtain ⟨keys, l⟩ := closed
    simp only [refines keys s]

theorem await_forget (refines : Refines forget fine backend) (now : Nat) (k : κ) (t : Ticket ν)
    (l : Loader κ ν) (s : τ) :
    l.await backend now k t (forget s) = lower forget (l.await fine now k t s) := by
  cases t with
  | primed v => rfl
  | batch i =>
    unfold await
    dsimp only
    split
    · rfl
    · split
      · rw [dispatch_forget refines]
        rfl
      · rfl
    · rfl

theorem gather_forget (refines : Refines forget fine backend) (now : Nat) (rest : List (κ × Ticket ν))
    (found : List (κ × ν)) (l : Loader κ ν) (s : τ) :
    gather backend now rest found l (forget s) = lower forget (gather fine now rest found l s) := by
  induction rest generalizing found l s with
  | nil => rfl
  | cons p rest ih =>
    obtain ⟨k, t⟩ := p
    unfold gather
    rw [await_forget refines]
    generalize l.await fine now k t s = out
    obtain ⟨result, l, s⟩ := out
    match result with
    | none => rfl
    | some (.error f) => rfl
    | some (.ok none) => exact ih found l s
    | some (.ok (some v)) => exact ih (found ++ [(k, v)]) l s

theorem poll_forget (refines : Refines forget fine backend) (now : Nat) (l : Loader κ ν) (s : τ)
    (r : Running κ ν) : r.poll backend now l (forget s) = lower forget (r.poll fine now l s) := by
  cases r with
  | finished outcome => rfl
  | gathering rest found => exact gather_forget refines now rest found l s
  | loading k t =>
    simp only [Running.poll, await_forget refines, lower]
    generalize l.await fine now k t s = out
    obtain ⟨result, l, s⟩ := out
    cases result <;> rfl

theorem pollAll_forget (refines : Refines forget fine backend) (now : Nat) (l : Loader κ ν) (s : τ)
    (rs : List (Running κ ν)) :
    Running.pollAll backend now l (forget s) rs = lower forget (Running.pollAll fine now l s rs) := by
  induction rs generalizing l s with
  | nil => rfl
  | cons r rs ih =>
    simp only [Running.pollAll, poll_forget refines, lower, ih]

theorem finish_forget (refines : Refines forget fine backend) (fuel now : Nat) (l : Loader κ ν) (s : τ)
    (rs : List (Running κ ν)) :
    finish backend fuel now l (forget s) rs =
      let out := finish fine fuel now l s rs
      (out.1, out.2.1, out.2.2.1, forget out.2.2.2) := by
  induction fuel generalizing now l s rs with
  | zero => rfl
  | succ fuel ih =>
    unfold finish
    cases l.nextDue rs with
    | none => rfl
    | some due => simp only [pollAll_forget refines, lower, ih]

section Keys

variable [BEq κ]

theorem launch_forget (refines : Refines forget fine backend) (now : Nat) (l : Loader κ ν) (s : τ)
    (o : Operation κ ν) :
    l.launch backend now (forget s) o = lower forget (l.launch fine now s o) := by
  cases o with
  | load k => simp only [launch, poll_forget refines]
  | loadMany ks => simp only [launch, poll_forget refines]
  | prime k v => rfl
  | abandon k =>
    simp only [launch, await_forget refines, lower]
    generalize (l.enqueue k).2.await fine now k (l.enqueue k).1 s = out
    obtain ⟨result, l, s⟩ := out
    cases result <;> rfl

theorem launchAll_forget (refines : Refines forget fine backend) (now : Nat) (l : Loader κ ν) (s : τ)
    (os : List (Operation κ ν)) :
    l.launchAll backend now (forget s) os = lower forget (l.launchAll fine now s os) := by
  induction os generalizing l s with
  | nil => rfl
  | cons o os ih =>
    simp only [launchAll, launch_forget refines, lower, ih]

theorem run_forget (refines : Refines forget fine backend) (now : Nat) (l : Loader κ ν) (s : τ)
    (os : List (Operation κ ν)) :
    l.run backend now (forget s) os =
      let out := l.run fine now s os
      (out.1, out.2.1, out.2.2.1, forget out.2.2.2) := by
  simp only [run, launchAll_forget refines, lower, finish_forget refines]

def callsOf (backend : Backend κ ν σ) (now : Nat) (l : Loader κ ν) (s : σ) (os : List (Operation κ ν)) :
    List (List κ) :=
  (l.run (recording backend) now (s, []) os).2.2.2.2

theorem run_recording (backend : Backend κ ν σ) (now : Nat) (l : Loader κ ν) (s : σ)
    (os : List (Operation κ ν)) :
    l.run (recording backend) now (s, []) os =
      let out := l.run backend now s os
      (out.1, out.2.1, out.2.2.1, out.2.2.2, callsOf backend now l s os) := by
  rw [run_forget (recording_refines backend) now l (s, []) os]
  rfl

end Keys

end Forget

end InfraGraph.Loader
