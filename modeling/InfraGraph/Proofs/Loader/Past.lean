import InfraGraph.Proofs.Loader.Polling
import InfraGraph.Proofs.Loader.Provenance

/-!
The past of a loader: what has happened to it since it was new, whoever did it. Enqueuing a key adds a
drawn ticket to it, and awaiting a ticket adds nothing, or the start of a delay, or one batch that is sent
and answered at once. Whatever awaiting gives was primed or is in an answer of the past.
-/

namespace InfraGraph.Loader

variable {κ ν σ : Type}

inductive Poll (backend : Backend κ ν σ) (s : σ) : List (Event κ ν) → σ → Prop
  | rest : Poll backend s [] s
  | start (i : Nat) : Poll backend s [.started i] s
  | fire (i : Nat) (keys : List κ) :
      Poll backend s [.sent i keys, .answered i keys (backend keys s).1] (backend keys s).2

section Keys

variable [DecidableEq κ]

/-- What has happened to a loader, whatever became of the operations. -/
def Past (st : LoaderSettings) (h : List (Event κ ν)) (l : Loader κ ν) : Prop :=
  ∃ ts, History ⟨new st, []⟩ h ⟨l, ts⟩

variable {st : LoaderSettings} {h : List (Event κ ν)} {l : Loader κ ν}

theorem past_new (st : LoaderSettings) : Past st [] (new st : Loader κ ν) :=
  ⟨[], .nil⟩

theorem Past.enqueue (past : Past st h l) (k : κ) :
    ∃ i, Past st (h ++ [.drew i k (l.enqueue k).1]) (l.enqueue k).2 := by
  obtain ⟨ts, run⟩ := past
  exact ⟨_, _, run.snoc (.load k (.inl rfl))⟩

theorem Past.start (past : Past st h l) {i : Nat} {keys : List κ} (now : Nat)
    (here : l.batches[i]? = some ⟨keys, .gathering none⟩) : Past st (h ++ [.started i]) (l.start i now) := by
  obtain ⟨ts, run⟩ := past
  exact ⟨_, run.snoc (.start now here)⟩

theorem Past.fire (past : Past st h l) {i : Nat} {keys : List κ} {due : Option Nat}
    (here : l.batches[i]? = some ⟨keys, .gathering due⟩) (answer : Answer κ ν) :
    Past st (h ++ [.sent i keys, .answered i keys answer]) (l.setStage i (.answered answer)) := by
  obtain ⟨ts, run⟩ := past
  have sent := setStage_here .sent here
  have answered := (run.snoc (.send (close_eq_some.mpr ⟨due, here, rfl⟩))).snoc
    (.answer answer sent (settle_eq_some.mpr ⟨keys, sent, (setStage_setStage l i _ _).symm⟩))
  exact ⟨_, by simpa using answered⟩

def Given (h : List (Event κ ν)) (k : κ) (t : Ticket ν) (r : Except Fault (Option ν)) : Prop :=
  (∃ v, t = .primed v ∧ r = .ok (some v)) ∨
    ∃ i keys answer, .answered i keys answer ∈ h ∧ r = answer.map (· k)

theorem Past.read (past : Past st h l) {k : κ} {t : Ticket ν} {r : Except Fault (Option ν)}
    (read : l.read k t = some r) : Given h k t r := by
  obtain ⟨ts, run⟩ := past
  cases t with
  | primed v => exact .inl ⟨v, rfl, (Option.some.inj read).symm⟩
  | batch i =>
    simp only [Loader.read] at read
    split at read
    · next keys answer here =>
      exact .inr ⟨i, keys, answer, run.answered_iff.mpr here, (Option.some.inj read).symm⟩
    · simp at read

theorem Past.await (past : Past st h l) (backend : Backend κ ν σ) (now : Nat) (k : κ) (t : Ticket ν)
    (s : σ) : ∃ h', Past st (h ++ h') (l.await backend now k t s).2.1 ∧
      Poll backend s h' (l.await backend now k t s).2.2 ∧
      ∀ r, (l.await backend now k t s).1 = some r → Given (h ++ h') k t r := by
  have same : Past st (h ++ []) l := by rwa [List.append_nil]
  cases t with
  | primed v => exact ⟨[], same, .rest, fun r read => same.read read⟩
  | batch i =>
    unfold Loader.await
    dsimp only
    split
    · next keys here => exact ⟨_, past.start now here, .start i, by simp⟩
    · next keys due here =>
      split
      · rw [dispatch_eq backend here s]
        have fired := past.fire here (backend keys s).1
        exact ⟨_, fired, .fire i keys, fun r read => fired.read read⟩
      · exact ⟨[], same, .rest, by simp⟩
    · exact ⟨[], same, .rest, fun r read => same.read read⟩

theorem Past.ticket_of_unprimed (past : Past st h l) {k : κ} {v : ν} (unprimed : .primed k v ∉ h) :
    (l.enqueue k).1 ≠ .primed v := by
  intro primed
  obtain ⟨i, ts, run⟩ := past.enqueue k
  have ticket := enqueue_ticket? l k
  rw [primed] at ticket
  have mem := run.dispatched.cached k v ticket
  simp [unprimed] at mem

/-- A past sends no key twice, and each call has at least one key and at most as many as are allowed. -/
theorem Past.calls (past : Past st h l) : ((calls h).map Prod.snd).flatten.Nodup ∧
    ∀ keys ∈ (Loader.calls h).map Prod.snd, 1 ≤ keys.length ∧ keys.length ≤ max 1 st.maxBatch := by
  obtain ⟨ts, run⟩ := past
  have d := run.dispatched
  refine ⟨by simpa [List.flatMap_def] using d.keys_nodup, fun keys mem => ?_⟩
  obtain ⟨c, hc, rfl⟩ := List.mem_map.mp mem
  obtain ⟨b, hb, hk⟩ := callAt_eq_some ((d.called c.1 c.2).mp hc)
  have size := d.assigned.size_le c.1
  rw [d.keysAt_of_call hc, run.capacity] at size
  exact ⟨List.length_pos_iff.mpr (hk ▸ d.assigned.nonempty _ b hb), size⟩

end Keys

end InfraGraph.Loader
