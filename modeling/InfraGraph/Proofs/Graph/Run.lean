import InfraGraph.Proofs.Graph.Passes

/-!
What a run of work comes to. As long as no fault is used up, a pass changes nothing of how the work
reads, and each lookup that it makes is known to its registry from then on. Who made a lookup waits for
its answer, so at the end no lookup is left without one. Hence the result of a run is the reading of the
work, and a registry has kept what it had before and the lookups of the reading.
-/

namespace InfraGraph.Graph

open World (Awaited Enqueued Evolves)

structure View.Shows (v : View) (w : World) : Prop where
  answer : v.answer = w.service.store.answer
  look : ∀ x, v.look x = w.look x

theorem View.Shows.evolve {v : View} {w w' : World} (sees : v.Shows w) (e : Evolves w w')
    (unhit : w.Unhit w') : v.Shows w' where
  answer := by rw [e.store, sees.answer]
  look x := (sees.look x).trans (e.look_eq unhit x).symm

theorem View.ofStore_shows (s : LoaderSettings) (service : Service) :
    (View.ofStore service.store).Shows (World.new s service) where
  answer := rfl
  look x := (World.look_new s service x).symm

theorem World.Evolves.unhit {w w' : World} (e : Evolves w w') (calm : w.service.armed = []) :
    w.Unhit w' := by
  have le := e.armed_le
  rw [calm] at le
  exact (Nat.le_zero.mp le).trans (by rw [calm]; rfl)

def World.Pending (w : World) (x : Lookup) : Prop :=
  (w.ticket? x).isSome ∧ w.kept? x = none

theorem World.Awaited.pending {w w' : World} {x y : Lookup} {type : EntityType}
    {ticket : Ticket Entity} {result : Option (Except Fault (Option Entity))}
    (a : Awaited w x type ticket result w')
    (sound : w.Sound) (h : w'.Pending y) : w.Pending y := by
  refine ⟨a.known y ▸ h.1, ?_⟩
  by_contra kept
  obtain ⟨answer, kept⟩ := Option.ne_none_iff_exists'.mp kept
  exact absurd ((a.evolves.kept sound kept).symm.trans h.2) (by simp)

theorem World.Awaited.not_pending {w w' : World} {x : Lookup} {type : EntityType}
    {ticket : Ticket Entity} {answer : Except Fault (Option Entity)}
    (a : Awaited w x type ticket (some answer) w') :
    ¬ w'.Pending x :=
  fun h => absurd ((a.taken answer rfl).symm.trans h.2) (by simp)

theorem World.kept?_of_ticket? {w : World} {x : Lookup} (h : w.ticket? x = none) : w.kept? x = none := by
  unfold World.ticket? at h
  simp [World.kept?, Loader.kept?, h]

def World.Settled (w : World) : Prop :=
  ∀ x, ¬ w.Pending x

namespace Work

mutual

def awaits : Work → List Lookup
  | waiting scope kind _ id _ _ => [⟨scope, kind, id⟩]
  | parts _ works => awaitsAll works
  | _ => []

def awaitsAll : List Work → List Lookup
  | [] => []
  | t :: ts => awaits t ++ awaitsAll ts

end

def ReadsLike (v : View) (t t' : Work) : Prop :=
  ∀ path, t'.reading v path = t.reading v path

theorem readings_of_same {v : View} {path steps : List Segment} {ts ts' : List Work}
    (same : List.Forall₂ (ReadsLike v) ts ts') :
    readings v path steps ts' = readings v path steps ts := by
  induction same generalizing steps with
  | nil => rfl
  | cons head _ ih =>
    cases steps with
    | nil => rfl
    | cons step steps => simp only [readings, head (path ++ [step]), ih]

theorem awaits_of_finished {t : Work} (h : t.isFinished) : t.awaits = [] := by
  induction t using Work.induction with
  | parts assembly works ih =>
    have each := areFinished_iff.mp h
    clear h
    simp only [awaits]
    induction works with
    | nil => rfl
    | cons t ts ih' =>
      simp only [awaitsAll, List.append_eq_nil_iff]
      exact ⟨ih t (by simp) (each t (by simp)), ih' (fun t mem => ih t (List.mem_cons_of_mem _ mem))
        fun t mem => each t (List.mem_cons_of_mem _ mem)⟩
  | waiting _ _ _ _ _ _ _ => simp [isFinished] at h
  | _ => rfl

namespace Passes

variable {ts ts' : List Work} {w w' : World} {v : View}

theorem forall₂_of_reading {t u : Work} {us : List Work} (h : List.Forall₂ (ReadsLike v) [u] us)
    (same : ReadsLike v t u) : List.Forall₂ (ReadsLike v) [t] us := by
  cases h with
  | cons head tail => exact .cons (fun path => (head path).trans (same path)) tail

/-- If no fault is used up, then work reads the same after a pass, and the lookups that it no longer has
to make are known to their registries. -/
theorem read (p : Passes ts w ts' w') (sound : w.Sound) (unhit : w.Unhit w') (sees : v.Shows w) :
    List.Forall₂ (ReadsLike v) ts ts' ∧
      ∀ x, (w'.ticket? x).isSome ∨ x ∈ lookupsAll v ts' ↔
        (w.ticket? x).isSome ∨ x ∈ lookupsAll v ts := by
  induction p with
  | nil _ => exact ⟨.nil, fun _ => .rfl⟩
  | cons first rest ih ih' =>
    have e := first.evolves sound
    have e' := rest.evolves e.sound
    obtain ⟨unhit₁, unhit₂⟩ := e.unhit_of_trans e' unhit
    obtain ⟨same, known⟩ := ih sound unhit₁ sees
    obtain ⟨same', known'⟩ := ih' e.sound unhit₂ (sees.evolve e unhit₁)
    cases same with
    | cons head _ =>
      refine ⟨.cons head same', fun x => ?_⟩
      have first := known x
      have second := known' x
      simp only [lookupsAll, List.append_nil, List.mem_append] at first second ⊢
      rw [or_left_comm, second, or_left_comm, ← or_assoc, first, or_assoc]
  | value _ _ => exact ⟨.cons (fun _ => rfl) .nil, fun _ => .rfl⟩
  | failed _ _ => exact ⟨.cons (fun _ => rfl) .nil, fun _ => .rfl⟩
  | @ask q next us w w' isRead rest ih =>
    have e := sound.evolves_ask isRead
    obtain ⟨unhit₁, unhit₂⟩ := e.unhit_of_trans (rest.evolves e.sound) unhit
    -- no fault is used up here, so what the world replies is what the view shows
    have reply : (w.ask q).1 = v.answer q := by rw [sees.answer, World.ask_eq isRead unhit₁]
    obtain ⟨same, known⟩ := ih e.sound unhit₂ (sees.evolve e unhit₁)
    rw [reply] at same known
    exact ⟨forall₂_of_reading same fun _ => rfl, known⟩
  | load enqueued rest ih =>
    have e := enqueued.evolves
    obtain ⟨unhit₁, unhit₂⟩ := e.unhit_of_trans (rest.evolves e.sound) unhit
    obtain ⟨same, known⟩ := ih e.sound unhit₂ (sees.evolve e unhit₁)
    refine ⟨forall₂_of_reading same fun _ => rfl, fun x => (known x).trans ?_⟩
    simp only [enqueued.known, lookupsAll, lookups, List.cons_append, List.mem_cons]
    rw [or_comm (a := x = _), or_assoc, or_self_left]
  | wait awaited => exact ⟨.cons (fun _ => rfl) .nil, fun x => by rw [awaited.known]⟩
  | @take scope kind type id ticket answer next us w w₁ w' held awaited rest ih =>
    have e := awaited.evolves
    obtain ⟨unhit₁, unhit₂⟩ := e.unhit_of_trans (rest.evolves e.sound) unhit
    -- an answer that is taken is kept by its loader, where the view reads it
    have taken : answer = v.look ⟨scope, kind, id⟩ := by
      rw [(sees.evolve e unhit₁).look, World.look, awaited.taken answer rfl]
      rfl
    obtain ⟨same, known⟩ := ih e.sound unhit₂ (sees.evolve e unhit₁)
    rw [taken] at same known
    refine ⟨forall₂_of_reading same fun _ => rfl, fun x => (known x).trans ?_⟩
    simp only [awaited.known, lookupsAll, lookups, List.cons_append, List.mem_cons]
    refine ⟨Or.imp_right .inr, ?_⟩
    rintro (known | rfl | mem)
    · exact .inl known
    · exact .inl (by simp [held])
    · exact .inr mem
  | @parts assembly works works' _ _ _ ih =>
    obtain ⟨same, known⟩ := ih sound unhit sees
    refine ⟨.cons (fun path => ?_) .nil, by simpa [lookupsAll, lookups] using known⟩
    have steps : segments works' assembly = segments works assembly := by
      cases assembly <;> simp [segments, same.length_eq]
    simp only [Work.reading, steps, readings_of_same same]

/-- Whoever made a lookup waits for its answer. -/
theorem pending (p : Passes ts w ts' w') (sound : w.Sound) (x : Lookup) (h : w'.Pending x) :
    x ∈ awaitsAll ts' ∨ w.Pending x ∧ x ∉ awaitsAll ts := by
  induction p with
  | nil _ => exact .inr ⟨h, by simp [awaitsAll]⟩
  | cons first rest ih ih' =>
    have e := first.evolves sound
    simp only [awaitsAll, List.append_nil, List.mem_append] at ih ⊢
    rcases ih' e.sound h with later | ⟨before, none⟩
    · exact .inl (.inr later)
    · rcases ih sound before with waits | ⟨before, none'⟩
      · exact .inl (.inl waits)
      · exact .inr ⟨before, not_or.mpr ⟨none', none⟩⟩
  | value _ _ => exact .inr ⟨h, by simp [awaitsAll, awaits]⟩
  | failed _ _ => exact .inr ⟨h, by simp [awaitsAll, awaits]⟩
  | ask read rest ih =>
    have e := sound.evolves_ask read
    rcases ih e.sound h with waits | ⟨before, -⟩
    · exact .inl waits
    · exact .inr ⟨before, by simp [awaitsAll, awaits]⟩
  | load enqueued rest ih =>
    rcases ih enqueued.evolves.sound h with waits | ⟨⟨known, unkept⟩, none⟩
    · exact .inl waits
    · rw [enqueued.known] at known
      rw [enqueued.kept] at unkept
      simp only [awaitsAll, awaits, List.append_nil, List.mem_singleton] at none
      exact .inr ⟨⟨known.resolve_left none, unkept⟩, by simp [awaitsAll, awaits]⟩
  | @wait scope kind type id _ _ _ _ awaited =>
    by_cases here : x = ⟨scope, kind, id⟩
    · exact .inl (by simp [awaitsAll, awaits, here])
    · exact .inr ⟨awaited.pending sound h, by simpa [awaitsAll, awaits] using here⟩
  | @take scope kind type id _ _ _ _ _ _ _ _ awaited rest ih =>
    rcases ih awaited.evolves.sound h with waits | ⟨before, -⟩
    · exact .inl waits
    · have ne : x ≠ ⟨scope, kind, id⟩ := fun same => awaited.not_pending (same ▸ before)
      exact .inr ⟨awaited.pending sound before, by simpa [awaitsAll, awaits] using ne⟩
  | parts _ ih => simpa [awaitsAll, awaits] using ih sound h

end Passes

structure Goes (v : View) (t : Work) (w : World) (t' : Work) (w' : World) : Prop where
  same : ReadsLike v t t'
  known : ∀ x, (w'.ticket? x).isSome ∨ x ∈ t'.lookups v ↔ (w.ticket? x).isSome ∨ x ∈ t.lookups v
  pending : ∀ x, w'.Pending x → x ∈ t'.awaits ∨ w.Pending x ∧ x ∉ t.awaits

theorem Goes.refl (v : View) (t : Work) (w : World) : Goes v t w t w :=
  ⟨fun _ => rfl, fun _ => .rfl, fun x h => (em (x ∈ t.awaits)).imp_right fun none => ⟨h, none⟩⟩

theorem Goes.trans {v : View} {t t₁ t' : Work} {w w₁ w' : World} (first : Goes v t w t₁ w₁)
    (rest : Goes v t₁ w₁ t' w') : Goes v t w t' w' where
  same path := (rest.same path).trans (first.same path)
  known x := (rest.known x).trans (first.known x)
  pending x h := (rest.pending x h).elim .inl fun before =>
    (first.pending x before.1).imp_left fun waits => absurd waits before.2

theorem Goes.tick {v : View} {t t' : Work} {w w' : World} (rest : Goes v t w.tick t' w') :
    Goes v t w t' w' :=
  ⟨rest.same, rest.known, rest.pending⟩

theorem Passes.goes {t t' : Work} {w w' : World} (p : Passes [t] w [t'] w') (sound : w.Sound)
    (unhit : w.Unhit w') {v : View} (sees : v.Shows w) : Goes v t w t' w' := by
  obtain ⟨same, known⟩ := p.read sound unhit sees
  have pending := p.pending sound
  simp only [lookupsAll, awaitsAll, List.append_nil] at known pending
  cases same with
  | cons same _ => exact ⟨same, known, pending⟩

structure Completes (t : Work) (w : World) (t' : Work) (w' : World) : Prop where
  evolves : Evolves w w'
  finished : t'.isFinished
  goes : ∀ v, w.Unhit w' → v.Shows w → Goes v t w t' w'

theorem Completes.refl {t : Work} {w : World} (sound : w.Sound) (finished : t.isFinished) :
    Completes t w t w :=
  ⟨.refl sound, finished, fun v _ _ => .refl v t w⟩

theorem Passes.completes {t t₁ t' : Work} {w w₁ w' : World} (first : Passes [t] w [t₁] w₁)
    (sound : w.Sound) (rest : Completes t₁ w₁ t' w') : Completes t w t' w' where
  evolves := (first.evolves sound).trans rest.evolves
  finished := rest.finished
  goes v unhit sees := by
    have e := first.evolves sound
    obtain ⟨unhit₁, unhit₂⟩ := e.unhit_of_trans rest.evolves unhit
    exact (first.goes sound unhit₁ sees).trans (rest.goes v unhit₂ (sees.evolve e unhit₁))

theorem Completes.tick {t t' : Work} {w w' : World} (sound : w.Sound) (rest : Completes t w.tick t' w') :
    Completes t w t' w' where
  evolves := sound.evolves_tick.trans rest.evolves
  finished := rest.finished
  goes v unhit sees := (rest.goes v unhit (sees.evolve sound.evolves_tick rfl)).tick

/-- Work that stands still gets finished with as many passes more as it has loads left. -/
theorem Paused.finish {n depth : Nat} {t : Work} {w : World} (h : Paused w n t) (le : n ≤ depth)
    (sound : w.Sound) : Completes t w (t.finish depth w).1 (t.finish depth w).2 := by
  induction depth generalizing n t w with
  | zero =>
    obtain rfl := Nat.le_zero.mp le
    exact .refl sound h.isFinished
  | succ depth ih =>
    unfold Work.finish
    split
    · next finished => exact .refl sound finished
    · next open_ =>
      cases n with
      | zero => exact absurd h.isFinished open_
      | succ n =>
        have ticked := sound.evolves_tick.sound
        obtain ⟨passes, paused⟩ := (h.ready sound).passed (.refl ticked)
        have rest := ih paused (Nat.le_of_succ_le_succ le) (passes.evolves ticked).sound
        exact (passes.completes ticked rest).tick sound

theorem Fresh.run {n depth : Nat} {t : Work} (h : Fresh n t) (le : n ≤ depth) {w : World}
    (sound : w.Sound) : Completes t w (t.run depth w).1 (t.run depth w).2 := by
  obtain ⟨passes, paused⟩ := h.passed sound
  exact passes.completes sound (paused.finish le (passes.evolves sound).sound)

namespace Completes

variable {t t' : Work} {w w' : World} {v : View}

theorem result_eq (c : Completes t w t' w') (unhit : w.Unhit w') (sees : v.Shows w)
    (path : List Segment) : t'.result path = t.reading v path := by
  rw [← reading_of_finished v c.finished, (c.goes v unhit sees).same path]

theorem settled (c : Completes t w t' w') (unhit : w.Unhit w') (sees : v.Shows w)
    (settled : w.Settled) : w'.Settled := by
  intro x h
  rcases (c.goes v unhit sees).pending x h with waits | ⟨before, -⟩
  · simp [awaits_of_finished c.finished] at waits
  · exact settled x before

/-- A registry has kept what it had before, and the answers of the lookups that were made. -/
theorem kept?_eq (c : Completes t w t' w') (sound : w.Sound) (unhit : w.Unhit w') (sees : v.Shows w)
    (settled : w.Settled) (x : Lookup) :
    w'.kept? x = (w.kept? x).or (if x ∈ t.lookups v then some (v.look x) else none) := by
  have settled' := c.settled unhit sees settled
  have known := (c.goes v unhit sees).known x
  simp only [lookups_of_finished v c.finished, List.not_mem_nil, or_false] at known
  cases before : w.kept? x with
  | some answer => simpa using c.evolves.kept sound before
  | none =>
    have unknown : ¬ (w.ticket? x).isSome := fun held => settled x ⟨held, before⟩
    rw [or_iff_right unknown] at known
    rw [Option.none_or]
    split
    · next made =>
      cases after : w'.kept? x with
      | none => exact absurd ⟨known.mpr made, after⟩ (settled' x)
      | some answer =>
        have same := c.evolves.look_eq unhit x
        rw [← sees.look, World.look, after] at same
        exact congrArg some same
    · next unmade =>
      have unknown' : w'.ticket? x = none := by simpa using fun held => unmade (known.mp held)
      exact World.kept?_of_ticket? unknown'

end Completes

end Work

end InfraGraph.Graph
