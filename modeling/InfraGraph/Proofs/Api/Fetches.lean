import InfraGraph.Proofs.Api.Terms
import InfraGraph.Proofs.Graph.Exchanges
import InfraGraph.Proofs.Graph.Pasts

/-!
The lookups of a request. All that a query or a mutation loads goes through the one loader of its kind, so
what the service is asked to look up are the batches of that loader: no identifier comes twice, whatever
fields led to it and whatever became of its batch, and no batch is empty or too long.
-/

namespace InfraGraph.Api

open InfraGraph.Graph
open Loader (Poll)

def fetches (kind : Kind) (calls : List Call) : List (List String) :=
  calls.filterMap fun
    | .batch k ids => if k = kind then some ids else none
    | .single _ => none

@[simp] theorem fetches_append (kind : Kind) (calls more : List Call) :
    fetches kind (calls ++ more) = fetches kind calls ++ fetches kind more :=
  List.filterMap_append

def anyTerms : Terms :=
  ⟨fun _ => True, fun _ => True, fun _ => True⟩

theorem suits_any (s : Setup) : Suits s anyTerms := by
  constructor <;> simp [anyTerms]

/-- The calls since some time, of which the lookups are those of the loaders. -/
def Looked (st : LoaderSettings) (before : List Call) (w : World) : Prop :=
  ∃ pasts calls, w.Lived st pasts ∧ w.service.log = before ++ calls ∧
    ∀ kind, (Loader.calls (pasts kind)).map Prod.snd = fetches kind calls

section Looked

variable {st : LoaderSettings} {before : List Call} {w : World}

theorem Looked.move {w' : World} {pasts : Pasts} {calls logged : List Call} {kind : Kind}
    {more : List (Loader.Event String Entity)} (log : w.service.log = before ++ calls)
    (same : ∀ kind, (Loader.calls (pasts kind)).map Prod.snd = fetches kind calls)
    (lived : w'.Lived st (Function.update pasts kind (pasts kind ++ more)))
    (next : w'.service.log = w.service.log ++ logged)
    (asked : ∀ k, fetches k logged = if k = kind then (Loader.calls more).map Prod.snd else []) :
    Looked st before w' := by
  refine ⟨_, calls ++ logged, lived, by rw [next, log, List.append_assoc], fun k => ?_⟩
  rw [fetches_append, asked, ← same]
  by_cases here : k = kind
  · subst here
    simp
  · simp [here]

theorem logged_of_poll {kind : Kind} {s s' : Service} {more : List (Loader.Event String Entity)}
    (poll : Poll (Service.fetch kind) s more s') : ∃ logged, s'.log = s.log ++ logged ∧
      ∀ k, fetches k logged = if k = kind then (Loader.calls more).map Prod.snd else [] := by
  cases poll with
  | rest => exact ⟨[], by simp, by simp [fetches, Loader.calls]⟩
  | start i => exact ⟨[], by simp, by simp [fetches, Loader.calls]⟩
  | fire i keys =>
    refine ⟨_, Service.log_fetch kind keys s, fun k => ?_⟩
    by_cases here : k = kind
    · simp [fetches, Loader.calls, here]
    · simp [fetches, here, Ne.symm here]

theorem upheld_looked (st : LoaderSettings) (before : List Call) : anyTerms.Upheld (Looked st before) where
  ask := by
    rintro w ⟨pasts, calls, lived, log, same⟩ q
    refine ⟨⟨pasts, calls ++ [.single q.method], lived.of_request rfl, ?_, fun kind => ?_⟩,
      ends_any (fun _ => ⟨trivial, fun _ => trivial⟩) (fun _ _ _ => trivial) _⟩
    · exact (Service.log_answer w.service q).trans (by rw [log, List.append_assoc])
    · rw [same, fetches_append]
      exact (List.append_nil _).symm
  enqueue := by
    rintro w kind type ⟨pasts, calls, lived, log, same⟩ loadable id
    obtain ⟨i, ticket, w', run, service, lived', -⟩ := lived.enqueue loadable id
    have next : w'.service.log = w.service.log ++ [] := by rw [service, List.append_nil]
    exact ⟨ticket, w', run, Looked.move log same lived' next (by simp [fetches, Loader.calls]),
      fun _ _ => trivial⟩
  await := by
    rintro w kind type ticket ⟨pasts, calls, lived, log, same⟩ loadable - id
    obtain ⟨more, lived', poll, -⟩ := lived.await loadable id ticket
    obtain ⟨logged, next, asked⟩ := logged_of_poll poll
    exact ⟨Looked.move log same lived' next asked,
      fun r _ => ends_any (fun _ => trivial) (fun _ _ _ => trivial) r⟩
  tick := by
    rintro w ⟨pasts, calls, lived, log, same⟩
    exact ⟨pasts, calls, lived.of_request rfl, log, same⟩

theorem looked_new (st : LoaderSettings) (service : Service) :
    Looked st service.log (World.new st service) :=
  ⟨_, [], World.lived_new st service, (List.append_nil _).symm, fun _ => rfl⟩

theorem Looked.calls (looked : Looked st before w) : ∃ calls, w.service.log = before ++ calls ∧
    ∀ kind, (fetches kind calls).flatten.Nodup ∧
      ∀ ids ∈ fetches kind calls, 1 ≤ ids.length ∧ ids.length ≤ max 1 st.maxBatch := by
  obtain ⟨pasts, calls, lived, log, same⟩ := looked
  refine ⟨calls, log, fun kind => ?_⟩
  rw [← same]
  exact (lived.past kind).calls

end Looked

/-- In a whole query or mutation no identifier is looked up twice, and each lookup has at least one
identifier and at most as many as the loaders gather. -/
theorem one_lookup_per_entity (s : Setup) (loaders : LoaderSettings) (op : Operation) (service : Service) :
    ∃ calls, (op.run s loaders service).2.log = service.log ++ calls ∧
      ∀ kind, (fetches kind calls).flatten.Nodup ∧
        ∀ ids ∈ fetches kind calls, 1 ≤ ids.length ∧ ids.length ≤ max 1 loaders.maxBatch := by
  obtain ⟨⟨w, looked, ended⟩, -⟩ :=
    op.meets (suits_any s) (upheld_looked loaders service.log) (looked_new loaders service)
  rw [ended]
  exact looked.calls

def groupTwice : List Selection :=
  ["first", "last"].map fun key =>
    .field key "workspace" [("fullPath", .text "ops/api")] [.field "group" "group" [] []]

/-- A lookup that has failed is not made again. -/
example : fetches .group (query (.complete .standard) ⟨10, 2⟩ groupTwice
    ((Service.new smallStore).arm "get_groups_by_ids" (.internal "down"))).2.log = [["g"]] := by
  decide +kernel

end InfraGraph.Api
