import InfraGraph.Proofs.Graph.World
import InfraGraph.Proofs.Loader.Past
import Mathlib.Logic.Function.Basic

/-!
The pasts of the loaders of a request. A move of the world adds to the past of the one loader that it
concerns, and whatever it asks of the service is what that loader asks.
-/

namespace InfraGraph.Graph

open Loader (Event Given Past Poll)

abbrev Pasts := Kind → List (Event String Entity)

namespace World

structure Lived (st : LoaderSettings) (pasts : Pasts) (w : World) : Prop where
  serves : ∀ kind type, Loadable kind type → w.request.Serves kind type
  past : ∀ kind, Past st (pasts kind) (w.loader .request kind)

variable {st : LoaderSettings} {pasts : Pasts} {w : World}

theorem lived_new (st : LoaderSettings) (service : Service) :
    (World.new st service).Lived st fun _ => [] where
  serves _ _ loadable := Loaders.serves_new st loadable
  past kind := loader_new st service .request kind ▸ Loader.past_new st

theorem Lived.of_request {w' : World} (h : w.Lived st pasts) (same : w'.request = w.request) :
    w'.Lived st pasts where
  serves kind type loadable := same ▸ h.serves kind type loadable
  past kind := by
    have loader : w'.loader .request kind = w.loader .request kind := congrArg (Loaders.loader · kind) same
    exact loader ▸ h.past kind

variable {kind : Kind} {type : EntityType}

theorem Lived.put (h : w.Lived st pasts) (loadable : Loadable kind type) {l : Loader String Entity}
    {more : List (Event String Entity)} (past : Past st (pasts kind ++ more) l) (s : Service) :
    (w.put .request kind l s).Lived st (Function.update pasts kind (pasts kind ++ more)) where
  serves k type loadable := (h.serves k type loadable).setLoader kind l
  past k := by
    rw [put_loader (x := ⟨.request, kind, ""⟩) (h.serves kind type loadable)]
    by_cases same : k = kind
    · subst same
      simpa using past
    · simpa [same] using h.past k

theorem Lived.enqueue (h : w.Lived st pasts) (loadable : Loadable kind type) (id : String) :
    ∃ i ticket w', w.enqueue .request kind type id = .ok (ticket, w') ∧ w'.service = w.service ∧
      w'.Lived st (Function.update pasts kind (pasts kind ++ [.drew i id ticket])) ∧
      ∀ e, .primed id e ∉ pasts kind → ticket ≠ .primed e := by
  obtain ⟨i, drawn⟩ := (h.past kind).enqueue id
  refine ⟨i, _, _, enqueue_eq (x := ⟨.request, kind, id⟩) (h.serves kind type loadable), put_service .., ?_,
    fun e unprimed => (h.past kind).ticket_of_unprimed unprimed⟩
  exact h.put loadable drawn w.service

theorem Lived.await (h : w.Lived st pasts) (loadable : Loadable kind type) (id : String)
    (ticket : Ticket Entity) : ∃ more,
      (w.await .request kind type id ticket).2.Lived st (Function.update pasts kind (pasts kind ++ more)) ∧
      Poll (Service.fetch kind) w.service more (w.await .request kind type id ticket).2.service ∧
      ∀ r, (w.await .request kind type id ticket).1 = some r → Given (pasts kind ++ more) id ticket r := by
  obtain ⟨more, past, poll, given⟩ :=
    (h.past kind).await (Service.fetch kind) w.now id ticket w.service
  rw [await_eq (x := ⟨.request, kind, id⟩) (h.serves kind type loadable)]
  exact ⟨more, h.put loadable past _, by simpa using poll, given⟩

end World

end InfraGraph.Graph
