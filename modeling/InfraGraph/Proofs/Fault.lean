import InfraGraph.Fault

/-!
Outcomes that are known as far as it matters to callers: they fail with certain codes only, or end well.
-/

namespace InfraGraph

/-- Fails with certain codes only, or ends well. -/
def Ends {α : Type} (codes : FaultCode → Prop) (good : α → Prop) : Except Fault α → Prop
  | .error f => codes f.code
  | .ok a => good a

section Ends

variable {α β : Type} {codes codes' : FaultCode → Prop} {good : α → Prop} {good' : β → Prop}
  {e : Except Fault α}

theorem Ends.imp {fine : α → Prop} (h : Ends codes good e) (codes_imp : ∀ c, codes c → codes' c)
    (good_imp : ∀ a, good a → fine a) : Ends codes' fine e := by
  cases e with
  | error f => exact codes_imp _ h
  | ok a => exact good_imp a h

theorem ends_bind {f : α → Except Fault β} (h : Ends codes good e)
    (rest : ∀ a, good a → Ends codes good' (f a)) : Ends codes good' (e >>= f) := by
  cases e with
  | error _ => exact h
  | ok a => exact rest a h

theorem ends_map {f : α → β} (h : Ends codes good e) (keeps : ∀ a, good a → good' (f a)) :
    Ends codes good' (e.map f) := by
  cases e with
  | error _ => exact h
  | ok a => exact keeps a h

theorem ends_onField (h : Ends codes good e) (field : String) :
    Ends codes good (e.mapError (·.onField field)) := by
  cases e with
  | error _ => exact h
  | ok a => exact h

theorem ends_any (fails : ∀ c, codes c) (holds : ∀ a, good a) (e : Except Fault α) :
    Ends codes good e := by
  cases e with
  | error f => exact fails f.code
  | ok a => exact holds a

end Ends

end InfraGraph
