import InfraGraph.Activity.Detail
import InfraGraph.Catalog.Service
import InfraGraph.Proofs.Catalog.Calls
import InfraGraph.Proofs.Fault
import InfraGraph.Proofs.Listing.Windows

/-!
Coherent stores: every membership names one member, and the details of every event decode. Whatever the
service is asked, the store stays coherent, and so is all that is shown of it. What is refused is refused
as bad input, as missing or as a conflict, and a read is never refused as a conflict.
-/

namespace InfraGraph

def NamespaceMembership.NamesOne (m : NamespaceMembership) : Prop :=
  [m.userId, m.serviceAccountId, m.teamId].countP Option.isSome = 1

instance (m : NamespaceMembership) : Decidable m.NamesOne :=
  inferInstanceAs (Decidable (_ = _))

/-- The details of an event, if it has any, are of the shape that its action and its target call for. -/
def ActivityEvent.Decodes (e : ActivityEvent) : Prop :=
  ∀ raw, e.payload = some raw → ∃ d, Detail.decode e.action e.targetType raw = .ok d

structure Store.Coherent (s : Store) : Prop where
  members : ∀ m ∈ s.memberships, m.NamesOne
  details : ∀ e ∈ s.activityEvents, e.Decodes

def Entity.Coherent : Entity → Prop
  | .namespaceMembership m => m.NamesOne
  | .activityEvent e => e.Decodes
  | _ => True

def FaultCode.OfInput (c : FaultCode) : Prop :=
  c = .invalidInput ∨ c = .notFound

def FaultCode.OfWrite (c : FaultCode) : Prop :=
  c.OfInput ∨ c = .conflict

/-- A read does not meet with changes. -/
abbrev FaultCode.OfRequest (read : Prop) (c : FaultCode) : Prop :=
  c.OfWrite ∧ (read → c.OfInput)

section Lists

variable {α : Type} {codes : FaultCode → Prop} {good : α → Prop} {items : List α}

theorem ends_page [Listed α] (input : codes .invalidInput) (h : ∀ a ∈ items, good a) (l : Listing α) :
    Ends codes (fun p => ∀ a ∈ p.items, good a) (l.page items) := by
  have cut (start stop : Nat) : ∀ a ∈ (Page.cut (l.order.sort items) start stop).items, good a :=
    fun a mem => h a ((l.order.sort_perm items).mem_iff.mp
      (List.mem_of_mem_drop (List.mem_of_mem_take mem)))
  have position (c : Cursor) : Ends codes (fun _ => True) (Page.position (l.order.sort items) c) := by
    unfold Page.position
    split
    · exact input
    · trivial
  unfold Listing.page Page.ofList Page.ofSorted
  split
  · exact cut _ _
  · exact ends_bind (position _) fun i _ => cut _ _
  · exact cut _ _
  · exact ends_bind (position _) fun i _ => cut _ _

theorem ends_first (missing : codes .notFound) (h : ∀ a ∈ items, good a) (test : α → Bool)
    (what name : String) : Ends codes good (Store.first items test what name) := by
  unfold Store.first
  split
  · exact missing
  · next found => exact h _ (List.mem_of_find?_eq_some found)

theorem ends_checkVersion (stale : codes .conflict) (m : Metadata) (version : Option Int) :
    Ends codes (fun _ => True) (Store.checkVersion m version) := by
  unfold Store.checkVersion
  split
  · trivial
  · split
    · trivial
    · exact stale

theorem ends_amendFirst {missing : Fault} (absent : codes missing.code) {change : α → Except Fault α}
    (keeps : ∀ a, good a → Ends codes good (change a)) (test : α → Bool) (h : ∀ a ∈ items, good a) :
    Ends codes (fun r => good r.1 ∧ ∀ a ∈ r.2, good a) (Store.amendFirst test missing change items) := by
  induction items with
  | nil => exact absent
  | cons a rest ih =>
    obtain ⟨first, others⟩ := List.forall_mem_cons.mp h
    unfold Store.amendFirst
    split
    · exact ends_map (keeps a first) fun b fine => ⟨fine, List.forall_mem_cons.mpr ⟨fine, others⟩⟩
    · exact ends_map (ih others) fun r fine => ⟨fine.1, List.forall_mem_cons.mpr ⟨first, fine.2⟩⟩

end Lists

namespace Store

open FaultCode (OfWrite)

theorem ofWrite_missing : OfWrite .notFound :=
  .inl (.inr rfl)

theorem ofWrite_conflict : OfWrite .conflict :=
  .inr rfl

def Sound {α : Type} (wrap : α → Entity) (r : Except Fault (α × Store)) : Prop :=
  Ends OfWrite (fun x => (wrap x.1).Coherent ∧ x.2.Coherent) r

theorem coherent_iff {s : Store} : s.Coherent ↔ ∀ kind, ∀ e ∈ s.entities kind, e.Coherent := by
  refine ⟨fun h kind e mem => ?_, fun h => ⟨fun m mem => ?_, fun e mem => ?_⟩⟩
  · cases kind with
    | namespaceMembership =>
      obtain ⟨m, here, rfl⟩ := List.mem_map.mp mem
      exact h.members m here
    | activityEvent =>
      obtain ⟨e, here, rfl⟩ := List.mem_map.mp mem
      exact h.details e here
    | _ =>
      obtain ⟨_, -, rfl⟩ := List.mem_map.mp mem
      trivial
  · exact h .namespaceMembership _ (List.mem_map_of_mem mem)
  · exact h .activityEvent _ (List.mem_map_of_mem mem)

variable {s : Store} (h : s.Coherent) (id : String) (version : Option Int)

include h

section Table

variable {α : Type} (t : Table α)

theorem coherent_items : ∀ a ∈ t.items s, (t.wrap a).Coherent := fun _ mem =>
  coherent_iff.mp h t.kind _ (t.entities_items s ▸ List.mem_map_of_mem mem)

theorem coherent_put {as : List α} (fine : ∀ a ∈ as, (t.wrap a).Coherent) : (t.put s as).Coherent := by
  refine coherent_iff.mpr fun kind e mem => ?_
  by_cases own : kind = t.kind
  · subst own
    rw [t.entities_put] at mem
    obtain ⟨a, here, rfl⟩ := List.mem_map.mp mem
    exact fine a here
  · exact coherent_iff.mp h kind e (t.entities_other s as kind own ▸ mem)

theorem sound_amend {change : α → α}
    (keeps : ∀ a, (t.wrap a).Coherent → (t.wrap (change a)).Coherent) :
    Sound t.wrap (s.amend t id version change) := by
  have changed : ∀ a, (t.wrap a).Coherent → Ends OfWrite (fun a => (t.wrap a).Coherent) (do
      checkVersion (t.wrap a).metadata version
      return change a) := fun a fine =>
    ends_bind (ends_checkVersion ofWrite_conflict _ _) fun _ _ => keeps a fine
  exact ends_bind (ends_amendFirst ofWrite_missing changed _ (coherent_items h t)) fun _ fine =>
    ⟨fine.1, coherent_put h t fine.2⟩

theorem sound_remove : Sound t.wrap (s.remove t id version) :=
  ends_bind (ends_first ofWrite_missing (coherent_items h t) _ _ _) fun _ fine =>
    ends_bind (ends_checkVersion ofWrite_conflict _ _) fun _ _ =>
      ⟨fine, coherent_put h t fun b mem => coherent_items h t b (List.mem_of_mem_filter mem)⟩

end Table

theorem sound_deleteGroup (force : Bool) : Sound .group (s.deleteGroup id version force) :=
  ends_bind (sound_remove h id version .groups) fun x fine => by
    dsimp only
    split
    · exact ofWrite_conflict
    · exact fine

theorem sound_deleteModule : Sound .terraformModule (s.deleteModule id version) :=
  ends_bind (sound_remove h id version .modules) fun _ fine =>
    ⟨fine.1, fine.2.members, fine.2.details⟩

theorem coherent_addMembership {m : NamespaceMembership} (one : m.NamesOne) :
    (s.addMembership m).Coherent where
  members := List.forall_mem_append.mpr ⟨h.members, by simpa using one⟩
  details := h.details

theorem coherent_entity? {kind : Kind} {id : String} {e : Entity} (found : s.entity? kind id = some e) :
    e.Coherent := by
  have mem : e ∈ s.entities kind := by
    rw [entity?, List.findRev?_eq_find?_reverse] at found
    exact List.mem_reverse.mp (List.mem_of_find?_eq_some found)
  exact coherent_iff.mp h kind e mem

end Store

namespace Service

open FaultCode (OfRequest)

def Tame (q : Request) (out : Except Fault q.Reply × Service) : Prop :=
  Ends (OfRequest q.isRead) (fun a => ∀ e ∈ q.shown a, e.Coherent) out.1 ∧ out.2.store.Coherent

theorem tame_page {α : Type} [Listed α] (wrap : α → Entity) {items : List α} {read : Prop}
    (fine : ∀ a ∈ items, (wrap a).Coherent) (l : Listing α) :
    Ends (OfRequest read) (fun p => ∀ e ∈ p.items.map wrap, e.Coherent) (l.page items) := by
  refine (ends_page ⟨.inl (.inl rfl), fun _ => .inl rfl⟩ fine l).imp (fun _ => id) fun p all e mem => ?_
  obtain ⟨a, here, rfl⟩ := List.mem_map.mp mem
  exact all a here

theorem tame_first {α : Type} {wrap : α → Entity} {items : List α} {read : Prop} (test : α → Bool)
    (what name : String) (fine : ∀ a ∈ items, (wrap a).Coherent) :
    Ends (OfRequest read) (fun a => ∀ e ∈ [wrap a], e.Coherent)
      (Store.first items test what name) :=
  (ends_first ⟨.inl (.inr rfl), fun _ => .inr rfl⟩ fine test what name).imp (fun _ => id)
    fun _ => List.forall_mem_singleton.mpr

variable {s : Service}

theorem record_calm (calm : s.armed = []) (c : Call) :
    s.record c = (none, { s with log := s.log ++ [c] }) := by
  simp [record, calm]

theorem fetch_calm (calm : s.armed = []) (kind : Kind) (ids : List String) :
    fetch kind ids s = (.ok (s.store.entity? kind), { s with log := s.log ++ [.batch kind ids] }) := by
  unfold fetch
  rw [record_calm calm]

variable (h : s.store.Coherent)

include h

theorem tame_write {α : Type} {wrap : α → Entity} {r : Except Fault (α × Store)}
    (sound : Store.Sound wrap r) :
    Ends (OfRequest (false = true)) (fun a => ∀ e ∈ [wrap a], e.Coherent) (s.write r).1 ∧
      (s.write r).2.store.Coherent := by
  cases r with
  | error f => exact ⟨⟨sound, fun read => absurd read Bool.false_ne_true⟩, h⟩
  | ok x => exact ⟨List.forall_mem_singleton.mpr sound.1, sound.2⟩

/-- Whatever the service is asked, what it says is coherent and leaves the store so. -/
theorem tame_perform (q : Request) : Tame q (s.perform q) := by
  cases q with
  | users l => exact ⟨tame_page .user (fun _ _ => trivial) l, h⟩
  | serviceAccounts l => exact ⟨tame_page .serviceAccount (fun _ _ => trivial) l, h⟩
  | groups l => exact ⟨tame_page .group (fun _ _ => trivial) l, h⟩
  | groupAt path => exact ⟨tame_first _ _ _ fun _ _ => trivial, h⟩
  | workspaces l => exact ⟨tame_page .workspace (fun _ _ => trivial) l, h⟩
  | workspaceAt path => exact ⟨tame_first _ _ _ fun _ _ => trivial, h⟩
  | memberships path =>
    refine ⟨fun e mem => ?_, h⟩
    obtain ⟨m, here, rfl⟩ := List.mem_map.mp mem
    exact h.members m (List.mem_of_mem_filter here)
  | teams l => exact ⟨tame_page .team (fun _ _ => trivial) l, h⟩
  | roles l => exact ⟨tame_page .role (fun _ _ => trivial) l, h⟩
  | roleNamed name => exact ⟨tame_first _ _ _ fun _ _ => trivial, h⟩
  | runs l => exact ⟨tame_page .run (fun _ _ => trivial) l, h⟩
  | modules l => exact ⟨tame_page .terraformModule (fun _ _ => trivial) l, h⟩
  | moduleVersions l => exact ⟨tame_page .terraformModuleVersion (fun _ _ => trivial) l, h⟩
  | providers l => exact ⟨tame_page .terraformProvider (fun _ _ => trivial) l, h⟩
  | vcsProviders l => exact ⟨tame_page .vcsProvider (fun _ _ => trivial) l, h⟩
  | activityEvents l filter =>
    exact ⟨tame_page .activityEvent (fun e mem => h.details e (List.mem_of_mem_filter mem)) l, h⟩
  | runEvents => exact ⟨fun e mem => absurd mem (List.not_mem_nil), h⟩
  | updateGroup id version d => exact tame_write h (Store.sound_amend h id version .groups fun _ _ => trivial)
  | deleteGroup id version force =>
    exact tame_write h (Store.sound_deleteGroup h id version force)
  | updateWorkspace id version d duration =>
    exact tame_write h (Store.sound_amend h id version .workspaces fun _ _ => trivial)
  | deleteWorkspace id version =>
    exact tame_write h (Store.sound_remove h id version .workspaces)
  | createMembership path member roleId =>
    have one : (s.makeMembership path member roleId).1.NamesOne := by cases member <;> rfl
    refine ⟨?_, Store.coherent_addMembership h one⟩
    exact List.forall_mem_singleton.mpr one
  | updateMembership id version roleId =>
    exact tame_write h (Store.sound_amend h id version .memberships fun _ one => one)
  | deleteMembership id version =>
    exact tame_write h (Store.sound_remove h id version .memberships)
  | createRun draft => exact ⟨List.forall_mem_singleton.mpr trivial, h.members, h.details⟩
  | cancelRun id version force =>
    exact tame_write h (Store.sound_amend h id version .runs fun _ _ => trivial)
  | deleteModule id version =>
    exact tame_write h (Store.sound_deleteModule h id version)
  | deleteVcsProvider id version =>
    exact tame_write h (Store.sound_remove h id version .vcsProviders)

theorem tame_answer (calm : s.armed = []) (q : Request) :
    Tame q (s.answer q) ∧ (s.answer q).2.armed = [] := by
  let logged : Service := { s with log := s.log ++ [.single q.method] }
  have performed : s.answer q = logged.perform q := by simp only [answer, record_calm calm, logged]
  have coherent : logged.store.Coherent := h
  rw [performed]
  refine ⟨tame_perform coherent q, ?_⟩
  rw [perform_core]
  exact calm

end Service

end InfraGraph
