import DueServer.ActorModel

/-! What one step of the scheduler can do: the cases of a step, and the calls in progress before and
after it. -/
namespace DueServer.Scheduler

open Lib Function

namespace Actor

variable (l : Life) (a : Actor)

@[simp] theorem life_record : (a.record l).life = a.life ++ [l] := rfl

@[simp] theorem record_fields : (a.record l).opts = a.opts ∧ (a.record l).destroyed = a.destroyed ∧
    (a.record l).processor = a.processor ∧ (a.record l).closed = a.closed ∧
    (a.record l).readers = a.readers ∧ (a.record l).binds = a.binds ∧
    (a.record l).idleTimer = a.idleTimer ∧ (a.record l).idleGeneration = a.idleGeneration ∧
    (a.record l).complete = a.complete :=
  ⟨rfl, rfl, rfl, rfl, rfl, rfl, rfl, rfl, rfl⟩

end Actor

/-- The cases of `State.effect` and `State.begin`: `source` is the call that moves, if it is not one
that begins. -/
inductive Does (s : State) : List Call → Effect → Prop where
  | spawn (opts : Options) : Does s []
        { calls := [.locking s.made], actor := s.made, write := fun _ => .new opts, births := 1 }
  | reject (a : ℕ) (hmu : s.mu = false) : Does s [.locking a] (.on a [] (.record .rejected))
  | lock (a : ℕ) (hmu : s.mu = false) (hvacant : s.registry (s.pid a) = none) : Does s [.locking a]
        { calls := [.initing a]
          actor := a
          write := fun x => if x.opts.wait then x.record .addWait else x
          mu := fun _ => true }
  | init (a : ℕ) : Does s [.initing a] (.on a [.storing a] (.call .init))
  | store (a : ℕ) : Does s [.storing a]
        { calls := [.unlocking a]
          actor := a
          registry := fun registry => update registry (s.pid a) (some a) }
  | unlock (a : ℕ) :
      Does s [.unlocking a] { calls := [.starting a], actor := a, mu := fun _ => false }
  | start (a : ℕ) : Does s [.starting a] (.on a [] (.call .start))
  | kill (kind id : String) : Does s [] (.on 0 [.removing kind id])
  | killActor (a : ℕ) (hmade : a < s.made) : Does s [] (.on a [.removingActor a])
  | remove (kind id : String) (a : ℕ) (hmu : s.mu = false) (hload : s.load kind id = some a) :
      Does s [.removing kind id] (s.remove a false)
  | absent (kind id : String) : Does s [.removing kind id] (.on 0 [])
  | removeActor (a : ℕ) (hmu : s.mu = false) (hregistered : s.registry (s.pid a) = some a) :
      Does s [.removingActor a] (s.remove a false)
  | absentActor (a : ℕ) : Does s [.removingActor a] (.on a [])
  | unrelate (a : ℕ) : Does s [.unrelating a false]
        { calls := [.swapping a]
          actor := a
          relations := s.unrelate a fun _ => true
          mu := fun _ => false }
  | unrelateIdle (a : ℕ) : Does s [.unrelating a true]
        { calls := [.destroying a]
          actor := a
          relations := s.unrelate a fun _ => true
          mu := fun _ => false }
  | swapped (a : ℕ) (hdestroyed : (s.actors a).destroyed = true) :
      Does s [.swapping a] (.on a [.finishing a])
  | swap (a : ℕ) (hdestroyed : (s.actors a).destroyed = false) :
      Does s [.swapping a] (.on a [.cancelling a] fun x => { x with destroyed := true })
  | cancel (a : ℕ) : Does s [.cancelling a]
        { calls := [.destroying a]
          actor := a
          write := Actor.cancelIdle
          timers := (s.actors a).stop }
  | destroy (a : ℕ) : Does s [.destroying a] (.on a [.inDestroy a] (.call .destroy))
  | destroyed (a : ℕ) : Does s [.inDestroy a] (.on a [.unbinding a] (.record .destroyed))
  | unbind (a : ℕ) : Does s [.unbinding a]
        { calls := [.closing a], actor := a, relations := s.unrelate a (s.actors a).binds }
  | close (a : ℕ) (hreaders : (s.actors a).readers = 0) : Does s [.closing a]
        (.on a [.hooking a] fun x => { x with closed := true, processor := false })
  | hook (a : ℕ) (hhook : (s.actors a).opts.releaseHook = true) :
      Does s [.hooking a] (.on a [.inHook a] (.record .hook))
  | noHook (a : ℕ) (hhook : (s.actors a).opts.releaseHook = false) :
      Does s [.hooking a] (.on a [.completing a])
  | hooked (a : ℕ) : Does s [.inHook a] (.on a [.completing a] (.record .hooked))
  | complete (a : ℕ) : Does s [.completing a]
        (.on a [.finishing a] fun x => { x with complete := true }.record .complete)
  | finish (a : ℕ) : Does s [.finishing a]
        (.on a [] fun x => (if x.opts.wait then x.record .doneWait else x).record .returned)
  | fire (t : Timer) (hpending : t ∈ s.timers) : Does s []
        { calls := [.fired t.actor t.generation t.id]
          actor := t.actor
          timers := fun ts => ts.erase t }
  | stale (a : ℕ) (g : UInt64) (t : ℕ)
      (hstale : (s.actors a).destroyed = true ∨ (s.actors a).idleGeneration ≠ g) :
      Does s [.fired a g t] (.on a [])
  | release (a : ℕ) (g : UInt64) (t : ℕ) (hdestroyed : (s.actors a).destroyed = false)
      (hgeneration : (s.actors a).idleGeneration = g)
      (hguard : (s.actors a).opts.releaseGuard = true) :
      Does s [.fired a g t] (.on a [.guarding a g t] fun x => { x with idleTimer := none })
  | releaseFree (a : ℕ) (g : UInt64) (t : ℕ) (hdestroyed : (s.actors a).destroyed = false)
      (hgeneration : (s.actors a).idleGeneration = g)
      (hguard : (s.actors a).opts.releaseGuard = false) :
      Does s [.fired a g t] (.on a [.committing a g t] fun x => { x with idleTimer := none })
  | allow (a : ℕ) (g : UInt64) (t : ℕ) :
      Does s [.guarding a g t] (.on a [.committing a g t] (.record (.guarded t true)))
  | deny (a : ℕ) (g : UInt64) (t : ℕ) :
      Does s [.guarding a g t] (.on a [.denied a g t] (.record (.guarded t false)))
  | retry (a : ℕ) (g : UInt64) (t : ℕ) (hdestroyed : (s.actors a).destroyed = false)
      (hgeneration : (s.actors a).idleGeneration = g) :
      Does s [.denied a g t] (s.schedule a g id id)
  | noRetry (a : ℕ) (g : UInt64) (t : ℕ)
      (hstale : (s.actors a).destroyed = true ∨ (s.actors a).idleGeneration ≠ g) :
      Does s [.denied a g t] (.on a [])
  | commit (a : ℕ) (g : UInt64) (t : ℕ) (hmu : s.mu = false)
    (hregistered : s.registry (s.pid a) = some a)
      (hgeneration : (s.actors a).idleGeneration = g)
      (hdestroyed : (s.actors a).destroyed = false) :
      Does s [.committing a g t]
        { calls := [.deleting a]
          actor := a
          write := fun x => { x.cancelIdle with destroyed := true }.record (.committed t g)
          mu := fun _ => true
          timers := (s.actors a).stop }
  | noCommit (a : ℕ) (g : UInt64) (t : ℕ)
      (hcancel : (s.actors a).opts.releaseGuard = true ∧
        (s.actors a).opts.releaseGuardCanceled = true) :
      Does s [.committing a g t] (.on a [.canceling a t])
  | noCommitSilent (a : ℕ) (g : UInt64) (t : ℕ)
      (hcancel : ¬((s.actors a).opts.releaseGuard = true ∧
        (s.actors a).opts.releaseGuardCanceled = true)) :
      Does s [.committing a g t] (.on a [])
  | delete (a : ℕ) : Does s [.deleting a] (s.remove a true)
  | cancelled (a t : ℕ) : Does s [.canceling a t] (.on a [] (.record (.canceled t)))
  | send (a : ℕ) (hmade : a < s.made) :
      Does s [] (.on a [.reading a] fun x => { x with readers := x.readers + 1 })
  | refused (a : ℕ) (hdestroyed : (s.actors a).destroyed = true) :
      Does s [.reading a] (.on a [.runlocking a])
  | accepted (a : ℕ) (hdestroyed : (s.actors a).destroyed = false) :
      Does s [.reading a] (.on a [.sending a])
  | sent (a : ℕ) : Does s [.sending a] (.on a [.runlocking a] (.record (.sent (s.actors a).closed)))
  | givenUp (a : ℕ) : Does s [.sending a] (.on a [.runlocking a])
  | runlock (a : ℕ) : Does s [.runlocking a] (.on a [] fun x => { x with readers := x.readers - 1 })
  | active (a : ℕ) (hmade : a < s.made) (hdestroyed : (s.actors a).destroyed = false) : Does s []
        { calls := []
          actor := a
          write := fun x => x.cancelIdle.record .active
          timers := (s.actors a).stop }
  | idle (a : ℕ) (hmade : a < s.made) (hdestroyed : (s.actors a).destroyed = false) : Does s []
        (s.schedule a ((s.actors a).idleGeneration + 1)
          (fun x => x.cancelIdle.record (.idle (x.idleGeneration + 1))) (s.actors a).stop)
  | bindActor (uid : ℤ) (kind id : String) : Does s [] (.on 0 [.loading uid kind id])
  | found (uid : ℤ) (kind id : String) (a : ℕ) (hload : s.load kind id = some a) :
      Does s [.loading uid kind id] (.on a [.binding uid a])
  | missing (uid : ℤ) (kind id : String) : Does s [.loading uid kind id] (.on 0 [])
  | bindUser (uid : ℤ) (a : ℕ) : Does s [.binding uid a]
        (.on a [.relating uid a] fun x => { x with binds := update x.binds uid true })
  | relate (uid : ℤ) (a : ℕ) : Does s [.relating uid a]
        { calls := []
          actor := a
          relations := fun relations =>
            update relations uid (update (relations uid) (s.kind a) (some a)) }
  | unbindActor (uid : ℤ) (kind : String) (a : ℕ) (hrelation : s.relations uid kind = some a)
      (hbinds : (s.actors a).binds uid = true) :
      Does s []
        { calls := []
          actor := a
          write := fun x => { x with binds := update x.binds uid false }
          relations := fun relations =>
            update relations uid (update (relations uid) kind none) }

theorem does_of_effect {s : State} {choice : Bool} {c : Call} {e : Effect}
    (h : s.effect choice c = some e) : Does s [c] e := by
  cases c <;> simp only [State.effect] at h
  case locking a =>
    split at h
    · cases h
    rename_i hmu
    have hmu := Bool.eq_false_iff.mpr hmu
    split at h <;> cases h
    · exact .reject a hmu
    rename_i hvac
    exact .lock a hmu (Option.not_isSome_iff_eq_none.mp hvac)
  case removing kind id =>
    split at h
    · cases h
    rename_i hmu
    have hmu := Bool.eq_false_iff.mpr hmu
    split at h <;> cases h
    · rename_i a hload
      exact .remove kind id a hmu hload
    · exact .absent kind id
  case removingActor a =>
    split at h
    · cases h
    rename_i hmu
    have hmu := Bool.eq_false_iff.mpr hmu
    split at h <;> cases h
    · rename_i hreg
      exact .removeActor a hmu hreg
    · exact .absentActor a
  case swapping a =>
    split at h <;> cases h <;> rename_i hdes
    · exact .swapped a hdes
    · exact .swap a (Bool.eq_false_iff.mpr hdes)
  case closing a =>
    split at h
    · rename_i hrds
      cases h
      exact .close a hrds
    · cases h
  case hooking a =>
    split at h <;> cases h <;> rename_i hhook
    · exact .hook a hhook
    · exact .noHook a (Bool.eq_false_iff.mpr hhook)
  case fired a g t =>
    split at h <;> cases h <;> rename_i hstl
    · exact .stale a g t hstl
    obtain ⟨hdes, hgen⟩ := not_or.mp hstl
    have hdes := Bool.eq_false_iff.mpr hdes
    have hgen := not_not.mp hgen
    cases hgd : (s.actors a).opts.releaseGuard with
    | true => exact .release a g t hdes hgen hgd
    | false => exact .releaseFree a g t hdes hgen hgd
  case denied a g t =>
    split at h <;> cases h <;> rename_i hcur
    · exact .retry a g t hcur.1 hcur.2
    refine .noRetry a g t ?_
    by_cases hdes : (s.actors a).destroyed = false
    · exact .inr fun hgen => hcur ⟨hdes, hgen⟩
    · exact .inl (Bool.eq_true_of_not_eq_false hdes)
  case committing a g t =>
    split at h
    · cases h
    rename_i hmu
    have hmu := Bool.eq_false_iff.mpr hmu
    split at h
    · rename_i hmay
      cases h
      simp only [State.mayCommit, Bool.and_eq_true, decide_eq_true_eq, Bool.not_eq_true'] at hmay
      exact .commit a g t hmu hmay.1.1 hmay.1.2 hmay.2
    split at h <;> cases h <;> rename_i hcan
    · exact .noCommit a g t hcan
    · exact .noCommitSilent a g t hcan
  case reading a =>
    cases h
    cases hdes : (s.actors a).destroyed with
    | true => exact .refused a hdes
    | false => exact .accepted a hdes
  case sending a =>
    cases h
    cases choice with
    | true => exact .sent a
    | false => exact .givenUp a
  case loading uid kind id =>
    split at h <;> cases h
    · rename_i a hload
      exact .found uid kind id a hload
    · exact .missing uid kind id
  case guarding a g t =>
    cases h
    cases choice with
    | true => exact .allow a g t
    | false => exact .deny a g t
  case unrelating a idle =>
    cases h
    cases idle with
    | true => exact .unrelateIdle a
    | false => exact .unrelate a
  all_goals
    cases h
    constructor

theorem does_of_begin {s : State} {act : Act} {e : Effect} (h : s.begin act = some e) :
    Does s [] e := by
  cases act <;> simp only [State.begin] at h
  case step => cases h
  case spawn opts =>
    cases h
    exact .spawn opts
  case kill kind id =>
    cases h
    exact .kill kind id
  case killActor a =>
    split at h
    · rename_i hmade
      cases h
      exact .killActor a hmade
    · cases h
  case send a =>
    split at h
    · rename_i hmade
      cases h
      exact .send a hmade
    · cases h
  case active a =>
    split at h
    · rename_i hlive
      cases h
      exact .active a hlive.1 hlive.2
    · cases h
  case idle a =>
    split at h
    · rename_i hlive
      cases h
      exact .idle a hlive.1 hlive.2.2
    · cases h
  case fire t =>
    split at h
    · rename_i hpend
      cases h
      exact .fire t hpend
    · cases h
  case bindActor uid kind id =>
    split at h
    · cases h
    cases h
    exact .bindActor uid kind id
  case unbindActor uid kind =>
    split at h
    · rename_i a hrel
      split at h
      · rename_i hbin
        cases h
        exact .unbindActor uid kind a hrel hbin
      · cases h
    · cases h

namespace State

def source (s : State) : Act → List Call
  | .step i _ => s.calls[i]?.toList
  | _ => []

structure Turn (s : State) (source : List Call) (e : Effect) (others : List Call) (s' : State) :
    Prop where
  does : Does s source e
  before : s.calls.Perm (source ++ others)
  after : s'.calls.Perm (e.calls ++ others)
  eq : s' = s.apply s'.calls e

theorem turn_of_next {s s' : State} {act : Act} (h : s.next act = some s') :
    ∃ e others, Turn s (s.source act) e others s' := by
  have hbeg : s.next act = (s.begin act).map (fun e => s.apply (s.calls ++ e.calls) e) →
      s.source act = [] → ∃ e others, Turn s (s.source act) e others s' := by
    intro hnext hsrc
    rw [h] at hnext
    obtain ⟨e, he, rfl⟩ := Option.map_eq_some_iff.mp hnext.symm
    rw [hsrc]
    exact ⟨e, s.calls, does_of_begin he, .rfl, List.perm_append_comm, rfl⟩
  cases act with
  | step i choice =>
    obtain ⟨c, hc, h⟩ := Option.bind_eq_some_iff.mp h
    obtain ⟨e, he, h⟩ := Option.bind_eq_some_iff.mp h
    cases h
    obtain ⟨others, hbef, haft⟩ := replaceAt_perm hc
    have hsrc : s.source (.step i choice) = [c] := by rw [source, hc, Option.toList_some]
    rw [hsrc]
    exact ⟨e, others, does_of_effect he, hbef, haft e.calls, rfl⟩
  | _ => exact hbeg rfl rfl

namespace Turn

variable {s s' : State} {source others : List Call} {e : Effect}

section

variable (h : Turn s source e others s')

include h

theorem actors_eq : s'.actors = update s.actors e.actor (e.write (s.actors e.actor)) := by
  rw [h.eq]
  rfl

theorem actor_eq : s'.actors e.actor = e.write (s.actors e.actor) := by
  rw [h.actors_eq, update_self]

theorem actor_of_ne {a : ℕ} (ha : a ≠ e.actor) : s'.actors a = s.actors a := by
  rw [h.actors_eq, update_of_ne ha]

theorem registry_eq : s'.registry = e.registry s.registry := by
  rw [h.eq]
  rfl

theorem relations_eq : s'.relations = e.relations s.relations := by
  rw [h.eq]
  rfl

theorem mu_eq : s'.mu = e.mu s.mu := by
  rw [h.eq]
  rfl

theorem made_eq : s'.made = s.made + e.births := by
  rw [h.eq]
  rfl

theorem timers_eq : s'.timers = e.timers s.timers := by
  rw [h.eq]
  rfl

theorem ids_eq : s'.ids = s.ids + e.ids := by
  rw [h.eq]
  rfl

end

end Turn

end State

end DueServer.Scheduler
