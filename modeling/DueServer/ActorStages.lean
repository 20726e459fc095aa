import DueServer.ActorSteps

/-! The life of one actor as an automaton of its own. An actor is in the hands of at most one call,
and the stage of that call (or, while there is none, whether the actor is registered) says all about
it. Every step of the scheduler is a step of this automaton for one actor, or leaves its stage
alone. -/
namespace DueServer.Scheduler

open Lib State

inductive Stage where
  | fresh
  | locking
  | rejected
  | initing
  | storing
  | unlocking
  | registered
  | deleting
  | unrelating (idle : Bool)
  | swapping
  | cancelling
  | destroying
  | inDestroy
  | unbinding
  | closing
  | hooking
  | inHook
  | completing
  | finishing
  | ended
deriving DecidableEq

@[simp] def Call.stage : Call → Option (ℕ × Stage)
  | .locking a => some (a, .locking)
  | .initing a => some (a, .initing)
  | .storing a => some (a, .storing)
  | .unlocking a => some (a, .unlocking)
  | .deleting a => some (a, .deleting)
  | .unrelating a idle => some (a, .unrelating idle)
  | .swapping a => some (a, .swapping)
  | .cancelling a => some (a, .cancelling)
  | .destroying a => some (a, .destroying)
  | .inDestroy a => some (a, .inDestroy)
  | .unbinding a => some (a, .unbinding)
  | .closing a => some (a, .closing)
  | .hooking a => some (a, .hooking)
  | .inHook a => some (a, .inHook)
  | .completing a => some (a, .completing)
  | .finishing a => some (a, .finishing)
  | _ => none

@[simp] def Call.stageOf (a : ℕ) (c : Call) : Option Stage :=
  c.stage.bind fun p => if p.1 = a then some p.2 else none

def Call.holdsMu : Call → Bool
  | .initing _ | .storing _ | .unlocking _ | .deleting _ | .unrelating _ _ => true
  | _ => false

def Call.reads (a : ℕ) : Call → Bool
  | .reading b | .sending b | .runlocking b => b = a
  | _ => false

@[simp] def Life.ofStage : Life → Bool
  | .rejected | .addWait | .init | .unregistered _ | .destroy | .destroyed | .hook | .hooked
  | .complete | .doneWait | .returned => true
  | _ => false

namespace Stage

@[simp] def quiet : Stage → Bool
  | fresh | rejected | registered | ended => true
  | _ => false

@[simp] def work (st : Stage) : List Stage := if st.quiet then [] else [st]

def inRegistry : Stage → Bool
  | unlocking | registered | deleting => true
  | _ => false

def destroyed : Stage → Bool
  | fresh | locking | rejected | initing | storing | unlocking | registered | unrelating false
  | swapping => false
  | _ => true

def closed : Stage → Bool
  | hooking | inHook | completing | finishing | ended => true
  | _ => false

def complete : Stage → Bool
  | finishing | ended => true
  | _ => false

theorem closed_eq_false {st : Stage} (h : st.destroyed = false) : st.closed = false := by
  cases st <;> first | rfl | cases h

def view (st : Stage) : Bool × Bool × Bool × Bool :=
  (st.destroyed, st.closed, !st.closed, st.complete)

inductive Step (o : Options) (a : ℕ) : Stage → List Life → Stage → Prop where
  | spawn : Step o a fresh [] locking
  | reject : Step o a locking [.rejected] rejected
  | lock : Step o a locking (if o.wait then [.addWait] else []) initing
  | init : Step o a initing [.init] storing
  | store : Step o a storing [] unlocking
  | unlock : Step o a unlocking [] registered
  | remove : Step o a registered [.unregistered (some a)] (unrelating false)
  | commit : Step o a registered [] deleting
  | delete : Step o a deleting [.unregistered (some a)] (unrelating true)
  | unrelate : Step o a (unrelating false) [] swapping
  | unrelateIdle : Step o a (unrelating true) [] destroying
  | swap : Step o a swapping [] cancelling
  | cancel : Step o a cancelling [] destroying
  | destroy : Step o a destroying [.destroy] inDestroy
  | destroyed : Step o a inDestroy [.destroyed] unbinding
  | unbind : Step o a unbinding [] closing
  | close : Step o a closing [] hooking
  | hook (h : o.releaseHook = true) : Step o a hooking [.hook] inHook
  | noHook (h : o.releaseHook = false) : Step o a hooking [] completing
  | hooked (h : o.releaseHook = true) : Step o a inHook [.hooked] completing
  | complete : Step o a completing [.complete] finishing
  | finish : Step o a finishing ((if o.wait then [.doneWait] else []) ++ [.returned]) ended

def script (o : Options) (a : ℕ) (st : Stage) : List Life :=
  let spawned : List Life := if o.wait then [.addWait] else []
  let ended : List Life := spawned ++ [.init, .unregistered (some a), .destroy, .destroyed]
  let released : List Life := ended ++ if o.releaseHook then [.hook, .hooked] else []
  match st with
  | fresh | locking => []
  | rejected => [.rejected]
  | initing => spawned
  | storing | unlocking | registered | deleting => spawned ++ [.init]
  | unrelating _ | swapping | cancelling | destroying =>
    spawned ++ [.init, .unregistered (some a)]
  | inDestroy => spawned ++ [.init, .unregistered (some a), .destroy]
  | unbinding | closing | hooking => ended
  | inHook => ended ++ [.hook]
  | completing => released
  | finishing => released ++ [.complete]
  | .ended => released ++ [.complete] ++ (if o.wait then [.doneWait] else []) ++ [.returned]

theorem Step.script_eq {o : Options} {a : ℕ} {st st' : Stage} {ls : List Life}
    (h : Step o a st ls st') : st'.script o a = st.script o a ++ ls := by
  cases h <;> simp_all [script]

end Stage

def Actor.view (x : Actor) : Bool × Bool × Bool × Bool :=
  (x.destroyed, x.closed, x.processor, x.complete)

structure Inside (x : Actor) (a : ℕ) (st : Stage) : Prop where
  view : x.view = st.view
  hook : st = .inHook → x.opts.releaseHook = true
  life : x.life.filter Life.ofStage = st.script x.opts a

structure Matches (s : State) (a : ℕ) (st : Stage) : Prop where
  calls : s.calls.filterMap (Call.stageOf a) = st.work
  registered : s.registry (s.pid a) = some a ↔ st.inRegistry = true
  made : a < s.made ↔ st ≠ .fresh
  inside : Inside (s.actors a) a st

namespace Inside

variable {x y : Actor} {a : ℕ} {st st' : Stage} {ls : List Life}

section

variable (h : Inside x a st)

include h

theorem destroyed : x.destroyed = st.destroyed := congrArg (·.1) h.view

theorem closed : x.closed = st.closed := congrArg (·.2.1) h.view

theorem processor : x.processor = !st.closed := congrArg (·.2.2.1) h.view

theorem complete : x.complete = st.complete := congrArg (·.2.2.2) h.view

theorem step (hstep : Stage.Step x.opts a st ls st') (hopts : y.opts = x.opts)
    (hlife : y.life.filter Life.ofStage = x.life.filter Life.ofStage ++ ls)
    (hview : y.view = st'.view) : Inside y a st' where
  view := hview
  hook := by
    rintro rfl
    cases hstep with
    | hook hhook => rwa [hopts]
  life := by rw [hlife, h.life, hopts, hstep.script_eq]

theorem same (hopts : y.opts = x.opts)
    (hlife : y.life.filter Life.ofStage = x.life.filter Life.ofStage) (hview : y.view = x.view) :
    Inside y a st where
  view := hview.trans h.view
  hook := fun hst => hopts ▸ h.hook hst
  life := by rw [hlife, h.life, hopts]

end

end Inside

theorem Stage.eq_work {st : Stage} {l : List Stage} (h : l.Perm st.work) : l = st.work := by
  unfold work at h ⊢
  split at h <;> rename_i hqt
  · rw [if_pos hqt]
    exact h.eq_nil
  rw [if_neg hqt]
  exact h.eq_singleton

namespace State.Turn

variable {s s' : State} {source others : List Call} {e : Effect} {a : ℕ} {st st' : Stage}

theorem others_stages (h : Turn s source e others s') (hm : Matches s a st)
    (hsrc : source.filterMap (Call.stageOf a) = []) :
    others.filterMap (Call.stageOf a) = st.work := by
  have hperm := h.before.filterMap (Call.stageOf a)
  rw [List.filterMap_append, hsrc, hm.calls] at hperm
  exact Stage.eq_work hperm.symm

theorem stage_eq (h : Turn s source e others s') (hm : Matches s a st) {c : Call}
    (hsrc : source = [c]) (hstg : c.stageOf a = some st') :
    st = st' ∧ source.filterMap (Call.stageOf a) = st.work := by
  have hperm := h.before.filterMap (Call.stageOf a)
  subst hsrc
  rw [List.filterMap_append, hm.calls] at hperm
  simp only [List.filterMap_cons, hstg] at hperm ⊢
  unfold Stage.work at hperm ⊢
  split at hperm <;> rename_i hqt
  · exact absurd hperm.nil_eq (by simp)
  · simp_all

end State.Turn

inductive Shift (s : State) (source : List Call) (e : Effect) (st : Stage) : Stage → Prop where
  | same (hsource : source.filterMap (Call.stageOf e.actor) = [])
      (hcalls : e.calls.filterMap (Call.stageOf e.actor) = [])
      (hregistry : e.registry s.registry = s.registry) (hbirths : e.births = 0)
      (hopts : (e.write (s.actors e.actor)).opts = (s.actors e.actor).opts)
      (hinside : Inside (e.write (s.actors e.actor)) e.actor st) : Shift s source e st st
  | move {st' : Stage} (hsource : source.filterMap (Call.stageOf e.actor) = st.work)
      (hcalls : e.calls.filterMap (Call.stageOf e.actor) = st'.work)
      (hstep : ∃ ls, Stage.Step (s.actors e.actor).opts e.actor st ls st')
      (hregistry : e.registry s.registry (s.pid e.actor) = some e.actor ↔ st'.inRegistry = true)
      (hborn : e.births = 0 ∧ st ≠ .fresh)
      (hopts : (e.write (s.actors e.actor)).opts = (s.actors e.actor).opts)
      (hinside : Inside (e.write (s.actors e.actor)) e.actor st') : Shift s source e st st'
  | spawn (opts : Options) (hst : st = .fresh) (hsource : source = [])
      (heq : e =
        { calls := [.locking s.made], actor := s.made, write := fun _ => .new opts, births := 1 }) :
      Shift s source e st .locking

theorem shift_of_does {s : State} {source : List Call} {e : Effect} {st : Stage}
    (h : Does s source e) (hm : Matches s e.actor st)
    (hfree : s.mu = false → st.inRegistry = true → st = .registered)
    (hnam : ∀ p a, s.registry p = some a → s.pid a = p)
    (hst : ∀ c st', source = [c] → c.stageOf e.actor = some st' →
      st = st' ∧ source.filterMap (Call.stageOf e.actor) = st.work) :
    ∃ st', Shift s source e st st' := by
  have hin := hm.inside
  have hreg := hm.registered
  cases h
  case spawn opts =>
    have hfr : st = .fresh := by
      by_contra hne
      exact absurd (hm.made.mpr hne) (lt_irrefl _)
    exact ⟨.locking, .spawn opts hfr rfl rfl⟩
  case reject a _ =>
    obtain ⟨rfl, hwork⟩ := hst _ .locking rfl (by simp)
    exact ⟨_, .move hwork (by simp) ⟨_, .reject⟩ hreg ⟨rfl, nofun⟩ rfl
      (hin.step .reject rfl (by simp) hin.view)⟩
  case lock a _ _ =>
    obtain ⟨rfl, hwork⟩ := hst _ .locking rfl (by simp)
    refine ⟨_, .move hwork (by simp) ⟨_, .lock⟩ hreg ⟨rfl, nofun⟩ ?_ (hin.step .lock ?_ ?_ ?_)⟩
    all_goals dsimp only; split
    · rfl
    · rfl
    · rfl
    · rfl
    · simp
    · simp
    · exact hin.view
    · exact hin.view
  case init a =>
    obtain ⟨rfl, hwork⟩ := hst _ .initing rfl (by simp)
    exact ⟨_, .move hwork (by simp) ⟨_, .init⟩ hreg ⟨rfl, nofun⟩ rfl
      (hin.step .init rfl (by simp [Actor.call, hin.processor, Stage.closed]) hin.view)⟩
  case store a =>
    obtain ⟨rfl, hwork⟩ := hst _ .storing rfl (by simp)
    exact ⟨_, .move hwork (by simp) ⟨_, .store⟩ (by simp [Stage.inRegistry]) ⟨rfl, nofun⟩ rfl
      (hin.step .store rfl (by simp) hin.view)⟩
  case unlock a =>
    obtain ⟨rfl, hwork⟩ := hst _ .unlocking rfl (by simp)
    exact ⟨_, .move hwork (by simp) ⟨_, .unlock⟩ hreg ⟨rfl, nofun⟩ rfl
      (hin.step .unlock rfl (by simp) hin.view)⟩
  case remove kind id a hmu hload =>
    have hpid : s.pid a = kind ++ "/" ++ id := hnam _ a hload
    have hregi : s.registry (s.pid a) = some a := hpid ▸ hload
    obtain rfl := hfree hmu (hreg.mp hregi)
    exact ⟨_, .move rfl (by simp [remove]) ⟨_, .remove⟩
      (by simp [remove, Stage.inRegistry]) ⟨rfl, nofun⟩ rfl
      (hin.step .remove rfl (by simp [remove, hregi]) hin.view)⟩
  case removeActor a hmu hregi =>
    obtain rfl := hfree hmu (hreg.mp hregi)
    exact ⟨_, .move rfl (by simp [remove]) ⟨_, .remove⟩
      (by simp [remove, Stage.inRegistry]) ⟨rfl, nofun⟩ rfl
      (hin.step .remove rfl (by simp [remove, hregi]) hin.view)⟩
  case commit a g t hmu hregi _ _ =>
    obtain rfl := hfree hmu (hreg.mp hregi)
    have hview : ((s.actors a).closed, (s.actors a).processor, (s.actors a).complete) = _ :=
      congrArg (·.2) hin.view
    exact ⟨_, .move rfl (by simp) ⟨_, .commit⟩ hreg ⟨rfl, nofun⟩ rfl
      (hin.step .commit rfl (by simp [Actor.cancelIdle]) (congrArg (Prod.mk true) hview))⟩
  case delete a =>
    obtain ⟨rfl, hwork⟩ := hst _ .deleting rfl (by simp [remove])
    have hregi : s.registry (s.pid a) = some a := hreg.mpr rfl
    exact ⟨_, .move hwork (by simp [remove]) ⟨_, .delete⟩
      (by simp [remove, Stage.inRegistry]) ⟨rfl, nofun⟩ rfl
      (hin.step .delete rfl (by simp [remove, hregi]) hin.view)⟩
  case unrelate a =>
    obtain ⟨rfl, hwork⟩ := hst _ (.unrelating false) rfl (by simp)
    exact ⟨_, .move hwork (by simp) ⟨_, .unrelate⟩ hreg ⟨rfl, nofun⟩ rfl
      (hin.step .unrelate rfl (by simp) hin.view)⟩
  case unrelateIdle a =>
    obtain ⟨rfl, hwork⟩ := hst _ (.unrelating true) rfl (by simp)
    exact ⟨_, .move hwork (by simp) ⟨_, .unrelateIdle⟩ hreg ⟨rfl, nofun⟩ rfl
      (hin.step .unrelateIdle rfl (by simp) hin.view)⟩
  case swapped a hdes =>
    obtain ⟨rfl, _⟩ := hst _ .swapping rfl (by simp)
    exact absurd (hin.destroyed.symm.trans hdes) (by decide)
  case swap a _ =>
    obtain ⟨rfl, hwork⟩ := hst _ .swapping rfl (by simp)
    have hview : ((s.actors a).closed, (s.actors a).processor, (s.actors a).complete) = _ :=
      congrArg (·.2) hin.view
    exact ⟨_, .move hwork (by simp) ⟨_, .swap⟩ hreg ⟨rfl, nofun⟩ rfl
      (hin.step .swap rfl (by simp) (congrArg (Prod.mk true) hview))⟩
  case cancel a =>
    obtain ⟨rfl, hwork⟩ := hst _ .cancelling rfl (by simp)
    exact ⟨_, .move hwork (by simp) ⟨_, .cancel⟩ hreg ⟨rfl, nofun⟩ rfl
      (hin.step .cancel rfl (by simp [Actor.cancelIdle]) hin.view)⟩
  case destroy a =>
    obtain ⟨rfl, hwork⟩ := hst _ .destroying rfl (by simp)
    exact ⟨_, .move hwork (by simp) ⟨_, .destroy⟩ hreg ⟨rfl, nofun⟩ rfl
      (hin.step .destroy rfl (by simp [Actor.call, hin.processor, Stage.closed]) hin.view)⟩
  case destroyed a =>
    obtain ⟨rfl, hwork⟩ := hst _ .inDestroy rfl (by simp)
    exact ⟨_, .move hwork (by simp) ⟨_, .destroyed⟩ hreg ⟨rfl, nofun⟩ rfl
      (hin.step .destroyed rfl (by simp) hin.view)⟩
  case unbind a =>
    obtain ⟨rfl, hwork⟩ := hst _ .unbinding rfl (by simp)
    exact ⟨_, .move hwork (by simp) ⟨_, .unbind⟩ hreg ⟨rfl, nofun⟩ rfl
      (hin.step .unbind rfl (by simp) hin.view)⟩
  case close a _ =>
    obtain ⟨rfl, hwork⟩ := hst _ .closing rfl (by simp)
    have hview : (true, true, false, (s.actors a).complete) = Stage.hooking.view := by
      rw [hin.complete]
      rfl
    exact ⟨_, .move hwork (by simp) ⟨_, .close⟩ hreg ⟨rfl, nofun⟩ rfl
      (hin.step .close rfl (by simp) (by rw [← hview, Actor.view, hin.destroyed]; rfl))⟩
  case hook a hhook =>
    obtain ⟨rfl, hwork⟩ := hst _ .hooking rfl (by simp)
    exact ⟨_, .move hwork (by simp) ⟨_, (.hook hhook)⟩ hreg ⟨rfl, nofun⟩ rfl
      (hin.step (.hook hhook) rfl (by simp) hin.view)⟩
  case noHook a hhook =>
    obtain ⟨rfl, hwork⟩ := hst _ .hooking rfl (by simp)
    exact ⟨_, .move hwork (by simp) ⟨_, (.noHook hhook)⟩ hreg ⟨rfl, nofun⟩ rfl
      (hin.step (.noHook hhook) rfl (by simp) hin.view)⟩
  case hooked a =>
    obtain ⟨rfl, hwork⟩ := hst _ .inHook rfl (by simp)
    exact ⟨_, .move hwork (by simp) ⟨_, (.hooked (hin.hook rfl))⟩ hreg ⟨rfl, nofun⟩ rfl
      (hin.step (.hooked (hin.hook rfl)) rfl (by simp) hin.view)⟩
  case complete a =>
    obtain ⟨rfl, hwork⟩ := hst _ .completing rfl (by simp)
    refine ⟨_, .move hwork (by simp) ⟨_, .complete⟩ hreg ⟨rfl, nofun⟩ rfl
      (hin.step .complete rfl (by simp) ?_)⟩
    simp only [Actor.view, Actor.record, hin.destroyed, hin.closed, hin.processor]
    rfl
  case finish a =>
    obtain ⟨rfl, hwork⟩ := hst _ .finishing rfl (by simp)
    refine ⟨_, .move hwork (by simp) ⟨_, .finish⟩ hreg ⟨rfl, nofun⟩ ?_ (hin.step .finish ?_ ?_ ?_)⟩
    all_goals dsimp only; split
    · rfl
    · rfl
    · rfl
    · rfl
    · simp
    · simp
    · exact hin.view
    · exact hin.view
  -- the other steps have nothing to do with stages
  case start a =>
    exact ⟨_, .same (by simp) rfl rfl rfl rfl
      (hin.same rfl (by by_cases h : (s.actors a).processor <;> simp [Actor.call, h]) rfl)⟩
  all_goals
    exact ⟨_, .same (by simp) (by simp [schedule]) rfl rfl rfl
      (hin.same rfl (by simp [schedule, Actor.cancelIdle]) rfl)⟩

end DueServer.Scheduler
