import DueServer.WatcherModel

/-! When `broadcast` and the calls on its watchers wait for each other. -/
namespace DueServer.Watcher

open Lib Function

namespace State

variable (kind : Kind) (s : State)

/-- `broadcast` waits for room in the channel of a watcher while no call on the watcher can go on,
or it waits for the lock of a watcher whose `Stop` waits for the lock of the manager. -/
def Deadlock : Prop :=
  (∃ p w todo, s.bc = .send p w todo ∧ s.full w = true ∧ (∃ i < s.called, (s.pcs i).on = some w) ∧
    ∀ i < s.called, (s.pcs i).on = some w → ∀ cancelled, s.stepCall kind i cancelled = none) ∨
  ∃ p w todo i, s.bc = .wlock p w todo ∧ (s.ws w).locker = some i ∧ (s.pcs i).recycles = some w ∧
    ∀ cancelled, s.stepCall kind i cancelled = none

/-- `broadcast` begins only when no `Stop` has the lock of its watcher, and takes the lock of a
watcher only when its channel has room; `Stop` takes that lock only when no broadcast is under way.
-/
def smooth (s : State) : Act → Bool
  | .bc _ => match s.bc with
    | .rlock => decide (∀ i < s.called, (s.pcs i).recycles = none)
    | .wlock _ w _ => !s.full w
    | _ => true
  | .go i _ => match s.pcs i with
    | .stopLocking _ => !s.bc.holds
    | _ => true
  | _ => true

end State

structure Free (s : State) : Prop where
  late : ∀ i, s.called ≤ i → s.pcs i = .idle
  room : ∀ p w todo, s.bc = .send p w todo → s.full w = false
  apart : s.bc.holds = true → ∀ i, (s.pcs i).recycles = none

variable {kind : Kind} {s s' : State}

theorem stepBc_free {w : ℕ} (h : Free s) (hg : s.smooth (.bc w) = true)
    (hstep : s.stepBc w = some s') : Free s' := by
  obtain ⟨hlate, hroom, hapa⟩ := h
  unfold State.stepBc at hstep
  split at hstep <;> rename_i hbc
  · cases hstep
  · split at hstep <;> cases hstep
    refine ⟨hlate, nofun, fun _ i => ?_⟩
    simp only [State.smooth, hbc, decide_eq_true_eq] at hg
    by_cases hi : i < s.called
    · exact hg i hi
    change (s.pcs i).recycles = none
    rw [hlate i (Nat.le_of_not_lt hi)]
    rfl
  · split at hstep
    · cases hstep
      exact ⟨hlate, nofun, nofun⟩
    · split at hstep <;> cases hstep
      exact ⟨hlate, nofun, fun _ => hapa (by rw [hbc]; rfl)⟩
  · split at hstep <;> cases hstep
    refine ⟨hlate, ?_, fun _ => hapa (by rw [hbc]; rfl)⟩
    rintro p v todo heq
    cases heq
    change s.full _ = false
    simpa [State.smooth, hbc] using hg
  · split at hstep <;> cases hstep
    have hqt : ∀ i, (s.pcs i).recycles = none := hapa (by rw [hbc]; rfl)
    unfold State.notify
    split <;> exact ⟨hlate, nofun, fun _ => hqt⟩

theorem Free.call {i : ℕ} {pc : Pc} (h : Free s) (hi : i < s.called) (hcal : s'.called = s.called)
    (hbc : s'.bc = s.bc) (hpcs : s'.pcs = update s.pcs i pc)
    (hroom : ∀ w, s.bc.reads = some w → s.full w = false → s'.full w = false)
    (hpc : s.bc.holds = true → pc.recycles = none) : Free s' where
  late := by
    intro j hj
    rw [hcal] at hj
    rw [hpcs, update_of_ne (by omega)]
    exact h.late j hj
  room := by
    intro p w todo heq
    rw [hbc] at heq
    exact hroom w (by rw [heq]; rfl) (h.room p w todo heq)
  apart := by
    intro hho j
    rw [hbc] at hho
    rw [hpcs]
    by_cases hj : j = i
    · rw [hj, update_self]
      exact hpc hho
    rw [update_of_ne hj]
    exact h.apart hho j

theorem full_of_ws {w v : ℕ} {x : Watch} (hws : s'.ws = update s.ws w x) (h : s.full v = false)
    (hstt : x.state = .running → (s.ws w).state = .running)
    (hchan : x.chan.length ≤ (s.ws w).chan.length) :
    s'.full v = false := by
  simp only [State.full, hws] at *
  grind -linarith

theorem stepCall_free {i : ℕ} {cancelled : Bool} (h : Free s)
    (hg : s.smooth (.go i cancelled) = true)
    (hstep : s.stepCall kind i cancelled = some s') : Free s' := by
  have hi : i < s.called := by
    by_contra hle
    simp [State.stepCall, h.late i (Nat.le_of_not_lt hle)] at hstep
  unfold State.stepCall at hstep
  split at hstep <;> rename_i hpc
  · cases hstep
  · split at hstep <;> cases hstep
    exact h.call hi rfl rfl rfl (fun _ _ hv => full_of_ws rfl hv (by exact id)
      (Nat.le_refl _)) fun _ => rfl
  · split at hstep <;> cases hstep
    rename_i w hrea
    -- `Next` does not get the lock of the watcher that `broadcast` sends to
    have hoth : ∀ {x : Watch} v, s.bc.reads = some v → s.full v = false →
      (s.setW w x).full v = false := by
      intro x v hv
      have hne : v ≠ w := by
        rintro rfl
        exact hrea hv
      simp only [State.full, State.setW, update_of_ne hne]
      exact id
    unfold State.enter
    simp only
    split
    · refine h.call hi rfl rfl rfl hoth fun _ => ?_
      split <;> rfl
    · exact h.call hi rfl rfl rfl hoth fun _ => rfl
  · cases hstep
    exact h.call hi rfl rfl rfl (fun _ _ => id) fun _ => rfl
  · cases hstep
    exact h.call hi rfl rfl rfl (fun _ _ hv => full_of_ws rfl hv (by exact id)
      (Nat.le_refl _)) fun _ => rfl
  · split at hstep
    · rename_i w _ p rest hchan
      split at hstep <;> cases hstep
      · exact h.call hi rfl rfl rfl (fun _ _ => id) fun _ => rfl
      have hsh : rest.length ≤ (s.ws w).chan.length := by
        rw [hchan]
        exact Nat.le_succ _
      exact h.call hi rfl rfl rfl (fun _ _ hv => full_of_ws rfl hv (by exact id) hsh) fun _ => rfl
    · split at hstep <;> cases hstep
      exact h.call hi rfl rfl rfl (fun _ _ => id) fun _ => rfl
  · split at hstep <;> cases hstep
    exact h.call hi rfl rfl rfl (fun _ _ hv => full_of_ws rfl hv (by exact id)
      (Nat.le_refl _)) fun _ => rfl
  · split at hstep
    · cases hstep
    · split at hstep <;> cases hstep
      · exact h.call hi rfl rfl rfl (fun _ _ hv => full_of_ws rfl hv (by exact id)
          (Nat.le_refl _)) fun _ => rfl
      · refine h.call hi rfl rfl rfl (fun _ _ hv => full_of_ws rfl hv (by nofun)
          (Nat.le_refl _)) fun hho => ?_
        simp [State.smooth, hpc, hho] at hg
  · split at hstep <;> cases hstep
    refine h.call hi rfl rfl rfl (fun _ _ => id) fun hho => ?_
    have hnone := h.apart hho i
    rw [hpc] at hnone
    cases hnone
  · split at hstep <;> cases hstep
    exact h.call hi rfl rfl rfl (fun _ _ hv => full_of_ws rfl hv (by exact id)
      (Nat.le_refl _)) fun _ => rfl

theorem Free.start {pc : Pc} (h : Free s) (hpc : pc.recycles = none) : Free (s.start pc) := by
  obtain ⟨hlate, hroom, hapa⟩ := h
  refine ⟨?_, hroom, ?_⟩ <;> simp only [State.start, State.goto] <;> grind -linarith

theorem move_free {act : Act} (h : Free s) (hg : s.smooth act = true)
    (hstep : s.move kind act = some s') : Free s' := by
  cases act with
  | bc w => exact stepBc_free h hg hstep
  | go i cancelled => exact stepCall_free h hg hstep
  | fork =>
    simp only [State.move] at hstep
    split at hstep <;> cases hstep
    rename_i hfree
    obtain ⟨hlate, hroom, hapa⟩ := h
    refine ⟨hlate, fun p w todo heq => ?_, hapa⟩
    have hho := hfree.2
    rw [show s.bc = .send p w todo from heq] at hho
    cases hho
  | next w | stop w =>
    simp only [State.move] at hstep
    split at hstep <;> cases hstep
    exact h.start rfl
  | event =>
    simp only [State.move] at hstep
    split at hstep <;> cases hstep
    refine ⟨h.late, fun p w todo heq => ?_, fun hho => ?_⟩
    · split at heq <;> cases heq
    · split at hho <;> cases hho
  | broadcast =>
    simp only [State.move] at hstep
    split at hstep <;> cases hstep
    exact ⟨h.late, nofun, nofun⟩

theorem free_of_run {G : State → Act → Bool} (hG : ∀ s act, G s act = true → s.smooth act = true)
    {tr : List Act} (h : Run (guardedRel (State.step kind) G) .init tr s) : Free s := by
  have h0 : Free State.init := ⟨fun _ _ => rfl, fun _ _ _ h => (nomatch h), fun h => (nomatch h)⟩
  exact run_states Free h0 (fun t e t' ht hg hu => move_free ht (hG t e hg) hu) h

theorem Free.not_deadlock (h : Free s) : ¬ s.Deadlock kind := by
  rintro (⟨p, w, todo, hbc, hfull, -⟩ | ⟨p, w, todo, i, hbc, -, hrec, -⟩)
  · rw [h.room p w todo hbc] at hfull
    cases hfull
  · rw [h.apart (by rw [hbc]; rfl) i] at hrec
    cases hrec

/-- `broadcast` and the calls on its watchers never wait for each other for ever. -/
theorem watchers_never_deadlock (kind : Kind) {tr : List Act}
    (h : Run (guardedRel (State.step kind) State.smooth) .init tr s) : ¬ s.Deadlock kind :=
  (free_of_run (fun _ _ => id) h).not_deadlock

def readOnce : List Act :=
  [.fork, .next 0, .go 0 false, .go 0 false, .event, .bc 0, .bc 0, .bc 0, .next 0, .go 1 false,
    .bc 0]

theorem readOnce_isSome : (exec (State.step .redis) State.smooth .init readOnce).isSome := by
  decide +kernel

theorem readOnce_never_deadlocks :
    let s := ((exec (State.step .redis) State.smooth .init readOnce).get readOnce_isSome).2
    s.bc.reads = none ∧ s.pcs 1 = .nextLocking 0 ∧ ¬ s.Deadlock .redis :=
  ⟨by decide +kernel, by decide +kernel, watchers_never_deadlock .redis
    (run_of_exec _ readOnce_isSome)⟩

def oneEvent : List Act := [.event, .bc 0, .bc 0, .bc 0, .bc 0, .bc 0]

/-- The channel of a running watcher is filled, and `Next` comes when `notify` waits. -/
def overflow : List Act :=
  let called : List Act := [.fork, .next 0, .go 0 false, .go 0 false]
  let blocked : List Act := [.event, .bc 0, .bc 0, .bc 0, .next 0, .go 1 false]
  called ++ oneEvent ++ .go 0 false :: (List.replicate 16 oneEvent).flatten ++ blocked

/-- `Stop` has the lock of its watcher when `broadcast` comes to it. -/
def crossing : List Act :=
  [.fork, .stop 0, .go 0 false, .go 0 false, .event, .bc 0, .bc 0, .go 0 false]

/-- Both ways to block `broadcast` for ever. -/
theorem broadcast_deadlocks :
    (∃ tr s, Run (guardedRel (State.step .redis) fun _ _ => true) .init tr s ∧ s.Deadlock .redis ∧
      s.bc.reads = some 0) ∧
    ∃ tr s, Run (guardedRel (State.step .redis) fun _ _ => true) .init tr s ∧ s.Deadlock .redis ∧
      s.bc.reads = none := by
  constructor
  · refine ⟨_, _, run_of_exec overflow (by decide +kernel), (.inl ⟨(18, 18), 0, [], ?_⟩), ?_⟩
    · decide +kernel
    · decide +kernel
  · refine ⟨_, _, run_of_exec crossing (by decide +kernel), (.inr ⟨(1, 1), 0, [], 0, ?_⟩), ?_⟩
    · decide +kernel
    · decide +kernel

end DueServer.Watcher
