import DueServer.WatcherDeadlock

/-! What the calls of `Next` return. In the locator: the events that were broadcast while the
watcher was in the map, in their order. In the registry: lists that do not go back. -/
namespace DueServer.Watcher

open Lib
open Function (update_self update_of_ne update)
open List

variable {kind : Kind} {s s' : State}

section Events

/-- `smooth`, and a broadcast begins only when `Next` has been called on every watcher. -/
def State.attended (s : State) (act : Act) : Bool :=
  s.smooth act && match act, s.bc with
    | .bc _, .rlock =>
      decide (∀ w < s.forked, (s.ws w).registered = true → (s.ws w).state = .running)
    | _, _ => true

/-- What a watcher was to get it has got, it is queued, or `broadcast` is about to deliver it. -/
structure Delivers (s : State) : Prop where
  whole : ∀ w, (s.ws w).got ++ (s.ws w).chan ++ s.bc.inFlight w = (s.ws w).due
  running : ∀ w, s.bc.inFlight w ≠ [] → (s.ws w).state = .running
  silent : ∀ i, (s.pcs i).lists = none
  nodup : ∀ p w todo, (s.bc = .loop p todo → todo.Nodup) ∧
    (s.bc = .wlock p w todo ∨ s.bc = .send p w todo → (w :: todo).Nodup)

theorem stepBc_delivers {w : ℕ} (h : Delivers s) (hg : s.attended (.bc w) = true)
    (hstep : s.stepBc w = some s') : Delivers s' := by
  obtain ⟨hwho, hrun, hsil, hnd⟩ := h
  unfold State.stepBc at hstep
  split at hstep <;> rename_i hbc
  · cases hstep
  · split at hstep <;> cases hstep
    simp only [State.attended, hbc, Bool.and_eq_true, decide_eq_true_eq] at hg
    refine ⟨fun v => ?_, fun v => ?_, hsil, fun p v todo => ⟨?_, ?_⟩⟩
    · have hv := hwho v
      simp only [State.begin, Bc.inFlight, hbc, mem_filter, mem_range] at hv ⊢
      grind -linarith
    · simp only [State.begin, Bc.inFlight, mem_filter, mem_range]
      grind -linarith
    · intro heq
      cases heq
      exact nodup_range.filter _
    · simp [State.begin]
  · rename_i p todo
    have htodo := (hnd p 0 todo).1 hbc
    split at hstep
    · cases hstep
      refine ⟨fun v => ?_, fun v => ?_, hsil, fun p v todo => ⟨?_, ?_⟩⟩ <;>
        have hv := hwho v <;> simp only [Bc.inFlight, hbc] at * <;> grind -linarith
    split at hstep <;> cases hstep
    refine ⟨fun v => ?_, fun v => ?_, hsil, fun p v todo => ⟨?_, ?_⟩⟩ <;>
      have hv := hwho v <;> have hr := hrun v <;> simp only [Bc.inFlight, hbc] at * <;>
      grind -linarith [Nodup.mem_erase_iff]
  · rename_i p v todo
    split at hstep <;> cases hstep
    refine ⟨fun v => ?_, fun v => ?_, hsil, fun p v todo => ⟨?_, ?_⟩⟩ <;>
      have hv := hwho v <;> have hr := hrun v <;> simp only [Bc.inFlight] at * <;> grind -linarith
  · rename_i p v todo
    split at hstep <;> cases hstep
    have hv := hrun v (by simp [hbc, Bc.inFlight])
    rw [State.notify, if_pos hv]
    refine ⟨fun w => ?_, fun w => ?_, hsil, fun p w todo => ⟨?_, ?_⟩⟩ <;>
      have hw := hwho w <;> have hr := hrun w <;> simp only [Bc.inFlight, State.setW] at * <;>
        grind -linarith

theorem Delivers.call {i : ℕ} {pc : Pc} (h : Delivers s) (hbc : s'.bc = s.bc)
    (hpcs : s'.pcs = update s.pcs i pc) (hpc : pc.lists = none)
    (hqu : ∀ w, (s'.ws w).got ++ (s'.ws w).chan = (s.ws w).got ++ (s.ws w).chan)
    (hdue : ∀ w, (s'.ws w).due = (s.ws w).due)
    (hstt : ∀ w, s.bc.inFlight w ≠ [] → (s.ws w).state = .running → (s'.ws w).state = .running) :
    Delivers s' := by
  obtain ⟨hwho, hrun, hsil, hnd⟩ := h
  refine ⟨fun w => ?_, fun w hw => ?_, fun j => ?_, ?_⟩ <;> rw [hbc] at *
  · rw [hqu, hdue]
    exact hwho w
  · exact hstt w hw (hrun w hw)
  · rw [hpcs]
    by_cases hj : j = i
    · rw [hj, update_self]
      exact hpc
    rw [update_of_ne hj]
    exact hsil j
  · exact hnd

theorem stepCall_delivers {i : ℕ} {cancelled : Bool} (h : Delivers s)
    (hg : s.attended (.go i cancelled) = true) (hstep : s.stepCall .redis i cancelled = some s') :
    Delivers s' := by
  have hsmo : s.smooth (.go i cancelled) = true := (Bool.and_eq_true _ _ ▸ hg).1
  unfold State.stepCall at hstep
  split at hstep <;> rename_i hpc
  · cases hstep
  · split at hstep <;> cases hstep
    refine h.call rfl rfl rfl ?_ ?_ ?_ <;> simp only [State.goto, State.setW] <;> grind -linarith
  · split at hstep <;> cases hstep
    unfold State.enter
    simp only
    split <;> refine h.call rfl rfl rfl ?_ ?_ ?_ <;> simp only [State.goto, State.setW] <;>
      grind -linarith
  · have hlis := h.silent i
    rw [hpc] at hlis
    cases hlis
  · have hlis := h.silent i
    rw [hpc] at hlis
    cases hlis
  · split at hstep
    · split at hstep <;> cases hstep <;> refine h.call rfl rfl rfl ?_ ?_ ?_ <;>
        simp only [State.goto, State.setW] <;> grind -linarith
    · split at hstep <;> cases hstep
      exact h.call rfl rfl rfl (fun _ => rfl) (fun _ => rfl) fun _ _ => id
  · split at hstep <;> cases hstep
    refine h.call rfl rfl rfl ?_ ?_ ?_ <;> simp only [State.goto, State.setW] <;> grind -linarith
  · split at hstep
    · cases hstep
    · split at hstep <;> cases hstep
      · refine h.call rfl rfl rfl ?_ ?_ ?_ <;> simp only [State.goto, State.setW] <;>
          grind -linarith
      · -- `Stop` has got its lock, so no broadcast is under way
        have hqt : ∀ w, s.bc.inFlight w = [] := by
          intro w
          simp only [State.smooth, hpc] at hsmo
          cases hbc : s.bc <;> simp [hbc, Bc.holds] at hsmo <;> rfl
        refine h.call rfl rfl rfl ?_ ?_ ?_ <;> simp only [State.goto, State.setW] <;>
          grind -linarith
  · split at hstep <;> cases hstep
    exact h.call rfl rfl rfl (fun _ => rfl) (fun _ => rfl) fun _ _ => id
  · split at hstep <;> cases hstep
    refine h.call rfl rfl rfl ?_ ?_ ?_ <;> simp only [State.goto, State.setW] <;> grind -linarith

theorem move_delivers {act : Act} (h : Delivers s) (hg : s.attended act = true)
    (hstep : s.move .redis act = some s') : Delivers s' := by
  cases act with
  | bc => exact stepBc_delivers h hg hstep
  | go => exact stepCall_delivers h hg hstep
  | fork =>
    simp only [State.move] at hstep
    split at hstep <;> cases hstep
    rename_i hfree
    have hqt : ∀ w, s.bc.inFlight w = [] := by
      intro w
      have hho := hfree.2
      cases hbc : s.bc <;> simp [hbc, Bc.holds] at hho <;> rfl
    obtain ⟨hwho, hrun, hsil, hnd⟩ := h
    refine ⟨?_, ?_, hsil, hnd⟩ <;> simp only [State.setW] <;> grind -linarith
  | next | stop =>
    simp only [State.move] at hstep
    split at hstep <;> cases hstep
    exact h.call rfl rfl rfl (fun _ => rfl) (fun _ => rfl) fun _ _ => id
  | event =>
    simp only [State.move] at hstep
    split at hstep <;> cases hstep
    rename_i hidle
    obtain ⟨hwho, hrun, hsil, hnd⟩ := h
    refine ⟨?_, ?_, hsil, ?_⟩ <;> simp only [hidle, Bc.inFlight] at * <;> grind -linarith
  | broadcast =>
    simp only [State.move] at hstep
    split at hstep <;> cases hstep
    rename_i hidle
    cases hidle.2

/-- What a watcher of the locator gets: the events that were broadcast since it was returned, each
once and in their order, as far as `Next` has been called; and a `Next` that waits gets the next
one. -/
theorem locations_delivered {tr : List Act}
    (h : Run (guardedRel (State.step .redis) State.attended) .init tr s) :
    ¬ s.Deadlock .redis ∧ ∀ w, (s.ws w).got ++ (s.ws w).chan ++ s.bc.inFlight w = (s.ws w).due ∧
      ∀ i, s.pcs i = .receive w → s.bc.inFlight w = [] → (s.ws w).got ≠ (s.ws w).due →
        ∃ s' p, s.stepCall .redis i false = some s' ∧ (s'.ws w).got = (s.ws w).got ++ [p] := by
  have hsmo : ∀ s act, State.attended s act = true → s.smooth act = true :=
    fun _ _ hg => (Bool.and_eq_true _ _ ▸ hg).1
  have hdeli : Delivers s := by
    have h0 : Delivers State.init :=
      ⟨fun _ => rfl, fun _ h => absurd rfl h, fun _ => rfl, fun _ _ _ => ⟨nofun, nofun⟩⟩
    exact run_states Delivers h0 (fun _ _ _ => move_delivers) h
  refine ⟨(free_of_run hsmo h).not_deadlock, fun w => ⟨hdeli.whole w, fun i hpc hqt hne => ?_⟩⟩
  have hwho := hdeli.whole w
  rw [hqt, append_nil] at hwho
  cases hchan : (s.ws w).chan with
  | nil =>
    rw [hchan, append_nil] at hwho
    exact absurd hwho hne
  | cons p =>
    refine ⟨_, p, by simp [State.stepCall, hpc, hchan]; rfl, ?_⟩
    simp [State.goto, State.setW]

def waitingNext : List Act :=
  [.fork, .next 0, .go 0 false, .go 0 false, .event, .bc 0, .bc 0, .bc 0, .bc 0, .bc 0, .go 0 false,
    .event, .bc 0, .bc 0, .bc 0, .bc 0, .next 0, .go 1 false, .go 1 false]

theorem waitingNext_isSome : (exec (State.step .redis) State.attended .init waitingNext).isSome :=
  rfl

theorem waitingNext_delivered :
    let s := ((exec (State.step .redis) State.attended .init waitingNext).get waitingNext_isSome).2
    (s.ws 0).got = [(1, 1)] ∧ s.pcs 1 = .receive 0 ∧
    ¬ s.Deadlock .redis ∧ ∀ w, (s.ws w).got ++ (s.ws w).chan ++ s.bc.inFlight w = (s.ws w).due ∧
      ∀ i, s.pcs i = .receive w → s.bc.inFlight w = [] → (s.ws w).got ≠ (s.ws w).due →
        ∃ s' p, s.stepCall .redis i false = some s' ∧ (s'.ws w).got = (s.ws w).got ++ [p] :=
  ⟨by decide +kernel, by decide +kernel, locations_delivered (run_of_exec _ waitingNext_isSome)⟩

def earlyEvent : List Act :=
  [.fork, .event, .bc 0, .bc 0, .bc 0, .bc 0, .bc 0, .next 0, .go 0 false, .go 0 false]

/-- The event is neither queued nor returned, and `Next` waits. -/
theorem earlyEvent_lost : ∃ tr s, Run (guardedRel (State.step .redis) fun _ _ => true) .init tr s ∧
      (s.ws 0).due = [(1, 1)] ∧ (s.ws 0).got = [] ∧ (s.ws 0).chan = [] ∧ s.bc = .idle ∧
      s.pcs 0 = .receive 0 ∧ s.stepCall .redis 0 false = none := by
  refine ⟨_, _, run_of_exec earlyEvent rfl, ?_⟩
  decide +kernel

end Events

section Lists

def State.unlisted (s : State) : Act → Bool
  | .event => decide (∀ i < s.called, (s.pcs i).lists = none)
  | _ => true

def Watch.lists (x : Watch) : List Payload := x.got ++ x.chan

def State.coming (s : State) (w : ℕ) : Prop :=
  s.dirty = true ∨ s.bc = .rlock ∨ s.bc.inFlight w ≠ [] ∨ ∃ i, (s.pcs i).lists = some w

def State.upToDate (s : State) (w : ℕ) : Prop :=
  s.coming w ∨ (s.ws w).lists.getLast? = some (s.pos, s.pos)

structure Ordered (s : State) : Prop where
  late : ∀ i, s.called ≤ i → s.pcs i = .idle
  known : ∀ i w, (s.pcs i).on = some w → w < s.forked
  stopped : ∀ i w, (s.pcs i).recycles = some w → (s.ws w).state = .stopped
  current : ∀ w, ∀ p ∈ s.bc.inFlight w, p = (s.pos, s.pos)
  whole : ∀ w, ∀ p ∈ (s.ws w).lists, p.1 = p.2 ∧ p.1 ≤ s.pos
  sorted : ∀ w, (s.ws w).lists.Pairwise fun p q => p.1 ≤ q.1
  reading : ∀ i w first, s.pcs i = .reading w first → first = s.pos
  listing : ∀ i w, (s.pcs i).lists = some w → ∀ p ∈ (s.ws w).lists, p = (s.pos, s.pos)
  begun : ∀ i w, (s.pcs i).lists = some w → (s.ws w).state ≠ .initial
  initial : ∀ w, (s.ws w).state = .initial → (s.ws w).lists = []
  running : ∀ w, ((s.ws w).state = .running → w < s.forked) ∧
    (w < s.forked → (s.ws w).state ≠ .stopped → (s.ws w).registered = true)
  last : ∀ w, (s.ws w).state = .running → s.upToDate w

/-- A step of call `i`, which is then at `pc`, that leaves every list as it is. -/
structure CallStep (s s' : State) (i : ℕ) (pc : Pc) : Prop where
  bc : s'.bc = s.bc
  pos : s'.pos = s.pos
  dirty : s'.dirty = s.dirty
  forked : s'.forked = s.forked
  called : s.called ≤ s'.called ∧ i < s'.called
  pcs : s'.pcs = update s.pcs i pc
  known : ∀ w, pc.on = some w → w < s.forked
  recycles : ∀ w, pc.recycles = some w → (s'.ws w).state = .stopped
  reading : ∀ w first, pc = .reading w first → first = s.pos
  listing : ∀ w, (s.pcs i).lists = some w → pc.lists = some w
  begins : ∀ w, pc.lists = some w →
    ((s.pcs i).lists = some w ∨ (s.ws w).lists = []) ∧ (s'.ws w).state ≠ .initial
  lists : ∀ w, (s'.ws w).lists = (s.ws w).lists
  initial : ∀ w, (s'.ws w).state = .initial → (s.ws w).state = .initial
  stopped : ∀ w, (s.ws w).state = .stopped → (s'.ws w).state = .stopped
  running : ∀ w, ((s'.ws w).state = .running → w < s.forked) ∧
    (w < s.forked → (s'.ws w).state ≠ .stopped → (s'.ws w).registered = true)
  moved : ∀ w, (s'.ws w).state = .running → (s.ws w).state = .running ∨ pc.lists = some w

attribute [local grind cases] Ordered CallStep

theorem Ordered.bc {bc : Bc} (h : Ordered s) (hcur : ∀ w, ∀ p ∈ bc.inFlight w, p ∈ s.bc.inFlight w)
    (hlast : ∀ w, s.bc.inFlight w ≠ [] → bc.inFlight w ≠ [])
    (hbc : s.bc ≠ .rlock) : Ordered { s with bc } := by
  refine ⟨h.late, h.known, h.stopped, fun w p hp => h.current w p (hcur w p hp), h.whole, h.sorted,
    h.reading, h.listing, h.begun, h.initial, h.running, fun w hw => ?_⟩
  have hw := h.last w hw
  simp only [State.upToDate, State.coming] at *
  grind -linarith

theorem Ordered.begin (h : Ordered s) : Ordered s.begin := by
  have hlis : ∀ w, (s.begin.ws w).lists = (s.ws w).lists := by
    intro w
    simp only [State.begin]
    split <;> rfl
  have hstt : ∀ w, (s.begin.ws w).state = (s.ws w).state := by
    intro w
    simp only [State.begin]
    split <;> rfl
  have hreg : ∀ w, (s.begin.ws w).registered = (s.ws w).registered := by
    intro w
    simp only [State.begin]
    split <;> rfl
  refine ⟨h.late, h.known, ?_, ?_, ?_, ?_, h.reading, ?_, ?_, ?_, ?_, ?_⟩
  · exact fun i w hi => (hstt w).trans (h.stopped i w hi)
  · simp only [State.begin, Bc.inFlight]
    grind -linarith
  · exact fun w => hlis w ▸ h.whole w
  · exact fun w => hlis w ▸ h.sorted w
  · exact fun i w => hlis w ▸ h.listing i w
  · exact fun i w => hstt w ▸ h.begun i w
  · exact fun w => hlis w ▸ hstt w ▸ h.initial w
  · exact fun w => hreg w ▸ hstt w ▸ h.running w
  · -- every running watcher is in the map, so the new list is for it
    intro w hw
    have hrun := (hstt w).symm.trans hw
    have hlt := (h.running w).1 hrun
    have hin := (h.running w).2 hlt (by rw [hrun]; nofun)
    refine .inl (.inr (.inr (.inl ?_)))
    simp [State.begin, Bc.inFlight, hin, hlt]

variable {w i : ℕ} {pc : Pc}

section

variable (h : Ordered s)

include h

theorem Ordered.notify {p : Payload} {todo : List ℕ} (hbc : s.bc = .send p w todo) :
    Ordered { s.notify p w with bc := .loop p todo } := by
  have hp : p = (s.pos, s.pos) := h.current w p (by simp [hbc, Bc.inFlight])
  subst hp
  have hdue : ∀ v, v ≠ w → (Bc.loop (s.pos, s.pos) todo).inFlight v = s.bc.inFlight v := by
    intro v hv
    simp [hbc, Bc.inFlight, hv]
  unfold State.notify
  split
  · rename_i hrun
    refine ⟨h.late, h.known, fun i v hi => ?_, fun v q hq => ?_, fun v => ?_, fun v => ?_,
      h.reading, fun i v hi => ?_, fun i v hi => ?_, fun v => ?_, fun v => ?_, fun v hv => ?_⟩
    · have hi := h.stopped i v hi
      simp only [State.setW]
      grind -linarith
    · simp only [Bc.inFlight] at hq
      change q = (s.pos, s.pos)
      grind -linarith
    · have hv := h.whole v
      simp only [State.setW, Watch.lists] at *
      grind -linarith
    · have hv := h.whole v
      have hs := h.sorted v
      simp only [State.setW, Watch.lists] at *
      by_cases hvw : v = w
      · subst hvw
        simp only [update_self, ← append_assoc]
        exact pairwise_append.mpr ⟨hs, pairwise_singleton .., by grind -linarith⟩
      · rwa [update_of_ne hvw]
    · have hv := h.listing i v hi
      simp only [State.setW, Watch.lists] at *
      grind -linarith
    · have hv := h.begun i v hi
      simp only [State.setW] at *
      grind -linarith
    · have hv := h.initial v
      simp only [State.setW] at *
      grind -linarith
    · have hv := h.running v
      simp only [State.setW] at *
      grind -linarith
    · by_cases hvw : v = w
      · subst hvw
        refine .inr ?_
        simp [State.setW, Watch.lists]
      · have hv' := h.last v (by simpa [State.setW, hvw] using hv)
        have hd := hdue v hvw
        simp only [State.upToDate, State.coming, State.setW] at *
        grind -linarith
  · rename_i hrun
    refine ⟨h.late, h.known, h.stopped, fun v q hq => ?_, h.whole, h.sorted, h.reading, h.listing,
      h.begun, h.initial, h.running, fun v hv => ?_⟩
    · simp only [Bc.inFlight] at hq
      grind -linarith
    · have hv' := h.last v hv
      simp only [State.upToDate, State.coming] at *
      grind -linarith

theorem stepBc_ordered (hstep : s.stepBc w = some s') : Ordered s' := by
  unfold State.stepBc at hstep
  split at hstep <;> rename_i hbc
  · cases hstep
  · split at hstep <;> cases hstep
    exact h.begin
  · split at hstep
    · cases hstep
      refine h.bc ?_ ?_ ?_ <;> simp only [Bc.inFlight, hbc] <;> grind -linarith
    · split at hstep <;> cases hstep
      refine h.bc ?_ ?_ ?_ <;> simp only [Bc.inFlight, hbc] <;> grind -linarith
  · split at hstep <;> cases hstep
    refine h.bc ?_ ?_ ?_ <;> simp only [Bc.inFlight, hbc] <;> grind -linarith
  · split at hstep <;> cases hstep
    exact h.notify hbc

theorem Ordered.call (hc : CallStep s s' i pc) : Ordered s' := by
  have hself : s'.pcs i = pc := by rw [hc.pcs, update_self]
  have hoth : ∀ j, j ≠ i → s'.pcs j = s.pcs j := fun j hj => by rw [hc.pcs, update_of_ne hj]
  refine ⟨?_, ?_, ?_, ?_, ?_, ?_, ?_, ?_, ?_, ?_, ?_, ?_⟩
  · grind -linarith
  · grind -linarith
  · grind -linarith
  · rw [hc.bc, hc.pos]
    exact h.current
  · intro w
    rw [hc.lists, hc.pos]
    exact h.whole w
  · intro w
    rw [hc.lists]
    exact h.sorted w
  · grind -linarith
  · grind -linarith
  · grind -linarith
  · intro w hw
    rw [hc.lists]
    exact h.initial w (hc.initial w hw)
  · rw [hc.forked]
    exact hc.running
  · intro w hw
    rcases hc.moved w hw with hw' | hpc'
    · have hup := h.last w hw'
      simp only [State.upToDate, State.coming] at *
      grind -linarith
    · exact .inl (.inr (.inr (.inr ⟨i, hself ▸ hpc'⟩)))

theorem Ordered.read {first : ℕ} (hpc : s.pcs i = .reading w first) :
    Ordered ((s.setW w { s.ws w with got := (s.ws w).got ++ [(first, s.pos)] }).goto i .idle) := by
  have hfst : first = s.pos := h.reading i w first hpc
  subst hfst
  have hlis : (s.pcs i).lists = some w := by rw [hpc]; rfl
  have hall : ∀ p ∈ (s.ws w).got ++ (s.ws w).chan, p = (s.pos, s.pos) := h.listing i w hlis
  have hall' : ∀ p ∈ (s.ws w).got ++ [(s.pos, s.pos)] ++ (s.ws w).chan, p = (s.pos, s.pos) := by
    simp only [mem_append, mem_singleton] at *
    grind -linarith
  refine ⟨fun j => ?_, fun j v => ?_, fun j v => ?_, h.current, fun v => ?_, fun v => ?_,
    fun j v first => ?_, fun j v => ?_, fun j v => ?_, fun v => ?_, fun v => ?_, fun v hv => ?_⟩
  · have hj := h.late j
    simp only [State.goto, State.setW]
    grind -linarith
  · have hj := h.known j v
    simp only [State.goto, State.setW]
    grind -linarith [Pc.on]
  · have hj := h.stopped j v
    simp only [State.goto, State.setW]
    grind -linarith [Pc.recycles]
  · have hv := h.whole v
    simp only [State.goto, State.setW, Watch.lists] at *
    grind -linarith
  · have hv := h.sorted v
    simp only [State.goto, State.setW] at *
    by_cases hvw : v = w
    · subst hvw
      simp only [update_self]
      refine pairwise_of_forall_mem_list fun p hp q hq => ?_
      exact Nat.le_of_eq (by rw [hall' p hp, hall' q hq])
    · rwa [update_of_ne hvw]
  · have hj := h.reading j v first
    simp only [State.goto, State.setW]
    grind -linarith
  · have hj := h.listing j v
    simp only [State.goto, State.setW, Watch.lists] at *
    grind -linarith [Pc.lists]
  · have hj := h.begun j v
    simp only [State.goto, State.setW] at *
    grind -linarith [Pc.lists]
  · have hv := h.initial v
    simp only [State.goto, State.setW] at *
    grind -linarith
  · have hv := h.running v
    simp only [State.goto, State.setW] at *
    grind -linarith
  · by_cases hvw : v = w
    · subst hvw
      refine .inr ?_
      simp only [State.goto, State.setW, Watch.lists, update_self]
      have hne : (s.ws v).got ++ [(s.pos, s.pos)] ++ (s.ws v).chan ≠ [] := by simp
      rw [getLast?_eq_some_getLast hne, hall' _ (getLast_mem hne)]
    · have hv' := h.last v (by simpa [State.goto, State.setW, hvw] using hv)
      have hlis : (∃ j, (s.pcs j).lists = some v) →
          ∃ j, (update s.pcs i .idle j).lists = some v := by
        rintro ⟨j, hj⟩
        refine ⟨j, ?_⟩
        grind -linarith [Pc.lists]
      simp only [State.upToDate, State.coming, State.goto, State.setW] at *
      grind -linarith

theorem stepCall_ordered {cancelled : Bool} (hstep : s.stepCall .etcd i cancelled = some s') :
    Ordered s' := by
  have hi : s.pcs i ≠ .idle → i < s.called := fun hne => by
    by_contra hle
    exact hne (h.late i (Nat.le_of_not_lt hle))
  have hon := h.known i
  have hsto := h.stopped i
  have hrun := h.running
  have hbeg := h.begun i
  have hini := h.initial
  unfold State.stepCall at hstep
  split at hstep <;> rename_i hpc <;> rw [hpc] at hi hon hsto hbeg
  case h_5 =>
    cases hstep
    exact h.read hpc
  -- every other step leaves the lists where they are or returns the first one queued
  all_goals
    try unfold State.enter at hstep
    try dsimp only at hstep
    repeat' split at hstep
    all_goals
      cases hstep
      try refine h.call ⟨rfl, rfl, rfl, rfl, ⟨Nat.le_refl _, hi (by simp)⟩, rfl, ?_, ?_, ?_, ?_, ?_,
        ?_, ?_, ?_, ?_, ?_⟩
      all_goals
        clear h
        try simp only [State.goto, State.setW, hpc]
        grind -linarith [Pc.on, Pc.recycles, Pc.lists, Watch.lists]

theorem Ordered.event (hg : s.unlisted .event = true) :
    Ordered { s with pos := s.pos + 1, dirty := true, bc := .idle } := by
  simp only [State.unlisted, decide_eq_true_eq] at hg
  have hnone : ∀ i, (s.pcs i).lists = none := by
    intro i
    by_cases hi : i < s.called
    · exact hg i hi
    rw [h.late i (Nat.le_of_not_lt hi)]
    rfl
  refine ⟨h.late, h.known, h.stopped, nofun, ?_, h.sorted, ?_, ?_, h.begun, h.initial,
    h.running, ?_⟩
  · exact fun w p hp => ⟨(h.whole w p hp).1, Nat.le_succ_of_le (h.whole w p hp).2⟩
  · intro i w first hi
    have hi' := hnone i
    rw [show s.pcs i = .reading w first from hi] at hi'
    cases hi'
  · intro i w hi
    rw [show (s.pcs i).lists = none from hnone i] at hi
    cases hi
  · exact fun w _ => .inl (.inl rfl)

end

theorem Pc.on_of_lists (h : pc.lists = some w) : pc.on = some w := by
  cases pc <;> first | exact h | cases h

theorem Pc.on_of_recycles (h : pc.recycles = some w) : pc.on = some w := by
  cases pc <;> first | exact h | cases h

theorem Ordered.fork (h : Ordered s) :
    Ordered ({ s with forked := s.forked + 1 }.setW s.forked { registered := true }) := by
  have hon : ∀ i, (s.pcs i).on ≠ some s.forked := fun i hi => Nat.lt_irrefl _ (h.known i _ hi)
  have hlis : ∀ i, (s.pcs i).lists ≠ some s.forked := fun i hi => hon i (Pc.on_of_lists hi)
  have hrec : ∀ i, (s.pcs i).recycles ≠ some s.forked := fun i hi => hon i (Pc.on_of_recycles hi)
  refine ⟨h.late, fun i v hi => Nat.lt_succ_of_lt (h.known i v hi), fun i v hi => ?_, h.current,
    fun v => ?_, fun v => ?_, h.reading, fun i v hi => ?_, fun i v hi => ?_, fun v => ?_,
    fun v => ?_, fun v hv => ?_⟩
  · simp only [State.setW] at *
    grind -linarith
  · have hv := h.whole v
    simp only [State.setW, Watch.lists] at *
    grind -linarith
  · have hv := h.sorted v
    simp only [State.setW]
    by_cases hvw : v = s.forked
    · simp [hvw, Watch.lists]
    · rwa [update_of_ne hvw]
  · have hv := h.listing i v hi
    simp only [State.setW] at *
    grind -linarith
  · simp only [State.setW] at *
    grind -linarith
  · have hv := h.initial v
    simp only [State.setW, Watch.lists] at *
    grind -linarith
  · simp only [State.setW] at *
    grind -linarith
  · have hv' := h.last v
    simp only [State.upToDate, State.coming, State.setW] at *
    grind -linarith

theorem move_ordered {act : Act} (h : Ordered s) (hg : s.unlisted act = true)
    (hstep : s.move .etcd act = some s') : Ordered s' := by
  cases act with
  | bc => exact stepBc_ordered h hstep
  | go => exact stepCall_ordered h hstep
  | fork =>
    simp only [State.move] at hstep
    split at hstep <;> cases hstep
    exact h.fork
  | next | stop =>
    have hidle := h.late s.called (Nat.le_refl _)
    simp only [State.move] at hstep
    split at hstep <;> cases hstep
    refine h.call ⟨rfl, rfl, rfl, rfl, ⟨Nat.le_succ _, Nat.lt_succ_self _⟩, rfl, ?_, ?_, ?_, ?_, ?_,
      ?_, ?_, ?_, ?_, ?_⟩ <;> try simp only [State.start, State.goto]
    all_goals grind -linarith [Pc.on, Pc.recycles, Pc.lists, Watch.lists]
  | event =>
    simp only [State.move] at hstep
    split at hstep <;> cases hstep
    exact h.event hg
  | broadcast =>
    simp only [State.move] at hstep
    split at hstep <;> cases hstep
    refine ⟨h.late, h.known, h.stopped, (by simp [Bc.inFlight]), h.whole, h.sorted, h.reading,
      h.listing, h.begun, h.initial, h.running, fun w _ => .inl (.inr (.inl rfl))⟩

theorem ordered_of_run {tr : List Act} (h : Run (guardedRel (State.step .etcd)
    State.unlisted) .init tr s) :
    Ordered s := by
  have h0 : Ordered State.init := ⟨fun _ _ => rfl, nofun, nofun, nofun, nofun, fun _ => .nil, nofun,
    nofun, nofun, fun _ _ => rfl, fun _ => ⟨nofun, nofun⟩, nofun⟩
  exact run_states Ordered h0 (fun _ _ _ => move_ordered) h

/-- The lists `Next` has returned are states of the manager at positions that do not go back, and a
watcher that has everything sent to it has the current one. -/
theorem lists_never_go_back {tr : List Act}
    (h : Run (guardedRel (State.step .etcd) State.unlisted) .init tr s) (w : ℕ) :
    (∀ p ∈ (s.ws w).got, p.1 = p.2 ∧ p.1 ≤ s.pos) ∧
    (s.ws w).got.Pairwise (fun p q => p.1 ≤ q.1) ∧
    ((s.ws w).state = .running → (s.ws w).chan = [] → s.bc = .idle → s.dirty = false →
      (∀ i, (s.pcs i).lists ≠ some w) → (s.ws w).got.getLast? = some (s.pos, s.pos)) := by
  have hord := ordered_of_run h
  refine ⟨fun p hp => hord.whole w p (mem_append_left _ hp), ?_, ?_⟩
  · exact (pairwise_append.mp (hord.sorted w)).1
  · intro hrun hchan hbc hdir hlis
    rcases hord.last w hrun with (hd | hb | hf | ⟨i, hi⟩) | hlast
    · rw [hdir] at hd
      cases hd
    · rw [hbc] at hb
      cases hb
    · rw [hbc] at hf
      exact absurd rfl hf
    · exact absurd hi (hlis i)
    · rwa [Watch.lists, hchan, append_nil] at hlast

def queuedBefore : List Act :=
  [.fork, .event, .next 0, .go 0 false, .go 0 false, .broadcast, .bc 0, .bc 0, .bc 0, .bc 0, .bc 0]

def readThen : List Act :=
  queuedBefore ++ [.go 0 false, .go 0 false, .next 0, .go 1 false, .go 1 false, .go 1 false]

theorem readThen_isSome : (exec (State.step .etcd) State.unlisted .init readThen).isSome := rfl

theorem readThen_never_goes_back :
    let s := ((exec (State.step .etcd) State.unlisted .init readThen).get readThen_isSome).2
    (s.ws 0).got = [(1, 1), (1, 1)] ∧ (∀ p ∈ (s.ws 0).got, p.1 = p.2 ∧ p.1 ≤ s.pos) ∧
    (s.ws 0).got.Pairwise (fun p q => p.1 ≤ q.1) ∧
    ((s.ws 0).state = .running → (s.ws 0).chan = [] → s.bc = .idle → s.dirty = false →
      (∀ i, (s.pcs i).lists ≠ some 0) → (s.ws 0).got.getLast? = some (s.pos, s.pos)) :=
  ⟨by decide +kernel, lists_never_go_back (run_of_exec _ readThen_isSome) 0⟩

def appliedThen : List Act :=
  queuedBefore ++ [.event, .go 0 false, .go 0 false, .next 0, .go 1 false, .go 1 false, .go 1 false]

/-- The second `Next` returns an older list than the first. -/
theorem appliedThen_goes_back :
    ∃ tr s, Run (guardedRel (State.step .etcd) fun _ _ => true) .init tr s ∧
      (s.ws 0).got = [(2, 2), (1, 1)] := by
  refine ⟨_, _, run_of_exec appliedThen rfl, ?_⟩
  decide +kernel

end Lists

end DueServer.Watcher
