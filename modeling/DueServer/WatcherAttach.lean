import DueServer.LibTransition

/-! `Watch`, `Stop` and `recycle` for one key of the redis locator (`locate/redis/locator.go`) or of
the etcd registry (`registry/etcd/registry.go`), in every interleaving. -/
namespace DueServer.Attach

open Lib Function

inductive Phase where
  | unmade
  | live
  | cancelled
  | closed
deriving DecidableEq

/-- A watcher that `Watch` has returned; `registered` when it is in the map of its manager. -/
structure Watcher where
  mgr : ℕ := 0
  registered : Bool := false
  stopped : Bool := false
deriving DecidableEq

inductive Pc where
  | idle
  | load
  | create
  | store (m : ℕ)
  | fork (m : ℕ)
  | recycle (w : ℕ)
  | cancel (m : ℕ)
  | delete (m : ℕ)
  | close (m : ℕ)
deriving DecidableEq

namespace Pc

def builds : Pc → Bool
  | create | store _ => true
  | _ => false

/-- A `recycle` that has found no watcher left and has not deleted the manager from the map. -/
def tears : Pc → Option ℕ
  | cancel m | delete m => some m
  | _ => none

end Pc

structure State where
  stored : Option ℕ
  made : ℕ
  phases : ℕ → Phase
  lockers : ℕ → Option ℕ
  forked : ℕ
  ws : ℕ → Watcher
  called : ℕ
  pcs : ℕ → Pc

inductive Act where
  | watch
  | stop (w : ℕ)
  | go (i : ℕ) (ok : Bool)
deriving DecidableEq

namespace State

def init : State := ⟨none, 0, fun _ => .unmade, fun _ => none, 0, fun _ => {}, 0, fun _ => .idle⟩

variable (s : State)

def goto (i : ℕ) (pc : Pc) : State := { s with pcs := update s.pcs i pc }

def start (pc : Pc) : State := { s with called := s.called + 1 }.goto s.called pc

def setPhase (m : ℕ) (x : Phase) : State := { s with phases := update s.phases m x }

def setLock (m : ℕ) (x : Option ℕ) : State := { s with lockers := update s.lockers m x }

def setW (w : ℕ) (x : Watcher) : State := { s with ws := update s.ws w x }

def last (m w : ℕ) : Bool :=
  decide (∀ v < s.forked, v ≠ w → (s.ws v).registered = true → (s.ws v).mgr ≠ m)

def stepCall (i : ℕ) (ok : Bool) : Option State := match s.pcs i with
  | .idle => none
  | .load => match s.stored with
    | some m => some (s.goto i (.fork m))
    | none => some (s.goto i .create)
  | .create =>
    if ok then some (({ s with made := s.made + 1 }.setPhase s.made .live).goto i (.store s.made))
    else some (s.goto i .idle)
  | .store m => some ({ s with stored := some m }.goto i (.fork m))
  | .fork m =>
    if s.lockers m = none then
      some (({ s with forked := s.forked + 1 }.setW s.forked ⟨m, true, false⟩).goto i .idle)
    else none
  | .recycle w =>
    let m := (s.ws w).mgr
    if s.lockers m = none then
      let t := s.setW w { s.ws w with registered := false }
      if s.last m w then some ((t.setLock m (some i)).goto i (.cancel m))
      else some (t.goto i .idle)
    else none
  | .cancel m => some ((s.setPhase m .cancelled).goto i (.delete m))
  | .delete m => some ({ s with stored := none }.goto i (.close m))
  | .close m => some (((s.setPhase m .closed).setLock m none).goto i .idle)

def move : Act → Option State
  | .watch => some (s.start .load)
  | .stop w =>
    if w < s.forked then
      if (s.ws w).stopped then some s
      else some ((s.setW w { s.ws w with stopped := true }).start (.recycle w))
    else none
  | .go i ok => s.stepCall i ok

def step (s : State) (act : Act) : Option (State × Act) := (s.move act).map (·, act)

/-- `Watch` looks into the map only when no other call is about to store or delete a manager, and
the last watcher of a manager leaves only when no `Watch` has found that manager. -/
def apart (s : State) : Act → Bool
  | .go i _ => match s.pcs i with
    | .load => decide (∀ j < s.called, (s.pcs j).builds = false ∧ (s.pcs j).tears = none)
    | .recycle w =>
      !s.last (s.ws w).mgr w || decide (∀ j < s.called, s.pcs j ≠ .fork (s.ws w).mgr)
    | _ => true
  | _ => true

end State

variable {s s' : State}

structure Attached (s : State) : Prop where
  late : ∀ i, s.called ≤ i → s.pcs i = .idle
  unmade : ∀ m, s.made ≤ m → s.phases m = .unmade
  builder : ∀ i j, (s.pcs i).builds = true → (s.pcs j).builds = true → i = j
  fresh : ∀ i, (s.pcs i).builds = true → s.stored = none
  new : ∀ i m, s.pcs i = .store m → s.phases m = .live ∧
    ∀ w, (s.ws w).registered = true → (s.ws w).mgr ≠ m
  found : ∀ i m, s.pcs i = .fork m → s.stored = some m ∧ ∀ j, (s.pcs j).tears = none
  tearing : ∀ i m, (s.pcs i).tears = some m → s.stored = some m ∧
    ∀ w, (s.ws w).registered = true → (s.ws w).mgr ≠ m
  held : ∀ m, s.stored = some m → m < s.made ∧ ((∀ i, (s.pcs i).tears = none) → s.phases m = .live)
  live : ∀ m, s.phases m = .live → s.stored = some m ∨ ∃ i, s.pcs i = .store m
  watcher : ∀ w, (s.ws w).registered = true → w < s.forked ∧ s.phases (s.ws w).mgr = .live
  active : ∀ w, w < s.forked → (s.ws w).stopped = false → (s.ws w).registered = true
  recycled : ∀ i w, s.pcs i = .recycle w → (s.ws w).registered = true ∧ (s.ws w).stopped = true
  once : ∀ i j w, s.pcs i = .recycle w → s.pcs j = .recycle w → i = j
  taker : ∀ i j m, (s.pcs i).tears = some m → (s.pcs j).tears = some m → i = j
  shut : ∀ i m, s.pcs i = .delete m ∨ s.pcs i = .close m →
    s.phases m = .cancelled ∨ s.phases m = .closed

attribute [local grind =] Pc.builds Pc.tears

theorem update_pcs (s : State) (i : ℕ) (pc : Pc) (j : ℕ) :
    update s.pcs i pc j = if j = i then pc else s.pcs j := by
  grind -linarith

section Calls

variable {i : ℕ}

theorem Attached.not_tears (h : Attached s) (hem : s.stored = none) (j : ℕ) :
    (s.pcs j).tears = none := by
  cases hj : (s.pcs j).tears with
  | none => rfl
  | some m =>
    have hsto := (h.tearing j m hj).1
    rw [hem] at hsto
    cases hsto

theorem Attached.load (h : Attached s) (hi : i < s.called)
    (hqt : ∀ j, (s.pcs j).builds = false ∧ (s.pcs j).tears = none) :
    Attached (s.goto i (match s.stored with | some m => .fork m | none => .create)) := by
  cases hsto : s.stored with
  | some m =>
    cases h
    constructor <;> simp only [State.goto, update_pcs] <;> grind -linarith
  | none =>
    cases h
    constructor <;> simp only [State.goto, update_pcs] <;> grind -linarith

theorem Attached.create (h : Attached s) (hi : i < s.called) (hpc : s.pcs i = .create) :
    Attached (({ s with made := s.made + 1 }.setPhase s.made .live).goto i (.store s.made)) := by
  -- nothing refers to a manager before it is made
  have hnew := h.unmade s.made (Nat.le_refl _)
  have hno : ∀ w, (s.ws w).registered = true → (s.ws w).mgr ≠ s.made := by
    intro w hw heq
    have hlive := (h.watcher w hw).2
    rw [heq, hnew] at hlive
    cases hlive
  cases h
  constructor <;>
    simp only [State.goto, State.setPhase, update_pcs] <;> grind -linarith

theorem Attached.failed (h : Attached s) (hpc : s.pcs i = .create) : Attached (s.goto i .idle) := by
  cases h
  constructor <;> simp only [State.goto] <;> grind -linarith

variable {m w : ℕ}

section

variable (h : Attached s)

include h

theorem Attached.store (hi : i < s.called) (hpc : s.pcs i = .store m) :
    Attached ({ s with stored := some m }.goto i (.fork m)) := by
  have hnone := h.not_tears (h.fresh i (by rw [hpc]; rfl))
  cases h
  constructor <;> simp only [State.goto] <;> grind -linarith

theorem Attached.fork (hpc : s.pcs i = .fork m) :
    Attached (({ s with forked := s.forked + 1 }.setW s.forked ⟨m, true, false⟩).goto i .idle) := by
  -- the manager that was found is still live
  obtain ⟨hsto, hqt⟩ := h.found i m hpc
  have hlive := (h.held m hsto).2 hqt
  cases h
  constructor <;>
    simp only [State.goto, State.setW] <;> grind -linarith

theorem Attached.recycle (hpc : s.pcs i = .recycle w) :
    Attached ((s.setW w { s.ws w with registered := false }).goto i .idle) := by
  cases h
  constructor <;>
    simp only [State.goto, State.setW] <;> grind -linarith

theorem Attached.recycleLast (hi : i < s.called) (hpc : s.pcs i = .recycle w)
    (hlast : s.last (s.ws w).mgr w = true) (hnone : ∀ j, s.pcs j ≠ .fork (s.ws w).mgr) :
    Attached (((s.setW w { s.ws w with registered := false }).setLock (s.ws w).mgr (some i)).goto i
      (.cancel (s.ws w).mgr)) := by
  simp only [State.last] at hlast
  -- the manager is live, so it is the one in the map, and no other call takes it down
  obtain ⟨hreg, -⟩ := h.recycled i w hpc
  have hsto : s.stored = some (s.ws w).mgr := by
    refine (h.live _ (h.watcher w hreg).2).resolve_right ?_
    rintro ⟨j, hj⟩
    exact (h.new j _ hj).2 w hreg rfl
  have hqt : ∀ j m, (s.pcs j).tears ≠ some m := by
    intro j m hj
    obtain ⟨hm, hem⟩ := h.tearing j m hj
    exact hem w hreg (Option.some.inj (hsto.symm.trans hm))
  cases h
  constructor <;>
    simp only [State.goto, State.setW, State.setLock] <;> grind -linarith

theorem Attached.not_fork (hpc : (s.pcs i).tears = some m) (j k : ℕ) : s.pcs j ≠ .fork k := by
  intro hj
  have hnone := (h.found j k hj).2 i
  rw [hpc] at hnone
  cases hnone

theorem Attached.cancel (hi : i < s.called) (hpc : s.pcs i = .cancel m) :
    Attached ((s.setPhase m .cancelled).goto i (.delete m)) := by
  -- it is in the map without a watcher, and no `Watch` has found it
  have htear : (s.pcs i).tears = some m := by rw [hpc]; rfl
  obtain ⟨hsto, hem⟩ := h.tearing i m htear
  have hfork := h.not_fork htear
  cases h
  constructor <;>
    simp only [State.goto, State.setPhase, update_pcs] <;> grind -linarith

theorem Attached.delete (hi : i < s.called) (hpc : s.pcs i = .delete m) :
    Attached ({ s with stored := none }.goto i (.close m)) := by
  have htear : (s.pcs i).tears = some m := by rw [hpc]; rfl
  have hfork := h.not_fork htear
  have hshut := h.shut i m (.inl hpc)
  -- no other call takes down the manager in the map
  have honly : ∀ j k, (s.pcs j).tears = some k → j = i := by
    intro j k hj
    have hk : k = m := Option.some.inj ((h.tearing j k hj).1.symm.trans (h.tearing i m htear).1)
    exact h.taker j i m (hk ▸ hj) htear
  cases h
  constructor <;> simp only [State.goto] <;> grind -linarith

theorem Attached.close (hpc : s.pcs i = .close m) :
    Attached (((s.setPhase m .closed).setLock m none).goto i .idle) := by
  -- it is not live, so no watcher has it
  have hshut := h.shut i m (.inr hpc)
  cases h
  constructor <;>
    simp only [State.goto, State.setPhase, State.setLock, update_pcs] <;> grind -linarith

theorem stepCall_attached {ok : Bool} (hg : s.apart (.go i ok) = true)
    (hstep : s.stepCall i ok = some s') : Attached s' := by
  have hi : s.pcs i ≠ .idle → i < s.called := fun hne => by
    by_contra hle
    exact hne (h.late i (Nat.le_of_not_lt hle))
  unfold State.stepCall at hstep
  split at hstep <;> rename_i hpc <;> rw [hpc] at hi
  · cases hstep
  · have hqt : ∀ j, (s.pcs j).builds = false ∧ (s.pcs j).tears = none := by
      intro j
      simp only [State.apart, hpc, decide_eq_true_eq] at hg
      by_cases hj : j < s.called
      · exact hg j hj
      rw [h.late j (Nat.le_of_not_lt hj)]
      exact ⟨rfl, rfl⟩
    have hload := h.load (hi nofun) hqt
    split at hstep <;> cases hstep <;> rename_i hsto <;> rwa [hsto] at hload
  · split at hstep <;> cases hstep
    · exact h.create (hi nofun) hpc
    · exact h.failed hpc
  · cases hstep
    exact h.store (hi nofun) hpc
  · split at hstep <;> cases hstep
    exact h.fork hpc
  · dsimp only at hstep
    split at hstep
    · split at hstep <;> cases hstep
      · rename_i hlast
        refine h.recycleLast (hi nofun) hpc hlast fun j => ?_
        simp only [State.apart, hpc, hlast, Bool.not_true, Bool.false_or, decide_eq_true_eq] at hg
        by_cases hj : j < s.called
        · exact hg j hj
        rw [h.late j (Nat.le_of_not_lt hj)]
        nofun
      · exact h.recycle hpc
    · cases hstep
  · cases hstep
    exact h.cancel (hi nofun) hpc
  · cases hstep
    exact h.delete (hi nofun) hpc
  · cases hstep
    exact h.close hpc

theorem Attached.watch : Attached (s.start .load) := by
  cases h
  constructor <;>
    simp only [State.start, State.goto, update_pcs] <;> grind -linarith

theorem Attached.stop (hw : w < s.forked) (hsto : (s.ws w).stopped = false) :
    Attached ((s.setW w { s.ws w with stopped := true }).start (.recycle w)) := by
  -- no call recycles a watcher that is not stopped
  have hreg := h.active w hw hsto
  have hnone : ∀ j, s.pcs j ≠ .recycle w := by
    intro j hj
    cases hsto.symm.trans (h.recycled j w hj).2
  cases h
  constructor <;>
    simp only [State.start, State.setW, State.goto] <;> grind -linarith

end

theorem attached_of_run {tr : List Act} (h : Run (guardedRel State.step State.apart) .init tr s) :
    Attached s := by
  have h0 : Attached State.init := ⟨fun _ _ => rfl, fun _ _ => rfl, nofun, nofun, nofun, nofun,
    nofun, nofun, nofun, nofun, nofun, nofun, nofun, nofun, fun _ _ h => h.elim nofun nofun⟩
  refine run_states Attached h0 ?_ h
  intro t e t' ht hg hu
  cases e with
  | watch =>
    cases hu
    exact ht.watch
  | stop w =>
    simp only [State.move] at hu
    split at hu
    · split at hu <;> cases hu
      · exact ht
      · rename_i hw hsto
        exact ht.stop hw (Bool.eq_false_iff.mpr hsto)
    · cases hu
  | go i ok => exact stepCall_attached ht hg hu

end Calls

/-- Every watcher that was returned and is not stopped has a live manager, and with no call in
progress the only live manager is the one in the map. -/
theorem watchers_attached {tr : List Act} (h : Run (guardedRel State.step State.apart) .init tr s) :
    (∀ w, w < s.forked → (s.ws w).stopped = false → s.phases (s.ws w).mgr = .live) ∧
    ((∀ i, s.pcs i = .idle) → ∀ m, s.phases m = .live → s.stored = some m) := by
  have hatt := attached_of_run h
  refine ⟨fun w hw hsto => (hatt.watcher w (hatt.active w hw hsto)).2, fun hidle m hm => ?_⟩
  rcases hatt.live m hm with hstor | ⟨i, hi⟩
  · exact hstor
  rw [hidle i] at hi
  cases hi

def shared : List Act :=
  [.watch, .go 0 true, .go 0 true, .go 0 true, .go 0 true, .watch, .go 1 true, .go 1 true, .stop 0,
    .go 2 true]

theorem shared_isSome : (exec State.step State.apart .init shared).isSome := rfl

theorem shared_attached :
    let s := ((exec State.step State.apart .init shared).get shared_isSome).2
    s.forked = 2 ∧ (s.ws 1).stopped = false ∧
    (∀ w, w < s.forked → (s.ws w).stopped = false → s.phases (s.ws w).mgr = .live) ∧
    ((∀ i, s.pcs i = .idle) → ∀ m, s.phases m = .live → s.stored = some m) :=
  ⟨by decide +kernel, by decide +kernel, watchers_attached (run_of_exec _ shared_isSome)⟩

def twoFirst : List Act :=
  [.watch, .watch, .go 0 true, .go 1 true, .go 0 true, .go 1 true, .go 0 true, .go 1 true,
    .go 0 true, .go 1 true]

def lateWatch : List Act :=
  [.watch, .go 0 true, .go 0 true, .go 0 true, .go 0 true, .watch, .go 1 true, .stop 0, .go 2 true,
    .go 2 true, .go 2 true, .go 2 true, .go 1 true]

theorem watchers_detach :
    (∃ tr s, Run (guardedRel State.step fun _ _ => true) .init tr s ∧
      (∀ i < s.called, s.pcs i = .idle) ∧
      s.phases 0 = .live ∧ s.phases 1 = .live ∧ s.stored = some 1) ∧
    ∃ tr s, Run (guardedRel State.step fun _ _ => true) .init tr s ∧ 1 < s.forked ∧
      (s.ws 1).stopped = false ∧ s.phases (s.ws 1).mgr = .closed := by
  refine ⟨⟨_, _, run_of_exec twoFirst rfl, ?_⟩, _, _, run_of_exec lateWatch rfl, ?_⟩
  · decide +kernel
  · decide +kernel

end DueServer.Attach
