import DueServer.ClientConnSteps

/-! The callers of `send` that wait for a redial, and the redial that waits for their read locks. -/
namespace DueServer.Client

open Lib

namespace Pc

/-- `wait` with the read lock. -/
def Reading : Pc → Prop
  | .rloading | .waiting _ _ | .runlocking _ => True
  | _ => False

theorem Loop.not_reading {pc : Pc} (h : pc.Loop) : ¬ pc.Reading := by
  cases pc <;> first | exact h.elim | exact id

end Pc

namespace Shared

variable {s : Shared} {g : Gor} {pc : Pc} {r : Stepped}

theorem success_cancel (observed : Option ℕ) : (s.cancel observed).success = s.success := by
  unfold cancel
  split <;> rfl

theorem failure_cancel (observed : Option ℕ) : (s.cancel observed).failure = s.failure := by
  unfold cancel
  split <;> rfl

theorem readers_cancel (observed : Option ℕ) : (s.cancel observed).readers = s.readers := by
  unfold cancel
  split <;> rfl

theorem Move.channels (h : s.Move g pc r) :
    r.shared.success = s.success ∧ r.shared.failure = s.failure ∨ ∃ ok, pc = .notifying ok := by
  cases h with
  | conn n hg h =>
    cases h with
    | cancel => exact .inl ⟨success_cancel _, failure_cancel _⟩
    | _ => exact .inl ⟨rfl, rfl⟩
  | dial h =>
    cases h with
    | closeCancel => exact .inl ⟨success_cancel _, failure_cancel _⟩
    | succeed => exact .inr ⟨true, rfl⟩
    | fail => exact .inr ⟨false, rfl⟩
    | _ => exact .inl ⟨rfl, rfl⟩
  | send i h => cases h <;> exact .inl ⟨rfl, rfl⟩

theorem Move.readers {i : ℕ} (h : s.Move g pc r) (hi : i ∈ s.readers) :
    i ∈ r.shared.readers ∨ g = .caller i ∧ ∃ ok, pc = .runlocking ok := by
  cases h with
  | conn n hg h =>
    cases h with
    | cancel => exact .inl ((readers_cancel (some n)).symm ▸ hi)
    | _ => exact .inl hi
  | dial h =>
    cases h with
    | closeCancel observed => exact .inl ((readers_cancel observed).symm ▸ hi)
    | _ => exact .inl hi
  | send j h =>
    cases h with
    | rlock => exact .inl (List.mem_cons_of_mem j hi)
    | runlock ok =>
      by_cases hij : i = j
      · subst hij
        exact .inr ⟨rfl, ok, rfl⟩
      · exact .inl ((List.mem_erase_of_ne hij).mpr hi)
    | _ => exact .inl hi

theorem Move.closed {success failure : ℕ} (h : s.Move g (.waiting success failure) r) :
    success < s.success ∨ failure < s.failure := by
  cases h with
  | conn n hg h =>
    cases h with
    | loop hfrom => exact hfrom.elim
  | dial h => cases h
  | send j h =>
    cases h with
    | begin hactv => exact absurd ⟨nofun, nofun⟩ hactv
    | wake success failure ok hcl => exact hcl

theorem Move.no_readers (h : s.Move g .acquiring r) : s.readers = [] := by
  cases h with
  | conn n hg h =>
    cases h with
    | loop hfrom => exact hfrom.elim
  | dial h =>
    cases h with
    | acquire hnone => exact hnone
  | send j h =>
    cases h with
    | begin hactv => exact absurd ⟨nofun, nofun⟩ hactv

theorem Move.readers_nil (h : s.Move g pc r) (hwr : s.writer ≠ none) (hnil : s.readers = []) :
    r.shared.readers = [] := by
  cases h with
  | conn n hg h =>
    cases h with
    | cancel => exact (readers_cancel (some n)).trans hnil
    | _ => exact hnil
  | dial h =>
    cases h with
    | closeCancel observed => exact (readers_cancel observed).trans hnil
    | _ => exact hnil
  | send i h =>
    cases h with
    | rlock hfree => exact absurd hfree hwr
    | runlock => exact (congrArg (·.erase i) hnil).trans rfl
    | _ => exact hnil

/-- A goroutine that holds the write lock after a step had announced it before. -/
theorem Move.locked (h : s.Move g pc r) (hann : r.pc.Announced) (hne : r.pc ≠ .acquiring) :
    pc.Announced := by
  rcases h.writer with ⟨-, hback⟩ | ⟨hnone, hsome⟩ | ⟨hann, -⟩
  · exact hback hann
  · -- only the step that announces the lock sets the writer
    cases h with
    | conn n hg h =>
      cases h with
      | cancel => rw [writer_cancel, hnone] at hsome; cases hsome
      | _ => rw [show s.writer = some g from hsome] at hnone; cases hnone
    | dial h =>
      cases h with
      | lock => exact absurd rfl hne
      | unlock => cases hsome
      | _ => trivial
    | send i h => cases h <;> (rw [show s.writer = _ from hsome] at hnone; cases hnone)
  · exact hann

theorem Move.reading {i : ℕ} (h : s.Move (.caller i) pc r) (hi : pc.Reading → i ∈ s.readers)
    (hrd : r.pc.Reading) : i ∈ r.shared.readers := by
  cases h with
  | conn n hg h => rcases hg with hg | hg <;> cases hg
  | dial h =>
    cases h with
    | unlock ok => cases ok <;> exact hrd.elim
    | _ => exact hrd.elim
  | send i h =>
    cases h with
    | rlock => exact List.mem_cons_self
    | rload | wait | wake => exact hi trivial
    | load hto => rcases hto with rfl | rfl | rfl | rfl <;> exact hrd.elim
    | runlock ok hto => rcases hto with rfl | rfl <;> exact hrd.elim
    | _ => exact hrd.elim

/-- A caller waits for the channels it finds, after a load of `ConnHanged`. -/
theorem Move.waits {i success failure : ℕ} (h : s.Move (.caller i) pc r)
    (hwt : r.pc = .waiting success failure) :
    pc = .rloading ∧ s.state = .hanged ∧ success = r.shared.success ∧
      failure = r.shared.failure := by
  cases h with
  | conn n hg h => rcases hg with hg | hg <;> cases hg
  | dial h =>
    cases h with
    | unlock ok => cases ok <;> cases hwt
    | _ => cases hwt
  | send i h =>
    cases h with
    | wait hstt =>
      cases hwt
      exact ⟨rfl, hstt, rfl, rfl⟩
    | load hto => rcases hto with rfl | rfl | rfl | rfl <;> cases hwt
    | runlock ok hto => rcases hto with rfl | rfl <;> cases hwt
    | _ => cases hwt

theorem state_cancel (observed : Option ℕ) : (s.cancel observed).state = s.state := by
  unfold cancel
  split <;> rfl

theorem Move.hangs (h : s.Move g pc r) (hhan : r.shared.state = .hanged) :
    s.state = .hanged ∨ pc = .swapping := by
  cases h with
  | conn n hg h =>
    cases h with
    | hang => exact .inr rfl
    | cancel => exact .inl ((state_cancel _).symm.trans hhan)
    | _ => exact .inl hhan
  | dial h =>
    cases h with
    | closeCancel => exact .inl ((state_cancel _).symm.trans hhan)
    | opens | close | closeHanged | closeClosed => cases hhan
    | _ => exact .inl hhan
  | send i h => cases h <;> exact .inl hhan

theorem Move.rloads {i : ℕ} (h : s.Move (.caller i) pc r) (hrl : r.pc = .rloading) :
    pc = .rlocking ∧ r.shared.state = s.state := by
  cases h with
  | conn n hg h => rcases hg with hg | hg <;> cases hg
  | dial h =>
    cases h with
    | unlock ok => cases ok <;> cases hrl
    | _ => cases hrl
  | send i h =>
    cases h with
    | rlock => exact ⟨rfl, rfl⟩
    | load hto => rcases hto with rfl | rfl | rfl | rfl <;> cases hrl
    | runlock ok hto => rcases hto with rfl | rfl <;> cases hrl
    | _ => cases hrl

end Shared

namespace Line

variable {s s' : Line}

/-- The RWMutex and the channels: a caller in `wait` has the read lock until it returns, nobody is
under the write lock then, and the channels of a caller in the select are those of the moment. -/
structure Locking (s : Line) : Prop where
  exclusive : s.Exclusive
  reading (i : ℕ) : (s.pcs (.caller i)).Reading → i ∈ s.shared.readers
  locked (g : Gor) : (s.pcs g).Announced → s.pcs g ≠ .acquiring → s.shared.readers = []
  waits (i success failure : ℕ) : s.pcs (.caller i) = .waiting success failure →
    success = s.shared.success ∧ failure = s.shared.failure

theorem locking_readers_step {g : Gor} (hi : s.Locking) (h : Steps s g s') (i : ℕ)
    (hrd : (s'.pcs (.caller i)).Reading) : i ∈ s'.shared.readers := by
  rw [h.shared]
  rcases h.pcs_cases (.caller i) with ⟨rfl, hpc⟩ | ⟨pc, hstd, hpc⟩ | ⟨hne, hpc⟩
  · rw [hpc] at hrd
    exact h.move.reading (hi.reading i) hrd
  · rw [hpc] at hrd
    exact absurd hrd (h.move.started hstd).2.1.not_reading
  · rw [hpc] at hrd
    rcases h.move.readers (hi.reading i hrd) with hkept | ⟨hg, -⟩
    · exact hkept
    · exact absurd hg.symm hne

theorem locking_locked_step {g : Gor} (hi : s.Locking) (h : Steps s g s') (g' : Gor)
    (hann : (s'.pcs g').Announced) (hne : s'.pcs g' ≠ .acquiring) : s'.shared.readers = [] := by
  have hnil : (s.pcs g').Announced → s.shared.readers = [] → s'.shared.readers = [] := by
    intro hann hnil
    rw [h.shared]
    exact h.move.readers_nil (by rw [hi.exclusive g' hann]; nofun) hnil
  rcases h.pcs_cases g' with ⟨rfl, hpc⟩ | ⟨pc, hstd, hpc⟩ | ⟨-, hpc⟩
  · rw [hpc] at hann hne
    have hbef := h.move.locked hann hne
    apply hnil hbef
    by_cases hacq : s.pcs g' = .acquiring
    · have hmove := h.move
      rw [hacq] at hmove
      exact hmove.no_readers
    · exact hi.locked g' hbef hacq
  · rw [hpc] at hann
    exact absurd hann (h.move.started hstd).2.1.not_announced
  · rw [hpc] at hann hne
    exact hnil hann (hi.locked g' hann hne)

theorem locking_step {g : Gor} (hi : s.Locking) (h : Steps s g s') : s'.Locking := by
  refine ⟨exclusive_step hi.exclusive h, locking_readers_step hi h, locking_locked_step hi h, ?_⟩
  intro i success failure hwt
  rw [h.shared]
  rcases h.pcs_cases (.caller i) with ⟨rfl, hpc⟩ | ⟨pc, hstd, hpc⟩ | ⟨-, hpc⟩
  · rw [hpc] at hwt
    exact (h.move.waits hwt).2.2
  · have hloop := (h.move.started hstd).2.1
    rw [← hpc, hwt] at hloop
    exact hloop.elim
  · rw [hpc] at hwt
    rcases h.move.channels with ⟨hsuc, hfai⟩ | ⟨ok, hnot⟩
    · rw [hsuc, hfai]
      exact hi.waits i success failure hwt
    -- the channels are replaced under the write lock, and this caller has the read lock
    have hrd := hi.reading i (by rw [hwt]; trivial)
    rw [hi.locked g (by rw [hnot]; trivial) (by rw [hnot]; nofun)] at hrd
    cases hrd

theorem exclusive_init : ({} : Line).Exclusive := by
  intro g hg
  have hg : (if g = .establisher then Pc.locking else Pc.absent).Announced := hg
  split at hg <;> exact hg.elim

theorem locking_init : ({} : Line).Locking where
  exclusive := exclusive_init
  reading i h := h.elim
  locked g hg _ := absurd (exclusive_init g hg) nofun
  waits i success failure h := by cases h

/-- A caller is blocked in `wait` with its read lock and a redial on the write lock, and no
continuation wakes either of them. -/
def Deadlocked (s : Line) (i : ℕ) (g : Gor) : Prop :=
  (∃ success failure, s.pcs (.caller i) = .waiting success failure) ∧ s.pcs g = .acquiring ∧
    ∀ acts s', Run (guardedRel step fun _ _ => true) s acts s' →
      s'.pcs (.caller i) = s.pcs (.caller i) ∧ s'.pcs g = s.pcs g

/-- Neither a caller in the select nor a redial that waits for its read lock can take a step. -/
theorem blocked_step {i success failure : ℕ} {g g' : Gor} (hi : s.Locking)
    (hwt : s.pcs (.caller i) = .waiting success failure) (hacq : s.pcs g = .acquiring)
    (h : Steps s g' s') : s'.pcs (.caller i) = s.pcs (.caller i) ∧ s'.pcs g = s.pcs g := by
  have hcr : g' ≠ .caller i := by
    rintro rfl
    have hmove := h.move
    obtain ⟨rfl, rfl⟩ := hi.waits i success failure hwt
    rw [hwt] at hmove
    rcases hmove.closed with hcl | hcl <;> exact Nat.lt_irrefl _ hcl
  have hred : g' ≠ g := by
    rintro rfl
    have hmove := h.move
    have hrd := hi.reading i (by rw [hwt]; trivial)
    rw [hacq] at hmove
    rw [hmove.no_readers] at hrd
    cases hrd
  -- a goroutine is started only under the write lock
  have hstd : h.r.started = none := by
    by_contra hne
    obtain ⟨⟨g₁, pc⟩, hstd⟩ := Option.ne_none_iff_exists'.mp hne
    have hown := hi.exclusive g' (h.move.started hstd).2.2.2
    rw [hi.exclusive g (by rw [hacq]; trivial)] at hown
    exact hred (Option.some.inj hown).symm
  have hkept : ∀ g₁, g₁ ≠ g' → s'.pcs g₁ = s.pcs g₁ := by
    intro g₁ hne
    rcases h.pcs_cases g₁ with ⟨rfl, -⟩ | ⟨pc, hsome, -⟩ | ⟨-, hpc⟩
    · exact absurd rfl hne
    · rw [hstd] at hsome
      cases hsome
    · exact hpc
  exact ⟨hkept _ hcr.symm, hkept _ hred.symm⟩

theorem blocked_run {i success failure : ℕ} {g : Gor} (hi : s.Locking)
    (hwt : s.pcs (.caller i) = .waiting success failure) (hacq : s.pcs g = .acquiring)
    {acts : List (Gor × Choice)} (h : Run (guardedRel step fun _ _ => true) s acts s') :
    s'.pcs (.caller i) = s.pcs (.caller i) ∧ s'.pcs g = s.pcs g := by
  refine (run_invariant (fun s' => s'.Locking ∧ s'.pcs (.caller i) = s.pcs (.caller i) ∧
    s'.pcs g = s.pcs g) ⟨hi, rfl, rfl⟩ ?_ h).2
  rintro s₁ act s₂ ⟨hl, hpci, hpcg⟩ - hste
  obtain ⟨hi', hg'⟩ := blocked_step hl (hpci.trans hwt) (hpcg.trans hacq) hste
  exact ⟨locking_step hl hste, hi'.trans hpci, hg'.trans hpcg⟩

theorem locking_run {G : Line → Gor × Choice → Bool} {acts : List (Gor × Choice)}
    (h : Run (guardedRel step G) {} acts s) : s.Locking :=
  run_invariant Locking locking_init (fun _ _ _ hs _ => locking_step hs) h

/-- In every state that is reached, a caller in the select of `wait` and a redial that has announced
its write lock are a deadlock. -/
theorem deadlocked_iff {G : Line → Gor × Choice → Bool} {acts : List (Gor × Choice)}
    (h : Run (guardedRel step G) {} acts s) (i : ℕ) (g : Gor) :
    s.Deadlocked i g ↔
      (∃ success failure, s.pcs (.caller i) = .waiting success failure) ∧ s.pcs g = .acquiring := by
  constructor
  · rintro ⟨hwt, hacq, -⟩
    exact ⟨hwt, hacq⟩
  · rintro ⟨⟨success, failure, hwt⟩, hacq⟩
    exact ⟨⟨success, failure, hwt⟩, hacq, fun _ _ => blocked_run (locking_run h) hwt hacq⟩

/-- No caller in `wait` takes the read lock between the swap to `ConnHanged` and the write lock of
the redial, and no failure swaps the state while a caller is between its `RLock` and its load. -/
def orderly (s : Line) : Gor × Choice → Bool
  | (g, _) =>
    match s.pcs g with
    | .rlocking => s.shared.state ≠ .hanged
    | .swapping => s.shared.readers.all fun i => s.pcs (.caller i) ≠ .rloading
    | _ => true

structure Awake (s : Line) : Prop where
  locking : s.Locking
  loads (i : ℕ) : s.pcs (.caller i) = .rloading → s.shared.state ≠ .hanged
  awake (i success failure : ℕ) : s.pcs (.caller i) ≠ .waiting success failure

theorem awake_step {g : Gor} {choice : Choice} (hi : s.Awake) (hG : s.orderly (g, choice) = true)
    (h : Steps s g s') : s'.Awake := by
  refine ⟨locking_step hi.locking h, ?_, ?_⟩
  · intro i hrl hhan
    rw [h.shared] at hhan
    rcases h.pcs_cases (.caller i) with ⟨rfl, hpc⟩ | ⟨pc, hstd, hpc⟩ | ⟨-, hpc⟩
    · obtain ⟨hrlk, hstt⟩ := h.move.rloads (hpc.symm.trans hrl)
      rw [hstt] at hhan
      simp [orderly, hrlk, hhan] at hG
    · have hloop := (h.move.started hstd).2.1
      rw [← hpc, hrl] at hloop
      exact hloop.elim
    · rw [hpc] at hrl
      rcases h.move.hangs hhan with hhan | hsw
      · exact hi.loads i hrl hhan
      -- the caller has its read lock, so that the swap is not allowed
      have hrd := hi.locking.reading i (by rw [hrl]; trivial)
      simp only [orderly, hsw, List.all_eq_true, decide_eq_true_eq] at hG
      exact hG i hrd hrl
  · intro i success failure hwt
    rcases h.pcs_cases (.caller i) with ⟨rfl, hpc⟩ | ⟨pc, hstd, hpc⟩ | ⟨-, hpc⟩
    · obtain ⟨hrl, hhan, -⟩ := h.move.waits (hpc.symm.trans hwt)
      exact hi.loads i hrl hhan
    · have hloop := (h.move.started hstd).2.1
      rw [← hpc, hwt] at hloop
      exact hloop.elim
    · rw [hpc] at hwt
      exact hi.awake i success failure hwt

theorem awake_init : ({} : Line).Awake where
  locking := locking_init
  loads i h := by cases h
  awake i success failure h := by cases h

/-- In every run in which the `RLock`s of `wait`, the swaps of `retry` and the `Lock`s of the
redials keep to this order, no state is a deadlock. -/
theorem redial_not_deadlocked {acts : List (Gor × Choice)} {s : Line}
    (h : Run (guardedRel step orderly) {} acts s) (i : ℕ) (g : Gor) :
    ¬ s.Deadlocked i g := by
  rw [deadlocked_iff h]
  rintro ⟨⟨success, failure, hwt⟩, -⟩
  have hawa : s.Awake :=
    run_invariant Awake awake_init (fun _ _ _ hs hG => awake_step hs hG) h
  exact hawa.awake i success failure hwt

def waitsForLock : List (Gor × Choice) :=
  List.replicate 9 (.establisher, .ok) ++ [(.reader 1, .ok), (.reader 1, .fail), (.reader 1, .ok),
    (.caller 0, .ok), (.caller 0, .ok)] ++ List.replicate 10 (.reader 1, .ok) ++
    [(.caller 0, .ok), (.caller 0, .ok)]

theorem waitsForLock_isSome : (exec step orderly {} waitsForLock).isSome = true := rfl

theorem waitsForLock_not_deadlocked :
    let s := ((exec step orderly {} waitsForLock).get waitsForLock_isSome).2
    s.pcs (.caller 0) = .runlocking true ∧ ¬ s.Deadlocked 0 (.reader 1) :=
  ⟨by decide +kernel, redial_not_deadlocked (run_of_exec _ waitsForLock_isSome) 0 (.reader 1)⟩

def waitsWithLock : List (Gor × Choice) :=
  List.replicate 9 (.establisher, .ok) ++ [(.reader 1, .ok), (.reader 1, .fail), (.reader 1, .ok),
    (.caller 0, .ok), (.caller 0, .ok), (.caller 0, .ok), (.caller 0, .ok), (.reader 1, .ok),
    (.reader 1, .ok)]

theorem waitsWithLock_isSome :
    (exec step (fun _ _ => true) {} waitsWithLock).isSome = true := rfl

theorem redial_deadlocks : ¬ ∀ acts s, Run (guardedRel step fun _ _ => true) {} acts s →
      ∀ i g, ¬ s.Deadlocked i g := by
  intro h
  have hrun := run_of_exec _ waitsWithLock_isSome
  apply h _ _ hrun 0 (.reader 1)
  rw [deadlocked_iff hrun]
  exact ⟨⟨1, 0, by decide +kernel⟩, by decide +kernel⟩

end Line

end DueServer.Client
