import DueServer.LibTransition

/-! `Register` and `Deregister` of one service instance in the consul registry (with the heartbeat
check) and in the etcd registry (`registry/consul`, `registry/etcd`), in every interleaving. A
registrar has an unbuffered channel to its heartbeat worker; the consul registrar closes the channel
when it is deregistered, the etcd one only cancels its context. -/
namespace DueServer.Heartbeat

open Lib

inductive Kind where
  | consul
  | etcd
deriving DecidableEq

structure Registrar where
  cancelled : Bool := false
  closed : Bool := false
  exited : Bool := false
deriving DecidableEq

/-- Where a call is. `registering` is the request to the registry server, `sending` the send of the
heartbeat; `fresh` says that the call has made the registrar, which it stores at its end. -/
inductive Call where
  | idle
  | loading
  | registering (k : ℕ) (fresh : Bool)
  | sending (k : ℕ) (fresh : Bool)
  | storing (k : ℕ)
  | unloading
  | cancelling (k : ℕ)
  | closing (k : ℕ)
  | deleting (k : ℕ)
deriving DecidableEq

namespace Call

def holds : Call → Option ℕ
  | registering k _ | sending k _ | storing k => some k
  | _ => none

def takes : Call → Option ℕ
  | cancelling k | closing k => some k
  | _ => none

end Call

/-- `stored` is the entry of the instance in `registrars`. Registrars and calls are numbered as they
are made. -/
structure State where
  stored : Option ℕ
  made : ℕ
  regs : ℕ → Registrar
  called : ℕ
  calls : ℕ → Call
  panicked : Bool

/-- What a call meets: `fail` is an error of the server, `done` the end of the caller's context,
which only the etcd registrar looks at. -/
inductive Choice where
  | go
  | fail
  | done
deriving DecidableEq

inductive Act where
  | register
  | deregister
  | next (i : ℕ) (choice : Choice)
  | exit (k : ℕ)
deriving DecidableEq

namespace State

def init : State := ⟨none, 0, fun _ => {}, 0, fun _ => .idle, false⟩

variable (s : State)

def goto (i : ℕ) (c : Call) : State := { s with calls := Function.update s.calls i c }

def setReg (k : ℕ) (r : Registrar) : State := { s with regs := Function.update s.regs k r }

def sent (i k : ℕ) (fresh : Bool) : State := s.goto i (if fresh then .storing k else .idle)

/-- The send of the heartbeat: `r.chHeartbeat <- id`, or the `select` of `dispatchHeartbeat`. The
worker receives as long as it has not returned. -/
def send (kind : Kind) (i k : ℕ) (fresh : Bool) : Choice → Option State
  | .go =>
    if (s.regs k).closed then some { s with panicked := true }
    else if (s.regs k).exited then none
    else some (s.sent i k fresh)
  | .fail => if kind = .etcd ∧ (s.regs k).cancelled then some (s.goto i .idle) else none
  | .done => if kind = .etcd then some (s.goto i .idle) else none

def next (kind : Kind) (i : ℕ) (choice : Choice) : Call → Option State
  | .loading => match s.stored with
    | some k => some (s.goto i (.registering k false))
    | none => some ({ s with made := s.made + 1 }.goto i (.registering s.made true))
  | .registering k fresh =>
    if choice = .go then some (s.goto i (.sending k fresh)) else some (s.goto i .idle)
  | .sending k fresh => s.send kind i k fresh choice
  | .storing k => some ({ s with stored := some k }.goto i .idle)
  | .unloading => match s.stored with
    | none => some (s.goto i .idle)
    | some k => some ({ s with stored := none }.goto i (.cancelling k))
  | .cancelling k =>
    let s' := s.setReg k { s.regs k with cancelled := true }
    some (s'.goto i (if kind = .consul then .closing k else .deleting k))
  | .closing k =>
    if (s.regs k).closed then some { s with panicked := true }
    else some ((s.setReg k { s.regs k with closed := true }).goto i (.deleting k))
  | .deleting _ => some (s.goto i .idle)
  | .idle => none

def start (c : Call) : State := { s with called := s.called + 1 }.goto s.called c

def step (kind : Kind) (s : State) (act : Act) : Option (State × Act) :=
  if s.panicked then none
  else match act with
    | .register => some (s.start .loading, act)
    | .deregister => some (s.start .unloading, act)
    | .next i choice => (s.next kind i choice (s.calls i)).map (·, act)
    | .exit k =>
      if (s.regs k).cancelled ∨ (s.regs k).closed then
        some (s.setReg k { s.regs k with exited := true }, act)
      else none

/-- A `Deregister` of the consul registry takes a registrar out of the map only when no `Register`
that has got it is in progress. -/
def apart (kind : Kind) (s : State) : Act → Bool
  | .next i _ => match s.calls i, s.stored with
    | .unloading, some k => kind = .etcd || decide (∀ j < s.called, (s.calls j).holds ≠ some k)
    | _, _ => true
  | _ => true

end State

/-- In the consul registry a registrar that is stored or held is neither taken nor cancelled; only a
cancelled one is closed or left by its worker. -/
structure Inv (kind : Kind) (s : State) : Prop where
  exited : ∀ k, (s.regs k).exited = true → (s.regs k).cancelled = true
  closed : ∀ k, (s.regs k).closed = true → (s.regs k).cancelled = true ∧ kind = .consul
  late : ∀ i, s.called ≤ i → s.calls i = .idle
  unique : kind = .consul → ∀ i j k, (s.calls i).takes = some k → (s.calls j).takes = some k → i = j
  taken : ∀ i k, (s.calls i).takes = some k → (s.regs k).closed = false
  closing : ∀ i k, s.calls i = .closing k → kind = .consul ∧ (s.regs k).cancelled = true
  stored : kind = .consul → ∀ k, s.stored = some k →
    (s.regs k).cancelled = false ∧ ∀ i, (s.calls i).takes ≠ some k
  held : kind = .consul → ∀ i k, (s.calls i).holds = some k →
    (s.regs k).cancelled = false ∧ ∀ j, (s.calls j).takes ≠ some k
  unused : ∀ k, s.made ≤ k → (s.regs k).cancelled = false ∧ s.stored ≠ some k ∧
    ∀ i, (s.calls i).takes ≠ some k ∧ (s.calls i).holds ≠ some k

variable {kind : Kind} {s s' : State}

attribute [local grind =] Call.takes Call.holds

theorem Inv.goto (h : Inv kind s) {i : ℕ} {c : Call} (hi : i < s.called) (htak : c.takes = none)
    (hho : c.holds = none ∨ c.holds = (s.calls i).holds) : Inv kind (s.goto i c) := by
  cases h
  constructor <;> simp only [State.goto] <;>
    grind -linarith

theorem next_ok {i : ℕ} {choice : Choice} (h : Inv kind s)
    (hg : s.apart kind (.next i choice) = true)
    (hstep : s.next kind i choice (s.calls i) = some s') :
    Inv kind s' ∧ s'.panicked = s.panicked := by
  have hi : s.calls i ≠ .idle → i < s.called := fun hne => by
    by_contra hlate
    exact hne (h.late i (Nat.le_of_not_lt hlate))
  have ⟨hexi, hcl, hlate, huni, htak, hclg, hsto, hheld, hunu⟩ := h
  cases hc : s.calls i <;> rw [hc] at hstep hi <;> simp only [State.next] at hstep
  case idle => cases hstep
  case loading =>
    split at hstep <;> cases hstep
    · -- the stored registrar is neither cancelled nor taken, so the call may have it
      rename_i k hk
      have hfree := fun hkind => hsto hkind k hk
      refine ⟨⟨hexi, hcl, ?_, ?_, ?_, ?_, ?_, ?_, ?_⟩, rfl⟩ <;> simp only [State.goto] <;>
        grind -linarith
    -- a new one, which no call has or has taken
    have hnew := hunu s.made (Nat.le_refl _)
    refine ⟨⟨hexi, hcl, ?_, ?_, ?_, ?_, ?_, ?_, ?_⟩, rfl⟩ <;> simp only [State.goto] <;>
      grind -linarith
  case registering k fresh =>
    split at hstep <;> cases hstep
    · exact ⟨h.goto (hi nofun) rfl (.inr (by rw [hc]; rfl)), rfl⟩
    · exact ⟨h.goto (hi nofun) rfl (.inl rfl), rfl⟩
  case sending k fresh =>
    cases choice <;> simp only [State.send] at hstep
    · -- a held registrar is open in the consul registry, and none is closed in the other
      have hopen : (s.regs k).closed = false := by
        by_contra hcl'
        obtain ⟨hcan, hkind⟩ := hcl k (by simpa using hcl')
        have hfree := (hheld hkind i k (by rw [hc]; rfl)).1
        rw [hcan] at hfree
        cases hfree
      rw [hopen] at hstep
      simp only [Bool.false_eq_true, if_false] at hstep
      split at hstep <;> cases hstep
      refine ⟨h.goto (hi nofun) ?_ ?_, rfl⟩ <;> cases fresh <;> simp [hc, Call.takes, Call.holds]
    all_goals
      split at hstep <;> cases hstep
      exact ⟨h.goto (hi nofun) rfl (.inl rfl), rfl⟩
  case storing k =>
    cases hstep
    have hfree := fun hkind => hheld hkind i k (by rw [hc]; rfl)
    refine ⟨⟨hexi, hcl, ?_, ?_, ?_, ?_, ?_, ?_, ?_⟩, rfl⟩ <;> simp only [State.goto] <;>
      grind -linarith
  case unloading =>
    split at hstep <;> cases hstep
    · exact ⟨h.goto (hi nofun) rfl (.inl rfl), rfl⟩
    rename_i k hk
    -- nobody holds the registrar that is taken
    have hfree : kind = .consul → ∀ j, (s.calls j).holds ≠ some k := by
      rintro rfl j hj
      simp only [State.apart, hc, hk, reduceCtorEq, decide_false, Bool.false_or,
        decide_eq_true_eq] at hg
      by_cases hlt : j < s.called
      · exact hg j hlt hj
      rw [hlate j (Nat.le_of_not_lt hlt)] at hj
      cases hj
    refine ⟨⟨hexi, hcl, ?_, ?_, ?_, ?_, ?_, ?_, ?_⟩, rfl⟩ <;> simp only [State.goto] <;>
      grind -linarith
  case cancelling k =>
    cases hstep
    -- it is open, was made, and is in no use
    have hmine : (s.calls i).takes = some k := by rw [hc]; rfl
    have hopen := htak i k hmine
    have hmade : k < s.made := Nat.lt_of_not_le fun hle => ((hunu k hle).2.2 i).1 hmine
    have huse : kind = .consul → s.stored ≠ some k ∧ ∀ j, (s.calls j).holds ≠ some k := fun hkind =>
      ⟨fun hk => (hsto hkind k hk).2 i hmine, fun j hj => (hheld hkind j k hj).2 i hmine⟩
    refine ⟨⟨?_, ?_, ?_, ?_, ?_, ?_, ?_, ?_, ?_⟩, rfl⟩ <;> simp only [State.goto, State.setReg] <;>
      grind -linarith
  case closing k =>
    have hmine : (s.calls i).takes = some k := by rw [hc]; rfl
    rw [htak i k hmine] at hstep
    cases hstep
    -- no other call has taken it
    obtain ⟨hkind, hcan⟩ := hclg i k hc
    have honly := fun j => huni hkind j i k
    refine ⟨⟨?_, ?_, ?_, ?_, ?_, ?_, ?_, ?_, ?_⟩, rfl⟩ <;> simp only [State.goto, State.setReg] <;>
      grind -linarith
  case deleting k =>
    cases hstep
    exact ⟨h.goto (hi nofun) rfl (.inl rfl), rfl⟩

theorem step_ok {act e : Act} (h : Inv kind s) (hg : s.apart kind act = true)
    (hstep : State.step kind s act = some (s', e)) : Inv kind s' ∧ s'.panicked = false := by
  unfold State.step at hstep
  split at hstep
  · cases hstep
  rename_i hcalm
  have hcalm : s.panicked = false := by simpa using hcalm
  have hstr : ∀ c : Call, c.takes = none → c.holds = none → Inv kind (s.start c) := by
    intro c htak hho
    cases h
    constructor <;>
      simp only [State.goto, State.start] <;> grind -linarith
  cases act with
  | register =>
    cases hstep
    exact ⟨hstr .loading rfl rfl, hcalm⟩
  | deregister =>
    cases hstep
    exact ⟨hstr .unloading rfl rfl, hcalm⟩
  | next i choice =>
    obtain ⟨t, ht, heq⟩ := Option.map_eq_some_iff.mp hstep
    cases heq
    obtain ⟨hinv, hsame⟩ := next_ok h hg ht
    exact ⟨hinv, hsame.trans hcalm⟩
  | exit k =>
    simp only at hstep
    split at hstep <;> cases hstep
    obtain ⟨hexi, hcl, hlate, huni, htake, hclg, hsto, hheld, hunu⟩ := h
    refine ⟨⟨?_, ?_, hlate, huni, ?_, ?_, ?_, ?_, ?_⟩, hcalm⟩ <;> simp only [State.setReg] <;>
      grind -linarith

def Stuck (kind : Kind) (s : State) (i : ℕ) : Prop :=
  ∃ k fresh, s.calls i = .sending k fresh ∧ (s.regs k).exited = true ∧
    ∀ choice, State.step kind s (.next i choice) = none

/-- No heartbeat is sent on a closed channel, and a `Register` that waits for a worker that has gone
can return. -/
theorem register_never_stuck (kind : Kind) {tr : List Act} {s : State}
    (h : Run (guardedRel (State.step kind) (State.apart kind)) .init tr s) :
    s.panicked = false ∧ ∀ i, ¬ Stuck kind s i := by
  have hinv : Inv kind s ∧ s.panicked = false := by
    refine run_invariant (fun _ s => Inv kind s ∧ s.panicked = false) ?_ ?_ h
    · exact ⟨⟨nofun, nofun, fun _ _ => rfl, nofun, nofun, nofun, nofun, nofun,
        fun _ _ => ⟨rfl, nofun, fun _ => ⟨nofun, nofun⟩⟩⟩, rfl⟩
    · rintro _ t e t' ⟨ht, -⟩ ⟨act, hg, hact⟩
      exact step_ok ht hg hact
  refine ⟨hinv.2, ?_⟩
  rintro i ⟨k, fresh, hc, hexi, hnone⟩
  have hcan := hinv.1.exited k hexi
  cases kind with
  | consul =>
    have hfree := (hinv.1.held rfl i k (by rw [hc]; rfl)).1
    rw [hcan] at hfree
    cases hfree
  | etcd =>
    -- `dispatchHeartbeat` sees that the registrar is cancelled
    have hfail := hnone .fail
    simp [State.step, hinv.2, hc, State.next, State.send, hcan] at hfail

def twice : List Act :=
  [.register, .next 0 .go, .next 0 .go, .next 0 .go, .next 0 .go, .register, .next 1 .go,
    .next 1 .go, .next 1 .go, .deregister, .next 2 .go, .next 2 .go, .exit 0, .next 2 .go,
    .next 2 .go, .register, .next 3 .go, .next 3 .go]

theorem twice_isSome :
    (exec (State.step .consul) (State.apart .consul) .init twice).isSome := by decide +kernel

theorem twice_never_stuck :
    let s := ((exec (State.step .consul) (State.apart .consul) .init twice).get twice_isSome).2
    s.calls 3 = .sending 1 true ∧ (s.regs 0).closed = true ∧
      s.panicked = false ∧ ∀ i, ¬ Stuck .consul s i :=
  ⟨by decide +kernel, by decide +kernel,
    register_never_stuck .consul (run_of_exec _ twice_isSome)⟩

def overtaken : List Act :=
  [.register, .next 0 .go, .next 0 .go, .next 0 .go, .next 0 .go, .register, .next 1 .go,
    .deregister, .next 2 .go, .next 2 .go, .exit 0, .next 1 .go]

theorem overtaken_isSome : ∀ rest ∈ [[], [.next 2 .go, .next 1 .go]],
    (exec (State.step .consul) (fun _ _ => true) .init (overtaken ++ rest)).isSome :=
      by decide +kernel

/-- In the consul registry it is stuck until the channel is closed, and panics then. -/
theorem overtaken_panics :
    (∃ tr s, Run (guardedRel (State.step .consul) fun _ _ => true) .init tr s ∧ Stuck .consul s 1) ∧
      ∃ tr s, Run (guardedRel (State.step .consul) fun _ _ => true) .init tr s ∧
        s.panicked = true := by
  refine ⟨⟨_, _, run_of_exec _ (overtaken_isSome [] (by decide)), 0, false, ?_⟩,
    ⟨_, _, run_of_exec _ (overtaken_isSome [.next 2 .go, .next 1 .go] (by decide)), ?_⟩⟩
  · refine ⟨by decide +kernel, by decide +kernel, fun choice => ?_⟩
    cases choice <;> decide +kernel
  · decide +kernel

end DueServer.Heartbeat
