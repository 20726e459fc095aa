import DueServer.GateLinkQueue

/-! The packed message of a push and of a group: what the gate calls find in it. -/
namespace DueServer.Link

open Buffer GateLinker List Shared Fan Lib.Prog Lib

variable {bytes : List UInt8} {limit n i : ℕ} {hasLocator ack : Bool}

variable {p : GatePool} {targets : ℕ → Target} {tr : List (ℕ × Bool)} {message : Shared}

theorem within_doPush : (doPush hasLocator ack).Ends (within (pushLimit ack))
    (fun t _ => 1 ≤ t.releases ∧ t.releases ≤ pushLimit ack) {} :=
  (within_of_pushing (ends_doPush hasLocator ack)).mono fun _ _ h => h.2

theorem within_multicastTarget : (multicastTarget hasLocator ack).Ends (within (pushLimit ack))
    (fun t _ => 1 ≤ t.releases ∧ t.releases ≤ pushLimit ack) {} := by
  rw [multicastTarget, ends_bind]
  refine within_doPush.mono ?_
  intro t err h
  have hno : ∀ {q : Ask} {t : Account}, q.uses = false → (within (pushLimit ack)).may t q :=
    fun hq hu => by rw [hq] at hu; cases hu
  refine ⟨hno rfl, fun _ _ => ⟨hno rfl, fun a _ => ?_⟩⟩
  cases a with
  | some e | none => exact ⟨hno rfl, fun _ _ => ⟨hno rfl, fun _ _ => h⟩⟩

theorem within_multicastThreads : ∀ t ∈ multicastThreads hasLocator n ack,
    t.Ends (within (pushLimit ack)) (fun t _ => 1 ≤ t.releases ∧
      t.releases ≤ pushLimit ack) {} := by
  intro t ht
  rcases mem_multicastThreads ht with rfl | rfl
  · exact within_doPush
  · exact within_multicastTarget

theorem holds_multicastMessage (hpos : n ≠ 0) (hsm : n * pushLimit ack ≤ 2 ^ 31) :
    (multicastMessage n ack bytes).Holds (n * pushLimit ack) 0 := by
  cases ack with
  | true =>
    exact holds_setDelay bytes (Nat.mul_pos (Nat.pos_of_ne_zero hpos) Nat.two_pos) hsm
  | false =>
    have hone : n * pushLimit false = n := Nat.mul_one n
    rw [hone] at hsm ⊢
    by_cases hn : n = 1
    · subst hn
      exact holds_pack bytes
    rw [multicastMessage, if_neg hn]
    exact holds_setDelay bytes (Nat.pos_of_ne_zero hpos) hsm

theorem bytes_multicastMessage : (multicastMessage n ack bytes).bytes = bytes := by
  unfold multicastMessage
  split
  · rfl
  · split <;> rfl

theorem ready_multicast (hpos : n ≠ 0) (hsm : n * pushLimit ack ≤ 2 ^ 31) :
    Ready bytes (pushLimit ack) n
      (multicastPool hasLocator n ack bytes) :=
  ready_start length_multicastThreads bytes_multicastMessage (holds_multicastMessage hpos hsm)
    within_multicastThreads

section Push

variable {targets : ℕ → Target} {s : Fan} {gid : String} {round : ℕ}

theorem set_account (s : Fan) (i : ℕ) : s.accounts.set i (s.account i) = s.accounts := by
  apply ext_getElem?
  intro j
  by_cases hj : i = j
  · subst hj
    by_cases hlt : i < s.accounts.length
    · rw [getElem?_set_self hlt, getElem?_account hlt]
    rw [getElem?_eq_none (Nat.le_of_not_lt hlt), getElem?_eq_none]
    rw [length_set]
    exact Nat.le_of_not_lt hlt
  · rw [getElem?_set_ne hj]

theorem idle_serve (targets : ℕ → Target) (i : ℕ) (s : Fan) (round : ℕ) :
    (targets i).Idle (serve targets i false) s round where
  cached := congrArg (Prod.mk _) (by
    show { s with accounts := s.accounts.set i (s.account i) } = s
    rw [set_account])
  locator := congrArg (Prod.mk _) (by
    show { s with accounts := s.accounts.set i ((s.account i).note (.locator round)
      ((targets i).own (.locator round))) } = s
    rw [Target.note_locator, set_account])
  build := fun gid => congrArg (Prod.mk _) (by
    show { s with accounts := s.accounts.set i (s.account i) } = s
    rw [set_account])

theorem used_releaseTimes (targets : ℕ → Target) (i n : ℕ) : ∀ s : Fan,
    ((releaseTimes n).run (serve targets i false) s).2.used = s.used := by
  induction n with
  | zero => exact fun s => rfl
  | succ n ih => exact fun s => ih _

theorem run_clientCall (op : GateOp) (targets : ℕ → Target) (i round : ℕ) (gid : String) (s : Fan) :
    ∃ s', (clientCall op round gid).run (serve targets i false) s =
        ((targets i).own (.call op round gid), s') ∧
      s'.used = s.used ++ [s.message.carried, s.message.carried] ∧
      s'.message = s.message.release := by
  refine ⟨_, rfl, ?_, rfl⟩
  show (s.used ++ [s.message.carried]) ++ [s.message.carried] = _
  rw [append_assoc]
  rfl

theorem run_pushHandler_ack (targets : ℕ → Target) (i round : ℕ) (gid : String) (s : Fan) :
    ∃ s', (pushHandler true gid round).run (serve targets i false) s =
    ((decide ((targets i).callErr (.push true) round gid = some .notFoundSession), none,
      (targets i).callErr (.push true) round gid), s') ∧
    s'.used = s.used ++ [s.message.carried, s.message.carried] ∧
    ((targets i).callErr (.push true) round gid = some .notFoundSession →
      s'.message = s.message.release) := by
  obtain ⟨s', hrun, hused, hmsg⟩ :=
    run_clientCall (.push true) targets i round gid s
  have hsnd : ((targets i).own (.call (.push true) round gid)).2 =
    (targets i).callErr (.push true) round gid := rfl
  rw [pushHandler, run_bind, hrun]
  simp only [if_true, hsnd]
  by_cases hses : (targets i).callErr (.push true) round gid = some .notFoundSession
  · rw [if_pos hses, decide_eq_true hses]
    exact ⟨s', rfl, hused, fun _ => hmsg⟩
  rw [if_neg hses, decide_eq_false hses, run_bind]
  refine ⟨_, rfl, ?_, fun hs => absurd hs hses⟩
  exact (used_releaseTimes _ _ _ _).trans hused

def Retried (target : Target) (hasLocator : Bool) : Prop :=
  ∃ gid gid', target.reach hasLocator 1 "" = .calls gid ∧
    target.callErr (.push true) 1 gid = some .notFoundSession ∧
    target.reach hasLocator 2 gid = .calls gid'

theorem used_secondRound (hasLocator : Bool) (targets : ℕ → Target) (i : ℕ) (s : Fan) (gid : String)
    (last : Option Unit × Option GateErr) :
    ∃ more, ((rpcRounds hasLocator (pushHandler true)
      (fun index => releaseTimes (2 - index)) [2] gid
        last).run (serve targets i false) s).2.used = s.used ++ more ∧
      ((∀ gid', (targets i).reach hasLocator 2 gid ≠ .calls gid') ∧ more = [] ∨
        (∃ gid', (targets i).reach hasLocator 2 gid = .calls gid') ∧ s.message.carried ∈ more) := by
  rw [run_rpcRounds (idle_serve targets i s 2)]
  cases (targets i).reach hasLocator 2 gid with
  | fails | stays =>
    exact ⟨[], (used_releaseTimes _ _ _ s).trans (append_nil _).symm, .inl ⟨nofun, rfl⟩⟩
  | calls gid' =>
    obtain ⟨s', hrun, hused, -⟩ := run_pushHandler_ack targets i 2 gid' s
    simp only [hrun]
    refine ⟨[s.message.carried, s.message.carried], ?_, .inr ⟨⟨gid', rfl⟩, mem_cons_self⟩⟩
    rw [← hused]
    cases decide ((targets i).callErr (.push true) 2 gid' = some .notFoundSession) <;> rfl

variable {target : Target}

theorem used_twice : ∀ u ∈ [] ++ [some bytes, some bytes], u = some bytes := by
  simp

theorem used_doPush_ack : (∀ u ∈ ((doPush hasLocator true).run (serve (fun _ => target) 0 false)
      (.start (.pack bytes) 1)).2.used, u = some bytes) ↔ ¬ Retried target hasLocator := by
  rw [doPush, run_bind, doRPC, run_rpcRounds (idle_serve (fun _ => target) 0 _ 1)]
  unfold Retried
  cases hfst : target.reach hasLocator 1 "" with
  | fails e =>
    refine iff_of_true (fun u hu => absurd (used_releaseTimes _ _ _ _ ▸ hu) not_mem_nil) ?_
    rintro ⟨gid, -, hgid, -⟩
    cases hgid
  | stays => exact absurd hfst Target.reach_ne_stays
  | calls gid =>
    obtain ⟨s', hrun, hused, hmsg⟩ :=
      run_pushHandler_ack (fun _ => target) 0 1 gid (.start (.pack bytes) 1)
    have hown : ∀ u ∈ s'.used, u = some bytes := by
      rw [hused]
      exact used_twice
    simp only [hrun, Target.Reach.calls.injEq, exists_and_left, exists_eq_left']
    by_cases hses : target.callErr (.push true) 1 gid = some .notFoundSession
    · simp only [decide_eq_true hses, and_iff_right hses]
      -- nothing is left in the buffer after its first release
      have hem : s'.message.carried = none := by
        rw [hmsg hses]
        rfl
      obtain ⟨more, hmore, ⟨hno, rfl⟩ | ⟨hsnd, hmem⟩⟩ := used_secondRound hasLocator
        (fun _ => target) 0 s' gid (none, target.callErr (.push true) 1 gid)
      · rw [append_nil] at hmore
        exact iff_of_true (hmore.symm ▸ hown) fun h => hno h.choose h.choose_spec
      · refine iff_of_false (fun hall => ?_) fun hno => hno hsnd
        have hnone := hall _ (hmore.symm ▸ mem_append_right _ hmem)
        rw [hem] at hnone
        cases hnone
    · simp only [decide_eq_false hses]
      exact iff_of_true hown fun h => hses h.1

theorem used_clientCall (op : GateOp) (round : ℕ) (gid : String) :
    ∀ u ∈ ((clientCall op round gid).run (serve (fun _ => target) 0 false)
      (.start (.pack bytes) 1)).2.used, u = some bytes := by
  obtain ⟨s', hrun, hused, -⟩ :=
    run_clientCall op (fun _ => target) 0 round gid (.start (.pack bytes) 1)
  rw [hrun, hused]
  exact used_twice

theorem used_doPush_send :
    ∀ u ∈ ((doPush hasLocator false).run (serve (fun _ => target) 0 false)
      (.start (.pack bytes) 1)).2.used, u = some bytes := by
  rw [doPush, run_bind, doRPC, run_rpcRounds (idle_serve (fun _ => target) 0 _ 1)]
  cases hfst : target.reach hasLocator 1 "" with
  | fails => exact fun u hu => absurd (used_releaseTimes _ _ _ _ ▸ hu) not_mem_nil
  | stays => exact absurd hfst Target.reach_ne_stays
  | calls gid => exact used_clientCall (.push false) 1 gid

theorem used_directPush (gid : String) (packErr : Option GateErr) :
    ∀ u ∈ ((directPush gid packErr ack).run (serve (fun _ => target) 0 false)
      (.start (.pack bytes) 1)).2.used, u = some bytes := by
  have hbd := (idle_serve (fun _ => target) 0 (.start (.pack bytes) 1) 1).build gid
  simp only [directPush, run, hbd]
  cases target.own (.build 1 gid) with
  | some e => exact fun u hu => absurd hu not_mem_nil
  | none =>
    cases packErr with
    | some e => exact fun u hu => absurd hu not_mem_nil
    | none =>
      exact used_clientCall (.push ack) 1 gid

theorem used_push_iff (kind : SessionKind) (gid : String) (packErr : Option GateErr)
    (target : Target) :
    (∀ u ∈ ((push hasLocator kind gid packErr ack).run (serve (fun _ => target) 0 false)
      (.start (.pack bytes) 1)).2.used, u = some bytes) ↔
    ¬ (kind = .user ∧ gid = "" ∧ packErr = none ∧ ack = true ∧ Retried target hasLocator) := by
  unfold push
  cases kind with
  | conn => exact iff_of_true (used_directPush gid packErr) fun h => by cases h.1
  | other => exact iff_of_true (fun u hu => absurd hu not_mem_nil) fun h => by cases h.1
  | user =>
    by_cases hgid : gid = ""
    · subst hgid
      have hem : ¬ ("" : String) ≠ "" := fun h => h rfl
      rw [if_neg hem]
      cases packErr with
      | some e =>
        exact iff_of_true (fun u hu => absurd hu not_mem_nil) fun h => by cases h.2.2.1
      | none =>
        cases ack with
        | false => exact iff_of_true used_doPush_send fun h => by cases h.2.2.2.1
        | true =>
          rw [used_doPush_ack]
          exact not_congr ⟨fun h => ⟨rfl, rfl, rfl, rfl, h⟩, fun h => h.2.2.2.2⟩
    · rw [if_pos hgid]
      exact iff_of_true (used_directPush gid packErr) fun h => hgid h.2.1

end Push

section Turn

def eager : Target where
  uid := 7
  round := fun _ => ⟨⟨none, ∅⟩, .ok "gate-1", fun _ => some "addr", fun _ => none,
    fun op _ => op.zero, fun _ _ => .ok⟩

theorem message_releaseTimes (targets : ℕ → Target) (i n : ℕ) : ∀ s : Fan,
    ((releaseTimes n).run (serve targets i false) s).2.message =
      release^[n] s.message := by
  induction n with
  | zero => exact fun s => rfl
  | succ n ih => exact fun s => ih _

theorem message_afterPush (targets : ℕ → Target) (i : ℕ) (s : Fan) (err : Option GateErr) :
    ((afterPush err).run (serve targets i false) s).2.message = s.message ∧
      ((afterPush err).run (serve targets i false) s).2.used = s.used := by
  cases err <;> exact ⟨rfl, rfl⟩

theorem message_multicastTarget (ack : Bool) (i : ℕ) (s : Fan) :
    ((multicastTarget true ack).run (serve (fun _ => eager) i false) s).2.message =
      release^[pushLimit ack] s.message ∧
    s.message.carried ∈
      ((multicastTarget true ack).run (serve (fun _ => eager) i false) s).2.used := by
  have hpush : ((doPush true ack).run (serve (fun _ => eager) i false) s).2.message =
        release^[pushLimit ack] s.message ∧
      s.message.carried ∈
        ((doPush true ack).run (serve (fun _ => eager) i false) s).2.used := by
    have hfst : eager.reach true 1 "" = .calls "gate-1" :=
      Target.reach_calls_iff.mpr ⟨rfl, by decide, rfl⟩
    obtain ⟨s', hrun, hused, hmsg⟩ :=
      run_clientCall (.push ack) (fun _ => eager) i 1 "gate-1" s
    have hmem : s.message.carried ∈ s'.used := by
      rw [hused]
      exact mem_append_right _ mem_cons_self
    rw [doPush, run_bind, doRPC, run_rpcRounds (idle_serve (fun _ => eager) i s 1), hfst]
    simp only [pushHandler, run_bind, hrun]
    cases ack with
    | false => exact ⟨hmsg, hmem⟩
    | true =>
      refine ⟨?_, ?_⟩
      · exact (message_releaseTimes (fun _ => eager) i 1 s').trans (congrArg release hmsg)
      · have hkept := used_releaseTimes (fun _ => eager) i 1 s'
        exact hkept ▸ hmem
  rw [multicastTarget, run_bind]
  obtain ⟨hmsg, hused⟩ := message_afterPush (fun _ => eager) i
    ((doPush true ack).run (serve (fun _ => eager) i false) s).2
    ((doPush true ack).run (serve (fun _ => eager) i false) s).1
  exact ⟨hmsg.trans hpush.1, hused ▸ hpush.2⟩

theorem exists_run_first (ack : Bool) (message : Shared) (n : ℕ) : ∀ m ≤ n, ∃ tr p,
    Runs (fun _ => eager) (groupOf true n ack message) tr p ∧
    p.shared.message = release^[m * pushLimit ack] message ∧
    ∀ j, m ≤ j → p.threads[j]? = (replicate n (multicastTarget true ack))[j]? := by
  intro m
  induction m with
  | zero => exact fun _ => ⟨[], _, .nil, by rw [Nat.zero_mul]; rfl, fun _ _ => rfl⟩
  | succ m ih =>
    intro hm
    obtain ⟨tr, p, hrun, hmsg, hrest⟩ := ih (Nat.le_of_succ_le hm)
    have hthr : p.threads[m]? = some (multicastTarget true ack) := by
      rw [hrest m (Nat.le_refl m)]
      exact getElem?_replicate_of_lt hm
    obtain ⟨tr', hrun'⟩ :=
      Pool.exists_run_thread (serve fun _ => eager) false _ hthr
    refine ⟨_, _, run_append hrun hrun', ?_, ?_⟩
    · rw [(message_multicastTarget ack m _).1, hmsg, ← Function.iterate_add_apply, Nat.succ_mul,
        Nat.add_comm]
    · intro j hj
      rw [← hrest j (Nat.le_of_succ_le hj)]
      exact getElem?_set_ne (Nat.ne_of_lt hj)

theorem exists_run_empty (message : Shared) (hlg : 2 ^ 31 ≤ (n - 1) * pushLimit ack) :
    ∃ tr p, Runs (fun _ => eager) (groupOf true n ack message) tr p ∧
    none ∈ p.shared.used := by
  have hpos : 0 < n := by
    rcases Nat.eq_zero_or_pos n with rfl | hpos
    · omega
    · exact hpos
  obtain ⟨tr, p, hrun, hmsg, hrest⟩ :=
    exists_run_first ack message n (n - 1) (Nat.sub_le n 1)
  have hthr : p.threads[n - 1]? = some (multicastTarget true ack) := by
    rw [hrest (n - 1) (Nat.le_refl _)]
    exact getElem?_replicate_of_lt (Nat.sub_lt hpos Nat.one_pos)
  obtain ⟨tr', hrun'⟩ :=
    Pool.exists_run_thread (serve fun _ => eager) false _ hthr
  refine ⟨_, _, run_append hrun hrun', ?_⟩
  have hcar : p.shared.message.carried = none := by
    rw [hmsg]
    exact carried_of_released (released_iterate message hlg)
  have hused := (message_multicastTarget ack (n - 1) p.shared).2
  rwa [hcar] at hused

end Turn

def silent : Contract Ask Ask.Answer Account where
  may _ q := q ≠ .mount ∧ q ≠ .consume
  ans _ _ _ := True
  note := Account.note

theorem silent_afterPush (err : Option GateErr) (t : Account) :
    (afterPush err).Ends silent (fun _ _ => True) t := by
  have hno {q : Ask} {t : Account} (hq : q.uses = false) : silent.may t q := by
    constructor <;> (rintro rfl; cases hq)
  refine ⟨hno rfl, fun _ _ => ⟨hno rfl, fun a _ => ?_⟩⟩
  cases a <;> exact ⟨hno rfl, fun _ _ => ⟨hno rfl, fun _ _ => trivial⟩⟩

theorem silent_doPush : (doPush false ack).Ends silent (fun _ _ => True) {} := by
  have hrel {t : Account} : silent.may t .release :=
    ⟨fun h => Ask.noConfusion h, fun h => Ask.noConfusion h⟩
  exact ⟨hrel, fun _ _ => trivial⟩

theorem used_without_locator
    (hrun : Runs targets ⟨multicastThreads false n ack, .start message n⟩ tr p) :
    p.shared.used = [] := by
  refine (Pool.run_ends (fun _ => silent) (fun _ _ _ => True) (fun i s => s.account i)
    (fun s => s.accounts.length = n ∧ s.used = []) ?_ ⟨length_replicate, rfl⟩ ?_ hrun).1.2
  · rintro i x s q hi ⟨hlen, hused⟩ hmay
    have hi' : i < s.accounts.length :=
      Nat.lt_of_lt_of_eq hi (length_multicastThreads.trans hlen.symm)
    refine ⟨trivial, account_note_self hi', fun j hj => account_note_ne hj,
      length_note.trans hlen, ?_⟩
    cases q with
    | mount => exact absurd rfl hmay.1
    | consume => exact absurd rfl hmay.2
    | _ => exact hused
  · intro i t ht
    rw [account_start]
    rcases mem_multicastThreads (mem_of_getElem? ht) with rfl | rfl
    · exact silent_doPush
    rw [multicastTarget, ends_bind]
    exact silent_doPush.mono fun t err _ => silent_afterPush err t

theorem used_multicast_iff (hpos : n ≠ 0) :
    (∀ targets tr p, Runs targets (multicastPool hasLocator n ack bytes)
        tr p → ∀ u ∈ p.shared.used, u = some bytes) ↔
      ¬ (hasLocator = true ∧ 2 ^ 31 < n * pushLimit ack) := by
  constructor
  · rintro hall ⟨rfl, hlg⟩
    have hone : n ≠ 1 := by
      rintro rfl
      cases ack <;> exact absurd hlg (by decide)
    have hroom : 2 ^ 31 ≤ (n - 1) * pushLimit ack := by
      cases ack with
      | false =>
        have hlg' : 2 ^ 31 < n * 1 := hlg
        show 2 ^ 31 ≤ (n - 1) * 1
        omega
      | true =>
        have hlg' : 2 ^ 31 < n * 2 := hlg
        show 2 ^ 31 ≤ (n - 1) * 2
        omega
    have hthrs : multicastThreads true n ack = replicate n (multicastTarget true ack) :=
      if_neg hone
    simp only [multicastPool, hthrs] at hall
    obtain ⟨tr, p, hrun, hnone⟩ := exists_run_empty (multicastMessage n ack bytes) hroom
    cases hall _ tr p hrun none hnone
  · intro hno targets tr p hrun
    cases hasLocator with
    | false =>
      rw [used_without_locator hrun]
      exact fun u hu => absurd hu not_mem_nil
    | true =>
      have hsm : n * pushLimit ack ≤ 2 ^ 31 := Nat.le_of_not_lt fun hlt => hno ⟨rfl, hlt⟩
      exact (ready_multicast hpos hsm).used hrun

/-- The gate calls of `Push` carry the packed bytes, except for the second call of an acknowledged
push by user; those of an indirect `Multicast` do, as long as the number of releases fits in the
`int32` of `Delay`. -/
theorem gate_calls_carry_packed_bytes_iff (hasLocator ack : Bool) (bytes : List UInt8) :
    (∀ kind gid packErr target,
      (∀ u ∈ ((push hasLocator kind gid packErr ack).run (Fan.serve (fun _ => target) 0 false)
        (.start (.pack bytes) 1)).2.used, u = some bytes) ↔
      ¬ (kind = .user ∧ gid = "" ∧ packErr = none ∧ ack = true ∧ Retried target hasLocator)) ∧
    ∀ n p, doIndirectMulticast hasLocator n (.ok bytes) ack = .inr p →
      ((∀ targets tr p', Run (Pool.rel (Fan.serve targets)) p tr p' →
        ∀ u ∈ p'.shared.used, u = some bytes) ↔
          ¬ (hasLocator = true ∧ 2 ^ 31 < n * pushLimit ack)) := by
  refine ⟨fun kind gid packErr target => used_push_iff kind gid packErr target, ?_⟩
  intro n p hstr
  obtain ⟨hpos, bytes', hbs, rfl⟩ := started_multicast hstr
  cases hbs
  exact used_multicast_iff hpos

def moved : Target where
  uid := 7
  round := fun i => ⟨⟨none, ∅⟩, .ok (if i = 1 then "gate-1" else "gate-2"), fun _ => some "addr",
    fun _ => none, fun op _ => op.zero, fun _ gid =>
      if gid = "gate-1" then .notFoundSession else .ok⟩

/-- The second gate is sent an empty message, and acknowledges it. -/
theorem push_empty_on_retry :
    ((push true .user "" none true).run (Fan.serve (fun _ => moved) 0 false)
      (.start (.pack [1, 2, 3]) 1)).1 = none ∧
    ((push true .user "" none true).run (Fan.serve (fun _ => moved) 0 false)
      (.start (.pack [1, 2, 3]) 1)).2.used = [some [1, 2, 3], some [1, 2, 3], none, none] := by
  decide +kernel

end DueServer.Link
