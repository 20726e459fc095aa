import DueServer.LinkModel

/-! The rounds of `NodeLinker.doRPC`: how far a round gets for any closure, and what two rounds with
the closure of `deliver` come to. -/
namespace DueServer.Link

open Buffer

namespace NodeLinker

variable (l : NodeLinker)

inductive RoundEnd where
  /-- the function returns an error -/
  | stops (e : LinkErr)
  /-- the user is located at the node of the previous round, and the function returns nil -/
  | stays
  /-- the client of a located node cannot be built -/
  | skips (nid : String) (e : LinkErr)
  | calls (nid client : String)

def arrive (route : Route) (round : Round) (nid : String) : RoundEnd :=
  match round.endpoint nid with
  | .error e => .stops e
  | .ok address =>
    match round.build address with
    | some e => if route.stateful = true ∧ nid ≠ "" then .skips nid e else .stops e
    | none => .calls nid address

def roundEnd (route : Route) (round : Round) (prev : String) : RoundEnd :=
  if route.stateful then
    match l.locateNode round with
    | .error e => .stops e
    | .ok nid => if nid = prev then .stays else arrive route round nid
  else arrive route round ""

/-- `doRPC` does not refuse the user on the route. -/
def Admits (uid : Int64) (route : Route) : Prop :=
  ¬ (uid = 0 ∧ (route.stateful = true ∨ route.authorized = true)) ∧
    ¬ (l.isGate = true ∧ route.internal = true)

section Loop

variable {l} {ρ σ : Type} {route : Route} {round : Round}
  {fn : Round → String → σ → (Bool × Option ρ × Option LinkErr) × σ}

def RoundEnd.outcome (call : String → σ → (Bool × Option ρ × Option LinkErr) × σ)
    (v : Vars ρ σ) : RoundEnd → LoopStep (Vars ρ σ) ((Option ρ × Option LinkErr) × σ)
  | .stops e => .ret ((none, some e), v.state)
  | .stays => .ret ((v.reply, none), v.state)
  | .skips nid e => .cont ⟨nid, nid, some e, v.reply, v.state⟩
  | .calls nid client =>
    match call client v.state with
    | ((true, reply, err), s) => .cont ⟨nid, nid, err, reply, s⟩
    | ((false, reply, err), s) => .ret ((reply, err), s)

theorem callRound_eq (v : Vars ρ σ) (hnid : v.nid = v.prev) : callRound route fn round v =
      (arrive route round v.nid).outcome (fn round) v := by
  unfold callRound arrive
  cases round.endpoint v.nid with
  | error => rfl
  | ok address =>
    simp only
    cases round.build address with
    | some =>
      simp only [← hnid]
      split <;> rfl
    | none =>
      simp only [RoundEnd.outcome]
      obtain ⟨⟨continued, reply, err⟩, s⟩ := fn round address v.state
      cases continued
      · rfl
      · simp only [← hnid]

theorem rpcRound_eq (v : Vars ρ σ) (hfst : route.stateful = false → v.nid = "" ∧ v.prev = "") :
    l.rpcRound route fn round v =
      (l.roundEnd route round v.prev).outcome (fn round) v := by
  unfold rpcRound locateRound roundEnd
  by_cases hsf : route.stateful = true
  · rw [if_pos hsf, if_pos hsf]
    cases l.locateNode round with
    | error => rfl
    | ok nid =>
      simp only
      by_cases hprev : nid = v.prev
      · rw [if_pos hprev, if_pos hprev, RoundEnd.outcome]
      rw [if_neg hprev, if_neg hprev]
      exact callRound_eq _ rfl
  · rw [if_neg hsf, if_neg hsf]
    obtain ⟨hnid, hprev⟩ := hfst (Bool.eq_false_iff.mpr hsf)
    have heq : callRound route fn round v = _ := callRound_eq v (hnid.trans hprev.symm)
    rw [hnid] at heq
    exact heq

theorem doRPC_cases (l : NodeLinker) (rounds : Round × Round) (routeID : Int32) (uid : Int64)
    (fn : Round → String → σ → (Bool × Option ρ × Option LinkErr) × σ) (s : σ) :
    (∃ route, l.routes routeID = some route ∧ l.Admits uid route ∧
      l.doRPC rounds routeID uid fn s = forRounds (l.rpcRound route fn)
        (fun v => ((v.reply, v.err), v.state)) [rounds.1, rounds.2] ⟨"", "", none, none, s⟩) ∨
    (∀ route, l.routes routeID = some route → ¬ l.Admits uid route) ∧
      ∃ e, l.doRPC rounds routeID uid fn s = ((none, some e), s) := by
  unfold doRPC Admits
  cases l.routes routeID with
  | none => exact .inr ⟨nofun, _, rfl⟩
  | some route =>
    simp only [Option.some.injEq, exists_eq_left', forall_eq']
    by_cases huid : uid = 0 ∧ (route.stateful = true ∨ route.authorized = true)
    · rw [if_pos huid]
      exact .inr ⟨fun h => h.1 huid, _, rfl⟩
    by_cases hgate : l.isGate = true ∧ route.internal = true
    · rw [if_neg huid, if_pos hgate]
      exact .inr ⟨fun h => h.2 hgate, _, rfl⟩
    · rw [if_neg huid, if_neg hgate]
      exact .inl ⟨⟨huid, hgate⟩, rfl⟩

variable {nid nid' client prev : String} {e : LinkErr}

theorem arrive_calls_iff : arrive route round nid = .calls nid' client ↔
      nid = nid' ∧ round.endpoint nid = .ok client ∧ round.build client = none := by
  unfold arrive
  cases round.endpoint nid with
  | error => exact iff_of_false nofun fun h => nomatch h.2.1
  | ok address =>
    simp only [Except.ok.injEq]
    cases hbd : round.build address with
    | some =>
      have hnot : ¬ (nid = nid' ∧ address = client ∧ round.build client = none) := by
        rintro ⟨-, rfl, h⟩
        rw [hbd] at h
        cases h
      refine iff_of_false ?_ hnot
      simp only
      split <;> exact nofun
    | none =>
      rw [RoundEnd.calls.injEq]
      exact and_congr_right fun _ => ⟨fun h => ⟨h, h ▸ hbd⟩, fun h => h.1⟩

theorem arrive_skips_iff : arrive route round nid = .skips nid' e ↔
      nid = nid' ∧ (route.stateful = true ∧ nid ≠ "") ∧
        ∃ address, round.endpoint nid = .ok address ∧ round.build address = some e := by
  unfold arrive
  cases round.endpoint nid with
  | error => exact iff_of_false nofun fun h => nomatch h.2.2.choose_spec.1
  | ok address =>
    simp only [Except.ok.injEq, exists_eq_left']
    cases round.build address with
    | none => exact iff_of_false nofun fun h => nomatch h.2.2
    | some =>
      simp only
      by_cases hskip : route.stateful = true ∧ nid ≠ ""
      · rw [if_pos hskip, RoundEnd.skips.injEq, and_iff_right hskip, Option.some.injEq]
      rw [if_neg hskip]
      exact iff_of_false nofun fun h => hskip h.2.1

theorem arrives_iff (hsf : route.stateful = true) {x : RoundEnd}
    (hstop : ∀ e, .stops e ≠ x) (hstay : .stays ≠ x) :
    l.roundEnd route round prev = x ↔
      ∃ found, l.locateNode round = .ok found ∧ found ≠ prev ∧ arrive route round found = x := by
  rw [roundEnd, if_pos hsf]
  cases l.locateNode round with
  | error => exact iff_of_false (hstop _) fun ⟨_, h, _⟩ => nomatch h
  | ok found =>
    simp only [Except.ok.injEq, exists_eq_left']
    by_cases hprev : found = prev
    · rw [if_pos hprev]
      exact iff_of_false hstay fun h => h.1 hprev
    · rw [if_neg hprev, and_iff_right hprev]

theorem calls_iff (hsf : route.stateful = true) : l.roundEnd route round prev = .calls nid client ↔
      l.locateNode round = .ok nid ∧ nid ≠ prev ∧
        round.endpoint nid = .ok client ∧ round.build client = none := by
  rw [arrives_iff (x := .calls nid client) hsf nofun nofun]
  simp only [arrive_calls_iff]
  grind

theorem skips_iff (hsf : route.stateful = true) : l.roundEnd route round prev = .skips nid e ↔
      l.locateNode round = .ok nid ∧ nid ≠ prev ∧ nid ≠ "" ∧
        ∃ address, round.endpoint nid = .ok address ∧ round.build address = some e := by
  rw [arrives_iff (x := .skips nid e) hsf nofun nofun]
  simp only [arrive_skips_iff, hsf]
  grind

theorem calls_empty (hsf : route.stateful = false)
    (h : l.roundEnd route round prev = .calls nid client) : nid = "" := by
  rw [roundEnd, if_neg (Bool.eq_false_iff.mp hsf)] at h
  exact (arrive_calls_iff.mp h).1.symm

theorem not_skips (hsf : route.stateful = false) : l.roundEnd route round prev ≠ .skips nid e := by
  intro h
  rw [roundEnd, if_neg (Bool.eq_false_iff.mp hsf)] at h
  exact (arrive_skips_iff.mp h).2.1.2 rfl

theorem stays_iff : l.roundEnd route round prev = .stays ↔
    route.stateful = true ∧ l.locateNode round = .ok prev := by
  have harr (nid : String) : arrive route round nid ≠ .stays := by
    unfold arrive
    split
    · exact nofun
    split
    · split <;> exact nofun
    · exact nofun
  unfold roundEnd
  by_cases hsf : route.stateful = true
  · rw [if_pos hsf, and_iff_right hsf]
    cases l.locateNode round with
    | error => exact iff_of_false nofun nofun
    | ok found =>
      simp only [Except.ok.injEq]
      by_cases hprev : found = prev
      · rw [if_pos hprev]
        exact iff_of_true rfl hprev
      · rw [if_neg hprev]
        exact iff_of_false (harr found) hprev
  · rw [if_neg hsf]
    exact iff_of_false (harr "") fun h => hsf h.1

end Loop

section Deliver

variable (b : Option (List UInt8))

def Retries (round : Round) (client : String) : Prop := b ≠ none ∧ round.deliver client ≠ none

instance (round : Round) (client : String) : Decidable (Retries b round client) :=
  inferInstanceAs (Decidable (_ ∧ _))

/-- What the last round comes to: the error of `doRPC`, and the variables of the closure. -/
def RoundEnd.result (round : Round) (c : Call) : RoundEnd → Option LinkErr × Call
  | .stops e => (some e, c)
  | .stays => (none, c)
  | .skips _ e => (some e, c)
  | .calls _ client => (round.deliver client, (deliverFn b round client c).2)

/-- What two rounds come to. -/
def results (route : Route) (rounds : Round × Round) (c : Call) : Option LinkErr × Call :=
  match l.roundEnd route rounds.1 "" with
  | .stops e => (some e, c)
  | .stays => (none, c)
  | .skips nid _ => (l.roundEnd route rounds.2 nid).result b rounds.2 c
  | .calls nid client =>
    if Retries b rounds.1 client then
      (l.roundEnd route rounds.2 nid).result b rounds.2 ((c.give rounds.1 client).rebuild b)
    else (rounds.1.deliver client, c.give rounds.1 client)

variable {l b} {route : Route} {round : Round} {client : String} {c : Call}

theorem deliverFn_of_retries (htri : c.deliverTries = 0) (hrty : Retries b round client) :
    deliverFn b round client c =
      ((true, none, round.deliver client), (c.give round client).rebuild b) :=
  if_pos ⟨hrty.2, congrArg (· + 1) htri, hrty.1⟩

theorem deliverFn_of_not (hrty : c.deliverTries = 0 → ¬ Retries b round client) :
    deliverFn b round client c = ((false, none, round.deliver client), c.give round client) :=
  if_neg fun h => hrty (Nat.succ_inj.mp h.2.1) ⟨h.2.2, h.1⟩

theorem forRounds_last (v : Vars Unit Call)
    (hfst : route.stateful = false → v.nid = "" ∧ v.prev = "")
    {r : (Option Unit × Option LinkErr) × Call}
    (hr : forRounds (l.rpcRound route (deliverFn b)) (fun v => ((v.reply, v.err), v.state))
      [round] v = r) :
    (r.1.2, r.2) = (l.roundEnd route round v.prev).result b round v.state := by
  subst hr
  rw [forRounds, rpcRound_eq v hfst]
  cases l.roundEnd route round v.prev with
  | stops | stays | skips => rfl
  | calls nid client =>
    simp only [RoundEnd.outcome, RoundEnd.result]
    by_cases hrty : v.state.deliverTries = 0 ∧ Retries b round client
    · rw [deliverFn_of_retries hrty.1 hrty.2]
      rfl
    · rw [deliverFn_of_not fun htri h => hrty ⟨htri, h⟩]

theorem forRounds_eq (rounds : Round × Round) (htri : c.deliverTries = 0)
    {r : (Option Unit × Option LinkErr) × Call}
    (hr : forRounds (l.rpcRound route (deliverFn b)) (fun v => ((v.reply, v.err), v.state))
      [rounds.1, rounds.2] ⟨"", "", none, none, c⟩ = r) :
    (r.1.2, r.2) = l.results b route rounds c := by
  rw [forRounds, rpcRound_eq _ fun _ => ⟨rfl, rfl⟩] at hr
  unfold results
  cases hend : l.roundEnd route rounds.1 "" with
  | stops | stays =>
    rw [hend] at hr
    exact hr ▸ rfl
  | skips nid e =>
    rw [hend] at hr
    exact forRounds_last _ (fun h => absurd hend (not_skips h)) hr
  | calls nid client =>
    simp only [hend, RoundEnd.outcome] at hr ⊢
    by_cases hrty : Retries b rounds.1 client
    · rw [deliverFn_of_retries htri hrty] at hr
      rw [if_pos hrty]
      exact forRounds_last _ (fun h => ⟨calls_empty h hend, calls_empty h hend⟩) hr
    · rw [deliverFn_of_not fun _ => hrty] at hr
      rw [if_neg hrty]
      exact hr ▸ rfl

theorem sent_attempts (c : Call) (strict : Bool) (err : Option LinkErr) :
    (c.sent strict err).attempts = c.attempts := by
  cases err <;> rfl

theorem send_cases (l : NodeLinker) (rounds : Round × Round)
    {args : DeliverArgs} (hnid : args.nid = "")
    (strict : Bool) (buf : Nocopy) (b : Option (List UInt8)) :
    (∃ route, l.routes args.route = some route ∧ l.Admits args.uid route ∧
      l.send rounds args strict buf b = (l.results b route rounds (.new buf)).2.sent strict
        (l.results b route rounds (.new buf)).1) ∨
    (∀ route, l.routes args.route = some route → ¬ l.Admits args.uid route) ∧
      ∃ e, l.send rounds args strict buf b = (Call.new buf).sent strict (some e) := by
  rw [send, if_neg (not_not.mpr hnid)]
  rcases doRPC_cases l rounds args.route args.uid (deliverFn b) (.new buf) with
    ⟨route, hroute, hadm, hrpc⟩ | ⟨hnot, e, hrpc⟩
  · refine .inl ⟨route, hroute, hadm, ?_⟩
    rw [hrpc, ← forRounds_eq rounds rfl rfl]
  · exact .inr ⟨hnot, e, by rw [hrpc]⟩

/-- The first round fails in a way that is tried again, with the node `nid`. -/
def Moves (l : NodeLinker) (b : Option (List UInt8)) (route : Route) (round : Round)
    (nid : String) :
    Prop :=
  (∃ e, l.roundEnd route round "" = .skips nid e) ∨
    ∃ client, l.roundEnd route round "" = .calls nid client ∧ Retries b round client

theorem moves_iff {nid : String} (hsf : route.stateful = true) :
    l.Moves b route round nid ↔ l.locateNode round = .ok nid ∧ nid ≠ "" ∧
      ∃ address, round.endpoint nid = .ok address ∧
        (round.build address ≠ none ∨ Retries b round address) := by
  simp only [Moves, calls_iff hsf, skips_iff hsf]
  constructor
  · rintro (⟨e, hnid, hne, -, address, haddr, hbd⟩ | ⟨address, ⟨hnid, hne, haddr, -⟩, hrty⟩)
    · exact ⟨hnid, hne, address, haddr, .inl (hbd ▸ Option.some_ne_none e)⟩
    · exact ⟨hnid, hne, address, haddr, .inr hrty⟩
  · rintro ⟨hnid, hne, address, haddr, hfld⟩
    cases hbd : round.build address with
    | some e => exact .inl ⟨e, hnid, hne, hne, address, haddr, hbd⟩
    | none =>
      exact .inr ⟨address, ⟨hnid, hne, haddr, hbd⟩, hfld.resolve_left (not_not.mpr hbd)⟩

end Deliver

end NodeLinker

end DueServer.Link
