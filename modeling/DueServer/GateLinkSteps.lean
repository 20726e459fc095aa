import DueServer.GateLinkModel

/-! How the questions of the programs of a `GateLinker` are answered, and the groups of goroutines
that `Multicast`, `Broadcast` and `Publish` start, with what the goroutines share. -/
namespace DueServer.Link

open Buffer List

theorem GateCache.load_ne_empty (c : GateCache) (uid : Int64) : c.load uid ≠ some "" := by
  unfold GateCache.load
  split
  · rename_i hints _
    intro hload
    rw [Hints.load_result] at hload
    have hget : hints.get ⟨uid, "gate"⟩ = some "" := hload
    rw [Hints.get, SourceHints.hint_eq_lookup hints.linked, Lib.Lru.lookup_eq_some] at hget
    obtain ⟨e, he, heq⟩ := mem_map.mp hget
    exact hints.linked.node e he (Prod.mk.inj heq).2
  · split
    · split
      · exact fun h => by cases h
      · rename_i hne
        exact fun h => hne (Option.some.inj h)
    · exact fun h => by cases h

namespace Target

variable (target : Target)

def cached (round : ℕ) : Option String := (target.round round).cache.load target.uid

def buildErr (round : ℕ) (gid : String) : Option GateErr :=
  if gid = "" then some .invalidGID
  else
    match (target.round round).endpoint gid with
    | none => some .notFoundEndpoint
    | some addr => ((target.round round).build addr).map .external

def callErr (op : GateOp) (round : ℕ) (client : String) : Option GateErr :=
  ((target.round round).served op client).err

def own : (q : Ask) → q.Answer
  | .cached round => target.cached round
  | .locator round => (target.round round).located.mapError .external
  | .build round gid => target.buildErr round gid
  | .dial addr => ((target.round 1).build addr).map .external
  | .call op round client => ((target.round round).reply op client, target.callErr op round client)
  | .readErr => none
  | .mount | .consume | .release | .setErr _ | .count _ | .leave _ => ()

def severed : (q : Ask) → q.Answer
  | .locator _ => .error .canceled
  | .call op round client =>
    if op.waits then (op.zero, some .canceled) else target.own (.call op round client)
  | q => target.own q

end Target

/-- What a goroutine has done: the calls that have ended, the releases of the message, what it added
to the total, and its own error once it has one. `seen` tells that it has met an error of another
goroutine. -/
structure Account where
  calls : List (String × Option GateErr) := []
  releases : ℕ := 0
  counted : ℤ := 0
  result : Option (Option GateErr) := none
  seen : Bool := false
deriving DecidableEq

namespace Account

def note (t : Account) : (q : Ask) → q.Answer → Account
  | .locator _, r => { t with seen := t.seen || decide (r = .error .canceled) }
  | .call _ _ client, r =>
    { t with
      calls := t.calls ++ [(client, r.2)]
      seen := t.seen || decide (r.2 = some .canceled) }
  | .consume, _ | .release, _ => { t with releases := t.releases + 1 }
  | .setErr err, _ => { t with result := some err }
  | .readErr, r => { t with seen := t.seen || r.isSome }
  | .count n, _ => { t with counted := t.counted + n }
  | .leave err, _ => { t with result := some (t.result.getD err) }
  | .cached _, _ | .build .., _ | .dial _, _ | .mount, _ => t

end Account

/-- A group of goroutines with what it shares; `used` is what the requests with the message found in
it, when they were made and when they were written. -/
structure Fan where
  message : Shared
  used : List (Option (List UInt8))
  /-- the error of the group, which cancels its context -/
  groupErr : Option GateErr
  /-- the named results of `doMulticast` -/
  err : Option GateErr
  total : ℤ
  accounts : List Account
deriving DecidableEq

namespace Fan

variable (s : Fan)

def start (message : Shared) (n : ℕ) : Fan := ⟨message, [], none, none, 0, replicate n {}⟩

def account (i : ℕ) : Account := s.accounts[i]?.getD {}

def releases : ℕ := (s.accounts.map Account.releases).sum

def effect : Ask → Fan
  | .mount => { s with used := s.used ++ [s.message.carried] }
  | .consume => { s with used := s.used ++ [s.message.carried], message := s.message.release }
  | .release => { s with message := s.message.release }
  | .setErr err => { s with err := err }
  | .count n => { s with total := s.total + n }
  -- errOnce: the first error is the one of the group
  | .leave err => { s with groupErr := s.groupErr <|> err }
  | _ => s

/-- `giveUp` is the choice of the locator or the client between its own outcome and that of the
context, where there is one. -/
def answer (target : Target) (giveUp : Bool) (q : Ask) : q.Answer :=
  match q with
  | .readErr => s.err
  | q => if giveUp && s.groupErr.isSome then target.severed q else target.own q

def note (i : ℕ) (q : Ask) (a : q.Answer) : Fan :=
  { s.effect q with accounts := s.accounts.set i ((s.account i).note q a) }

def serve (targets : ℕ → Target) (i : ℕ) (giveUp : Bool) (s : Fan) (q : Ask) : q.Answer × Fan :=
  (s.answer (targets i) giveUp q, s.note i q (s.answer (targets i) giveUp q))

end Fan

abbrev GatePool := Lib.Pool Ask Ask.Answer (Option GateErr) Fan

abbrev Runs (targets : ℕ → Target) (p : GatePool) (tr : List (ℕ × Bool)) (p' : GatePool) : Prop :=
  Lib.Run (Lib.Pool.rel (Fan.serve targets)) p tr p'

namespace GateLinker

/-- One target is pushed to without a group. -/
def multicastThreads (hasLocator : Bool) (n : ℕ) (ack : Bool) : List (GateProg (Option GateErr)) :=
  if n = 1 then [doPush hasLocator ack] else replicate n (multicastTarget hasLocator ack)

def multicastMessage (n : ℕ) (ack : Bool) (bytes : List UInt8) : Shared :=
  if ack then (Shared.pack bytes).setDelay (Int32.ofNat (n * 2))
  else if n = 1 then .pack bytes
  else (Shared.pack bytes).setDelay (Int32.ofNat n)

abbrev multicastPool (hasLocator : Bool) (n : ℕ) (ack : Bool) (bytes : List UInt8) : GatePool :=
  ⟨multicastThreads hasLocator n ack, .start (multicastMessage n ack bytes) n⟩

abbrev groupOf (hasLocator : Bool) (n : ℕ) (ack : Bool) (message : Shared) : GatePool :=
  ⟨replicate n (multicastTarget hasLocator ack), .start message n⟩

/-- `doIndirectMulticast` for `n` targets: what it returns at once, or the goroutines it starts. -/
def doIndirectMulticast (hasLocator : Bool) (n : ℕ) (packed : Except GateErr (List UInt8))
    (ack : Bool) : (ℤ × Option GateErr) ⊕ GatePool :=
  if n = 0 then .inl (0, some .receiveTargetEmpty)
  else
    match packed with
    | .error e => .inl (0, some e)
    | .ok bytes => .inr (multicastPool hasLocator n ack bytes)

variable {hasLocator ack : Bool} {n : ℕ}

theorem started_multicast {packed : Except GateErr (List UInt8)} {p : GatePool}
    (h : doIndirectMulticast hasLocator n packed ack = .inr p) :
    n ≠ 0 ∧ ∃ bytes, packed = .ok bytes ∧ p = multicastPool hasLocator n ack bytes := by
  unfold doIndirectMulticast at h
  split at h
  · cases h
  rename_i hzero
  refine ⟨hzero, ?_⟩
  split at h
  · cases h
  rename_i bytes
  cases h
  exact ⟨bytes, rfl, rfl⟩

theorem length_multicastThreads : (multicastThreads hasLocator n ack).length = n := by
  unfold multicastThreads
  split
  · rename_i hone
    exact hone.symm
  · exact length_replicate

theorem mem_multicastThreads {t : GateProg (Option GateErr)}
    (h : t ∈ multicastThreads hasLocator n ack) :
    t = doPush hasLocator ack ∨ t = multicastTarget hasLocator ack := by
  unfold multicastThreads at h
  split at h
  · exact .inl (mem_singleton.mp h)
  · exact .inr (eq_of_mem_replicate h)

def groupResult (s : Fan) : ℤ × Option GateErr :=
  if s.groupErr.isSome ∧ s.total = 0 then (0, s.groupErr) else (s.total, none)

def multicastResult (n : ℕ) (ack : Bool) (p : GatePool) : Option (ℤ × Option GateErr) :=
  if n = 1 then
    match p.threads with
    | [.ret err] => some (if ack = true ∧ err = none then 1 else 0, err)
    | _ => none
  else if ack then some (groupResult p.shared)
  else some (0, (groupResult p.shared).2)

/-- `Broadcast` and `Publish`, with `body` as `doBroadcast` or `doPublish`. The message is set up as
for a multicast without acknowledgement, and one gate is called without a group. -/
def toEndpoints (addrs : List String) (packed : Except GateErr (List UInt8))
    (body : String → GateProg (ℤ × Option GateErr)) : (ℤ × Option GateErr) ⊕ GatePool :=
  if addrs.length = 0 then .inl (0, none)
  else
    match packed with
    | .error e => .inl (0, some e)
    | .ok bytes =>
      .inr ⟨addrs.map fun addr =>
          (body addr).bind (if addrs.length = 1 then fun r => .ret r.2 else afterCall),
        .start (multicastMessage addrs.length false bytes) addrs.length⟩

def broadcast (addrs : List String) (packed : Except GateErr (List UInt8)) (ack : Bool) :
    (ℤ × Option GateErr) ⊕ GatePool :=
  toEndpoints addrs packed fun addr => doBroadcast addr ack

def publish (channel : String) (addrs : List String) (packed : Except GateErr (List UInt8))
    (ack : Bool) : (ℤ × Option GateErr) ⊕ GatePool :=
  toEndpoints addrs packed fun addr => doPublish channel addr ack

end GateLinker

end DueServer.Link
