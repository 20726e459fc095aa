import Mathlib.Data.List.Induction

/-! The instances of one service as a watcher manager of the etcd registry keeps them
(`registry/etcd/watcher.go`): a snapshot of the keys under a prefix, and the events after it. Keys
are `/namespace/name/id`; the codec of the values is left out. -/
namespace DueServer.RegistryView

open Function (update_self update_of_ne update)
open List

abbrev Str := List Char

/-- `registry.ServiceInstance`; `rest` is everything but the id and the name. -/
structure ServiceInstance (β : Type) where
  id : Str
  name : Str
  rest : β
deriving DecidableEq

inductive Op (β : Type) where
  | register (ins : ServiceInstance β)
  | deregister (ins : ServiceInstance β)

inductive Event (β : Type) where
  | put (key : Str) (value : ServiceInstance β)
  | delete (key : Str)

variable {β : Type}

def buildPrefixKey (ns serviceName : Str) : Str := '/' :: ns ++ '/' :: serviceName

def buildKey (ns name id : Str) : Str := buildPrefixKey ns name ++ '/' :: id

namespace Op

def ins : Op β → ServiceInstance β
  | register ins | deregister ins => ins

def value : Op β → Option (ServiceInstance β)
  | register ins => some ins
  | deregister _ => none

def key (ns : Str) (op : Op β) : Str := buildKey ns op.ins.name op.ins.id

end Op

abbrev Store (β : Type) := Str → Option (ServiceInstance β)

def write (ns : Str) (store : Store β) (op : Op β) : Store β :=
  update store (op.key ns) op.value

def emit (ns : Str) (store : Store β) (op : Op β) : Option (Event β) := match op with
  | .register ins => some (.put (op.key ns) ins)
  | .deregister _ => if store (op.key ns) = none then none else some (.delete (op.key ns))

namespace Event

def key : Event β → Str
  | put key _ | delete key => key

def apply (instances : Store β) : Event β → Store β
  | put _ service => update instances service.id (some service)
  | delete key => match key.splitOn '/' with
    | [_, _, _, id] => update instances id none
    | _ => instances

end Event

def load (kvs : List (Str × ServiceInstance β)) : Store β :=
  kvs.foldl (fun instances kv => update instances kv.2.id (some kv.2)) fun _ => none

/-- A call after the snapshot: the store of etcd, and the instances of the manager after the event,
which it gets if the key has its prefix. -/
def replay (ns serviceName : Str) (p : Store β × Store β) (op : Op β) : Store β × Store β :=
  (write ns p.1 op, match emit ns p.1 op with
    | some ev => if buildPrefixKey ns serviceName <+: ev.key then ev.apply p.2 else p.2
    | none => p.2)

def services (instances : Store β) : Set (ServiceInstance β) :=
  { ins | ∃ id, instances id = some ins }

/-- `kvs` lists what a `Get` of the prefix returns, in some order. -/
def Lists (ns serviceName : Str) (store : Store β) (kvs : List (Str × ServiceInstance β)) : Prop :=
  ∀ key value, (key, value) ∈ kvs ↔ store key = some value ∧ buildPrefixKey ns serviceName <+: key

def note (latest : Str → Str → Option (ServiceInstance β)) (op : Op β) :
    Str → Str → Option (ServiceInstance β) :=
  fun name id => if name = op.ins.name ∧ id = op.ins.id then op.value else latest name id

def registered (ops : List (Op β)) : Str → Str → Option (ServiceInstance β) :=
  ops.foldl note fun _ _ => none

structure Plain (serviceName : Str) (op : Op β) : Prop where
  name : '/' ∉ op.ins.name
  id : '/' ∉ op.ins.id
  own : serviceName <+: op.ins.name → op.ins.name = serviceName

section Keys

variable {ns serviceName : Str}

theorem splitOn_buildKey {name id : Str} (hns : '/' ∉ ns) (hname : '/' ∉ name) (hid : '/' ∉ id) :
    (buildKey ns name id).splitOn '/' = [[], ns, name, id] := by
  have hjoin : buildKey ns name id = ['/'].intercalate [[], ns, name, id] := by
    simp [buildKey, buildPrefixKey]
  rw [hjoin, splitOn_intercalate]
  · simp [hns, hname, hid]
  · simp

theorem buildKey_inj {name id name' id' : Str} (hns : '/' ∉ ns) (hname : '/' ∉ name)
    (hid : '/' ∉ id)
    (hname' : '/' ∉ name') (hid' : '/' ∉ id') (h : buildKey ns name id = buildKey ns name' id') :
    name = name' ∧ id = id' := by
  have hsp := congrArg (splitOn '/') h
  rw [splitOn_buildKey hns hname hid, splitOn_buildKey hns hname' hid'] at hsp
  simpa using hsp

/-- A key has the prefix of the service when its name begins with the name of the service. -/
theorem prefix_buildKey {name id : Str} (hsvc : '/' ∉ serviceName) :
    buildPrefixKey ns serviceName <+: buildKey ns name id ↔ serviceName <+: name := by
  have hcut : buildPrefixKey ns serviceName <+: buildKey ns name id ↔
      serviceName <+: name ++ '/' :: id := by
    simp [buildPrefixKey, buildKey]
  rw [hcut]
  constructor
  · intro h
    by_cases hlen : serviceName.length ≤ name.length
    · exact prefix_of_prefix_length_le h (prefix_append _ _) hlen
    -- the slash after the name would be in the name of the service
    have hlon : name ++ ['/'] <+: serviceName := by
      refine prefix_of_prefix_length_le ?_ h (by simp; omega)
      exact ⟨id, by simp⟩
    exact absurd (hlon.subset (by simp)) hsvc
  · exact fun h => h.trans (prefix_append _ _)

end Keys

section View

variable {ns serviceName : Str} {store instances : Store β}
  {latest : Str → Str → Option (ServiceInstance β)}

structure Filed (ns : Str) (store : Store β) (latest : Str → Str → Option (ServiceInstance β)) :
    Prop where
  key : ∀ key value, store key = some value → key = buildKey ns value.name value.id ∧
    '/' ∉ value.name ∧ '/' ∉ value.id
  value : ∀ name id, '/' ∉ name → '/' ∉ id → store (buildKey ns name id) = latest name id
  slash : ∀ name id, '/' ∈ name ∨ '/' ∈ id → latest name id = none

theorem write_filed {op : Op β} (hns : '/' ∉ ns) (hop : Plain serviceName op)
    (h : Filed ns store latest) :
    Filed ns (write ns store op) (note latest op) := by
  obtain ⟨hname, hid, -⟩ := hop
  refine ⟨fun key value hkey => ?_, fun name id hn hi => ?_, fun name id hsla => ?_⟩
  · by_cases heq : key = op.key ns
    · rw [heq, write, update_self] at hkey
      cases op with
      | register ins =>
        cases hkey
        exact ⟨heq, hname, hid⟩
      | deregister ins => cases hkey
    · rw [write, update_of_ne heq] at hkey
      exact h.key key value hkey
  · by_cases heq : name = op.ins.name ∧ id = op.ins.id
    · rw [note, if_pos heq, heq.1, heq.2]
      exact update_self ..
    · have hne : buildKey ns name id ≠ op.key ns := fun hkey =>
        heq (buildKey_inj hns hn hi hname hid hkey)
      rw [note, if_neg heq, write, update_of_ne hne]
      exact h.value name id hn hi
  · have hold := h.slash name id hsla
    unfold note
    grind -linarith

theorem apply_delete {name id : Str} (instances : Store β) (hns : '/' ∉ ns) (hname : '/' ∉ name)
    (hid : '/' ∉ id) :
    (Event.delete (buildKey ns name id)).apply instances = update instances id none := by
  unfold Event.apply
  simp only
  rw [splitOn_buildKey hns hname hid]

theorem replay_view {op : Op β} (hns : '/' ∉ ns) (hsvc : '/' ∉ serviceName)
    (hop : Plain serviceName op) (h : Filed ns store latest)
    (hview : ∀ id, instances id = latest serviceName id)
    (id : Str) : (replay ns serviceName (store, instances) op).2 id =
      note latest op serviceName id := by
  have hown : buildPrefixKey ns serviceName <+: op.key ns ↔ serviceName = op.ins.name := by
    rw [Op.key, prefix_buildKey hsvc]
    exact ⟨fun hp => (hop.own hp).symm, fun heq => heq ▸ prefix_rfl⟩
  cases op with
  | register ins =>
    simp only [replay, emit, Event.key, hown, note]
    split
    · simp only [Event.apply, Op.ins, Op.value] at *
      grind -linarith
    · grind -linarith
  | deregister ins =>
    have hval := h.value ins.name ins.id hop.name hop.id
    simp only [replay, emit, note]
    split
    · -- the key is not there, and the instance not registered
      simp only [Op.key, Op.ins, Op.value] at *
      grind -linarith
    by_cases heq : serviceName = ins.name
    · have hkey : buildPrefixKey ns serviceName <+:
        (.delete (Op.key ns (.deregister ins)) : Event β).key :=
        hown.mpr heq
      change (if buildPrefixKey ns serviceName <+: _ then _ else instances) id = _
      rw [if_pos hkey, Op.key, apply_delete instances hns hop.name hop.id]
      simp only [Op.ins, Op.value] at *
      grind -linarith
    · have hkey : ¬ buildPrefixKey ns serviceName <+:
        (.delete (Op.key ns (.deregister ins)) : Event β).key :=
        mt hown.mp heq
      simp only [Op.ins] at *
      grind -linarith

theorem foldl_load (kvs : List (Str × ServiceInstance β)) (view : Store β)
    (h : ∀ kv ∈ kvs, view kv.2.id = some kv.2) (m : Store β) (id : Str) :
    kvs.foldl (fun (instances : Store β) kv => update instances kv.2.id (some kv.2)) m id =
      if ∃ kv ∈ kvs, kv.2.id = id then view id else m id := by
  induction kvs generalizing m with
  | nil => simp
  | cons kv kvs ih =>
    rw [foldl_cons, ih fun kv' hkv => h kv' (mem_cons_of_mem _ hkv)]
    have hkv := h kv mem_cons_self
    simp only [mem_cons, exists_eq_or_imp]
    by_cases hid : kv.2.id = id
    · subst hid
      simp [hkv]
    rw [update_of_ne (Ne.symm hid)]
    exact if_congr ⟨.inr, fun h => h.resolve_left hid⟩ rfl rfl

theorem load_view {kvs : List (Str × ServiceInstance β)} (hns : '/' ∉ ns) (hsvc : '/' ∉ serviceName)
    (h : Filed ns store latest) (hown : ∀ name id, latest name id ≠ none → serviceName <+: name →
      name = serviceName) (hkvs : Lists ns serviceName store kvs) (id : Str) :
    load kvs id = latest serviceName id := by
  have hsame : ∀ kv ∈ kvs, latest serviceName kv.2.id = some kv.2 := by
    rintro ⟨key, value⟩ hkv
    obtain ⟨hsto, hbeg⟩ := (hkvs key value).mp hkv
    obtain ⟨rfl, hname, hid⟩ := h.key key value hsto
    have hval := h.value value.name value.id hname hid
    rw [hsto] at hval
    have heq := hown value.name value.id (by rw [← hval]; nofun) ((prefix_buildKey hsvc).mp hbeg)
    rw [heq] at hval
    exact hval.symm
  rw [load, foldl_load kvs (latest serviceName) hsame]
  split
  · rfl
  rename_i hnot
  by_contra hne
  obtain ⟨value, hval⟩ := Option.ne_none_iff_exists'.mp (Ne.symm hne)
  have hid : '/' ∉ id := fun hsla => by
    rw [h.slash serviceName id (.inr hsla)] at hval
    cases hval
  have hsto := (h.value serviceName id hsvc hid).trans hval
  obtain ⟨hkey, hname', hid'⟩ := h.key _ value hsto
  obtain ⟨-, heq⟩ := buildKey_inj hns hsvc hid hname' hid' hkey
  exact hnot ⟨(_, value), (hkvs _ value).mpr ⟨hsto, prefix_append _ _⟩, heq.symm⟩

end View

section History

variable {ns serviceName : Str}

theorem registered_append (ops : List (Op β)) (op : Op β) :
    registered (ops ++ [op]) = note (registered ops) op := by
  rw [registered, foldl_append]
  rfl

theorem foldl_write_filed (hns : '/' ∉ ns) {ops : List (Op β)}
    (hops : ∀ op ∈ ops, Plain serviceName op) :
    Filed ns (ops.foldl (write ns) fun _ => none) (registered ops) := by
  induction ops using reverseRecOn with
  | nil => exact ⟨nofun, fun _ _ _ _ => rfl, fun _ _ _ => rfl⟩
  | append_singleton ops op ih =>
    rw [foldl_append, registered_append]
    have hop := hops op (by simp)
    exact write_filed hns hop (ih fun op' hop' => hops op' (mem_append_left _ hop'))

theorem registered_own {ops : List (Op β)} (hops : ∀ op ∈ ops, Plain serviceName op) (name id : Str)
    (h : registered ops name id ≠ none) (hbeg : serviceName <+: name) : name = serviceName := by
  induction ops using reverseRecOn with
  | nil => exact absurd rfl h
  | append_singleton ops op ih =>
    rw [registered_append, note] at h
    split at h
    · rename_i heq
      rw [heq.1] at hbeg ⊢
      exact (hops op (by simp)).own hbeg
    · exact ih (fun op' hop' => hops op' (mem_append_left _ hop')) h

theorem view_eq (hns : '/' ∉ ns) (hsvc : '/' ∉ serviceName) (before later : List (Op β))
    (hops : ∀ op ∈ before ++ later, Plain serviceName op) {kvs : List (Str × ServiceInstance β)}
    (hkvs : Lists ns serviceName (before.foldl (write ns) fun _ => none) kvs) (id : Str) :
    (later.foldl (replay ns serviceName) (before.foldl (write ns) fun _ => none, load kvs)).2 id =
      registered (before ++ later) serviceName id := by
  have hbef : ∀ op ∈ before, Plain serviceName op := fun op hop => hops op (mem_append_left _ hop)
  -- the store and the instances after a part of the calls `later`
  have hall : ∀ done, (∀ op ∈ before ++ done, Plain serviceName op) →
      let p := done.foldl (replay ns serviceName) (before.foldl (write ns) fun _ => none, load kvs)
      p.1 = (before ++ done).foldl (write ns) (fun _ => none) ∧
        ∀ id, p.2 id = registered (before ++ done) serviceName id := by
    intro done
    induction done using reverseRecOn with
    | nil =>
      intro _
      refine ⟨by simp, fun id => ?_⟩
      simpa using load_view hns hsvc (foldl_write_filed hns hbef) (registered_own hbef) hkvs id
    | append_singleton done op ih =>
      intro hdone
      have hpart : ∀ op ∈ before ++ done, Plain serviceName op := by grind -linarith
      obtain ⟨hsto, hview⟩ := ih hpart
      have hfil := foldl_write_filed hns hpart
      rw [← hsto] at hfil
      refine ⟨?_, fun id => ?_⟩
      · rw [← append_assoc, foldl_append (l := before ++ done), ← hsto, foldl_append]
        rfl
      · rw [← append_assoc, registered_append, foldl_append]
        exact replay_view hns hsvc (hdone op (by simp)) hfil hview id
  exact (hall later hops).2 id

/-- After a snapshot of the calls `before` and the events of the calls `later`, `services` are the
registered instances of the service. -/
theorem services_exact (hns : '/' ∉ ns) (hservice : '/' ∉ serviceName) (before later : List (Op β))
    (hops : ∀ op ∈ before ++ later, Plain serviceName op) {kvs : List (Str × ServiceInstance β)}
    (hkvs : Lists ns serviceName (before.foldl (write ns) fun _ => none) kvs)
    (ins : ServiceInstance β) :
    ins ∈ services (later.foldl (replay ns serviceName)
      (before.foldl (write ns) fun _ => none, load kvs)).2 ↔
      ∃ id, registered (before ++ later) serviceName id = some ins := by
  have hview := view_eq hns hservice before later hops hkvs
  constructor
  · rintro ⟨id, hid⟩
    exact ⟨id, (hview id).symm.trans hid⟩
  · rintro ⟨id, hid⟩
    exact ⟨id, (hview id).trans hid⟩

end History

section Games

def game (id name : String) : ServiceInstance Unit := ⟨id.toList, name.toList, ()⟩

def firstGame : List (Op Unit) := [.register (game "a" "game")]

def nextGames : List (Op Unit) :=
  [.register (game "a" "gate"), .register (game "b" "game"), .deregister (game "a" "game")]

def gameSnapshot : List (Str × ServiceInstance Unit) := [("/ns/game/a".toList, game "a" "game")]

theorem gameSnapshot_lists :
    Lists "ns".toList "game".toList (firstGame.foldl (write "ns".toList) fun _ => none)
      gameSnapshot := by
  intro key value
  change _ ↔ update (fun _ => none) "/ns/game/a".toList (some (game "a" "game"))
    key = some value ∧ _
  by_cases hkey : key = "/ns/game/a".toList
  · have hbeg : buildPrefixKey "ns".toList "game".toList <+: key := by
      rw [hkey]
      decide
    rw [hkey, update_self, ← hkey]
    simp only [gameSnapshot, mem_singleton, Prod.mk.injEq, hbeg, and_true, Option.some.injEq]
    exact ⟨fun h => h.2.symm, fun h => ⟨hkey, h.symm⟩⟩
  · rw [update_of_ne hkey]
    simp only [gameSnapshot, mem_singleton, Prod.mk.injEq]
    exact ⟨fun h => absurd h.1 hkey, fun h => nomatch h.1⟩

theorem game_services_exact :
    game "b" "game" ∈ services (nextGames.foldl (replay "ns".toList "game".toList)
      (firstGame.foldl (write "ns".toList) fun _ => none, load gameSnapshot)).2 := by
  have hpla : ∀ op ∈ firstGame ++ nextGames, Plain "game".toList op := by
    simp only [firstGame, nextGames, cons_append, nil_append, forall_mem_cons]
    refine ⟨?_, ?_, ?_, ?_, nofun⟩ <;> exact ⟨by decide, by decide, by decide⟩
  apply (services_exact (by decide) (by decide) firstGame nextGames hpla gameSnapshot_lists _).mpr
  exact ⟨"b".toList, by decide⟩

def longerName : List (Op Unit) := [.register (game "a" "game2")]

def slashInId : List (Op Unit) := [.register (game "a/b" "game"), .deregister (game "a/b" "game")]

/-- The watcher has the instance, which is not registered as one of `game`. -/
def Stray (ops : List (Op Unit)) (ins : ServiceInstance Unit) : Prop :=
  ins ∈ services (ops.foldl (replay "ns".toList "game".toList) (fun _ => none, load [])).2 ∧
    ∀ id, registered ops "game".toList id ≠ some ins

/-- An instance of `game2`, and one whose id has a slash, which stays when it is deregistered. -/
theorem services_inexact :
    Stray longerName (game "a" "game2") ∧ Stray slashInId (game "a/b" "game") := by
  refine ⟨⟨⟨"a".toList, by decide +kernel⟩, fun id => ?_⟩,
    ⟨"a/b".toList, by decide +kernel⟩, fun id => ?_⟩
  · simp [registered, longerName, note, Op.ins, game]
  · simp only [registered, slashInId, note, Op.ins, Op.value, foldl_cons, foldl_nil]
    grind -linarith

end Games

end DueServer.RegistryView
