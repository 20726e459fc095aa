import Mathlib.Algebra.Order.Group.Multiset
import Mathlib.Data.Finset.Card
import DueServer.LibPool
import DueServer.SourceSteps

/-! The handlers of a `NodeLinker` count the sources this node owns: what is waited for and done
with, against the map. -/
namespace DueServer.Link

open List NodeSources Lib

namespace NodeSources

variable {l l' : NodeSources} {key k : SourceHintKey} {nid : String}

def ownedKeys (l : NodeSources) : Finset SourceHintKey :=
  (l.sources.entries.flatMap fun user =>
    user.2.keys.map fun name => SourceHintKey.mk user.1 name).toFinset.filter
      fun k => l.owned k = some l.id

theorem mem_ownedKeys : k ∈ l.ownedKeys ↔ l.owned k = some l.id := by
  rw [ownedKeys, Finset.mem_filter, and_iff_right_iff_imp]
  intro hown
  obtain ⟨sources, huser, hname⟩ := Option.bind_eq_some_iff.mp hown
  rw [mem_toFinset, mem_flatMap]
  refine ⟨⟨k.uid, sources⟩, AList.mem_lookup_iff.mp huser, ?_⟩
  have hkey : k.name ∈ sources.keys :=
    AList.mem_keys.mp (AList.lookup_isSome.mp (by rw [hname]; rfl))
  exact mem_map.mpr ⟨k.name, hkey, rfl⟩

theorem ownedKeys_store (l : NodeSources) (key : SourceHintKey) (nid : String) :
    (l.storeLegacySource key nid).2.ownedKeys =
    if nid = l.id then insert key l.ownedKeys else l.ownedKeys.erase key := by
  ext k
  rw [mem_ownedKeys, owned_storeLegacySource, id_storeLegacySource]
  by_cases hnid : nid = l.id
  · rw [if_pos hnid, Finset.mem_insert, mem_ownedKeys]
    by_cases hk : k = key
    · simp [hk, hnid]
    · simp [hk]
  rw [if_neg hnid, Finset.mem_erase, mem_ownedKeys]
  by_cases hk : k = key
  · simp [hk, hnid]
  · simp [hk]

theorem ownedKeys_delete (hheld : l.owned key = some nid) :
    (l.deleteLegacySource key nid).2.ownedKeys = l.ownedKeys.erase key := by
  ext k
  rw [mem_ownedKeys, owned_deleteLegacySource, id_deleteLegacySource]
  by_cases hk : k = key
  · subst hk
    simp [hheld]
  · simp [hk, mem_ownedKeys]

end NodeSources

namespace SourceStage

def waiting : SourceStage → Multiset SourceHintKey
  | .handlers key true _ next => key ::ₘ waiting next
  | .handlers _ false _ next => waiting next
  | _ => 0

def finishing : SourceStage → ℕ
  | .handlers _ _ true next => finishing next + 1
  | .handlers _ _ false next => finishing next
  | _ => 0

def looksUp : SourceStage → Bool
  | .load .. | .ask .. | .await .. => true
  | _ => false

def hintOnly : SourceStage → Bool
  | .load _ | .ask .. | .await .. | .keep .. | .delete .. | .event _ => true
  | _ => false

end SourceStage

namespace SourceWorld

def waiting (w : SourceWorld) : Multiset SourceHintKey := (w.calls.map SourceStage.waiting).sum

def finishing (w : SourceWorld) : ℕ := (w.calls.map SourceStage.finishing).sum

structure Unmoved (w w' : SourceWorld) : Prop where
  own : w'.linker.ownedKeys = w.linker.ownedKeys
  waiting : w'.waiting = w.waiting
  finishing : w'.finishing = w.finishing
  waits : w'.waits = w.waits
  dones : w'.dones = w.dones

/-- What a step does to the owned sources and to the handlers: nothing; a source becomes this
node's; a source is taken away from it; a handler runs. -/
inductive Moves (w w' : SourceWorld) : Prop where
  | quiet (h : Unmoved w w')
  | takes (key : SourceHintKey) (hnew : key ∉ w.linker.ownedKeys)
      (hown : w'.linker.ownedKeys = insert key w.linker.ownedKeys)
      (hwaiting : w'.waiting = key ::ₘ w.waiting) (hfinishing : w'.finishing = w.finishing)
      (hwaits : w'.waits = w.waits) (hdones : w'.dones = w.dones)
  | loses (key : SourceHintKey) (hold : key ∈ w.linker.ownedKeys)
      (hown : w'.linker.ownedKeys = w.linker.ownedKeys.erase key)
      (hwaiting : w'.waiting = w.waiting) (hfinishing : w'.finishing = w.finishing + 1)
      (hwaits : w'.waits = w.waits) (hdones : w'.dones = w.dones)
  | waits (key : SourceHintKey) (hown : w'.linker.ownedKeys = w.linker.ownedKeys)
      (hwaiting : w.waiting = key ::ₘ w'.waiting) (hfinishing : w'.finishing = w.finishing)
      (hwaits : w'.waits = w.waits + 1) (hdones : w'.dones = w.dones)
  | finishes (hown : w'.linker.ownedKeys = w.linker.ownedKeys) (hwaiting : w'.waiting = w.waiting)
      (hfinishing : w.finishing = w'.finishing + 1) (hwaits : w'.waits = w.waits)
      (hdones : w'.dones = w.dones + 1)

variable {w w' : SourceWorld} {c : ℕ} {stage next : SourceStage} {key : SourceHintKey}
  {nid : String}

theorem waiting_setCall (hc : w.calls[c]? = some stage) (next : SourceStage) :
    (w.setCall c next).waiting + stage.waiting = w.waiting + next.waiting :=
  sum_map_set _ _ hc

theorem finishing_setCall (hc : w.calls[c]? = some stage) (next : SourceStage) :
    (w.setCall c next).finishing + stage.finishing = w.finishing + next.finishing :=
  sum_map_set _ _ hc

theorem Unmoved.goto {u : SourceWorld} (hc : u.calls[c]? = some stage)
    (hstage : stage.waiting = 0 ∧ stage.finishing = 0)
    (hnext : next.waiting = 0 ∧ next.finishing = 0)
    (hown : u.linker.ownedKeys = w.linker.ownedKeys) (hcs : u.calls = w.calls)
    (hws : u.waits = w.waits) (hdon : u.dones = w.dones) : Unmoved w (u.setCall c next) := by
  have hwt := waiting_setCall hc next
  have hfin := finishing_setCall hc next
  rw [hstage.1, hnext.1, add_zero, add_zero] at hwt
  rw [hstage.2, hnext.2, add_zero, add_zero] at hfin
  refine ⟨hown, hwt.trans ?_, hfin.trans ?_, hws, hdon⟩
  · rw [SourceWorld.waiting, SourceWorld.waiting, hcs]
  · rw [SourceWorld.finishing, SourceWorld.finishing, hcs]

theorem waiting_afterHandlers (a b : Bool) : (afterHandlers key (a, b) next).waiting =
    if a then key ::ₘ next.waiting else next.waiting := by
  cases a <;> cases b <;> rfl

theorem finishing_afterHandlers (a b : Bool) : (afterHandlers key (a, b) next).finishing =
    next.finishing + if b then 1 else 0 := by
  cases a <;> cases b <;> rfl

section

variable (hc : w.calls[c]? = some stage) (hstage : stage.waiting = 0 ∧ stage.finishing = 0)

include hc hstage

section

variable (hnext : next.waiting = 0 ∧ next.finishing = 0)

include hnext

theorem handlers_added (l : NodeSources) (key : SourceHintKey) (a b : Bool) :
    ({ w with linker := l }.setCall c (afterHandlers key (a, b) next)).waiting =
        (if a then key ::ₘ w.waiting else w.waiting) ∧
      ({ w with linker := l }.setCall c (afterHandlers key (a, b) next)).finishing =
        w.finishing + if b then 1 else 0 := by
  have hwt := waiting_setCall hc (afterHandlers key (a, b) next)
  have hfin := finishing_setCall hc (afterHandlers key (a, b) next)
  rw [waiting_afterHandlers, hstage.1, hnext.1, add_zero] at hwt
  rw [finishing_afterHandlers, hstage.2, hnext.2, zero_add] at hfin
  refine ⟨?_, hfin⟩
  refine hwt.trans ?_
  cases a with
  | false => exact add_zero _
  | true => exact (Multiset.add_cons ..).trans (congrArg _ (add_zero _))

theorem moves_storeLegacy (key : SourceHintKey) (nid : String) :
    Moves w (w.storeLegacy c key nid next) := by
  have hown := ownedKeys_store w.linker key nid
  have hdec : (w.linker.storeLegacySource key nid).1 =
      (decide (key ∉ w.linker.ownedKeys ∧ nid = w.linker.id),
        decide (key ∈ w.linker.ownedKeys ∧ nid ≠ w.linker.id)) := by
    rw [storeLegacySource_eq]
    simp [mem_ownedKeys]
  obtain ⟨hwt, hfin⟩ := handlers_added hc hstage hnext
    (w.linker.storeLegacySource key nid).2 key
    (decide (key ∉ w.linker.ownedKeys ∧ nid = w.linker.id))
    (decide (key ∈ w.linker.ownedKeys ∧ nid ≠ w.linker.id))
  unfold storeLegacy
  rw [hdec]
  by_cases hnid : nid = w.linker.id
  · rw [if_pos hnid] at hown
    by_cases hkey : key ∈ w.linker.ownedKeys
    · rw [Finset.insert_eq_self.mpr hkey] at hown
      refine .quiet ⟨hown, hwt.trans ?_, hfin.trans ?_, rfl, rfl⟩
      · simp [hkey]
      · simp [hnid]
    refine .takes key hkey hown (hwt.trans ?_) (hfin.trans ?_) rfl rfl
    · simp [hkey, hnid]
    · simp [hnid]
  · rw [if_neg hnid] at hown
    by_cases hkey : key ∈ w.linker.ownedKeys
    · refine .loses key hkey hown (hwt.trans ?_) (hfin.trans ?_) rfl rfl
      · simp [hnid]
      · simp [hkey, hnid]
    rw [Finset.erase_eq_of_notMem hkey] at hown
    refine .quiet ⟨hown, hwt.trans ?_, hfin.trans ?_, rfl, rfl⟩
    · simp [hnid]
    · simp [hkey]

theorem moves_deleteLegacy (key : SourceHintKey) (nid : String) :
    Moves w (w.deleteLegacy c key nid next) := by
  obtain ⟨hwt, hfin⟩ := handlers_added hc hstage hnext
    (w.linker.deleteLegacySource key nid).2 key false
    (decide (w.linker.owned key = some nid ∧ nid = w.linker.id))
  have hdec : (w.linker.deleteLegacySource key nid).1 =
      decide (w.linker.owned key = some nid ∧ nid = w.linker.id) := by
    rw [deleteLegacySource_eq]
  unfold deleteLegacy
  rw [hdec]
  by_cases hheld : w.linker.owned key = some nid
  · have hown := ownedKeys_delete hheld
    by_cases hnid : nid = w.linker.id
    · have hkey : key ∈ w.linker.ownedKeys := mem_ownedKeys.mpr (hnid ▸ hheld)
      refine .loses key hkey hown (hwt.trans ?_) (hfin.trans ?_) rfl rfl
      · simp
      · simp [hheld, hnid]
    have hkey : key ∉ w.linker.ownedKeys := by
      rw [mem_ownedKeys, hheld]
      exact fun h => hnid (Option.some.inj h)
    rw [Finset.erase_eq_of_notMem hkey] at hown
    refine .quiet ⟨hown, hwt.trans ?_, hfin.trans ?_, rfl, rfl⟩
    · simp
    · simp [hnid]
  · have hsame : (w.linker.deleteLegacySource key nid).2 = w.linker := by
      rw [deleteLegacySource_eq, if_neg hheld]
    refine .quiet ⟨?_, hwt.trans ?_, hfin.trans ?_, rfl, rfl⟩
    · exact congrArg ownedKeys hsame
    · simp
    · simp [hheld]

end

theorem moves_doStoreSource (key : SourceHintKey) (nid : String) :
    Moves w (w.doStoreSource c key nid) := by
  unfold doStoreSource
  split
  · exact .quiet (.goto hc hstage ⟨rfl, rfl⟩ rfl rfl rfl rfl)
  · exact moves_storeLegacy hc hstage ⟨rfl, rfl⟩ key nid

theorem moves_doDeleteSource (key : SourceHintKey) (nid : String) :
    Moves w (w.doDeleteSource c key nid) := by
  unfold doDeleteSource
  split
  · exact .quiet (.goto hc hstage ⟨rfl, rfl⟩ rfl rfl rfl rfl)
  · exact moves_deleteLegacy hc hstage ⟨rfl, rfl⟩ key nid

theorem moves_applySourceEvent (e : LocateEvent) : Moves w (w.applySourceEvent c e) := by
  unfold applySourceEvent
  split
  · exact .quiet (.goto hc hstage ⟨rfl, rfl⟩ rfl rfl rfl rfl)
  split
  · exact .quiet (.goto hc hstage ⟨rfl, rfl⟩ rfl rfl rfl rfl)
  split
  · exact moves_doStoreSource hc hstage _ _
  · exact moves_doDeleteSource hc hstage _ _

end

theorem calls_hset : (w.hset key nid).calls = w.calls ∧ (w.hset key nid).linker = w.linker ∧
    (w.hset key nid).waits = w.waits ∧ (w.hset key nid).dones = w.dones := ⟨rfl, rfl, rfl, rfl⟩

theorem calls_hdel (w : SourceWorld) (key : SourceHintKey) (nid : String) :
    (w.hdel key nid).calls = w.calls ∧ (w.hdel key nid).linker = w.linker ∧
    (w.hdel key nid).waits = w.waits ∧ (w.hdel key nid).dones = w.dones := by
  unfold hdel
  split <;> exact ⟨rfl, rfl, rfl, rfl⟩

theorem Moves.command {u : SourceWorld} (hc : w.calls[c]? = some stage)
    (hstage : stage.waiting = 0 ∧ stage.finishing = 0)
    (hnext : next.waiting = 0 ∧ next.finishing = 0)
    (hu : u.calls = w.calls ∧ u.linker = w.linker ∧ u.waits = w.waits ∧ u.dones = w.dones) :
    Moves w (u.setCall c next) := by
  obtain ⟨hcs, hlin, hws, hdon⟩ := hu
  rw [← hcs] at hc
  exact .quiet (.goto hc hstage hnext (congrArg _ hlin) hcs hws hdon)

theorem moves_handlers {wait done : Bool}
    (hc : w.calls[c]? = some (.handlers key wait done next)) {net : Net}
    (hstep : w.stepCall c net (.handlers key wait done next) = some w') : Moves w w' := by
  cases wait with
  | true =>
    cases hstep
    have hwt := waiting_setCall hc (afterHandlers key (false, done) next)
    have hfin := finishing_setCall hc (afterHandlers key (false, done) next)
    rw [waiting_afterHandlers] at hwt
    rw [finishing_afterHandlers] at hfin
    refine .waits key rfl ?_ ?_ rfl rfl
    · have hcons : key ::ₘ (w.setCall c (afterHandlers key (false, done) next)).waiting +
          next.waiting = w.waiting + next.waiting := by
        rw [Multiset.cons_add, ← Multiset.add_cons]
        exact hwt
      exact (add_right_cancel hcons).symm
    · have hsame : SourceStage.finishing (.handlers key true done next) =
          next.finishing + if done then 1 else 0 := by
        cases done <;> rfl
      rw [hsame] at hfin
      exact Nat.add_right_cancel hfin
  | false =>
    have hwt := waiting_setCall hc next
    have hfin := finishing_setCall hc next
    cases done with
    | true =>
      cases hstep
      refine .finishes rfl (add_right_cancel hwt) ?_ rfl rfl
      have hfin' : (w.setCall c next).finishing + (next.finishing + 1) =
          w.finishing + next.finishing := hfin
      have hgoal : w.finishing = (w.setCall c next).finishing + 1 := by omega
      exact hgoal
    | false =>
      cases hstep
      exact .quiet ⟨rfl, add_right_cancel hwt, Nat.add_right_cancel hfin, rfl, rfl⟩

theorem lookup_unmoved (hc : w.calls[c]? = some stage) {net : Net} (hloo : stage.looksUp = true)
    (hstep : w.stepCall c net stage = some w') : Unmoved w w' := by
  cases stage with
  | load =>
    simp only [stepCall] at hstep
    split at hstep
    · cases hstep
      exact .goto hc ⟨rfl, rfl⟩ ⟨rfl, rfl⟩ rfl rfl rfl rfl
    cases hstep
    unfold loadSource
    split <;> split <;> exact .goto hc ⟨rfl, rfl⟩ ⟨rfl, rfl⟩ rfl rfl rfl rfl
  | ask =>
    cases hstep
    unfold joinFlight
    split <;> exact .goto hc ⟨rfl, rfl⟩ ⟨rfl, rfl⟩ rfl rfl rfl rfl
  | await =>
    simp only [stepCall] at hstep
    split at hstep
    · cases hstep
    · cases hstep
      exact .goto hc ⟨rfl, rfl⟩ ⟨rfl, rfl⟩ rfl rfl rfl rfl
    cases hstep
    split <;> exact .goto hc ⟨rfl, rfl⟩ ⟨rfl, rfl⟩ rfl rfl rfl rfl
  | _ => cases hloo

theorem moves_stepCall (hc : w.calls[c]? = some stage) {net : Net}
    (hstep : w.stepCall c net stage = some w') : Moves w w' := by
  cases stage with
  | load | ask | await => exact .quiet (lookup_unmoved hc rfl hstep)
  | keep key revision nid =>
    cases hstep
    unfold keepSource
    split
    · exact .quiet (.goto hc ⟨rfl, rfl⟩ ⟨rfl, rfl⟩ rfl rfl rfl rfl)
    · exact moves_doStoreSource hc ⟨rfl, rfl⟩ key nid
  | bind =>
    simp only [stepCall] at hstep
    split at hstep
    · cases hstep
      exact .quiet (.goto hc ⟨rfl, rfl⟩ ⟨rfl, rfl⟩ rfl rfl rfl rfl)
    cases hstep
    refine .command hc ⟨rfl, rfl⟩ ?_ ?_
    · split
      · exact ⟨rfl, rfl⟩
      · split <;> exact ⟨rfl, rfl⟩
    · split
      · exact calls_hset
      · exact ⟨rfl, rfl, rfl, rfl⟩
  | bindOwned key nid =>
    cases hstep
    exact moves_storeLegacy hc ⟨rfl, rfl⟩ ⟨rfl, rfl⟩ key nid
  | bindStore key nid =>
    cases hstep
    exact moves_doStoreSource hc ⟨rfl, rfl⟩ key nid
  | unbind key nid =>
    simp only [stepCall] at hstep
    split at hstep
    · cases hstep
      exact .quiet (.goto hc ⟨rfl, rfl⟩ ⟨rfl, rfl⟩ rfl rfl rfl rfl)
    cases hstep
    refine .command hc ⟨rfl, rfl⟩ ?_ ?_
    · split
      · exact ⟨rfl, rfl⟩
      · split <;> exact ⟨rfl, rfl⟩
    · split
      · exact calls_hdel w key nid
      · exact ⟨rfl, rfl, rfl, rfl⟩
  | unbindOwned key nid =>
    cases hstep
    exact moves_deleteLegacy hc ⟨rfl, rfl⟩ ⟨rfl, rfl⟩ key nid
  | delete key nid =>
    cases hstep
    exact moves_doDeleteSource hc ⟨rfl, rfl⟩ key nid
  | event e =>
    cases hstep
    exact moves_applySourceEvent hc ⟨rfl, rfl⟩ e
  | handlers => exact moves_handlers hc hstep
  | returned => cases hstep

theorem Unmoved.start (calls : List SourceStage) (hlin : w'.linker = w.linker)
    (hcs : w'.calls = w.calls ++ calls)
    (hnew : ∀ stage ∈ calls, stage.waiting = 0 ∧ stage.finishing = 0)
    (hws : w'.waits = w.waits) (hdon : w'.dones = w.dones) : Unmoved w w' := by
  have hwt : (calls.map SourceStage.waiting).sum = 0 := by
    apply sum_eq_zero
    intro m hm
    obtain ⟨stage, hstage, rfl⟩ := mem_map.mp hm
    exact (hnew stage hstage).1
  have hfin : (calls.map SourceStage.finishing).sum = 0 := by
    apply sum_eq_zero
    intro m hm
    obtain ⟨stage, hstage, rfl⟩ := mem_map.mp hm
    exact (hnew stage hstage).2
  refine ⟨congrArg _ hlin, ?_, ?_, hws, hdon⟩
  · rw [SourceWorld.waiting, hcs, map_append, sum_append, hwt, add_zero]
    rfl
  · rw [SourceWorld.finishing, hcs, map_append, sum_append, hfin]
    rfl

theorem entry_unmoved (h : stage.isEntry = true) : stage.waiting = 0 ∧ stage.finishing = 0 := by
  cases stage with
  | handlers => cases h
  | _ => exact ⟨rfl, rfl⟩

theorem next_moves {act : SourceAction} (hstep : w.next act = some w') : Moves w w' := by
  cases act with
  | start entry =>
    simp only [SourceWorld.next] at hstep
    split at hstep
    · rename_i hent
      cases hstep
      refine .quiet (.start [entry] rfl rfl ?_ rfl rfl)
      intro stage hstage
      rw [mem_singleton.mp hstage]
      exact entry_unmoved hent
    · cases hstep
  | next =>
    simp only [SourceWorld.next] at hstep
    split at hstep
    · cases hstep
    rename_i hc
    exact moves_stepCall hc hstep
  | read =>
    simp only [SourceWorld.next] at hstep
    split at hstep
    · cases hstep
      exact .quiet ⟨rfl, rfl, rfl, rfl, rfl⟩
    · cases hstep
  | land =>
    simp only [SourceWorld.next] at hstep
    split at hstep
    · split at hstep
      · cases hstep
        exact .quiet ⟨rfl, rfl, rfl, rfl, rfl⟩
      · cases hstep
    · cases hstep
  | remoteBind =>
    cases hstep
    exact .quiet ⟨rfl, rfl, rfl, rfl, rfl⟩
  | remoteUnbind key nid =>
    cases hstep
    obtain ⟨hcs, hlin, hws, hdon⟩ := calls_hdel w key nid
    exact .quiet (.start [] hlin (by rw [hcs, append_nil])
      (fun stage h => by cases h) hws hdon)
  | deliver =>
    simp only [SourceWorld.next] at hstep
    split at hstep
    · cases hstep
    rename_i e he
    cases hstep
    refine .quiet (.start [.event e] rfl rfl ?_ rfl rfl)
    intro stage hstage
    rw [mem_singleton.mp hstage]
    exact ⟨rfl, rfl⟩

def Ledger (w : SourceWorld) : Prop :=
  w.waits + Multiset.card w.waiting = w.dones + w.finishing + w.linker.ownedKeys.card

theorem Moves.ledger (h : Moves w w') (hled : Ledger w) : Ledger w' := by
  unfold Ledger at hled ⊢
  cases h with
  | quiet h => rw [h.own, h.waiting, h.finishing, h.waits, h.dones, hled]
  | takes key hnew hown hwt hfin hws hdon =>
    rw [hown, hwt, Finset.card_insert_of_notMem hnew,
      Multiset.card_cons]
    omega
  | loses key hold hown hwt hfin hws hdon =>
    have hcard := Finset.card_erase_add_one hold
    rw [hown, hwt]
    omega
  | waits key hown hwt hfin hws hdon =>
    rw [hwt, Multiset.card_cons] at hled
    rw [hown]
    omega
  | finishes hown hwt hfin hws hdon =>
    rw [hown, hwt]
    omega

structure Ordered (w : SourceWorld) : Prop where
  nodup : w.waiting.Nodup
  owned : ∀ k ∈ w.waiting, k ∈ w.linker.ownedKeys

def calm (w : SourceWorld) (act : SourceAction) : Bool :=
  match w.next act with
  | none => true
  | some w' => decide (∀ k ∈ w.waiting, k ∈ w.linker.ownedKeys → k ∈ w'.linker.ownedKeys)

theorem Moves.ordered (h : Moves w w') (hordd : Ordered w)
    (hcalm : ∀ k ∈ w.waiting, k ∈ w.linker.ownedKeys → k ∈ w'.linker.ownedKeys) : Ordered w' := by
  cases h with
  | quiet h =>
    refine ⟨h.waiting ▸ hordd.nodup, ?_⟩
    rw [h.own, h.waiting]
    exact hordd.owned
  | takes key hnew hown hwt =>
    constructor
    · rw [hwt, Multiset.nodup_cons]
      exact ⟨fun hkey => hnew (hordd.owned key hkey), hordd.nodup⟩
    · intro k hk
      rw [hwt, Multiset.mem_cons] at hk
      rw [hown, Finset.mem_insert]
      exact hk.imp_right (hordd.owned k)
  | loses key hold hown hwt =>
    refine ⟨hwt ▸ hordd.nodup, ?_⟩
    intro k hk
    rw [hwt] at hk
    exact hcalm k hk (hordd.owned k hk)
  | waits key hown hwt =>
    have hnd := hordd.nodup
    rw [hwt, Multiset.nodup_cons] at hnd
    refine ⟨hnd.2, ?_⟩
    intro k hk
    rw [hown]
    apply hordd.owned
    rw [hwt]
    exact Multiset.mem_cons_of_mem hk
  | finishes hown hwt =>
    refine ⟨hwt ▸ hordd.nodup, ?_⟩
    rw [hown, hwt]
    exact hordd.owned

theorem Ordered.dones_le (hordd : Ordered w) (hled : Ledger w) : w.dones ≤ w.waits := by
  have hsub : w.waiting.toFinset ⊆ w.linker.ownedKeys := by
    intro k hk
    exact hordd.owned k (Multiset.mem_toFinset.mp hk)
  have hcard := Finset.card_le_card hsub
  rw [Multiset.toFinset_card_of_nodup hordd.nodup] at hcard
  unfold Ledger at hled
  omega

def calmRel : SourceWorld → SourceAction → SourceWorld → Prop := guardedRel step calm

variable {id : String} {isGate hasLocator : Bool} {capacity : ℕ}
  {authority : SourceHintKey → String} {tr : List SourceAction}

theorem ledger_init : Ledger (init (new id isGate hasLocator capacity) authority) := by
  rfl

theorem run_ledger
    (hrun : Run sourceRel (init (new id isGate hasLocator capacity) authority) tr w) :
    Ledger w := by
  refine run_invariant (fun _ w => Ledger w) ledger_init ?_ hrun
  rintro tr w e w' hled ⟨act, -, hstep⟩
  exact (next_moves (next_of_step hstep)).ledger hled

theorem run_ordered
    (hrun : Run calmRel (init (new id isGate hasLocator capacity) authority) tr w) :
    Ledger w ∧ Ordered w := by
  refine run_invariant (fun _ w => Ledger w ∧ Ordered w) ⟨ledger_init, ?_⟩ ?_ hrun
  · exact ⟨Multiset.nodup_zero, fun k hk => absurd hk (Multiset.notMem_zero k)⟩
  · rintro tr w e w' ⟨hled, hordd⟩ ⟨act, hcalm, hstep⟩
    have hnext := next_of_step hstep
    have hmov := next_moves hnext
    simp only [calm, hnext, decide_eq_true_eq] at hcalm
    exact ⟨hmov.ledger hled, hmov.ordered hordd hcalm⟩

theorem Quiet.handlers (h : w.Quiet) : w.waiting = 0 ∧ w.finishing = 0 := by
  constructor
  all_goals
    apply sum_eq_zero
    intro m hm
    obtain ⟨stage, hstage, rfl⟩ := mem_map.mp hm
    rw [h stage hstage]
    rfl

theorem hintOnly_unmoved {net : Net} (hmode : w.linker.hints.isSome = true)
    (hc : w.calls[c]? = some stage) (hhint : stage.hintOnly = true)
    (hstep : w.stepCall c net stage = some w') : Unmoved w w' := by
  obtain ⟨hints, hhin⟩ := Option.isSome_iff_exists.mp hmode
  cases stage with
  | load | ask | await => exact lookup_unmoved hc rfl hstep
  | keep =>
    simp only [stepCall, keepSource, hhin] at hstep
    cases hstep
    exact .goto hc ⟨rfl, rfl⟩ ⟨rfl, rfl⟩ rfl rfl rfl rfl
  | delete =>
    simp only [stepCall, doDeleteSource, hhin] at hstep
    cases hstep
    exact .goto hc ⟨rfl, rfl⟩ ⟨rfl, rfl⟩ rfl rfl rfl rfl
  | event =>
    simp only [stepCall, applySourceEvent, hhin] at hstep
    split at hstep <;> cases hstep <;> exact .goto hc ⟨rfl, rfl⟩ ⟨rfl, rfl⟩ rfl rfl rfl rfl
  | _ => cases hhint

/-- When no call is in progress the calls of the handlers differ by the number of owned sources. At
every moment the dones do not exceed the waits that were made or are due, and in every run in which
no source is taken away from this node before its wait handler has run, those that were made. In
hint mode look-ups, evictions and events count nothing. -/
theorem owned_sources_accounted (id : String) (isGate hasLocator : Bool) (capacity : ℕ)
    (authority : SourceHintKey → String) (tr : List SourceAction) (w : SourceWorld)
    (hrun : Run sourceRel
      (init (NodeSources.new id isGate hasLocator capacity) authority) tr w) :
    (w.Quiet → w.waits = w.dones + w.linker.ownedKeys.card) ∧
    w.dones ≤ w.waits + Multiset.card w.waiting ∧
    (Run calmRel (init (NodeSources.new id isGate hasLocator capacity) authority) tr w →
      w.dones ≤ w.waits) ∧
    (∀ (c : ℕ) (net : Net) (stage : SourceStage) (w' : SourceWorld),
      w.linker.hints.isSome = true → w.calls[c]? = some stage → stage.hintOnly = true →
      w.stepCall c net stage = some w' → w'.waits = w.waits ∧ w'.dones = w.dones) := by
  have hled := run_ledger hrun
  refine ⟨?_, ?_, ?_, ?_⟩
  · intro hqt
    obtain ⟨hwt, hfin⟩ := hqt.handlers
    rw [Ledger, hwt, Multiset.card_zero] at hled
    omega
  · unfold Ledger at hled
    omega
  · intro hcalm
    exact (run_ordered hcalm).2.dones_le hled
  · intro c net stage w' hmode hc hhint hstep
    have hunm := hintOnly_unmoved hmode hc hhint hstep
    exact ⟨hunm.waits, hunm.dones⟩

/-- This node binds a user; before its wait handler runs, the event of another node's bind is
applied and the done handler runs. -/
def doneFirst : List SourceAction :=
  [.start (.bind ⟨7, "game"⟩ "game-1"), .next 0 .ok, .next 0 .ok,
    .remoteBind ⟨7, "game"⟩ "game-2", .deliver 1, .next 1 .ok, .next 1 .ok]

def doneFirstHints : List SourceAction :=
  [.start (.bind ⟨7, "game"⟩ "game-1"), .next 0 .ok, .next 0 .ok,
    .start (.unbind ⟨7, "game"⟩ "game-1"), .next 1 .ok, .next 1 .ok, .next 1 .ok]

theorem done_before_wait :
    (∃ tr w, Run sourceRel (init (NodeSources.new "game-1" false true 0) fun _ => "") tr w ∧
      w.waits = 0 ∧ w.dones = 1) ∧
    ∃ tr w, Run sourceRel (init (NodeSources.new "game-1" false true 4) fun _ => "") tr w ∧
      w.waits = 0 ∧ w.dones = 1 := by
  refine ⟨⟨_, _, run_of_exec doneFirst rfl, ?_, ?_⟩,
    ⟨_, _, run_of_exec doneFirstHints rfl, ?_, ?_⟩⟩ <;> decide +kernel

def boundOnce : List SourceAction :=
  [.start (.bind ⟨7, "game"⟩ "game-1"), .next 0 .ok, .next 0 .ok, .next 0 .ok]

theorem boundOnce_isSome : (exec step (fun _ _ => true)
    (init (new "game-1" false true 0) fun _ => "") boundOnce).isSome = true := rfl

theorem owned_sources_accounted_boundOnce : ∃ tr w,
    Run sourceRel (init (NodeSources.new "game-1" false true 0) fun _ => "") tr w ∧ w.Quiet ∧
      w.waits = 1 ∧ w.waits = w.dones + w.linker.ownedKeys.card := by
  have hrun : Run sourceRel (init (new "game-1" false true 0) fun _ => "") _ _ :=
    run_of_exec _ boundOnce_isSome
  have hqt : SourceWorld.Quiet ((exec step (fun _ _ => true)
      (init (new "game-1" false true 0) fun _ => "") boundOnce).get
        boundOnce_isSome).2 := by
    unfold Quiet
    decide +kernel
  refine ⟨_, _, hrun, hqt, ?_, (owned_sources_accounted _ _ _ _ _ _ _ hrun).1 hqt⟩
  decide +kernel

end SourceWorld

end DueServer.Link
