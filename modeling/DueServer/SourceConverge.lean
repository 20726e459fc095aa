import DueServer.SourceSteps

/-! The routing hints against the locator: when every call has returned and every event has been
applied, a hint that is there names the node the locator names. -/
namespace DueServer.Link

open Function (update_self update_of_ne update)
open Option NodeSources List Lib

namespace SourceStage

def loaded : SourceStage → Option UInt64
  | .ask _ r | .await _ r _ | .keep _ r _ => some r
  | _ => none

def eventSource : SourceStage → Option SourceHintKey
  | .event e => e.source
  | _ => none

def afterLock : SourceStage → Bool
  | .bindStore .. | .delete .. | .returned => true
  | _ => false

end SourceStage

namespace SourceWorld

def revision (w : SourceWorld) : Option UInt64 := w.linker.hints.map fun hints => hints.raw.revision

def Outstanding (w : SourceWorld) (key : SourceHintKey) : Prop :=
  (∃ e ∈ w.events, e.source = some key) ∨ ∃ stage ∈ w.calls, stage.eventSource = some key

instance (w : SourceWorld) (key : SourceHintKey) : Decidable (w.Outstanding key) :=
  inferInstanceAs (Decidable (_ ∨ _))

def Settled (w : SourceWorld) (key : SourceHintKey) (nid : String) : Prop :=
  w.authority key = nid ∨ w.Outstanding key

instance (w : SourceWorld) (key : SourceHintKey) (nid : String) : Decidable (w.Settled key nid) :=
  inferInstanceAs (Decidable (_ ∨ _))

/-- A look-up does not join a flight that redis has already answered, and a bind writes its hint
while the locator still holds the binding or an event for it is outstanding. -/
def prompt (w : SourceWorld) : SourceStage → Bool
  | .ask key _ =>
    match w.current key with
    | none => true
    | some f => (w.flights[f]?.bind Flight.reply).isNone
  | .bindStore key nid => decide (w.Settled key nid)
  | _ => true

def Unloaded (w : SourceWorld) (revision : Option UInt64) : Prop :=
  ∀ stage ∈ w.calls, stage.loaded.isSome = true → stage.loaded ≠ revision

instance (w : SourceWorld) (revision : Option UInt64) : Decidable (w.Unloaded revision) :=
  inferInstanceAs (Decidable (∀ stage ∈ w.calls, _))

def noTurn (w w' : SourceWorld) : Bool :=
  decide (w'.revision ≠ w.revision → w.Unloaded w'.revision)

def timely (w : SourceWorld) (act : SourceAction) : Bool :=
  (match act with
    | .next c _ => (w.calls[c]?.map w.prompt).getD true
    | _ => true) &&
  match w.next act with
    | none => true
    | some w' => w.noTurn w'

def StageOk (w : SourceWorld) : SourceStage → Prop
  | .await key r f => ∃ flight, w.flights[f]? = some flight ∧ flight.key = key ∧
      ∀ nid, flight.reply = some (some nid) → w.revision = some r → w.Settled key nid
  | .keep key r nid => w.revision = some r → w.Settled key nid
  | .handlers _ _ _ next => next.afterLock = true
  | _ => True

structure Fresh (w : SourceWorld) : Prop where
  mode : w.linker.hints.isSome = true
  hint : ∀ hints ∈ w.linker.hints, ∀ key nid, hints.get key = some nid → w.Settled key nid
  calls : ∀ stage ∈ w.calls, w.StageOk stage
  current : ∀ key f, w.current key = some f → ∃ flight, w.flights[f]? = some flight ∧
    flight.key = key

variable {w w' : SourceWorld} {c : ℕ} {stage next : SourceStage} {key k : SourceHintKey}
  {nid : String}

def FlightsKept (w w' : SourceWorld) : Prop :=
  ∀ (f : ℕ) (flight : Flight), w.flights[f]? = some flight → ∃ flight' : Flight,
    w'.flights[f]? = some flight' ∧
    flight'.key = flight.key ∧ (flight'.reply = flight.reply ∨
      ∀ nid, flight'.reply = some (some nid) → w'.authority flight.key = nid)

theorem FlightsKept.of_eq (h : w'.flights = w.flights) : FlightsKept w w' := by
  intro f flight hf
  exact ⟨flight, h ▸ hf, rfl, .inl rfl⟩

/-- What is known about a look-up stays true if nothing was unsettled, or if the revision it has
loaded is not the current one. -/
theorem StageOk.transfer (h : w.StageOk stage) (hfli : FlightsKept w w')
    (hkept : (w'.revision = w.revision ∧ ∀ key nid, w.Settled key nid → w'.Settled key nid) ∨
      (stage.loaded.isSome = true → stage.loaded ≠ w'.revision)) : w'.StageOk stage := by
  cases stage with
  | await key r f =>
    obtain ⟨flight, hf, hkey, hrp⟩ := h
    obtain ⟨flight', hf', hkey', hrp'⟩ := hfli f flight hf
    refine ⟨flight', hf', hkey'.trans hkey, ?_⟩
    intro nid hnid hr
    rcases hkept with ⟨hrev, hsett⟩ | hne
    · rcases hrp' with hsame | hread
      · rw [hsame] at hnid
        rw [hrev] at hr
        exact hsett key nid (hrp nid hnid hr)
      · rw [← hkey]
        exact .inl (hread nid hnid)
    · exact absurd hr.symm (hne rfl)
  | keep key r nid =>
    intro hr
    rcases hkept with ⟨hrev, hsett⟩ | hne
    · rw [hrev] at hr
      exact hsett key nid (h hr)
    · exact absurd hr.symm (hne rfl)
  | handlers => exact h
  | _ => trivial

theorem Fresh.move (h : Fresh w) (hmode : w'.linker.hints.isSome = true) (hflig : FlightsKept w w')
    (hkept : (w'.revision = w.revision ∧ ∀ key nid, w.Settled key nid → w'.Settled key nid) ∨
      w.Unloaded w'.revision)
    (hhint : ∀ hints ∈ w'.linker.hints, ∀ key nid, hints.get key = some nid → w'.Settled key nid)
    (hcs : ∀ stage ∈ w'.calls, stage ∈ w.calls ∨ w'.StageOk stage)
    (hcur : ∀ key f, w'.current key = some f → w.current key = some f ∨
      ∃ flight, w'.flights[f]? = some flight ∧ flight.key = key) : Fresh w' where
  mode := hmode
  hint := hhint
  calls := by
    intro stage hstg
    rcases hcs stage hstg with hold | hok
    · exact (h.calls stage hold).transfer hflig (hkept.imp_right fun hne => hne stage hold)
    · exact hok
  current := by
    intro key f hf
    rcases hcur key f hf with hold | hnew
    · obtain ⟨flight, hfli, hkey⟩ := h.current key f hold
      obtain ⟨flight', hfli', hkey', -⟩ := hflig f flight hfli
      exact ⟨flight', hfli', hkey'.trans hkey⟩
    · exact hnew

theorem Outstanding.setCall (h : w.Outstanding key) (hc : w.calls[c]? = some stage)
    (hstg : stage.eventSource ≠ some key) (next : SourceStage) :
    (w.setCall c next).Outstanding key := by
  rcases h with heve | ⟨other, hoth, hsrc⟩
  · exact .inl heve
  right
  refine ⟨other, ?_, hsrc⟩
  obtain ⟨i, hi⟩ := mem_iff_getElem?.mp hoth
  have hne : c ≠ i := by
    rintro rfl
    rw [hc] at hi
    cases hi
    exact hstg hsrc
  exact mem_of_getElem? ((getElem?_set_ne hne).trans hi)

theorem Fresh.goto (h : Fresh w) (hc : w.calls[c]? = some stage)
    (hstg : stage.eventSource = none) (l : NodeSources) (hmode : l.hints.isSome = true)
    (hrev : { w with linker := l }.revision = w.revision ∨
      w.Unloaded { w with linker := l }.revision)
    (hhint : ∀ hints ∈ l.hints, ∀ key nid, hints.get key = some nid → w.Settled key nid)
    (hnext : ({ w with linker := l }.setCall c next).StageOk next) :
    Fresh ({ w with linker := l }.setCall c next) := by
  have hsett : ∀ key nid, w.Settled key nid →
      ({ w with linker := l }.setCall c next).Settled key nid := by
    rintro key nid (haut | hout)
    · exact .inl haut
    · right
      refine Outstanding.setCall hout hc ?_ next
      rw [hstg]
      exact fun heq => by cases heq
  refine h.move hmode (.of_eq rfl) (hrev.imp_left fun hr => ⟨hr, hsett⟩) ?_ ?_
    (fun key f hf => .inl hf)
  · intro hints hh key nid hget
    exact hsett key nid (hhint hints hh key nid hget)
  · intro other hoth
    rcases mem_or_eq_of_mem_set hoth with hold | rfl
    · exact .inl hold
    · exact .inr hnext

theorem Fresh.goto_same (h : Fresh w) (hc : w.calls[c]? = some stage)
    (hstg : stage.eventSource = none) (hnext : (w.setCall c next).StageOk next) :
    Fresh (w.setCall c next) :=
  h.goto hc hstg w.linker h.mode (.inl rfl) h.hint hnext

section Calls

variable {hints : Hints} {r : UInt64} {net : Net}

theorem fresh_setHints (h : Fresh w) (hc : w.calls[c]? = some stage)
    (hstg : stage.eventSource = none) (hints : Hints)
    (hturn : { w with linker := w.linker.setHints hints }.revision ≠ w.revision →
      w.Unloaded { w with linker := w.linker.setHints hints }.revision)
    (hhint : ∀ key nid, hints.get key = some nid → w.Settled key nid)
    (hnext : ({ w with linker := w.linker.setHints hints }.setCall c next).StageOk next) :
    Fresh ({ w with linker := w.linker.setHints hints }.setCall c next) := by
  refine h.goto hc hstg _ rfl ?_ ?_ hnext
  · by_cases hsame : { w with linker := w.linker.setHints hints }.revision = w.revision
    · exact .inl hsame
    · exact .inr (hturn hsame)
  · intro hints' hh
    cases hh
    exact hhint

theorem fresh_loadSource (h : Fresh w) (hc : w.calls[c]? = some (.load key)) :
    Fresh (w.loadSource c key) := by
  obtain ⟨hints, hhin⟩ := isSome_iff_exists.mp h.mode
  have hrev : { w with linker := w.linker.setHints (hints.load key).2 }.revision =
      w.revision := by
    simp [revision, hhin, setHints, Hints.revision_load]
  simp only [loadSource, hhin]
  refine fresh_setHints h hc rfl _ (fun hne => absurd hrev hne) ?_ ?_
  · intro k nid hget
    rw [Hints.get_load] at hget
    exact h.hint hints hhin k nid hget
  · split <;> trivial

theorem fresh_keepSource (h : Fresh w) (hc : w.calls[c]? = some (.keep key r nid)) :
    Fresh (w.keepSource c key r nid) := by
  obtain ⟨hints, hhin⟩ := isSome_iff_exists.mp h.mode
  have hrev : { w with linker := w.linker.setHints (hints.fill key nid r) }.revision =
      w.revision := by
    simp [revision, hhin, setHints, Hints.revision_fill]
  simp only [keepSource, hhin]
  refine fresh_setHints h hc rfl _ (fun hne => absurd hrev hne) ?_ trivial
  intro k v hget
  rcases Hints.get_fill hget with ⟨rfl, rfl, hr⟩ | hold
  · have hok : w.revision = some r → w.Settled k v := h.calls _ (mem_of_getElem? hc)
    exact hok (by rw [revision, hhin, map_some, hr])
  · exact h.hint hints hhin k v hold

theorem fresh_bindStore (h : Fresh w) (hc : w.calls[c]? = some (.bindStore key nid))
    (hpro : w.Settled key nid)
    (hturn : (w.doStoreSource c key nid).revision ≠ w.revision →
      w.Unloaded (w.doStoreSource c key nid).revision) : Fresh (w.doStoreSource c key nid) := by
  obtain ⟨hints, hhin⟩ := isSome_iff_exists.mp h.mode
  simp only [doStoreSource, hhin] at hturn ⊢
  refine fresh_setHints h hc rfl _ hturn ?_ trivial
  intro k v hget
  rcases Hints.get_store hget with ⟨rfl, rfl⟩ | hold
  · exact hpro
  · exact h.hint hints hhin k v hold

theorem fresh_delete (h : Fresh w) (hc : w.calls[c]? = some (.delete key nid))
    (hturn : (w.doDeleteSource c key nid).revision ≠ w.revision →
      w.Unloaded (w.doDeleteSource c key nid).revision) : Fresh (w.doDeleteSource c key nid) := by
  obtain ⟨hints, hhin⟩ := isSome_iff_exists.mp h.mode
  simp only [doDeleteSource, hhin] at hturn ⊢
  refine fresh_setHints h hc rfl _ hturn ?_ trivial
  intro k v hget
  by_cases hk : k = key
  · rw [hk, Hints.get_invalidate_self] at hget
    cases hget
  rw [Hints.get_invalidate_of_ne hk] at hget
  exact h.hint hints hhin k v hget

theorem fresh_event {e : LocateEvent} (h : Fresh w) (hc : w.calls[c]? = some (.event e))
    (hturn : (w.applySourceEvent c e).revision ≠ w.revision →
      w.Unloaded (w.applySourceEvent c e).revision) : Fresh (w.applySourceEvent c e) := by
  obtain ⟨hints, hhin⟩ := isSome_iff_exists.mp h.mode
  cases hsrc : e.source with
  | none =>
    simp only [applySourceEvent, hsrc]
    exact h.goto_same hc hsrc trivial
  | some key =>
    simp only [applySourceEvent, hsrc, hhin] at hturn ⊢
    have hbump : ({ w with linker := w.linker.setHints (hints.invalidate key) }.setCall c
        .returned).revision ≠ w.revision := by
      simp only [revision, setCall, setHints, hhin, map_some, ne_eq,
        some.injEq]
      exact Hints.revision_invalidate
    refine h.move rfl (.of_eq rfl) (.inr (hturn hbump)) ?_ ?_ (fun key f hf => .inl hf)
    · intro hints' hh k v hget
      cases hh
      by_cases hk : k = key
      · rw [hk, Hints.get_invalidate_self] at hget
        cases hget
      rw [Hints.get_invalidate_of_ne hk] at hget
      rcases h.hint hints hhin k v hget with haut | hout
      · exact .inl haut
      right
      refine Outstanding.setCall hout hc
        ?_ _
      intro heq
      rw [SourceStage.eventSource, hsrc] at heq
      exact hk (some.inj heq).symm
    · intro other hoth
      rcases mem_or_eq_of_mem_set hoth with hold | rfl
      · exact .inl hold
      · exact .inr trivial

theorem settled_publish (h : w.Settled k nid) {key : SourceHintKey} {e : LocateEvent}
    (he : e.source = some key) (node : String) :
    Settled { w with authority := update w.authority key node, events := w.events ++ [e] }
      k nid := by
  by_cases hk : k = key
  · rw [hk]
    exact .inr (.inl ⟨e, mem_append_right _ (mem_singleton_self _), he⟩)
  rcases h with haut | ⟨e, he, hsrc⟩ | hcall
  · exact .inl ((update_of_ne hk ..).trans haut)
  · exact .inr (.inl ⟨e, mem_append_left _ he, hsrc⟩)
  · exact .inr (.inr hcall)

theorem settled_hset (h : w.Settled k nid) (key : SourceHintKey) (node : String) :
    (w.hset key node).Settled k nid :=
  settled_publish h rfl node

theorem settled_hdel (h : w.Settled k nid) (key : SourceHintKey) (node : String) :
    (w.hdel key node).Settled k nid := by
  unfold hdel
  split
  · exact h
  · exact settled_publish h rfl ""

theorem Fresh.relocate (h : Fresh w) (hlin : w'.linker = w.linker)
    (hfli : w'.flights = w.flights) (hcur : w'.current = w.current)
    (hcs : w'.calls = w.calls)
    (hsett : ∀ key nid, w.Settled key nid → w'.Settled key nid) : Fresh w' := by
  refine h.move (hlin ▸ h.mode) (.of_eq hfli) (.inl ⟨?_, hsett⟩) ?_ ?_ ?_
  · rw [revision, revision, hlin]
  · intro hints hh key nid hget
    rw [hlin] at hh
    exact hsett key nid (h.hint hints hh key nid hget)
  · intro stage hstg
    rw [hcs] at hstg
    exact .inl hstg
  · intro key f hf
    rw [hcur] at hf
    exact .inl hf

theorem fresh_hset (h : Fresh w) (key : SourceHintKey) (nid : String) : Fresh (w.hset key nid) :=
  h.relocate rfl rfl rfl rfl fun _ _ hs => settled_hset hs key nid

theorem fresh_hdel (h : Fresh w) (key : SourceHintKey) (nid : String) :
    Fresh (w.hdel key nid) ∧ (w.hdel key nid).calls = w.calls := by
  have hsett : ∀ k v, w.Settled k v → (w.hdel key nid).Settled k v :=
    fun _ _ hs => settled_hdel hs key nid
  unfold hdel at hsett ⊢
  split at hsett
  · rename_i hkeep
    rw [if_pos hkeep]
    exact ⟨h, rfl⟩
  rename_i hdel
  rw [if_neg hdel]
  exact ⟨h.relocate rfl rfl rfl rfl hsett, rfl⟩

theorem fresh_ask (h : Fresh w) (hc : w.calls[c]? = some (.ask key r))
    (hpro : w.prompt (.ask key r) = true) : Fresh (w.joinFlight c key r) := by
  unfold joinFlight
  cases hcur : w.current key with
  | some f =>
    obtain ⟨flight, hfli, hkey⟩ := h.current key f hcur
    have huna : flight.reply = none := by
      simpa only [prompt, hcur, hfli, bind_some, isNone_iff_eq_none]
        using hpro
    refine h.goto_same hc rfl ⟨flight, hfli, hkey, ?_⟩
    intro nid hnid
    rw [huna] at hnid
    cases hnid
  | none =>
    have hnew : (w.flights ++ [Flight.mk key none])[w.flights.length]? = some ⟨key, none⟩ :=
      getElem?_concat_length
    have hsett : ∀ k v, w.Settled k v → ({ w with
        flights := w.flights ++ [Flight.mk key none]
        current := update w.current key (some w.flights.length) }.setCall c
          (.await key r w.flights.length)).Settled k v := by
      rintro k v (haut | hout)
      · exact .inl haut
      · right
        exact Outstanding.setCall hout hc
          (fun heq => by cases heq) _
    refine h.move h.mode ?_ (.inl ⟨rfl, hsett⟩) ?_ ?_ ?_
    · intro f flight hf
      have hlt : f < w.flights.length := (List.getElem?_eq_some_iff.mp hf).1
      exact ⟨flight, (getElem?_append_left hlt).trans hf, rfl, .inl rfl⟩
    · intro hints hh k v hget
      exact hsett k v (h.hint hints hh k v hget)
    · intro other hoth
      rcases mem_or_eq_of_mem_set hoth with hold | rfl
      · exact .inl hold
      · exact .inr ⟨_, hnew, rfl, fun nid hnid => by cases hnid⟩
    · intro k f hf
      have hf' : update w.current key (some w.flights.length) k = some f := hf
      by_cases hk : k = key
      · subst hk
        rw [update_self] at hf'
        cases hf'
        exact .inr ⟨_, hnew, rfl⟩
      rw [update_of_ne hk] at hf'
      exact .inl hf'

theorem fresh_await {f : ℕ} (h : Fresh w) (hc : w.calls[c]? = some (.await key r f))
    (hlan : w.landed f = some (some nid)) : Fresh (w.setCall c (.keep key r nid)) := by
  obtain ⟨flight, hfli, hkey, hrp⟩ :
      w.StageOk (.await key r f) := h.calls _ (mem_of_getElem? hc)
  have hnid : flight.reply = some (some nid) := by
    simp only [landed, hfli] at hlan
    split at hlan
    · cases hlan
    · exact hlan
  refine h.goto_same hc rfl ?_
  intro hr
  rcases hrp nid hnid hr with haut | hout
  · exact .inl haut
  · exact .inr (hout.setCall hc (fun heq => by cases heq) _)

theorem stageOk_afterLock {u : SourceWorld} (h : next.afterLock = true) : u.StageOk next := by
  cases next with
  | bindStore | delete | returned => trivial
  | _ => cases h

theorem stageOk_afterHandlers {u : SourceWorld} (decision : Bool × Bool)
    (h : next.afterLock = true) : u.StageOk (afterHandlers key decision next) := by
  unfold afterHandlers
  split
  · exact stageOk_afterLock h
  · exact h

theorem fresh_legacy {l : NodeSources} (h : Fresh w) (hc : w.calls[c]? = some stage)
    (hstg : stage.eventSource = none) (hhin : l.hints = w.linker.hints)
    (hnext : next.afterLock = true) (decision : Bool × Bool) :
    Fresh ({ w with linker := l }.setCall c (afterHandlers key decision next)) := by
  refine h.goto hc hstg l (hhin ▸ h.mode) (.inl ?_) ?_ (stageOk_afterHandlers decision hnext)
  · simp only [revision, hhin]
  · rw [hhin]
    exact h.hint

theorem fresh_handlers {net : Net} {wait done : Bool} (h : Fresh w)
    (hc : w.calls[c]? = some (.handlers key wait done next))
    (hstep : w.stepCall c net (.handlers key wait done next) = some w') : Fresh w' := by
  have hnext : next.afterLock = true := h.calls _ (mem_of_getElem? hc)
  have hmove (stage : SourceStage) (hok : ∀ u : SourceWorld, u.StageOk stage) (n m : ℕ) :
      Fresh ({ w with waits := n, dones := m }.setCall c stage) := by
    have hcou : Fresh { w with waits := n, dones := m } :=
      h.relocate rfl rfl rfl rfl fun _ _ hs => hs
    exact hcou.goto_same hc rfl (hok _)
  cases wait with
  | true =>
    cases hstep
    exact hmove _ (fun u => stageOk_afterHandlers _ hnext) _ _
  | false =>
    cases done <;> cases hstep <;> exact hmove _ (fun u => stageOk_afterLock hnext) _ _

end Calls

theorem fresh_stepCall {net : Net} (h : Fresh w) (hc : w.calls[c]? = some stage)
    (hpro : w.prompt stage = true)
    (hturn : w'.revision ≠ w.revision → w.Unloaded w'.revision)
    (hstep : w.stepCall c net stage = some w') : Fresh w' := by
  cases stage with
  | load =>
    simp only [stepCall] at hstep
    split at hstep <;> cases hstep
    · exact h.goto_same hc rfl trivial
    · exact fresh_loadSource h hc
  | ask =>
    cases hstep
    exact fresh_ask h hc hpro
  | await =>
    simp only [stepCall] at hstep
    split at hstep
    · cases hstep
    · cases hstep
      exact h.goto_same hc rfl trivial
    rename_i nid hlan
    cases hstep
    split
    · exact h.goto_same hc rfl trivial
    · exact fresh_await h hc hlan
  | keep =>
    cases hstep
    exact fresh_keepSource h hc
  | bind key nid =>
    simp only [stepCall] at hstep
    split at hstep
    · cases hstep
      exact h.goto_same hc rfl trivial
    cases hstep
    split
    · refine (fresh_hset h key nid).goto_same hc rfl ?_
      split
      · trivial
      · split <;> trivial
    refine h.goto_same hc rfl ?_
    split
    · trivial
    · split <;> trivial
  | bindOwned =>
    cases hstep
    exact fresh_legacy h hc rfl hints_storeLegacySource rfl _
  | bindStore =>
    cases hstep
    exact fresh_bindStore h hc (of_decide_eq_true hpro) hturn
  | unbind key nid =>
    simp only [stepCall] at hstep
    split at hstep
    · cases hstep
      exact h.goto_same hc rfl trivial
    cases hstep
    split
    · obtain ⟨hfr, hcs⟩ := fresh_hdel h key nid
      rw [← hcs] at hc
      refine hfr.goto_same hc rfl ?_
      split
      · trivial
      · split <;> trivial
    · refine h.goto_same hc rfl ?_
      split
      · trivial
      · split <;> trivial
  | unbindOwned =>
    cases hstep
    exact fresh_legacy h hc rfl hints_deleteLegacySource rfl _
  | delete =>
    cases hstep
    exact fresh_delete h hc hturn
  | event =>
    cases hstep
    exact fresh_event h hc hturn
  | handlers => exact fresh_handlers h hc hstep
  | returned => cases hstep

theorem Fresh.start (h : Fresh w) {events : List LocateEvent} (calls : List SourceStage)
    (hnew : ∀ stage ∈ calls, ∀ u : SourceWorld, u.StageOk stage)
    (heve : ∀ e ∈ w.events, e ∈ events ∨ .event e ∈ calls) :
    Fresh { w with events := events, calls := w.calls ++ calls } := by
  have hsett : ∀ key nid, w.Settled key nid →
      { w with events := events, calls := w.calls ++ calls }.Settled key nid := by
    rintro key nid (haut | ⟨e, he, hsrc⟩ | ⟨stage, hstg, hsrc⟩)
    · exact .inl haut
    · rcases heve e he with hkept | htak
      · exact .inr (.inl ⟨e, hkept, hsrc⟩)
      · exact .inr (.inr ⟨_, mem_append_right _ htak, hsrc⟩)
    · exact .inr (.inr ⟨stage, mem_append_left _ hstg, hsrc⟩)
  refine h.move h.mode (.of_eq rfl) (.inl ⟨rfl, hsett⟩) ?_ ?_ (fun key f hf => .inl hf)
  · intro hints hh key nid hget
    exact hsett key nid (h.hint hints hh key nid hget)
  · intro stage hstg
    rcases mem_append.mp hstg with hold | hnewS
    · exact .inl hold
    · exact .inr (hnew stage hnewS _)

theorem fresh_read {f : ℕ} {key : SourceHintKey} (h : Fresh w)
    (hf : w.flights[f]? = some ⟨key, none⟩) (ok : Bool) :
    Fresh { w with
      flights := w.flights.set f ⟨key, some (if ok then some (w.authority key) else none)⟩ } := by
  have hlt : f < w.flights.length := (List.getElem?_eq_some_iff.mp hf).1
  refine h.move h.mode ?_ (.inl ⟨rfl, fun _ _ hs => hs⟩) h.hint (fun stage hs => .inl hs)
    (fun key f hf => .inl hf)
  intro g flight hg
  by_cases hsame : f = g
  · subst hsame
    rw [hf] at hg
    cases hg
    refine ⟨_, getElem?_set_self hlt, rfl, .inr ?_⟩
    intro nid hnid
    cases ok with
    | false => cases hnid
    | true =>
      cases hnid
      rfl
  · exact ⟨flight, (getElem?_set_ne hsame).trans hg, rfl, .inl rfl⟩

theorem fresh_land (h : Fresh w) (key : SourceHintKey) :
    Fresh { w with current := update w.current key none } := by
  refine h.move h.mode (.of_eq rfl) (.inl ⟨rfl, fun _ _ hs => hs⟩) h.hint
    (fun stage hs => .inl hs) ?_
  intro k f hf
  have hf' : update w.current key none k = some f := hf
  by_cases hk : k = key
  · subst hk
    rw [update_self] at hf'
    cases hf'
  rw [update_of_ne hk] at hf'
  exact .inl hf'

theorem stageOk_entry {u : SourceWorld} (h : stage.isEntry = true) : u.StageOk stage := by
  cases stage with
  | load | bind | unbind | delete | event => trivial
  | _ => cases h

theorem fresh_next {act : SourceAction} (h : Fresh w) (htim : w.timely act = true)
    (hstep : w.next act = some w') : Fresh w' := by
  simp only [timely, hstep, Bool.and_eq_true] at htim
  obtain ⟨hpro, hturn⟩ := htim
  have hturn' : w'.revision ≠ w.revision → w.Unloaded w'.revision := of_decide_eq_true hturn
  cases act with
  | start entry =>
    simp only [SourceWorld.next] at hstep
    split at hstep
    · rename_i hent
      cases hstep
      refine h.start [entry] ?_ fun e he => .inl he
      intro stage hstg u
      rw [mem_singleton.mp hstg]
      exact stageOk_entry hent
    · cases hstep
  | next =>
    simp only [SourceWorld.next] at hstep
    split at hstep
    · cases hstep
    rename_i stage hc
    simp only [hc] at hpro
    exact fresh_stepCall h hc hpro hturn' hstep
  | read f ok =>
    simp only [SourceWorld.next] at hstep
    split at hstep
    · rename_i key hf
      cases hstep
      exact fresh_read h hf ok
    · cases hstep
  | land =>
    simp only [SourceWorld.next] at hstep
    split at hstep
    · split at hstep
      · cases hstep
        exact fresh_land h _
      · cases hstep
    · cases hstep
  | remoteBind key nid =>
    cases hstep
    exact fresh_hset h key nid
  | remoteUnbind key nid =>
    cases hstep
    exact (fresh_hdel h key nid).1
  | deliver i =>
    simp only [SourceWorld.next] at hstep
    split at hstep
    · cases hstep
    rename_i e he
    cases hstep
    refine h.start [.event e] ?_ ?_
    · intro stage hstg u
      rw [mem_singleton.mp hstg]
      trivial
    · intro other hoth
      obtain ⟨j, hj⟩ := mem_iff_getElem?.mp hoth
      by_cases hsame : j = i
      · subst hsame
        rw [he] at hj
        cases hj
        exact .inr (mem_singleton_self _)
      · exact .inl (mem_eraseIdx_iff_getElem?.mpr ⟨j, hsame, hj⟩)

def timelyRel : SourceWorld → SourceAction → SourceWorld → Prop := guardedRel step timely

section Runs

variable {id : String} {isGate hasLocator : Bool} {capacity : ℕ}
  {authority : SourceHintKey → String} {tr : List SourceAction}

theorem fresh_init (hpos : 0 < capacity) :
    Fresh (init (new id isGate hasLocator capacity) authority) where
  mode := by
    rw [new, dif_pos hpos]
    rfl
  hint := by
    intro hints hh key nid hget
    rw [new, dif_pos hpos] at hh
    cases hh
    cases hget
  calls := fun stage hstg => absurd hstg not_mem_nil
  current := fun key f hf => by cases hf

theorem run_fresh (hpos : 0 < capacity)
    (hrun : Run timelyRel (init (new id isGate hasLocator capacity) authority) tr w) :
    Fresh w := by
  refine run_invariant (fun _ w => Fresh w) (fresh_init hpos) ?_ hrun
  rintro tr w e w' hfr ⟨act, htim, hstep⟩
  exact fresh_next hfr htim (next_of_step hstep)

theorem Quiet.settled (h : w.Quiet) (heve : w.events = []) (hs : w.Settled key nid) :
    w.authority key = nid := by
  rcases hs with haut | ⟨e, he, -⟩ | ⟨stage, hstg, hsrc⟩
  · exact haut
  · rw [heve] at he
    cases he
  rw [h stage hstg] at hsrc
  cases hsrc

end Runs

/-- In the interleavings in which every step is timely, the hints that are left once all calls have
returned and all events have been applied are those of the locator. -/
theorem hints_converge_of_timely (id : String) (isGate hasLocator : Bool) (capacity : ℕ)
    (authority : SourceHintKey → String) (tr : List SourceAction) (w : SourceWorld)
    (hpos : 0 < capacity)
    (hrun : Run timelyRel (init (NodeSources.new id isGate hasLocator capacity) authority) tr w)
    (hquiet : w.Quiet) (hevents : w.events = []) :
    ∃ hints, w.linker.hints = some hints ∧
      ∀ key nid, hints.get key = some nid → w.authority key = nid := by
  have hfr := run_fresh hpos hrun
  obtain ⟨hints, hhin⟩ := isSome_iff_exists.mp hfr.mode
  refine ⟨hints, hhin, ?_⟩
  intro key nid hget
  exact hquiet.settled hevents (hfr.hint hints hhin key nid hget)

def lateStore : List SourceAction :=
  [.start (.bind ⟨7, "game"⟩ "game-1"), .next 0 .ok, .remoteBind ⟨7, "game"⟩ "game-2",
    .deliver 0, .deliver 0, .next 1 .ok, .next 2 .ok, .next 0 .ok]

/-- Redis has answered a look-up when another node binds the user. After the event is applied a
second look-up joins the flight and is handed the old answer under the new revision. -/
def staleFlight : List SourceAction :=
  [.start (.load ⟨7, "game"⟩), .next 0 .ok, .next 0 .ok, .read 0 true,
    .remoteBind ⟨7, "game"⟩ "game-2", .deliver 0, .next 1 .ok,
    .start (.load ⟨7, "game"⟩), .next 2 .ok, .next 2 .ok, .land 0,
    .next 0 .ok, .next 0 .ok, .next 2 .ok, .next 2 .ok]

/-- Each of the two runs ends with nothing in progress, and with a hint for the old node. -/
theorem stale_hint_remains : ∃ tr tr' w w',
      Run sourceRel (init (NodeSources.new "gate-1" true true 4) fun _ => "game-1") tr w ∧
      Run sourceRel (init (NodeSources.new "gate-1" true true 4) fun _ => "game-1") tr' w' ∧
      ∀ u ∈ [w, w'], u.Quiet ∧ u.events = [] ∧ u.authority ⟨7, "game"⟩ = "game-2" ∧
        u.linker.cached ⟨7, "game"⟩ = some "game-1" := by
  refine ⟨_, _, _, _, run_of_exec lateStore rfl, run_of_exec staleFlight rfl, ?_⟩
  unfold Quiet
  decide +kernel

def timelyLookup : List SourceAction :=
  [.remoteBind ⟨7, "game"⟩ "game-2", .deliver 0, .next 0 .ok,
    .start (.load ⟨7, "game"⟩), .next 1 .ok, .next 1 .ok, .read 0 true, .land 0,
    .next 1 .ok, .next 1 .ok]

theorem timelyLookup_isSome : (exec step timely
    (init (new "gate-1" true true 4) fun _ => "game-1") timelyLookup).isSome = true := rfl

theorem hints_converge_timelyLookup : ∃ tr w,
    Run timelyRel (init (NodeSources.new "gate-1" true true 4) fun _ => "game-1") tr w ∧
      w.Quiet ∧ w.events = [] ∧ w.linker.cached ⟨7, "game"⟩ = some "game-2" ∧
      ∃ hints, w.linker.hints = some hints ∧
        ∀ key nid, hints.get key = some nid → w.authority key = nid := by
  have hrun : Run timelyRel
      (init (new "gate-1" true true 4) fun _ => "game-1") _ _ :=
    run_of_exec _ timelyLookup_isSome
  have hqt : SourceWorld.Quiet ((exec step timely
      (init (new "gate-1" true true 4) fun _ => "game-1") timelyLookup).get
        timelyLookup_isSome).2 := by
    unfold Quiet
    decide +kernel
  have heve : SourceWorld.events ((exec step timely
      (init (new "gate-1" true true 4) fun _ => "game-1") timelyLookup).get
        timelyLookup_isSome).2 = [] := by
    decide +kernel
  refine ⟨_, _, hrun, hqt, heve, ?_,
    hints_converge_of_timely _ _ _ _ _ _ _ (by decide) hrun hqt heve⟩
  decide +kernel

end SourceWorld

end DueServer.Link
