import DueServer.ActorTerminate

/-! The order of `Init`, `Start` and `Destroy`. The actor is in the registry before `spawn` has
called `Start`, and nothing keeps a killer from it in between; if killers find only actors that have
been started, the order is kept. -/
namespace DueServer.Scheduler

open Lib List Call

def State.started (s : State) (a : ℕ) : Bool := decide (.start ∈ (s.actors a).life)

def spares (s : State) : Call → Bool
  | .removing kind id => (s.load kind id).all s.started
  | .removingActor a => s.registry (s.pid a) ≠ some a || s.started a
  | .committing a g _ => !s.mayCommit a g || s.started a
  | _ => true

def State.patient (s : State) (act : Act) : Bool := (s.source act).all (spares s)

def spawns (a : ℕ) : Call → Bool
  | .locking b | .initing b | .storing b | .unlocking b | .starting b => b = a
  | _ => false

def Life.isCall : Life → Bool
  | .init | .start | .destroy => true
  | _ => false

/-- `Init`, `Start` and `Destroy` were called in this order, each once at most, and never on a `nil`
processor. -/
structure InOrder (life : List Life) : Prop where
  order : life.filter Life.isCall <+: [.init, .start, .destroy]
  nil : .nilProcessor ∉ life

structure Ordered (s : State) (a : ℕ) : Prop where
  once : s.calls.countP (spawns a) + (s.actors a).life.count .start ≤ 1
  unborn : s.made ≤ a → s.calls.countP (spawns a) = 0
  inited : .starting a ∈ s.calls → .init ∈ (s.actors a).life
  started : .unregistered (some a) ∈ (s.actors a).life ∨ (s.actors a).destroyed = true →
    .start ∈ (s.actors a).life
  inOrder : InOrder (s.actors a).life

namespace Does

variable {s : State} {source : List Call} {e : Effect}

section

variable (h : Does s source e)

include h

theorem spawns_of_ne {b : ℕ} (hb : b ≠ e.actor) :
    source.countP (spawns b) = 0 ∧ e.calls.countP (spawns b) = 0 := by
  have hne : e.actor ≠ b := hb.symm
  cases h
  all_goals simp_all [spawns, State.remove, State.schedule]

theorem started_of_spares (hgd : source.all (spares s) = true)
    (hrem : e.calls = [.unrelating e.actor false] ∨ e.calls = [.deleting e.actor]) :
    .start ∈ (s.actors e.actor).life := by
  cases h
  case remove kind id a _ hload => simpa [spares, hload, State.started, State.remove] using hgd
  case removeActor a _ hreg =>
    simpa [spares, hreg, State.started, State.remove] using hgd
  case commit a g t _ hreg hgen hdes =>
    simpa [spares, State.mayCommit, hreg, hgen, hdes, State.started]
      using hgd
  all_goals simp [State.schedule, State.remove] at hrem

theorem spawns_le :
    e.calls.countP (spawns e.actor) ≤ source.countP (spawns e.actor) + e.births := by
  cases h
  all_goals simp [spawns, State.remove, State.schedule]

theorem spawns_start (hborn : e.births = 0) :
    e.calls.countP (spawns e.actor) + (e.write (s.actors e.actor)).life.count .start ≤
      source.countP (spawns e.actor) + (s.actors e.actor).life.count .start := by
  cases h
  case spawn => cases hborn
  case init a | start a | destroy a =>
    cases hpro : (s.actors a).processor <;>
      simp [spawns, Actor.call, hpro, Nat.add_comm]
  case lock a _ _ | finish a =>
    cases hwait : (s.actors a).opts.wait <;> simp [spawns, hwait]
  all_goals simp [spawns, State.remove, State.schedule, Actor.cancelIdle]

/-- An actor that leaves the registry, or whose state is swapped, was registered or was already on
its way. -/
theorem leaves (hleft : .unregistered (some e.actor) ∈ (e.write (s.actors e.actor)).life ∨
      (e.write (s.actors e.actor)).destroyed = true) :
    (.unregistered (some e.actor) ∈ (s.actors e.actor).life ∨
      (s.actors e.actor).destroyed = true) ∨
    (e.calls = [.unrelating e.actor false] ∨ e.calls = [.deleting e.actor]) ∨
    source = [.swapping e.actor] ∨ source = [.deleting e.actor] := by
  cases h
  case remove | removeActor | commit => exact .inr (.inl (by simp [State.remove]))
  case swap | delete => exact .inr (.inr (by simp [State.remove]))
  case spawn => simp [Actor.new] at hleft
  case init a | start a | destroy a =>
    cases hpro : (s.actors a).processor <;> simp_all [Actor.call]
  case lock a _ _ | finish a =>
    cases hwait : (s.actors a).opts.wait <;> simp_all
  all_goals simp_all [State.schedule, Actor.cancelIdle]

end

end Does

namespace InOrder

variable {life : List Life}

theorem cases (h : InOrder life) :
    life.filter Life.isCall = [] ∨ life.filter Life.isCall = [.init] ∨
      life.filter Life.isCall = [.init, .start] ∨
      life.filter Life.isCall = [.init, .start, .destroy] := by
  obtain ⟨rest, hrest⟩ := h.order
  rcases hfil : life.filter Life.isCall with _ | ⟨x, _ | ⟨y, _ | ⟨z, l⟩⟩⟩ <;>
    simp_all

theorem mem_iff {l : Life} (hl : l.isCall = true) : l ∈ life ↔ l ∈ life.filter Life.isCall := by
  rw [mem_filter]
  exact (and_iff_left hl).symm

theorem other (h : InOrder life) {l : Life} (hl : l.isCall = false) (hnil : l ≠ .nilProcessor) :
    InOrder (life ++ [l]) where
  order := by
    rw [filter_append, filter_singleton, hl]
    simpa using h.order
  nil := by
    rw [mem_append, mem_singleton]
    exact not_or.mpr ⟨h.nil, hnil.symm⟩

theorem snoc (h : InOrder life) {l : Life} (hl : l.isCall = true)
    (hcs : life.filter Life.isCall ++ [l] <+: [.init, .start, .destroy]) :
    InOrder (life ++ [l]) where
  order := by simpa [hl] using hcs
  nil := by
    have hne : l ≠ .nilProcessor := by
      rintro rfl
      cases hl
    simpa [hne.symm] using h.nil

theorem init (h : InOrder life) (hinit : .init ∉ life) : InOrder (life ++ [.init]) := by
  rw [mem_iff rfl] at hinit
  apply h.snoc rfl
  rcases h.cases with heq | heq | heq | heq <;> rw [heq] at hinit ⊢ <;> simp at hinit ⊢

theorem start (h : InOrder life) (hinit : .init ∈ life) (hstr : .start ∉ life) :
    InOrder (life ++ [.start]) := by
  rw [mem_iff rfl] at hinit hstr
  apply h.snoc rfl
  rcases h.cases with heq | heq | heq | heq <;> rw [heq] at hinit hstr ⊢ <;>
    simp at hinit hstr ⊢

theorem destroy (h : InOrder life) (hstr : .start ∈ life) (hdes : .destroy ∉ life) :
    InOrder (life ++ [.destroy]) := by
  rw [mem_iff rfl] at hstr hdes
  apply h.snoc rfl
  rcases h.cases with heq | heq | heq | heq <;> rw [heq] at hstr hdes ⊢ <;>
    simp at hstr hdes ⊢

end InOrder

namespace Ordered

variable {s s' : State} {source others : List Call} {e : Effect} {a : ℕ}

theorem start_not_mem (ho : Ordered s a) (hstg : .starting a ∈ s.calls) :
    .start ∉ (s.actors a).life := by
  have hpos : 0 < s.calls.countP (spawns a) :=
    countP_pos_iff.mpr ⟨_, hstg, by simp [spawns]⟩
  have honce := ho.once
  exact count_eq_zero.mp (by omega)

theorem once_turn (h : s.Turn source e others s') (ho : Ordered s e.actor) :
    s'.calls.countP (spawns e.actor) + (s'.actors e.actor).life.count .start ≤ 1 := by
  have hbef := ho.once
  rw [h.before.countP_eq, countP_append] at hbef
  rw [h.after.countP_eq, countP_append, h.actor_eq]
  rcases h.does.births_eq with hborn | ⟨hborn, hmade⟩
  · have hle := h.does.spawns_start hborn
    omega
  have hunb := ho.unborn hmade.ge
  rw [h.before.countP_eq, countP_append] at hunb
  have hle := h.does.spawns_le
  rw [h.does.life_spawn hborn, count_nil]
  omega

theorem unborn_turn (h : s.Turn source e others s') (ho : Ordered s e.actor)
    (hmade : s'.made ≤ e.actor) : s'.calls.countP (spawns e.actor) = 0 := by
  rw [h.made_eq] at hmade
  have hunb := ho.unborn (by omega)
  rw [h.before.countP_eq, countP_append] at hunb
  rw [h.after.countP_eq, countP_append]
  have hle := h.does.spawns_le
  rcases h.does.births_eq with hborn | ⟨hborn, hact⟩ <;> omega

theorem inited_turn (hs : Sound s) (h : s.Turn source e others s') (ho : Ordered s e.actor)
    (hstg : .starting e.actor ∈ s'.calls) : .init ∈ (s'.actors e.actor).life := by
  have hmem : ∀ c ∈ source, c ∈ s.calls := fun c hc =>
    h.before.mem_iff.mpr (mem_append_left _ hc)
  have hbef : e.births = 0 ∧ .init ∈ (s.actors e.actor).life := by
    rcases mem_append.mp (h.after.mem_iff.mp hstg) with hnew | hold
    · cases h.does
      case unlock a =>
        obtain ⟨hm, -⟩ := hs.matches_of_mem a .unlocking (hmem _ mem_cons_self) (by simp)
        exact ⟨rfl, (hm.mem_iff rfl).mpr (by simp [Stage.script])⟩
      all_goals simp [State.remove, State.schedule] at hnew
    · have hcall : .starting e.actor ∈ s.calls :=
        h.before.mem_iff.mpr (mem_append_right _ hold)
      refine ⟨h.does.births_eq.resolve_right fun hspa => ?_, ho.inited hcall⟩
      have hnone := countP_eq_zero.mp (ho.unborn hspa.2.ge) _ hcall
      exact hnone (by simp [spawns])
  rw [h.actor_eq]
  exact (h.does.life_mono hbef.1).subset hbef.2

theorem started_turn (hs : Sound s) (h : s.Turn source e others s') (ho : Ordered s e.actor)
    (hgd : source.all (spares s) = true)
    (hleft : .unregistered (some e.actor) ∈ (s'.actors e.actor).life ∨
      (s'.actors e.actor).destroyed = true) : .start ∈ (s'.actors e.actor).life := by
  rw [h.actor_eq] at hleft ⊢
  rcases h.does.births_eq with hborn | ⟨hborn, hmade⟩
  · have hmem : ∀ c ∈ source, c ∈ s.calls := fun c hc =>
      h.before.mem_iff.mpr (mem_append_left _ hc)
    refine (h.does.life_mono hborn).subset ?_
    rcases h.does.leaves hleft with hbef | hrem | hsrc | hsrc
    · exact ho.started hbef
    · exact h.does.started_of_spares hgd hrem
    · obtain ⟨hm, -⟩ :=
        hs.matches_of_mem e.actor .swapping (hmem (.swapping e.actor) (by simp [hsrc])) (by simp)
      exact ho.started (.inl ((hm.mem_iff rfl).mpr
        (Stage.unregistered_mem_script _ _ _ (.inl rfl))))
    obtain ⟨hm, -⟩ :=
      hs.matches_of_mem e.actor .deleting (hmem (.deleting e.actor) (by simp [hsrc])) (by simp)
    exact ho.started (.inr hm.inside.destroyed)
  · cases h.does with
    | spawn opts => simp [Actor.new] at hleft
    | _ => cases hborn

theorem inOrder_turn (hs : Sound s) (h : s.Turn source e others s') (ho : Ordered s e.actor) :
    InOrder (s'.actors e.actor).life := by
  rw [h.actor_eq]
  have hmem : ∀ c ∈ source, c ∈ s.calls := fun c hc =>
    h.before.mem_iff.mpr (mem_append_left _ hc)
  have hin := ho.inOrder
  cases h.does
  case spawn => exact ⟨ nil_prefix, not_mem_nil⟩
  case init a =>
    obtain ⟨hm, -⟩ := hs.matches_of_mem a .initing (hmem _ mem_cons_self) (by simp)
    have hinit : .init ∉ (s.actors a).life := by
      rw [hm.mem_iff rfl]
      cases hwait : (s.actors a).opts.wait <;> simp [Stage.script]
    simpa [Actor.call, hm.inside.processor, Stage.closed] using hin.init hinit
  case start a =>
    have hstg : .starting a ∈ s.calls := hmem _ mem_cons_self
    have hstr := ho.start_not_mem hstg
    obtain ⟨st, hm⟩ := hs.stage a
    -- a processor that is `nil` was the one of an actor that had been started
    have hdes : st.destroyed = false := by
      rw [← hm.inside.destroyed]
      exact Bool.eq_false_iff.mpr fun hd => hstr (ho.started (.inr hd))
    simpa [Actor.call, hm.inside.processor, Stage.closed_eq_false hdes]
      using hin.start (ho.inited hstg) hstr
  case destroy a =>
    obtain ⟨hm, -⟩ := hs.matches_of_mem a .destroying (hmem _ mem_cons_self) (by simp)
    have hdest : .destroy ∉ (s.actors a).life := by
      rw [hm.mem_iff rfl]
      cases hwait : (s.actors a).opts.wait <;> simp [Stage.script]
    have hstr := ho.started (.inr hm.inside.destroyed)
    simpa [Actor.call, hm.inside.processor, Stage.closed] using hin.destroy hstr hdest
  case lock a _ _ =>
    dsimp only
    split
    · exact hin.other rfl (fun h => by cases h)
    · exact hin
  case finish a =>
    dsimp only
    split
    · have hdone := hin.other (l := .doneWait) rfl (fun h => by cases h)
      exact hdone.other rfl (fun h => by cases h)
    · exact hin.other rfl (fun h => by cases h)
  all_goals first | exact hin | exact hin.other rfl (fun h => by cases h)

theorem turn_self (hs : Sound s) (h : s.Turn source e others s') (ho : Ordered s e.actor)
    (hgd : source.all (spares s) = true) : Ordered s' e.actor where
  once := ho.once_turn h
  unborn := ho.unborn_turn h
  inited := ho.inited_turn hs h
  started := ho.started_turn hs h hgd
  inOrder := ho.inOrder_turn hs h

theorem turn_other (h : s.Turn source e others s') (ho : Ordered s a) (ha : a ≠ e.actor) :
    Ordered s' a := by
  obtain ⟨hsrc, hcs⟩ := h.does.spawns_of_ne ha
  have hct : s'.calls.countP (spawns a) = s.calls.countP (spawns a) := by
    rw [h.before.countP_eq, h.after.countP_eq, countP_append, countP_append, hsrc,
      hcs]
  have hact := h.actor_of_ne ha
  refine ⟨?_, ?_, ?_, ?_, ?_⟩
  · rw [hct, hact]
    exact ho.once
  · intro hmade
    rw [h.made_eq] at hmade
    rw [hct]
    exact ho.unborn (by omega)
  · intro hstg
    rw [hact]
    rcases mem_append.mp (h.after.mem_iff.mp hstg) with hnew | hold
    · exact absurd (by simp [spawns]) (countP_eq_zero.mp hcs _ hnew)
    · exact ho.inited (h.before.mem_iff.mpr (mem_append_right _ hold))
  · rw [hact]
    exact ho.started
  · rw [hact]
    exact ho.inOrder

theorem init (a : ℕ) : Ordered State.init a where
  once := Nat.zero_le _
  unborn := fun _ => rfl
  inited := nofun
  started := by simp [State.init, Actor.new]
  inOrder := ⟨ nil_prefix, not_mem_nil⟩

theorem run {acts : List Act} (h : Run (guardedRel State.step State.patient) State.init acts s) :
    Sound s ∧ ∀ a, Ordered s a := by
  refine run_states (fun s => Sound s ∧ ∀ a, Ordered s a) ⟨Sound.init, init⟩ ?_ h
  intro s act s' ⟨hs, ho⟩ hgd hnext
  obtain ⟨e, others, hturn⟩ := State.turn_of_next hnext
  refine ⟨hs.turn hturn, fun a => ?_⟩
  by_cases ha : a = e.actor
  · subst ha
    exact (ho e.actor).turn_self hs hturn hgd
  · exact (ho a).turn_other hturn ha

end Ordered

/-- In every run in which actors are removed only once they have been started, the calls of every
processor are in order. -/
theorem spawn_in_order (acts : List Act) (s : State)
    (h : Run (guardedRel State.step State.patient) State.init acts s) :
    ∀ a, InOrder (s.actors a).life :=
  fun a => ((Ordered.run h).2 a).inOrder

theorem killedTwice_patient :
    (exec State.step State.patient State.init killedTwice).isSome = true := by
  decide +kernel

theorem killedTwice_in_order :
    let s := ((exec State.step State.patient State.init killedTwice).get killedTwice_patient).2
    (s.actors 0).life.filter Life.isCall = [.init, .start, .destroy] ∧
      ∀ a, InOrder (s.actors a).life :=
  ⟨by decide +kernel, spawn_in_order _ _ (run_of_exec _ killedTwice_patient)⟩

def killedUnstarted : List Act :=
  [.spawn ⟨"1", "room", false, false, false, false, false⟩] ++ steps 4 0 ++
    [.kill "room" "1"] ++ steps 9 1 ++ steps 1 0

/-- `Destroy` is called without `Start`, and `spawn` then dereferences the processor that
`finishDestroy` has set to `nil`. -/
theorem spawn_starts_destroyed_actor :
    ¬∀ acts s, Run (guardedRel State.step fun _ _ => true) State.init acts s →
      ∀ a, InOrder (s.actors a).life := by
  intro h
  have hin := h _ _ (run_of_exec killedUnstarted rfl) 0
  exact hin.nil (by decide +kernel)

end DueServer.Scheduler
