import DueServer.ActorStages

/-! The invariant of the scheduler: every actor is in a stage, and a sender that has found its actor
alive still finds the channels open. -/
namespace DueServer.Scheduler

open Lib List Call Function

structure Sound (s : State) : Prop where
  stage : ∀ a, ∃ st, Matches s a st
  named : ∀ p a, s.registry p = some a → s.pid a = p
  mutex : s.calls.countP holdsMu = if s.mu then 1 else 0
  vacant : ∀ a, .initing a ∈ s.calls ∨ .storing a ∈ s.calls → s.registry (s.pid a) = none
  unborn : ∀ a, s.made ≤ a → (s.actors a).readers = 0
  readers : ∀ a, s.calls.countP (reads a) = (s.actors a).readers
  sending : ∀ a, .sending a ∈ s.calls → (s.actors a).closed = false
  unsent : ∀ a, .sent true ∉ (s.actors a).life

namespace Does

variable {s : State} {source : List Call} {e : Effect}

section

variable (h : Does s source e)

include h

theorem stages_of_ne {b : ℕ} (hb : b ≠ e.actor) :
    source.filterMap (stageOf b) = [] ∧ e.calls.filterMap (stageOf b) = [] := by
  have hne : e.actor ≠ b := hb.symm
  cases h <;> simp only [State.remove, State.schedule] at hne ⊢ <;>
    simp only [filterMap_cons, filterMap_nil, stageOf, Call.stage, Option.bind_some,
      Option.bind_none, if_neg hne, and_self]

theorem births_eq : e.births = 0 ∨ e.births = 1 ∧ e.actor = s.made := by
  cases h <;> simp [State.remove, State.schedule]

theorem opts_eq (hborn : e.births = 0) :
    (e.write (s.actors e.actor)).opts = (s.actors e.actor).opts := by
  cases h <;> simp_all [State.remove, State.schedule, Actor.call, Actor.cancelIdle, apply_ite]

theorem mutex {n : ℕ} (hn : source.countP holdsMu + n = if s.mu then 1 else 0) :
    e.calls.countP holdsMu + n = if e.mu s.mu then 1 else 0 := by
  have htak : 1 + n = (if s.mu then 1 else 0) → s.mu = true ∧ n = 0 := by
    intro hheld
    split at hheld
    · rename_i hmu
      exact ⟨hmu, by omega⟩
    · omega
  cases h
  case lock hmu _ | remove hmu _ | removeActor hmu _ | commit hmu _ _ _ =>
    rw [hmu] at hn
    exact congrArg (1 + ·) ((Nat.zero_add n).symm.trans hn)
  case unlock | unrelate | unrelateIdle => exact (Nat.zero_add n).trans (htak hn).2
  case delete => exact congrArg (1 + ·) (htak hn).2
  all_goals exact hn

theorem registry_some {p : String} {a : ℕ} (hp : e.registry s.registry p = some a) :
    s.registry p = some a ∨ source = [.storing a] ∧ e.actor = a ∧ p = s.pid a := by
  cases h
  case store b =>
    simp only [update_apply] at hp
    split at hp
    · rename_i hpid
      cases hp
      exact .inr ⟨rfl, rfl, hpid⟩
    · exact .inl hp
  case remove | removeActor | delete =>
    simp only [State.remove, update_apply] at hp
    split at hp
    · cases hp
    · exact .inl hp
  all_goals exact .inl hp

theorem registry_none {p : String} (hp : s.registry p = none) :
    e.registry s.registry p = none ∨ ∃ a, source = [.storing a] := by
  cases h
  case store b => exact .inr ⟨b, rfl⟩
  case remove | removeActor | delete =>
    refine .inl ?_
    simp only [State.remove, update_apply]
    split
    · rfl
    · exact hp
  all_goals exact .inl hp

theorem readers {n : ℕ} (hn : source.countP (reads e.actor) + n = (s.actors e.actor).readers)
    (hunb : (s.actors s.made).readers = 0) :
    e.calls.countP (reads e.actor) + n = (e.write (s.actors e.actor)).readers := by
  cases h
  case spawn => simp_all [reads, Actor.new]
  case runlock | send | sent | givenUp | refused | accepted =>
    simp [reads] at hn ⊢
    omega
  case lock | finish =>
    simp [reads] at hn ⊢
    split <;> simp_all
  all_goals exact hn

theorem readers_unborn (hmade : s.made + e.births ≤ e.actor)
    (hunb : (s.actors e.actor).readers = 0) : (e.write (s.actors e.actor)).readers = 0 := by
  cases h
  case send a hborn => exact absurd hborn (by simpa using hmade)
  case runlock a => exact Nat.sub_eq_zero_of_le (by rw [hunb]; exact Nat.zero_le _)
  case spawn => rfl
  case lock | finish =>
    dsimp only
    split <;> exact hunb
  all_goals exact hunb

theorem reads_of_ne {b : ℕ} (hb : b ≠ e.actor) :
    source.countP (reads b) = 0 ∧ e.calls.countP (reads b) = 0 := by
  have hne : e.actor ≠ b := hb.symm
  cases h
  all_goals simp_all [reads, State.remove, State.schedule]

theorem closed (hcl : (e.write (s.actors e.actor)).closed = true) :
    (s.actors e.actor).closed = true ∨ (s.actors e.actor).readers = 0 := by
  cases h
  case close a hrds => exact .inr hrds
  case spawn => exact absurd hcl (by simp [Actor.new])
  case lock | finish =>
    dsimp only at hcl
    split at hcl <;> exact .inl hcl
  all_goals exact .inl hcl

theorem life_mono (hborn : e.births = 0) :
    (s.actors e.actor).life <+: (e.write (s.actors e.actor)).life := by
  cases h
  case spawn => cases hborn
  case lock a _ _ | finish a =>
    cases hwait : (s.actors a).opts.wait <;> simp [hwait]
  all_goals simp [State.remove, State.schedule, Actor.cancelIdle, Actor.call]

theorem life_spawn (hborn : e.births = 1) : (e.write (s.actors e.actor)).life = [] := by
  cases h
  case spawn => rfl
  all_goals cases hborn

theorem sent_true (hsent : .sent true ∈ (e.write (s.actors e.actor)).life) :
    .sent true ∈ (s.actors e.actor).life ∨
      source = [.sending e.actor] ∧ (s.actors e.actor).closed = true := by
  cases h
  case sent a => simpa using hsent
  case lock | finish =>
    dsimp only at hsent
    split at hsent <;> simpa using hsent
  case init a | start a | destroy a =>
    cases hpro : (s.actors a).processor <;> simp_all [Actor.call]
  all_goals simp_all [State.remove, State.schedule, Actor.cancelIdle, Actor.new]

end

end Does

theorem holdsMu_of_stageOf {a : ℕ} {c : Call} {st : Stage} (h : c.stageOf a = some st)
    (hst : st = .unlocking ∨ st = .deleting) : c.holdsMu = true := by
  cases c <;> simp [holdsMu] at h ⊢ <;> grind

namespace Sound

variable {s s' : State} {source others : List Call} {e : Effect}

theorem not_holdsMu (hs : Sound s) (hmu : s.mu = false) : ∀ c ∈ s.calls, c.holdsMu = false := by
  have hzero := hs.mutex
  rw [hmu, if_neg Bool.false_ne_true, countP_eq_zero] at hzero
  exact fun c hc => Bool.eq_false_iff.mpr (hzero c hc)

variable {a b : ℕ} {st : Stage} {c : Call}

theorem eq_registered (hs : Sound s) (hmu : s.mu = false)
    (hm : Matches s a st) (hst : st.inRegistry = true) : st = .registered := by
  by_contra hne
  have hheld : st = .unlocking ∨ st = .deleting := by
    cases st <;> simp_all [Stage.inRegistry]
  have hmem : st ∈ s.calls.filterMap (stageOf a) := by
    rw [hm.calls]
    rcases hheld with rfl | rfl <;> simp
  obtain ⟨c, hc, hstg⟩ := mem_filterMap.mp hmem
  exact absurd (holdsMu_of_stageOf hstg hheld) (by simp [hs.not_holdsMu hmu c hc])

theorem lt_made (hs : Sound s) {p : String} (hp : s.registry p = some a) : a < s.made := by
  obtain ⟨st, hm⟩ := hs.stage a
  refine hm.made.mpr fun hfr => ?_
  have hreg := hm.registered.mp (hs.named p a hp ▸ hp)
  rw [hfr] at hreg
  cases hreg

theorem shift (hs : Sound s) (h : s.Turn source e others s')
    (hm : Matches s e.actor st) : ∃ st', Shift s source e st st' :=
  shift_of_does h.does hm (fun hmu => hs.eq_registered hmu hm) hs.named
    fun _ _ hsrc hstg => h.stage_eq hm hsrc hstg

theorem matches_shift (hs : Sound s) (h : s.Turn source e others s') {st' : Stage}
    (hm : Matches s e.actor st) (hshi : Shift s source e st st') : Matches s' e.actor st' := by
  have haft := h.after.filterMap (stageOf e.actor)
  rw [filterMap_append] at haft
  cases hshi with
  | same hsrc hcs hreg hbir hopts hins =>
    rw [hcs, h.others_stages hm hsrc] at haft
    refine ⟨Stage.eq_work haft, ?_, ?_, ?_⟩
    · rw [h.registry_eq, hreg, State.pid, h.actor_eq, hopts]
      exact hm.registered
    · rw [h.made_eq, hbir]
      exact hm.made
    · rw [h.actor_eq]
      exact hins
  | move hsrc hcs hstep hreg hborn hopts hins =>
    have hoths : others.filterMap (stageOf e.actor) = [] := by
      have hbef := (h.before.filterMap (stageOf e.actor)).length_eq
      rw [filterMap_append, hm.calls, hsrc, length_append] at hbef
      exact length_eq_zero_iff.mp (by omega)
    rw [hcs, hoths, append_nil] at haft
    refine ⟨Stage.eq_work haft, ?_, ?_, ?_⟩
    · rw [h.registry_eq, State.pid, h.actor_eq, hopts]
      exact hreg
    · obtain ⟨ls, hstep⟩ := hstep
      rw [h.made_eq, hborn.1]
      exact iff_of_true (hm.made.mpr hborn.2) (by cases hstep <;> exact fun h => by cases h)
    · rw [h.actor_eq]
      exact hins
  | spawn opts hst hsrc heq =>
    subst heq
    have hoths := h.others_stages hm (by rw [hsrc]; rfl)
    rw [hoths, hst] at haft
    refine ⟨Stage.eq_work (by simpa using haft), ?_, ?_, ?_⟩
    · refine iff_of_false (fun hregi => ?_) Bool.false_ne_true
      rw [h.registry_eq] at hregi
      exact absurd (hs.lt_made hregi) (lt_irrefl _)
    · rw [h.made_eq]
      exact iff_of_true (Nat.lt_succ_self _) (fun h => by cases h)
    · rw [h.actor_eq]
      exact ⟨rfl, (fun h => by cases h), rfl⟩

theorem opts_eq (h : s.Turn source e others s') (ha : a < s.made) :
    (s'.actors a).opts = (s.actors a).opts := by
  by_cases hact : a = e.actor
  · subst hact
    have hborn : e.births = 0 := h.does.births_eq.resolve_right fun hspa => by omega
    rw [h.actor_eq, h.does.opts_eq hborn]
  · rw [h.actor_of_ne hact]

theorem pid_eq (h : s.Turn source e others s') (ha : a < s.made) : s'.pid a = s.pid a := by
  rw [State.pid, opts_eq h ha, State.pid]

section

variable (hs : Sound s)

include hs

theorem matches_of_mem (a : ℕ) (st : Stage) (hc : c ∈ s.calls) (hstg : c.stageOf a = some st) :
    Matches s a st ∧ a < s.made := by
  obtain ⟨st', hm⟩ := hs.stage a
  have hmem : st ∈ s.calls.filterMap (stageOf a) := mem_filterMap.mpr ⟨c, hc, hstg⟩
  rw [hm.calls, Stage.work] at hmem
  split at hmem <;> rename_i hqt
  · cases hmem
  obtain rfl := mem_singleton.mp hmem
  exact ⟨hm, hm.made.mpr fun hfr => hqt (by rw [hfr]; rfl)⟩

section

variable (h : s.Turn source e others s')

include h

theorem registry_of_ne (hb : b ≠ e.actor) :
    s'.registry (s.pid b) = some b ↔ s.registry (s.pid b) = some b := by
  rw [h.registry_eq]
  have hrem : ∀ a, a = e.actor → s.registry (s.pid a) = some a →
      (update s.registry (s.pid a) none (s.pid b) = some b ↔
        s.registry (s.pid b) = some b) := by
    rintro a rfl hreg
    rw [update_apply]
    split
    · rename_i hpid
      rw [hpid, hreg]
      exact iff_of_false nofun fun heq => hb (Option.some.inj heq).symm
    · exact Iff.rfl
  have hmem : ∀ c ∈ source, c ∈ s.calls := fun c hc =>
    h.before.mem_iff.mpr (mem_append_left _ hc)
  cases h.does
  case store a =>
    have hvac := hs.vacant a (.inr (hmem _ mem_cons_self))
    simp only [update_apply]
    split
    · rename_i hpid
      rw [hpid, hvac]
      exact iff_of_false (fun heq => hb (Option.some.inj heq).symm) nofun
    · exact Iff.rfl
  case remove kind id a _ hload =>
    exact hrem a rfl (hs.named _ a hload ▸ hload)
  case removeActor a _ hreg => exact hrem a rfl hreg
  case delete a =>
    obtain ⟨hm, -⟩ := hs.matches_of_mem a .deleting (hmem _ mem_cons_self) (by simp)
    exact hrem a rfl (hm.registered.mpr rfl)
  all_goals exact Iff.rfl

theorem matches_of_ne (hm : Matches s b st) (hb : b ≠ e.actor) : Matches s' b st := by
  obtain ⟨hsrc, hcs⟩ := h.does.stages_of_ne hb
  have haft := h.after.filterMap (stageOf b)
  rw [filterMap_append, hcs, h.others_stages hm hsrc] at haft
  have hact := h.actor_of_ne hb
  refine ⟨Stage.eq_work haft, ?_, ?_, ?_⟩
  · rw [State.pid, hact]
    exact (hs.registry_of_ne h hb).trans hm.registered
  · rw [h.made_eq, ← hm.made]
    rcases h.does.births_eq with hbir | ⟨hbir, hmade⟩ <;> omega
  · rw [hact]
    exact hm.inside

theorem named_turn : ∀ p a, s'.registry p = some a → s'.pid a = p := by
  intro p a hp
  rw [h.registry_eq] at hp
  rcases h.does.registry_some hp with hold | ⟨hsrc, -, hpid⟩
  · rw [pid_eq h (hs.lt_made hold)]
    exact hs.named p a hold
  have hmem : .storing a ∈ s.calls := h.before.mem_iff.mpr (by simp [hsrc])
  obtain ⟨-, hmade⟩ := hs.matches_of_mem a .storing hmem (by simp)
  rw [pid_eq h hmade, hpid]

theorem mutex_turn : s'.calls.countP holdsMu = if s'.mu then 1 else 0 := by
  have hbef := hs.mutex
  rw [h.before.countP_eq, countP_append] at hbef
  rw [h.after.countP_eq, countP_append, h.mu_eq]
  exact h.does.mutex hbef

theorem not_storing (hc : c ∈ others) (hheld : c.holdsMu = true) : ¬∃ a, source = [.storing a] := by
  rintro ⟨a, rfl⟩
  have hct := hs.mutex
  rw [h.before.countP_eq, countP_append] at hct
  have hoths : 0 < others.countP holdsMu := countP_pos_iff.mpr ⟨c, hc, hheld⟩
  have hsrc : [storing a].countP holdsMu = 1 := rfl
  have hle : (if s.mu then 1 else 0) ≤ 1 := by split <;> omega
  omega

theorem vacant_turn :
    ∀ a, .initing a ∈ s'.calls ∨ .storing a ∈ s'.calls → s'.registry (s'.pid a) = none := by
  -- the place was vacant before, and its call is not the one that fills it
  have hkeep : ∀ a c, c ∈ s.calls → (c = .initing a ∨ c = .storing a) →
      (¬∃ b, source = [.storing b]) → s'.registry (s'.pid a) = none := by
    intro a c hc hcall hnot
    have hmade : a < s.made := by
      rcases hcall with rfl | rfl
      · exact (hs.matches_of_mem a .initing hc (by simp)).2
      · exact (hs.matches_of_mem a .storing hc (by simp)).2
    rw [pid_eq h hmade, h.registry_eq]
    have hvac : s.registry (s.pid a) = none := by
      rcases hcall with rfl | rfl
      · exact hs.vacant a (.inl hc)
      · exact hs.vacant a (.inr hc)
    exact (h.does.registry_none hvac).resolve_right hnot
  have hoths : ∀ a c, c ∈ others → (c = .initing a ∨ c = .storing a) →
      s'.registry (s'.pid a) = none := by
    intro a c hc hcall
    refine hkeep a c (h.before.mem_iff.mpr (mem_append_right _ hc)) hcall ?_
    exact hs.not_storing h hc (by rcases hcall with rfl | rfl <;> rfl)
  have hnew : ∀ a c, c ∈ e.calls → (c = .initing a ∨ c = .storing a) →
      s'.registry (s'.pid a) = none := by
    intro a c hc hcall
    have hmem : ∀ c ∈ source, c ∈ s.calls := fun c hc =>
      h.before.mem_iff.mpr (mem_append_left _ hc)
    cases h.does
    case lock b _ hvac =>
      obtain ⟨-, hmade⟩ := hs.matches_of_mem b .locking (hmem _ mem_cons_self) (by simp)
      obtain rfl : a = b := by simp_all
      rw [pid_eq h hmade, h.registry_eq]
      exact hvac
    case init b =>
      obtain rfl : a = b := by simp_all
      exact hkeep a (.initing a) (hmem _ mem_cons_self) (.inl rfl) (by simp)
    all_goals
      rcases hcall with rfl | rfl <;> simp [State.remove, State.schedule] at hc
  intro a ha
  rcases ha with ha | ha <;> rcases mem_append.mp (h.after.mem_iff.mp ha) with hc | hc
  · exact hnew a _ hc (.inl rfl)
  · exact hoths a _ hc (.inl rfl)
  · exact hnew a _ hc (.inr rfl)
  · exact hoths a _ hc (.inr rfl)

theorem unborn_turn : ∀ a, s'.made ≤ a → (s'.actors a).readers = 0 := by
  intro a ha
  rw [h.made_eq] at ha
  by_cases hact : a = e.actor
  · subst hact
    rw [h.actor_eq]
    exact h.does.readers_unborn ha (hs.unborn _ (by omega))
  rw [h.actor_of_ne hact]
  exact hs.unborn a (by omega)

theorem readers_turn : ∀ a, s'.calls.countP (reads a) = (s'.actors a).readers := by
  intro a
  have hbef := hs.readers a
  rw [h.before.countP_eq, countP_append] at hbef
  rw [h.after.countP_eq, countP_append]
  by_cases ha : a = e.actor
  · subst ha
    rw [h.actor_eq]
    exact h.does.readers hbef (hs.unborn _ le_rfl)
  obtain ⟨hsrc, hcs⟩ := h.does.reads_of_ne ha
  rw [h.actor_of_ne ha]
  omega

theorem sending_turn : ∀ a, .sending a ∈ s'.calls → (s'.actors a).closed = false := by
  intro a ha
  rcases mem_append.mp (h.after.mem_iff.mp ha) with hnew | hold
  · -- the sender has just found the actor alive
    cases h.does
    case accepted b hdes =>
      obtain rfl : a = b := by simpa using hnew
      obtain ⟨st, hm⟩ := hs.stage a
      have hstg : st.destroyed = false := hm.inside.destroyed.symm.trans hdes
      have hact : s'.actors a = s.actors a := h.actor_eq
      rw [hact, hm.inside.closed]
      exact Stage.closed_eq_false hstg
    all_goals simp [State.remove, State.schedule] at hnew
  · have hmem : .sending a ∈ s.calls := h.before.mem_iff.mpr (mem_append_right _ hold)
    have hopen := hs.sending a hmem
    by_cases hact : a = e.actor
    · subst hact
      refine Bool.eq_false_iff.mpr fun hcl => ?_
      rw [h.actor_eq] at hcl
      rcases h.does.closed hcl with hbef | hrds
      · exact absurd (hopen.symm.trans hbef) Bool.false_ne_true
      have hpos : 0 < s.calls.countP (reads e.actor) :=
        countP_pos_iff.mpr ⟨_, hmem, by simp [reads]⟩
      rw [hs.readers, hrds] at hpos
      exact absurd hpos (lt_irrefl 0)
    · rw [h.actor_of_ne hact]
      exact hopen

theorem unsent_turn : ∀ a, .sent true ∉ (s'.actors a).life := by
  intro a ha
  by_cases hact : a = e.actor
  · subst hact
    rw [h.actor_eq] at ha
    rcases h.does.sent_true ha with hold | ⟨hsrc, hcl⟩
    · exact hs.unsent _ hold
    have hmem : .sending e.actor ∈ s.calls := h.before.mem_iff.mpr (by simp [hsrc])
    exact absurd ((hs.sending _ hmem).symm.trans hcl) Bool.false_ne_true
  · rw [h.actor_of_ne hact] at ha
    exact hs.unsent a ha

theorem turn : Sound s' where
  stage := by
    intro a
    obtain ⟨st, hm⟩ := hs.stage a
    by_cases ha : a = e.actor
    · subst ha
      obtain ⟨st', hshi⟩ := hs.shift h hm
      exact ⟨st', hs.matches_shift h hm hshi⟩
    · exact ⟨st, hs.matches_of_ne h hm ha⟩
  named := hs.named_turn h
  mutex := hs.mutex_turn h
  vacant := hs.vacant_turn h
  unborn := hs.unborn_turn h
  readers := hs.readers_turn h
  sending := hs.sending_turn h
  unsent := hs.unsent_turn h

end

end

theorem init : Sound State.init where
  stage := fun _ => ⟨.fresh, rfl, by simp [State.init, Stage.inRegistry], by simp [State.init],
    rfl, nofun, rfl⟩
  named := nofun
  mutex := rfl
  vacant := nofun
  unborn := fun _ _ => rfl
  readers := fun _ => rfl
  sending := nofun
  unsent := fun _ => not_mem_nil

theorem run {G : State → Act → Bool} {acts : List Act}
    (h : Run (guardedRel State.step G) State.init acts s) : Sound s := by
  refine run_states Sound Sound.init ?_ h
  intro s act s' hs _ hnext
  obtain ⟨e, others, hturn⟩ := State.turn_of_next hnext
  exact hs.turn hturn

end Sound

end DueServer.Scheduler
