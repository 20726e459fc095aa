import DueServer.ActorIdle

/-! The release guard. A run of the guard belongs to one timer; if it allows the release and the
release is not committed, `releaseGuardCanceled` runs once, and it runs in no other case. -/
namespace DueServer.Scheduler

open Lib List Call

def Timer.is (a id : ℕ) (t : Timer) : Bool := t.actor = a && t.id = id

def Call.awaitsGuard (a t : ℕ) : Call → Bool
  | .fired b _ u | .guarding b _ u => b = a && u = t
  | _ => false

def Call.mayCancel (a t : ℕ) : Call → Bool
  | .committing b _ u | .canceling b u => b = a && u = t
  | _ => false

theorem Call.subject_of_awaitsGuard {a t : ℕ} {c : Call} (h : c.awaitsGuard a t = true) :
    c.subject = some a := by
  cases c <;> simp_all [awaitsGuard, subject]

theorem Call.subject_of_mayCancel {a t : ℕ} {c : Call} (h : c.mayCancel a t = true) :
    c.subject = some a := by
  cases c <;> simp_all [mayCancel, subject]

def Life.isAnswer : Life → Bool
  | .guarded _ _ => true
  | _ => false

def Life.ofRun : Life → Bool
  | .guarded _ _ | .committed _ _ | .canceled _ => true
  | _ => false

def Life.isCommitted (t : ℕ) : Life → Bool
  | .committed u _ => u = t
  | _ => false

def Options.takesBack (o : Options) : Bool := o.releaseGuard && o.releaseGuardCanceled

def State.unanswered (s : State) (a t : ℕ) : ℕ :=
  s.timers.countP (Timer.is a t) + s.calls.countP (Call.awaitsGuard a t)

def answers (t : ℕ) (life : List Life) : ℕ :=
  life.count (.guarded t true) + life.count (.guarded t false)

def Balanced (t n : ℕ) (life : List Life) : Prop :=
  n + life.count (.canceled t) + life.countP (Life.isCommitted t) = life.count (.guarded t true)

structure Guarded (s : State) (a t : ℕ) : Prop where
  once : s.unanswered a t + answers t (s.actors a).life ≤ 1
  fresh : s.ids ≤ t → s.unanswered a t + answers t (s.actors a).life = 0
  guard : (∃ g, .guarding a g t ∈ s.calls) ∨ 0 < answers t (s.actors a).life →
    (s.actors a).opts.releaseGuard = true
  exact : (s.actors a).opts.takesBack = true →
    Balanced t (s.calls.countP (Call.mayCancel a t)) (s.actors a).life
  silent : (s.actors a).opts.takesBack = false →
    .canceling a t ∉ s.calls ∧ .canceled t ∉ (s.actors a).life

structure IdleProtocol (s : State) (a : ℕ) : Prop where
  commits : Commits (s.actors a).life
  answeredOnce : ∀ t, answers t (s.actors a).life ≤ 1
  cancels : ∀ t, (s.actors a).opts.releaseGuardCanceled = true →
    .guarded t true ∈ (s.actors a).life → (∀ g, .committed t g ∉ (s.actors a).life) →
    (s.actors a).life.count (.canceled t) + s.calls.countP (Call.mayCancel a t) = 1
  canceled : ∀ t, .canceled t ∈ (s.actors a).life →
    (s.actors a).life.count (.canceled t) = 1 ∧ .guarded t true ∈ (s.actors a).life ∧
      .guarded t false ∉ (s.actors a).life ∧ ∀ g, .committed t g ∉ (s.actors a).life
  retries : ∀ i choice g t s', s.calls[i]? = some (.denied a g t) →
    s.next (.step i choice) = some s' → (s.actors a).destroyed = false →
    (s.actors a).idleGeneration = g →
    s'.timers.countP (Timer.isFor a g) = 1 ∧ s'.calls.countP (Call.releases a g) = 0

section Lives

variable {life : List Life} {l : Life} {t : ℕ}

theorem answers_append (u : ℕ) (ok : Bool) :
    answers t (life ++ [.guarded u ok]) = answers t life + if u = t then 1 else 0 := by
  cases ok <;> simp [answers, count_singleton] <;> omega

theorem answers_other (hl : l.isAnswer = false) : answers t (life ++ [l]) = answers t life := by
  cases l
  case guarded => cases hl
  all_goals simp [answers]

theorem balanced_other {n : ℕ} (hl : l.ofRun = false) (h : Balanced t n life) :
    Balanced t n (life ++ [l]) := by
  unfold Balanced at h ⊢
  cases l
  case guarded | committed | canceled => cases hl
  all_goals simpa [count_append, Life.isCommitted] using h

end Lives

namespace Does

variable {s : State} {source : List Call} {e : Effect}

section

variable (h : Does s source e)

include h

theorem timers_is (b t : ℕ) : (e.timers s.timers).countP (Timer.is b t) ≤
      s.timers.countP (Timer.is b t) + if s.ids ≤ t ∧ t < s.ids + e.ids then 1 else 0 := by
  have hnew : ∀ a g, [Timer.mk s.ids a g].countP (Timer.is b t) ≤
      if s.ids ≤ t ∧ t < s.ids + 1 then 1 else 0 := by
    intro a g
    simp only [countP_singleton, Timer.is, Bool.and_eq_true, decide_eq_true_eq]
    split
    · rw [if_pos (by omega)]
    · exact Nat.zero_le _
  cases h
  case cancel | commit | active => exact Nat.le_add_right_of_le filter_sublist.countP_le
  case fire => exact Nat.le_add_right_of_le erase_sublist.countP_le
  case retry a g u _ _ =>
    simp only [State.schedule, countP_append]
    exact Nat.add_le_add_left (hnew a g) _
  case idle a _ _ =>
    simp only [State.schedule, countP_append]
    exact Nat.add_le_add filter_sublist.countP_le (hnew a _)
  all_goals exact Nat.le_add_right _ _

theorem answered (hborn : e.births = 0) (t : ℕ) : (∃ u ∈ s.timers, source = [] ∧ e =
      { calls := [.fired u.actor u.generation u.id]
        actor := u.actor
        timers := fun ts => ts.erase u }) ∨
    e.calls.countP (awaitsGuard e.actor t) + answers t (e.write (s.actors e.actor)).life ≤
      source.countP (awaitsGuard e.actor t) + answers t (s.actors e.actor).life := by
  cases h
  case spawn => cases hborn
  case fire u hpend => exact .inl ⟨u, hpend, rfl, rfl⟩
  case allow | deny =>
    simp only [Actor.life_record, answers_append, countP_singleton, awaitsGuard]
    simp [Nat.add_comm]
  case init a | start a | destroy a =>
    refine .inr (Nat.add_le_add_left (le_of_eq (answers_other ?_)) _)
    cases hpro : (s.actors a).processor <;> rfl
  case lock =>
    refine .inr (Nat.add_le_add_left (le_of_eq ?_) _)
    dsimp only
    split
    · exact answers_other rfl
    · rfl
  case finish =>
    refine .inr (Nat.add_le_add_left (le_of_eq ?_) _)
    dsimp only
    split
    · exact (answers_other rfl).trans (answers_other rfl)
    · exact answers_other rfl
  all_goals first
    | exact .inr (Nat.add_le_add (Nat.zero_le _) le_rfl)
    | exact .inr le_rfl
    | exact .inr (Nat.add_le_add_left (le_of_eq (answers_other rfl)) _)

theorem unanswered (hborn : e.births = 0) (t : ℕ) :
    (e.timers s.timers).countP (Timer.is e.actor t) +
        e.calls.countP (awaitsGuard e.actor t) +
        answers t (e.write (s.actors e.actor)).life ≤
      s.timers.countP (Timer.is e.actor t) + source.countP (awaitsGuard e.actor t) +
        answers t (s.actors e.actor).life + if s.ids ≤ t ∧ t < s.ids + e.ids then 1 else 0 := by
  have htim := h.timers_is e.actor t
  rcases h.answered hborn t with ⟨u, hpend, rfl, rfl⟩ | hless
  · have hsp := (perm_cons_erase hpend).countP_eq (Timer.is u.actor t)
    rw [countP_cons] at hsp
    simp only [hsp, countP_singleton, awaitsGuard, Timer.is]
    exact Nat.le_add_right _ _
  · omega

theorem guards_of_ne {b : ℕ} (hb : b ≠ e.actor) (t : ℕ) :
    (source.countP (awaitsGuard b t) = 0 ∧ e.calls.countP (awaitsGuard b t) = 0) ∧
      source.countP (mayCancel b t) = 0 ∧ e.calls.countP (mayCancel b t) = 0 := by
  have hne : e.actor ≠ b := hb.symm
  cases h
  all_goals simp_all [awaitsGuard, mayCancel, State.remove, State.schedule]

theorem balanced (hborn : e.births = 0) (hopts : (s.actors e.actor).opts.takesBack = true) (t n : ℕ)
    (hn : Balanced t (source.countP (mayCancel e.actor t) + n) (s.actors e.actor).life) :
    Balanced t (e.calls.countP (mayCancel e.actor t) + n)
      (e.write (s.actors e.actor)).life := by
  have hset : (s.actors e.actor).opts.releaseGuard = true ∧
      (s.actors e.actor).opts.releaseGuardCanceled = true := by
    simpa [Options.takesBack] using hopts
  cases h
  case spawn => cases hborn
  case noCommitSilent a g u hnot => exact absurd hset hnot
  case releaseFree a g u _ _ hgd =>
    rw [hgd] at hset
    cases hset.1
  case allow | deny | commit | cancelled =>
    simp [Balanced, mayCancel, Life.isCommitted, Actor.cancelIdle,
      count_singleton] at hn ⊢
    omega
  case init a | start a | destroy a =>
    refine balanced_other ?_ hn
    cases hpro : (s.actors a).processor <;> rfl
  case lock =>
    dsimp only
    split
    · exact balanced_other rfl hn
    · exact hn
  case finish =>
    dsimp only
    split
    · exact balanced_other rfl (balanced_other rfl hn)
    · exact balanced_other rfl hn
  all_goals first | exact hn | exact balanced_other rfl hn

theorem cancels_set (hborn : e.births = 0) (hopts : (s.actors e.actor).opts.takesBack = false)
    {t : ℕ} :
    .canceling e.actor t ∉ e.calls ∧ (.canceled t ∈ (e.write (s.actors e.actor)).life →
      .canceled t ∈ (s.actors e.actor).life ∨ .canceling e.actor t ∈ source) := by
  have hset : ¬((s.actors e.actor).opts.releaseGuard = true ∧
      (s.actors e.actor).opts.releaseGuardCanceled = true) := by
    simpa [Options.takesBack] using hopts
  cases h
  case spawn => cases hborn
  case noCommit a g u hcan => exact absurd hcan hset
  case cancelled a u => simp
  case init a | start a | destroy a =>
    cases hpro : (s.actors a).processor <;> simp [Actor.call, hpro]
  case lock a _ _ | finish a =>
    cases hwait : (s.actors a).opts.wait <;> simp [hwait]
  all_goals simp [State.remove, State.schedule, Actor.cancelIdle]

theorem guards_set (hborn : e.births = 0) {g : UInt64} {t : ℕ} :
    (.guarding e.actor g t ∈ e.calls → (s.actors e.actor).opts.releaseGuard = true) ∧
      (answers t (e.write (s.actors e.actor)).life = answers t (s.actors e.actor).life ∨
        ∃ g, .guarding e.actor g t ∈ source) := by
  cases h
  case spawn => cases hborn
  case release a g' u _ _ hgd => exact ⟨fun _ => hgd, .inl rfl⟩
  case allow a g' u | deny a g' u =>
    refine ⟨by simp, ?_⟩
    simp only [Actor.life_record, answers_append]
    by_cases hu : u = t
    · exact .inr ⟨g', by simp [hu]⟩
    · exact .inl (by rw [if_neg hu, Nat.add_zero])
  case init a | start a | destroy a =>
    refine ⟨by simp, .inl (answers_other ?_)⟩
    cases hpro : (s.actors a).processor <;> rfl
  case lock =>
    refine ⟨by simp, .inl ?_⟩
    dsimp only
    split
    · exact answers_other rfl
    · rfl
  case finish =>
    refine ⟨by simp, .inl ?_⟩
    dsimp only
    split
    · exact (answers_other rfl).trans (answers_other rfl)
    · exact answers_other rfl
  all_goals
    refine ⟨by simp [State.remove, State.schedule], .inl ?_⟩
    first | rfl | exact answers_other rfl

end

end Does

namespace Guarded

variable {s s' : State} {source others : List Call} {e : Effect} {a t : ℕ}

section

variable (h : s.Turn source e others s')

include h

theorem once_turn (hg : Guarded s a t) (hle : s'.unanswered a t + answers t (s'.actors a).life ≤
      s.unanswered a t + answers t (s.actors a).life +
        if s.ids ≤ t ∧ t < s.ids + e.ids then 1 else 0) :
    s'.unanswered a t + answers t (s'.actors a).life ≤ 1 ∧
      (s'.ids ≤ t → s'.unanswered a t + answers t (s'.actors a).life = 0) := by
  have honce := hg.once
  rw [h.ids_eq]
  by_cases hnew : s.ids ≤ t ∧ t < s.ids + e.ids
  · have hfr := hg.fresh hnew.1
    rw [if_pos hnew] at hle
    exact ⟨by omega, fun hids => by omega⟩
  rw [if_neg hnew] at hle
  refine ⟨by omega, fun hids => ?_⟩
  have hfr := hg.fresh (by omega)
  omega

theorem turn_other (hg : Guarded s a t) (hne : a ≠ e.actor) : Guarded s' a t := by
  obtain ⟨⟨hsrc, hcs⟩, hsrc', hcs'⟩ := h.does.guards_of_ne hne t
  have hact := h.actor_of_ne hne
  have hmay : s'.calls.countP (mayCancel a t) = s.calls.countP (mayCancel a t) := by
    rw [h.before.countP_eq, h.after.countP_eq, countP_append, countP_append, hsrc',
      hcs']
  have hwait : s'.unanswered a t ≤ s.unanswered a t +
      if s.ids ≤ t ∧ t < s.ids + e.ids then 1 else 0 := by
    have htim := h.does.timers_is a t
    rw [State.unanswered, State.unanswered, h.timers_eq, h.before.countP_eq, h.after.countP_eq,
      countP_append, countP_append]
    omega
  have hkeep : ∀ c ∈ s'.calls, c.awaitsGuard a t = true ∨ c.mayCancel a t = true →
      c ∈ s.calls := by
    intro c hc hthis
    rcases mem_append.mp (h.after.mem_iff.mp hc) with hnew | hold
    · rcases hthis with hawa | hcan
      · exact absurd hawa (countP_eq_zero.mp hcs c hnew)
      · exact absurd hcan (countP_eq_zero.mp hcs' c hnew)
    · exact h.before.mem_iff.mpr (mem_append_right _ hold)
  obtain ⟨honce, hfr⟩ := hg.once_turn h (by rw [hact]; omega)
  refine ⟨honce, hfr, ?_, ?_, ?_⟩
  · rw [hact]
    refine fun hrun => hg.guard (hrun.imp_left ?_)
    exact fun ⟨g, hmem⟩ => ⟨g, hkeep _ hmem (.inl (by simp [awaitsGuard]))⟩
  · rw [hact, hmay]
    exact hg.exact
  · rw [hact]
    refine fun hopts => ⟨fun hmem => ?_, (hg.silent hopts).2⟩
    exact (hg.silent hopts).1 (hkeep _ hmem (.inr (by simp [mayCancel])))

theorem guard_turn (hg : Guarded s e.actor t) (hborn : e.births = 0)
    (hrun : (∃ g, .guarding e.actor g t ∈ s'.calls) ∨ 0 < answers t (s'.actors e.actor).life) :
    (s'.actors e.actor).opts.releaseGuard = true := by
  rw [h.actor_eq, h.does.opts_eq hborn]
  rcases hrun with ⟨g, hmem⟩ | hans
  · rcases mem_append.mp (h.after.mem_iff.mp hmem) with hnew | hold
    · exact (h.does.guards_set hborn).1 hnew
    · exact hg.guard (.inl ⟨g, h.before.mem_iff.mpr (mem_append_right _ hold)⟩)
  rw [h.actor_eq] at hans
  rcases (h.does.guards_set hborn (g := 0)).2 with hsame | ⟨g, hmem⟩
  · exact hg.guard (.inr (hsame ▸ hans))
  · exact hg.guard (.inl ⟨g, h.before.mem_iff.mpr (mem_append_left _ hmem)⟩)

theorem turn_self (hg : Guarded s e.actor t) (hborn : e.births = 0) : Guarded s' e.actor t := by
  have hopts : (s'.actors e.actor).opts = (s.actors e.actor).opts := by
    rw [h.actor_eq, h.does.opts_eq hborn]
  obtain ⟨honce, hfr⟩ := hg.once_turn h (by
    have hle := h.does.unanswered hborn t
    rw [State.unanswered, State.unanswered, h.timers_eq, h.before.countP_eq, h.after.countP_eq,
      countP_append, countP_append, h.actor_eq]
    omega)
  refine ⟨honce, hfr, hg.guard_turn h hborn, ?_, ?_⟩
  · rw [hopts]
    intro hset
    have hbal := hg.exact hset
    rw [h.before.countP_eq, countP_append] at hbal
    rw [h.after.countP_eq, countP_append, h.actor_eq]
    exact h.does.balanced hborn hset t _ hbal
  · rw [hopts]
    intro hset
    obtain ⟨hcal, hcan⟩ := hg.silent hset
    obtain ⟨hnew, hrec⟩ := h.does.cancels_set hborn hset
    constructor
    · intro hmem
      rcases mem_append.mp (h.after.mem_iff.mp hmem) with hsta | hold
      · exact hnew hsta
      · exact hcal (h.before.mem_iff.mpr (mem_append_right _ hold))
    · rw [h.actor_eq]
      intro hmem
      rcases hrec hmem with hold | hsrc
      · exact hcan hold
      · exact hcal (h.before.mem_iff.mpr (mem_append_left _ hsrc))

end

theorem turn_spawn (hb : Born s) (h : s.Turn source e others s') (hborn : e.births = 1) :
    Guarded s' e.actor t := by
  have hlife : (s'.actors e.actor).life = [] := by rw [h.actor_eq, h.does.life_spawn hborn]
  have hmade : e.actor = s.made := by
    rcases h.does.births_eq with hzero | hspa
    · omega
    · exact hspa.2
  have htim : s'.timers.countP (Timer.is e.actor t) = 0 := by
    rw [h.timers_eq]
    refine countP_eq_zero.mpr fun u hu his => ?_
    have hold : u ∈ s.timers := by
      cases h.does with
      | spawn => exact hu
      | _ => cases hborn
    have hlt := hb.timers u hold
    simp only [Timer.is, Bool.and_eq_true, decide_eq_true_eq] at his
    omega
  have hcs : ∀ c ∈ s'.calls, c.subject = some e.actor → c = .locking e.actor := by
    intro c hc hsub
    rcases mem_append.mp (h.after.mem_iff.mp hc) with hnew | hold
    · cases h.does with
      | spawn => exact mem_singleton.mp hnew
      | _ => cases hborn
    have hlt := hb.calls c (h.before.mem_iff.mpr (mem_append_right _ hold)) _ hsub
    omega
  have hzero : ∀ p : Call → Bool, (∀ c, p c = true → c.subject = some e.actor) →
      p (.locking e.actor) = false → s'.calls.countP p = 0 := by
    intro p hp hloc
    refine countP_eq_zero.mpr fun c hc hpc => ?_
    rw [hcs c hc (hp c hpc), hloc] at hpc
    cases hpc
  have hawa := hzero (awaitsGuard e.actor t) (fun _ => subject_of_awaitsGuard) rfl
  have hcan := hzero (mayCancel e.actor t) (fun _ => subject_of_mayCancel) rfl
  have huna : s'.unanswered e.actor t + answers t (s'.actors e.actor).life = 0 := by
    rw [State.unanswered, htim, hawa, hlife]
    rfl
  refine ⟨huna.trans_le (Nat.zero_le 1), fun _ => huna, ?_, fun _ => ?_, fun _ => ?_⟩
  · rintro (⟨g, hmem⟩ | hpos)
    · cases hcs _ hmem rfl
    · omega
  · rw [hcan, hlife]
    rfl
  · rw [hlife]
    exact ⟨fun hmem => (nomatch hcs _ hmem rfl), not_mem_nil⟩

theorem init (a t : ℕ) : Guarded State.init a t where
  once := Nat.zero_le _
  fresh := fun _ => rfl
  guard := by
    rintro (⟨g, hmem⟩ | hpos)
    · cases hmem
    · cases hpos
  exact := fun _ => rfl
  silent := fun _ => ⟨not_mem_nil, not_mem_nil⟩

end Guarded

structure IdleSound (s : State) : Prop where
  sound : Sound s
  born : Born s
  armed : ∀ a, Armed s a
  guarded : ∀ a t, Guarded s a t

namespace IdleSound

variable {s s' : State} {source others : List Call} {e : Effect}

theorem turn (hs : IdleSound s) (h : s.Turn source e others s')
    (hup : ∀ a < s.made, (s.actors a).idleGeneration ≤ (s'.actors a).idleGeneration) :
    IdleSound s' where
  sound := hs.sound.turn h
  born := hs.born.turn hs.sound h
  armed := by
    intro a
    by_cases ha : a = e.actor
    · subst ha
      exact (hs.armed e.actor).turn_self hs.sound hs.born h hup
    · exact (hs.armed a).turn_other h ha
  guarded := by
    intro a t
    by_cases ha : a = e.actor
    · subst ha
      rcases h.does.births_eq with hborn | ⟨hborn, -⟩
      · exact (hs.guarded e.actor t).turn_self h hborn
      · exact Guarded.turn_spawn hs.born h hborn
    · exact (hs.guarded a t).turn_other h ha

theorem run {acts : List Act}
    (h : Run (guardedRel State.step State.ascends) State.init acts s) : IdleSound s := by
  refine run_states IdleSound ⟨Sound.init, Born.init, Armed.init, Guarded.init⟩ ?_ h
  intro s act s' hs hup hnext
  obtain ⟨e, others, hturn⟩ := State.turn_of_next hnext
  exact hs.turn hturn fun a ha => State.le_of_ascends hup hnext ha

end IdleSound

namespace Guarded

variable {s : State} {a t : ℕ}

theorem takesBack (hg : Guarded s a t) (hset : (s.actors a).opts.releaseGuardCanceled = true)
    (hall : .guarded t true ∈ (s.actors a).life) : (s.actors a).opts.takesBack = true := by
  have hpos : 0 < answers t (s.actors a).life :=
    Nat.add_pos_left (count_pos_iff.mpr hall) _
  rw [Options.takesBack, hg.guard (.inr hpos), hset]
  rfl

theorem countP_committed (hnone : ∀ g, .committed t g ∉ (s.actors a).life) :
    (s.actors a).life.countP (Life.isCommitted t) = 0 := by
  refine countP_eq_zero.mpr fun l hl hcom => ?_
  cases l with
  | committed u g =>
    obtain rfl : u = t := by simpa [Life.isCommitted] using hcom
    exact hnone g hl
  | _ => cases hcom

theorem cancels (hg : Guarded s a t) (hset : (s.actors a).opts.releaseGuardCanceled = true)
    (hall : .guarded t true ∈ (s.actors a).life)
    (hnone : ∀ g, .committed t g ∉ (s.actors a).life) :
    (s.actors a).life.count (.canceled t) + s.calls.countP (mayCancel a t) = 1 := by
  have hbal := hg.exact (hg.takesBack hset hall)
  have hpos : 0 < (s.actors a).life.count (.guarded t true) := count_pos_iff.mpr hall
  have honce := hg.once
  rw [Balanced, countP_committed hnone] at hbal
  rw [answers] at honce
  omega

theorem canceled (hg : Guarded s a t) (hcan : .canceled t ∈ (s.actors a).life) :
    (s.actors a).life.count (.canceled t) = 1 ∧ .guarded t true ∈ (s.actors a).life ∧
      .guarded t false ∉ (s.actors a).life ∧ ∀ g, .committed t g ∉ (s.actors a).life := by
  have hset : (s.actors a).opts.takesBack = true := by
    by_contra hnot
    exact (hg.silent (Bool.eq_false_iff.mpr hnot)).2 hcan
  have hbal := hg.exact hset
  have hpos : 0 < (s.actors a).life.count (.canceled t) := count_pos_iff.mpr hcan
  have honce := hg.once
  rw [Balanced] at hbal
  rw [answers] at honce
  refine ⟨by omega, count_pos_iff.mp (by omega), count_eq_zero.mp (by omega), ?_⟩
  intro g hmem
  have hcom : 0 < (s.actors a).life.countP (Life.isCommitted t) :=
    countP_pos_iff.mpr ⟨_, hmem, by simp [Life.isCommitted]⟩
  omega

end Guarded

theorem State.Turn.generations_denied {s s' : State} {e : Effect} {others : List Call} {a t : ℕ}
    {g : UInt64} (h : s.Turn [.denied a g t] e others s') (b : ℕ) :
    (s'.actors b).idleGeneration = (s.actors b).idleGeneration := by
  by_cases hb : b = e.actor
  · subst hb
    rw [h.actor_eq]
    cases h.does <;> rfl
  · rw [h.actor_of_ne hb]

/-- In every state that is reached without a generation that wraps around, every actor keeps to the
protocol of an idle release. -/
theorem idle_protocol (acts : List Act) (s : State)
    (h : Run (guardedRel State.step State.ascends) State.init acts s) :
    ∀ a, IdleProtocol s a := by
  have hs := IdleSound.run h
  intro a
  refine ⟨(hs.armed a).commits, fun t => ?_, fun t => (hs.guarded a t).cancels,
    fun t => (hs.guarded a t).canceled, ?_⟩
  · have honce := (hs.guarded a t).once
    omega
  · intro i choice g t s' hc hnext hdes hgen
    obtain ⟨e, others, hturn⟩ := State.turn_of_next hnext
    rw [State.source, hc] at hturn
    have harm := (hs.turn hturn fun b _ => by
      rw [hturn.generations_denied b]
      exact UInt64.le_refl _).armed a
    exact harm.retry hturn hdes hgen

/-- An idle actor with a guard, which first denies its release and then allows it; an `Idle` comes
before the commit, which is taken back, and the release of the new generation is committed. -/
def idledTwice : List Act :=
  [.spawn ⟨"1", "room", false, true, true, false, true⟩] ++ steps 5 0 ++
    [.idle 0, .fire ⟨0, 0, 1⟩, .step 0 true, .step 0 false, .step 0 true, .fire ⟨1, 0, 1⟩,
      .step 0 true, .step 0 true, .idle 0, .step 0 true, .step 0 true, .fire ⟨2, 0, 2⟩,
      .step 0 true, .step 0 true, .step 0 true]

theorem idledTwice_isSome :
    (exec State.step State.ascends State.init idledTwice).isSome = true := rfl

theorem idledTwice_protocol :
    let s := ((exec State.step State.ascends State.init idledTwice).get idledTwice_isSome).2
    (s.actors 0).life = [.init, .start, .idle 1, .guarded 0 false, .guarded 1 true, .idle 2,
      .canceled 1, .guarded 2 true, .committed 2 2] ∧ ∀ a, IdleProtocol s a :=
  ⟨by decide +kernel, idle_protocol _ _ (run_of_exec _ idledTwice_isSome)⟩

section FullTurn

/-- The idle actor is about to be released. -/
def released : List Act :=
  [.spawn ⟨"1", "room", false, true, false, false, false⟩] ++ steps 5 0 ++
    [.idle 0, .fire ⟨0, 0, 1⟩, .step 0 true]

theorem released_isSome :
    (exec State.step (fun _ _ => true) State.init released).isSome = true := rfl

theorem run_actives {s : State} (hmade : 0 < s.made) (hdes : (s.actors 0).destroyed = false)
    (n : ℕ) : ∃ s', Run (guardedRel State.step fun _ _ => true) s (replicate n (.active 0)) s' ∧
      s'.made = s.made ∧ s'.calls = s.calls ∧ s'.mu = s.mu ∧ s'.registry = s.registry ∧
      s'.actors 0 = { s.actors 0 with
        idleTimer := (s'.actors 0).idleTimer
        idleGeneration := (s.actors 0).idleGeneration + UInt64.ofNat n
        life := (s.actors 0).life ++ replicate n .active } := by
  induction n with
  | zero => exact ⟨s, .nil, rfl, rfl, rfl, rfl, by simp⟩
  | succ n ih =>
    obtain ⟨s', hrun, hmade', hcalls, hmu, hreg, hactor⟩ := ih
    have hmay : 0 < s'.made ∧ (s'.actors 0).destroyed = false := by
      rw [hmade', hactor]
      exact ⟨hmade, hdes⟩
    have hstep : s'.step (.active 0) = some (s'.apply (s'.calls ++ [])
        { calls := []
          actor := 0
          write := fun x => x.cancelIdle.record .active
          timers := (s'.actors 0).stop }, .active 0) := by
      show ((s'.begin (.active 0)).map _).map _ = _
      rw [State.begin, if_pos hmay]
      rfl
    rw [replicate_succ']
    refine ⟨_, hrun.snoc ⟨_, rfl, hstep⟩, hmade', ?_, hmu, hreg, ?_⟩
    · exact (append_nil _).trans hcalls
    · simp only [State.apply, Function.update_self, Actor.record, Actor.cancelIdle]
      rw [hactor, replicate_succ']
      simp [UInt64.ofNat_add, UInt64.add_assoc]

theorem not_undisturbed {g : UInt64} {life : List Life} : ¬ Undisturbed g (life ++ [.active]) := by
  rintro ⟨before, since, heq, hsin⟩
  rcases eq_nil_or_concat since with rfl | ⟨since, last, rfl⟩
  · exact absurd (singleton_inj.mp (append_inj' heq rfl).2) Life.noConfusion
  rw [concat_eq_append, ← cons_append, ← append_assoc] at heq
  have hlast := singleton_inj.mp (append_inj' heq rfl).2
  have hdis := hsin last (by simp)
  rw [← hlast] at hdis
  cases hdis

theorem commits_disturbed {n : ℕ} (hpos : n ≠ 0) (hn : UInt64.ofNat n = 0) :
    ∃ s, Run (guardedRel State.step fun _ _ => true) State.init
      (released ++ replicate n (.active 0) ++ [.step 0 true]) s ∧ ¬ Commits (s.actors 0).life := by
  have hrun := run_of_exec released released_isSome
  generalize hs : (exec State.step (fun _ _ => true) State.init released).get released_isSome = r
    at hrun
  have htrace : r.1 = released := hs ▸ rfl
  rw [htrace] at hrun
  have hmade : 0 < r.2.made := hs ▸ Nat.one_pos
  have hdes : (r.2.actors 0).destroyed = false := hs ▸ rfl
  have hcall : r.2.calls = [.committing 0 1 0] := hs ▸ rfl
  have hmu : r.2.mu = false := hs ▸ rfl
  have hreg : r.2.registry (r.2.pid 0) = some 0 := hs ▸ rfl
  have hgen : (r.2.actors 0).idleGeneration = 1 := hs ▸ rfl
  obtain ⟨s, hactives, -, hcalls, hmu', hreg', hactor⟩ := run_actives hmade hdes n
  have hpid : s.pid 0 = r.2.pid 0 := by
    rw [State.pid, hactor]
    rfl
  have hmay : s.mayCommit 0 1 = true := by
    rw [State.mayCommit, hpid, hreg', hreg, hactor, hn, hgen, hdes]
    rfl
  have hlife : (s.actors 0).life = (r.2.actors 0).life ++ replicate n .active := by
    rw [hactor]
  have hstep : ∃ s', s.step (.step 0 true) = some (s', .step 0 true) ∧
      (s'.actors 0).life = (s.actors 0).life ++ [.committed 0 1] := by
    simp [State.step, State.next, State.effect, hcalls, hcall, hmu', hmu, hmay, State.apply,
      Actor.cancelIdle]
  obtain ⟨s', hstep, hlast⟩ := hstep
  refine ⟨s', (run_append hrun hactives).snoc ⟨_, rfl, hstep⟩, fun hcom => ?_⟩
  have hund := hcom _ [] 0 1 hlast
  obtain ⟨m, rfl⟩ := Nat.exists_eq_succ_of_ne_zero hpos
  rw [hlife, replicate_succ', ← append_assoc] at hund
  exact not_undisturbed hund

/-- After `2 ^ 64` more calls of `Active` the generation is that of the release again, and the actor
is killed although it has been active. -/
theorem commits_after_full_turn : ∃ s, Run (guardedRel State.step fun _ _ => true) State.init
      (released ++ replicate 18446744073709551616 (.active 0) ++ [.step 0 true]) s ∧
    ¬ Commits (s.actors 0).life :=
  commits_disturbed (by decide) rfl

end FullTurn

end DueServer.Scheduler
