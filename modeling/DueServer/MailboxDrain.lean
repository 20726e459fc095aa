import DueServer.MailboxSteps

/-! What becomes of the contexts and functions that an actor has accepted: the loop can end with a
closed channel while the other one is not empty. -/
namespace DueServer.Mailbox

open Lib Actor List

namespace Frame

def isLoop : Frame → Bool
  | selecting | handling _ _ _ | comparing _ _ _ | posting _ | running _ => true
  | _ => false

def works (t : ℕ) : Frame → Bool
  | handling t' _ _ | comparing t' _ _ | posting t' => t' = t
  | _ => false

def Current (a : Actor) : Frame → Prop
  | handling t obj v | comparing t obj v => t ∈ a.handedOn ∨ a.versions obj = v
  | _ => True

theorem current_of_not_isLoop {f : Frame} (h : f.isLoop = false) (a : Actor) : f.Current a := by
  cases f with
  | handling | comparing => cases h
  | _ => trivial

theorem holds_of_sends {f : Frame} {c : Chan} (h : f.sends c = true) : f.holds = true := by
  cases f with
  | marking | sending => rfl
  | _ => cases h

end Frame

namespace State

/-- `dispatch` has returned: none of its frames is left. -/
def returned (s : State) : Bool := !(frames s.threads).any Frame.isLoop

def closesEmpty (s : State) (act : Act) : Bool :=
  (s.mover act).all fun t =>
    match t.stack with
    | .closing :: _ => (s.actor.queue .mailbox).isEmpty && (s.actor.queue .fnChan).isEmpty
    | _ => true

end State

/-- Of what an actor has accepted, nothing is dropped: every context in the mailbox was received,
and recycled unless it was handed on meanwhile; every function accepted before the destruction was
executed. -/
structure Kept (a : Actor) : Prop where
  received : ∀ t ∈ a.placed, t ∈ a.received .mailbox
  recycled : ∀ t ∈ a.received .mailbox, t ∉ a.handedOn → t ∈ a.recycled
  executed : ∀ t ∈ a.accepted, t ∈ a.executed

def Actor.Arrived (a : Actor) (c : Chan) (t : ℕ) : Prop :=
  t ∈ a.received c ∨ ∃ item ∈ a.queue c, item.ticket = t

namespace Actor

variable {a : Actor} {item : Item} {t : ℕ}

theorem mem_placed_send (h : t ∈ (a.send item).placed) :
    t ∈ a.placed ∨ item.chan = .mailbox ∧ t = item.ticket := by
  simp only [send] at h
  split at h
  · rename_i hchan
    refine (mem_append.mp h).imp_right fun h => ⟨hchan, mem_singleton.mp h⟩
  · exact .inl h

theorem mem_accepted_accept (h : t ∈ (a.accept item).accepted) :
    t ∈ a.accepted ∨ item.chan = .fnChan ∧ t = item.ticket := by
  simp only [accept] at h
  split at h
  · rename_i hchan
    refine (mem_append.mp h).imp_right fun h => ⟨hchan.1, mem_singleton.mp h⟩
  · exact .inl h

theorem arrived_send (a : Actor) (item : Item) : (a.send item).Arrived item.chan item.ticket :=
  .inr ⟨item, a.queue_send_self item ▸ mem_append_right _ (mem_singleton.mpr rfl), rfl⟩

theorem mem_received_take {c c' : Chan} {rest : List Item}
    (h : t ∈ (a.take c' item rest).received c) :
    t ∈ a.received c ∨ c = c' ∧ t = item.ticket := by
  by_cases hc : c = c'
  · subst hc
    rw [received_take_self] at h
    exact (mem_append.mp h).imp_right fun h => ⟨rfl, mem_singleton.mp h⟩
  · exact .inl (received_take_of_ne hc item rest a ▸ h)

theorem current_incrVersion {s : State} {f : Frame} (obj : ℕ) (hf : f ∈ frames s.threads)
    (h : f.Current s.actor) : f.Current (s.actor.incrVersion obj (s.handled obj)) := by
  have hwork : ∀ {t o : ℕ} {v : Int32}, f.handles o = some t →
      t ∈ s.actor.handedOn ∨ s.actor.versions o = v →
      t ∈ s.actor.handedOn ++ s.handled obj ∨
        Function.update s.actor.versions obj (s.actor.versions obj + 1) o = v := by
    intro t o v hhan hold
    by_cases ho : o = obj
    · subst ho
      exact .inl (mem_append_right _ (mem_filterMap.mpr ⟨f, hf, hhan⟩))
    rw [Function.update_of_ne ho]
    exact hold.imp_left (mem_append_left _)
  cases f with
  | handling t o v | comparing t o v => exact hwork (if_pos rfl) h
  | _ => trivial

end Actor

structure Accounted (s : State) : Prop where
  tidy : ∀ c, ∀ item ∈ s.actor.queue c, item.chan = c
  placed : ∀ t ∈ s.actor.placed, s.actor.Arrived .mailbox t
  sent : ∀ item, .returning item ∈ frames s.threads → s.actor.Arrived item.chan item.ticket
  accepted : ∀ t ∈ s.actor.accepted, s.actor.Arrived .fnChan t
  single : (frames s.threads).countP Frame.isLoop ≤ 1
  current : ∀ f ∈ frames s.threads, f.Current s.actor
  taken : ∀ t ∈ s.actor.received .mailbox,
    t ∈ s.actor.recycled ∨ t ∈ s.actor.handedOn ∨ ∃ f ∈ frames s.threads, f.works t = true
  invoked : ∀ t ∈ s.actor.received .fnChan,
    t ∈ s.actor.executed ∨ .running t ∈ frames s.threads

structure Shut (s : State) : Prop where
  destroyed : ∀ f ∈ frames s.threads, f.destroys = true → s.actor.destroyed = true
  order : s.actor.closed .fnChan = true ∨ .closingFn ∈ frames s.threads →
    s.actor.closed .mailbox = true
  closed : s.actor.closed .mailbox = true → s.actor.destroyed = true ∧
    (∀ f ∈ frames s.threads, ∀ c, f.sends c = false) ∧ ∀ c, s.actor.queue c = []
  ended : s.returned = true → s.actor.closed .mailbox = true

namespace Does

variable {s : State} {f : Frame} {choice : Choice} {e : Effect}

theorem tidy (h : Does s f choice e) (hold : ∀ c, ∀ item ∈ s.actor.queue c, item.chan = c) :
    ∀ c, ∀ item ∈ (e.write s.actor).queue c, item.chan = c := by
  have htake : ∀ {c' : Chan} {item : Item} {rest : List Item}, s.actor.queue c' = item :: rest →
      ∀ c, ∀ i ∈ (s.actor.take c' item rest).queue c, i.chan = c := by
    intro c' item rest hqu c i hi
    by_cases hc : c = c'
    · subst hc
      rw [queue_take_self] at hi
      exact hold c i (hqu ▸ mem_cons_of_mem _ hi)
    rw [queue_take_of_ne hc] at hi
    exact hold c i hi
  cases h
  case takeContext hqu | takeFunction hqu => exact htake hqu
  case send item =>
    intro c i hi
    by_cases hc : c = item.chan
    · subst hc
      rw [queue_send_self] at hi
      rcases mem_append.mp hi with hi | hi
      · exact hold _ i hi
      · rw [mem_singleton.mp hi]
    · rw [queue_send_of_ne hc] at hi
      exact hold c i hi
  all_goals exact hold

variable {t : ℕ}

section

variable (h : Does s f choice e)

include h

theorem arrived_mono {c : Chan} (hold : s.actor.Arrived c t) : (e.write s.actor).Arrived c t := by
  have htake : ∀ {c' : Chan} {item : Item} {rest : List Item}, s.actor.queue c' = item :: rest →
      (s.actor.take c' item rest).Arrived c t := by
    intro c' item rest hqu
    by_cases hc : c = c'
    · subst hc
      rw [Actor.Arrived, queue_take_self, received_take_self]
      rcases hold with hold | ⟨i, hi, rfl⟩
      · exact .inl (mem_append_left _ hold)
      rcases mem_cons.mp (hqu ▸ hi) with rfl | hi
      · exact .inl (mem_append_right _ (mem_singleton.mpr rfl))
      · exact .inr ⟨i, hi, rfl⟩
    · rw [Actor.Arrived, queue_take_of_ne hc, received_take_of_ne hc]
      exact hold
  cases h
  case takeContext hqu | takeFunction hqu => exact htake hqu
  case send item =>
    refine hold.imp_right ?_
    rintro ⟨i, hi, ht⟩
    by_cases hc : c = item.chan
    · subst hc
      exact ⟨i, queue_send_self item s.actor ▸ mem_append_left _ hi, ht⟩
    · exact ⟨i, queue_send_of_ne hc s.actor ▸ hi, ht⟩
  all_goals exact hold

theorem placed (hold : ∀ t ∈ s.actor.placed, s.actor.Arrived .mailbox t) :
    ∀ t ∈ (e.write s.actor).placed, (e.write s.actor).Arrived .mailbox t := by
  intro t ht
  by_cases hpla : t ∈ s.actor.placed
  · exact h.arrived_mono (hold t hpla)
  cases h
  case send item =>
    rcases mem_placed_send ht with ht | ⟨hchan, rfl⟩
    · exact absurd ht hpla
    · exact hchan ▸ s.actor.arrived_send item
  all_goals exact absurd ht hpla

theorem sent {item : Item} (hitem : .returning item ∈ e.frames ++ e.started)
    (hold : f = .returning item → s.actor.Arrived item.chan item.ticket) :
    (e.write s.actor).Arrived item.chan item.ticket := by
  cases h
  case send =>
    cases mem_singleton.mp hitem
    exact s.actor.arrived_send item
  case enter | destroy | late | start | afterFunc | afterInvoke | handOn =>
    simp only [cons_append, nil_append, mem_cons, reduceCtorEq, not_mem_nil,
      or_false, false_or] at hitem
    exact hold hitem.symm
  all_goals simp at hitem

theorem accepted (hsent : ∀ item, f = .returning item → s.actor.Arrived item.chan item.ticket)
    (hold : ∀ t ∈ s.actor.accepted, s.actor.Arrived .fnChan t) :
    ∀ t ∈ (e.write s.actor).accepted, (e.write s.actor).Arrived .fnChan t := by
  intro t ht
  by_cases hacc : t ∈ s.actor.accepted
  · exact h.arrived_mono (hold t hacc)
  cases h
  case accept item =>
    rcases mem_accepted_accept ht with ht | ⟨hchan, rfl⟩
    · exact absurd ht hacc
    · exact hchan ▸ hsent item rfl
  all_goals exact absurd ht hacc

theorem handedOn_mono (ht : t ∈ s.actor.handedOn) : t ∈ (e.write s.actor).handedOn := by
  cases h
  case handOn | mark => exact mem_append_left _ ht
  all_goals exact ht

theorem recycled_mono (ht : t ∈ s.actor.recycled) : t ∈ (e.write s.actor).recycled := by
  cases h
  case retPosting => exact mem_append_left _ ht
  all_goals exact ht

theorem executed_mono (ht : t ∈ s.actor.executed) : t ∈ (e.write s.actor).executed := by
  cases h
  case retRunning => exact mem_append_left _ ht
  all_goals exact ht

theorem isLoop_count : (e.frames ++ e.started).countP Frame.isLoop = [f].countP Frame.isLoop ∨
      (e.frames ++ e.started).countP Frame.isLoop = 0 ∧ ∃ c, s.actor.closed c = true := by
  cases h
  case done c hqu hcl => exact .inr ⟨rfl, c, hcl⟩
  all_goals exact .inl rfl

theorem current_old {g : Frame} (hg : g ∈ frames s.threads)
    (hloop : f.isLoop = true → g.isLoop = false) (hold : g.Current s.actor) :
    g.Current (e.write s.actor) := by
  cases h
  case handOn obj | mark t obj => exact current_incrVersion obj hg hold
  case same => exact Frame.current_of_not_isLoop (hloop rfl) _
  all_goals exact hold

theorem current_new (hf : f ∈ frames s.threads) (hold : f.Current s.actor) :
    ∀ g ∈ e.frames ++ e.started, g.Current (e.write s.actor) := by
  intro g hg
  cases h
  case enter | destroy | late | start | afterFunc | afterInvoke =>
    simp only [cons_append, nil_append, mem_cons, not_mem_nil, or_false] at hg
    rcases hg with rfl | rfl <;> first | exact hold | trivial
  case handOn obj =>
    cases mem_singleton.mp hg
    exact current_incrVersion obj hf hold
  case takeContext =>
    cases mem_singleton.mp hg
    exact .inr rfl
  case retHandling =>
    cases mem_singleton.mp hg
    exact hold
  case retOutside | retCallback | retInHook | done | firedLate | refuse | giveUp | accept | absent
    | swapped => cases hg
  all_goals
    rw [mem_singleton.mp hg]
    trivial

theorem works (hwor : f.works t = true) (hcur : f.Current s.actor) :
    t ∈ (e.write s.actor).recycled ∨ t ∈ (e.write s.actor).handedOn ∨
      ∃ g ∈ e.frames, g.works t = true := by
  cases h
  case enter | destroy => exact .inr (.inr ⟨f, by simp, hwor⟩)
  case late | start | afterFunc | afterInvoke | handOn =>
    exact .inr (.inr ⟨f, mem_singleton.mpr rfl, hwor⟩)
  case retHandling | same => exact .inr (.inr ⟨_, mem_singleton.mpr rfl, hwor⟩)
  case moved t' obj v hver =>
    rcases hcur with hhan | hsame
    · exact .inr (.inl (of_decide_eq_true hwor ▸ hhan))
    · exact absurd hsame hver
  case retPosting =>
    rw [← of_decide_eq_true hwor]
    exact .inl (mem_append_right _ (mem_singleton.mpr rfl))
  all_goals cases hwor

/-- A context that is received is worked on, and a function runs. -/
theorem received_new {c : Chan} (htidy : ∀ c, ∀ item ∈ s.actor.queue c, item.chan = c)
    (ht : t ∈ (e.write s.actor).received c) : t ∈ s.actor.received c ∨
      match c with
      | .mailbox => ∃ g ∈ e.frames, g.works t = true
      | .fnChan => .running t ∈ e.frames := by
  cases h
  case takeContext c' t' obj rest hqu =>
    refine (mem_received_take ht).imp_right fun ⟨hc, heq⟩ => ?_
    obtain rfl := hc.trans (htidy c' _ (hqu ▸ mem_cons_self)).symm
    exact ⟨_, mem_singleton.mpr rfl, decide_eq_true heq.symm⟩
  case takeFunction c' t' patient rest hqu =>
    refine (mem_received_take ht).imp_right fun ⟨hc, heq⟩ => ?_
    obtain rfl := hc.trans (htidy c' _ (hqu ▸ mem_cons_self)).symm
    exact heq ▸ mem_singleton.mpr rfl
  all_goals exact .inl ht

end

theorem runs_on (h : Does s (.running t) choice e) :
    t ∈ (e.write s.actor).executed ∨ .running t ∈ e.frames := by
  cases h
  case enter | destroy => exact .inr (by simp)
  case retRunning => exact .inl (mem_append_right _ (mem_singleton.mpr rfl))
  all_goals exact .inr (mem_singleton.mpr rfl)

end Does

namespace Accounted

theorem init : Accounted State.init where
  tidy := by simp [State.init, new]
  placed := by simp [State.init, new]
  sent := by simp [State.init, frames]
  accepted := by simp [State.init, new]
  single := by decide
  current := by simp [State.init, frames, Frame.Current]
  taken := by simp [State.init, new]
  invoked := by simp [State.init, new]

variable {s s' : State} {act : Act} {role : Role} {f : Frame} {rest : List Frame} {e : Effect}
  {others : List (Thread Role Frame)}

section

variable (h : Accounted s) (ht : s.Turn act role f rest e others s')

include h ht

theorem not_isLoop {g : Frame} (hg : g ∈ rest ++ frames others) (hf : f.isLoop = true) :
    g.isLoop = false := by
  have hsin := h.single
  rw [ht.frames_before.countP_eq, countP_cons_of_pos hf] at hsin
  have hzero : (rest ++ frames others).countP Frame.isLoop = 0 := by omega
  exact Bool.eq_false_iff.mpr (countP_eq_zero.mp hzero g hg)

theorem single_turn : (frames s'.threads).countP Frame.isLoop ≤ 1 := by
  have hsin := h.single
  rw [ht.frames_before.countP_eq, ← singleton_append, countP_append] at hsin
  rw [ht.frames_after.countP_eq, countP_append]
  rcases ht.does.isLoop_count with hct | ⟨hct, _⟩ <;> omega

theorem current_turn : ∀ g ∈ frames s'.threads, g.Current s'.actor := by
  intro g hg
  rw [ht.actor]
  rcases mem_append.mp (ht.frames_after.mem_iff.mp hg) with hg | hg
  · exact ht.does.current_new ht.frame_mem (h.current f ht.frame_mem) g hg
  have hmem : g ∈ frames s.threads :=
    ht.frames_before.mem_iff.mpr (mem_cons_of_mem _ hg)
  exact ht.does.current_old hmem (h.not_isLoop ht hg) (h.current g hmem)

theorem sent_turn (item : Item) (hitem : .returning item ∈ frames s'.threads) :
    s'.actor.Arrived item.chan item.ticket := by
  rw [ht.actor]
  rcases mem_append.mp (ht.frames_after.mem_iff.mp hitem) with hnew | hold
  · refine ht.does.sent hnew ?_
    rintro rfl
    exact h.sent item ht.frame_mem
  have hmem : Frame.returning item ∈ frames s.threads :=
    ht.frames_before.mem_iff.mpr (mem_cons_of_mem _ hold)
  exact ht.does.arrived_mono (h.sent item hmem)

theorem taken_turn (t : ℕ) (htak : t ∈ s'.actor.received .mailbox) :
    t ∈ s'.actor.recycled ∨ t ∈ s'.actor.handedOn ∨
      ∃ g ∈ frames s'.threads, g.works t = true := by
  rw [ht.actor] at htak ⊢
  rcases ht.does.received_new h.tidy htak with hold | ⟨g, hg, hwor⟩
  · rcases h.taken t hold with hrec | hhan | ⟨g, hg, hwor⟩
    · exact .inl (ht.does.recycled_mono hrec)
    · exact .inr (.inl (ht.does.handedOn_mono hhan))
    · -- the frame that works on it has moved, or it has stayed
      rcases ht.stays hg with rfl | hg
      · rcases ht.does.works hwor (h.current g ht.frame_mem) with hend | hend | ⟨g, hg, hwor⟩
        · exact .inl hend
        · exact .inr (.inl hend)
        · exact .inr (.inr ⟨g, ht.new_mem hg, hwor⟩)
      · exact .inr (.inr ⟨g, hg, hwor⟩)
  · exact .inr (.inr ⟨g, ht.new_mem hg, hwor⟩)

theorem invoked_turn (t : ℕ) (hinv : t ∈ s'.actor.received .fnChan) :
    t ∈ s'.actor.executed ∨ .running t ∈ frames s'.threads := by
  rw [ht.actor] at hinv ⊢
  rcases ht.does.received_new h.tidy hinv with hold | hnew
  · rcases h.invoked t hold with hexe | hrun
    · exact .inl (ht.does.executed_mono hexe)
    · rcases ht.stays hrun with hf | hstay
      · have hdoes := ht.does
        rw [← hf] at hdoes
        exact hdoes.runs_on.imp_right ht.new_mem
      · exact .inr hstay
  · exact .inr (ht.new_mem hnew)

theorem turn : Accounted s' where
  tidy := ht.actor ▸ ht.does.tidy h.tidy
  placed := ht.actor ▸ ht.does.placed h.placed
  sent := h.sent_turn ht
  accepted := by
    rw [ht.actor]
    refine ht.does.accepted ?_ h.accepted
    rintro item rfl
    exact h.sent item ht.frame_mem
  single := h.single_turn ht
  current := h.current_turn ht
  taken := h.taken_turn ht
  invoked := h.invoked_turn ht

end

theorem run {G : State → Act → Bool} {tr : List Act}
    (h : Run (guardedRel State.step G) State.init tr s) : Accounted s := by
  refine run_invariant (fun _ s => Accounted s) init ?_ h
  intro tr s act s' hs hstep
  obtain ⟨_, role, f, rest, e, others, ht⟩ := turn_of_step hstep
  exact hs.turn ht

theorem kept (h : Accounted s) (hret : s.returned = true)
    (hem : ∀ c, s.actor.queue c = []) : Kept s.actor := by
  have hloop : ∀ f ∈ frames s.threads, f.isLoop = false := by
    intro f hf
    rw [State.returned, Bool.not_eq_true'] at hret
    exact Bool.eq_false_iff.mpr (any_eq_false.mp hret f hf)
  have harr : ∀ {c t}, s.actor.Arrived c t → t ∈ s.actor.received c := by
    rintro c t (hrec | ⟨item, hitem, _⟩)
    · exact hrec
    · rw [hem c] at hitem
      cases hitem
  refine ⟨fun t ht => harr (h.placed t ht), fun t ht hhand => ?_, fun t ht => ?_⟩
  · rcases h.taken t ht with hrecy | hhan | ⟨f, hf, hwor⟩
    · exact hrecy
    · exact absurd hhan hhand
    · have hf := hloop f hf
      cases f with
      | handling | comparing | posting => cases hf
      | _ => cases hwor
  · rcases h.invoked t (harr (h.accepted t ht)) with hexe | hrun
    · exact hexe
    · cases hloop _ hrun

end Accounted

namespace Does

variable {s : State} {f : Frame} {choice : Choice} {e : Effect}

section

variable (h : Does s f choice e)

include h

theorem sends_new (hdes : s.actor.destroyed = true) (hf : ∀ c, f.sends c = false) :
    ∀ g ∈ e.frames ++ e.started, ∀ c, g.sends c = false := by
  intro g hg c
  cases h
  case enter | destroy | late | start | afterFunc | afterInvoke | handOn =>
    simp only [cons_append, nil_append, mem_cons, not_mem_nil, or_false] at hg
    rcases hg with rfl | rfl <;> first | exact hf c | rfl
  case admitContext hdes' | admitFunction hdes' =>
    cases hdes.symm.trans hdes'
  case mark => cases hf .mailbox
  case retOutside | retCallback | retInHook | done | firedLate | refuse | giveUp | accept
    | absent | swapped => cases hg
  all_goals
    rw [mem_singleton.mp hg]
    rfl

theorem queue_empty (hf : ∀ c, f.sends c = false) (hem : ∀ c, s.actor.queue c = []) :
    ∀ c, (e.write s.actor).queue c = [] := by
  cases h
  case takeContext c _ _ _ hqu | takeFunction c _ _ _ hqu =>
    cases (hem c).symm.trans hqu
  case send item => exact absurd (hf item.chan) (by simp [Frame.sends])
  all_goals exact hem

theorem closed_mono {c : Chan} (hcl : s.actor.closed c = true) :
    (e.write s.actor).closed c = true := by
  have hclo : ∀ c', (s.actor.close c').closed c = true := by
    intro c'
    by_cases hc : c = c'
    · subst hc
      exact Function.update_self _ _ _
    · exact (Function.update_of_ne hc _ _).trans hcl
  cases h
  case close | closeFn => exact hclo _
  all_goals exact hcl

theorem closed_new : ((e.write s.actor).closed .mailbox = s.actor.closed .mailbox ∨
        f = .closing ∧ s.readers = false ∧ e.frames ++ e.started = [.closingFn] ∧
          e.write s.actor = s.actor.close .mailbox) ∧
      ((e.write s.actor).closed .fnChan = s.actor.closed .fnChan ∨ f = .closingFn) := by
  cases h
  case close hrds => exact ⟨.inr ⟨rfl, hrds, rfl, rfl⟩, .inl rfl⟩
  case closeFn => exact ⟨.inl rfl, .inr rfl⟩
  all_goals exact ⟨.inl rfl, .inl rfl⟩

theorem closingFn_new (hg : .closingFn ∈ e.frames ++ e.started) :
    f = .closingFn ∨ (e.write s.actor).closed .mailbox = true := by
  cases h
  case enter | destroy | late | start | afterFunc | afterInvoke | handOn =>
    simp only [cons_append, nil_append, mem_cons, reduceCtorEq, not_mem_nil,
      or_false, false_or] at hg
    exact .inl hg.symm
  case close => exact .inr rfl
  all_goals simp at hg

end

end Does

namespace Shut

theorem init : Shut State.init where
  destroyed := by decide
  order := by decide
  closed := by intro h; cases h
  ended := by intro h; cases h

variable {s s' : State} {act : Act} {role : Role} {f : Frame} {rest : List Frame} {e : Effect}
  {others : List (Thread Role Frame)}

theorem empty_of_closing (hG : s.closesEmpty act = true)
    (ht : s.Turn act role .closing rest e others s') (c : Chan) : s.actor.queue c = [] := by
  simp only [State.closesEmpty, ht.mover, Option.all_some, Bool.and_eq_true,
    List.isEmpty_iff] at hG
  cases c with
  | mailbox => exact hG.1
  | fnChan => exact hG.2

theorem order_turn (h : Shut s) (ht : s.Turn act role f rest e others s')
    (hclg : s'.actor.closed .fnChan = true ∨ .closingFn ∈ frames s'.threads) :
    s'.actor.closed .mailbox = true := by
  have hmono : s.actor.closed .fnChan = true ∨ .closingFn ∈ frames s.threads →
      s'.actor.closed .mailbox = true := fun hold =>
    ht.actor ▸ ht.does.closed_mono (h.order hold)
  rcases hclg with hcl | hmem
  · rw [ht.actor] at hcl
    rcases ht.does.closed_new.2 with hsame | rfl
    · exact hmono (.inl (hsame ▸ hcl))
    · exact hmono (.inr ht.frame_mem)
  rcases mem_append.mp (ht.frames_after.mem_iff.mp hmem) with hnew | hold
  · rcases ht.does.closingFn_new hnew with rfl | hcl
    · exact hmono (.inr ht.frame_mem)
    · exact ht.actor ▸ hcl
  · exact hmono (.inr (ht.frames_before.mem_iff.mpr (mem_cons_of_mem _ hold)))

theorem closed_turn (h : Shut s) (hG : s.closesEmpty act = true)
    (ht : s.Turn act role f rest e others s') (hcl : s'.actor.closed .mailbox = true) :
    s'.actor.destroyed = true ∧ (∀ g ∈ frames s'.threads, ∀ c, g.sends c = false) ∧
      ∀ c, s'.actor.queue c = [] := by
  rw [ht.actor] at hcl ⊢
  rcases ht.does.closed_new.1 with hsame | ⟨rfl, hrds, hfrs, hwri⟩
  · obtain ⟨hdes, hsen, hem⟩ := h.closed (hsame ▸ hcl)
    have hf := hsen f ht.frame_mem
    refine ⟨ht.does.destroyed_mono hdes, fun g hg => ?_, ht.does.queue_empty hf hem⟩
    rcases mem_append.mp (ht.frames_after.mem_iff.mp hg) with hnew | hold
    · exact ht.does.sends_new hdes hf g hnew
    · exact hsen g (ht.frames_before.mem_iff.mpr (mem_cons_of_mem _ hold))
  · have hem := empty_of_closing hG ht
    refine ⟨ht.does.destroyed_mono (h.destroyed _ ht.frame_mem rfl), fun g hg c => ?_, fun c => ?_⟩
    · rcases mem_append.mp (ht.frames_after.mem_iff.mp hg) with hnew | hold
      · rw [hfrs] at hnew
        rw [mem_singleton.mp hnew]
        rfl
      · -- a sender in flight would hold the read lock
        have hmem := ht.frames_before.mem_iff.mpr (mem_cons_of_mem _ hold)
        have hho := any_eq_false.mp hrds g hmem
        exact Bool.eq_false_iff.mpr fun hsen => hho (Frame.holds_of_sends hsen)
    · rw [hwri]
      exact hem c

theorem ended_turn (h : Shut s) (ht : s.Turn act role f rest e others s')
    (hret : s'.returned = true) : s'.actor.closed .mailbox = true := by
  have hret' : ∀ s : State, s.returned = true ↔ (frames s.threads).countP Frame.isLoop = 0 := by
    intro s
    rw [State.returned, Bool.not_eq_true', any_eq_false, countP_eq_zero]
  have hmono : ∀ {c}, s.actor.closed c = true → s'.actor.closed .mailbox = true := by
    intro c hcl
    rw [ht.actor]
    cases c with
    | mailbox => exact ht.does.closed_mono hcl
    | fnChan => exact ht.does.closed_mono (h.order (.inl hcl))
  rcases ht.does.isLoop_count with hct | ⟨_, c, hcl⟩
  · -- the loop had returned before
    refine hmono (h.ended ?_)
    rw [hret', ht.frames_after.countP_eq, countP_append] at hret
    rw [hret', ht.frames_before.countP_eq, ← singleton_append, countP_append]
    omega
  · exact hmono hcl

theorem turn (h : Shut s) (hG : s.closesEmpty act = true)
    (ht : s.Turn act role f rest e others s') : Shut s' where
  destroyed := ht.destroyed h.destroyed
  order := h.order_turn ht
  closed := h.closed_turn hG ht
  ended := h.ended_turn ht

theorem run {tr : List Act} (h : Run (guardedRel State.step State.closesEmpty) State.init tr s) :
    Shut s := by
  refine run_invariant (fun _ s => Shut s) init ?_ h
  intro tr s act s' hs hstep
  obtain ⟨hG, role, f, rest, e, others, ht⟩ := turn_of_step hstep
  exact hs.turn hG ht

end Shut

def handledThenDestroyed : List Act :=
  [⟨1, .call (.next 0)⟩, ⟨1, .go⟩, ⟨1, .go⟩, ⟨1, .go⟩, ⟨1, .go⟩, ⟨1, .go⟩, ⟨1, .call .tryInvoke⟩,
    ⟨1, .go⟩, ⟨1, .go⟩, ⟨1, .go⟩, ⟨1, .go⟩, ⟨0, .receive .mailbox⟩, ⟨0, .ret⟩, ⟨0, .go⟩, ⟨0, .ret⟩,
    ⟨0, .receive .fnChan⟩, ⟨0, .ret⟩, ⟨1, .call .destroy⟩, ⟨1, .go⟩, ⟨1, .go⟩, ⟨1, .ret⟩, ⟨1, .go⟩,
    ⟨1, .go⟩, ⟨1, .go⟩, ⟨0, .receive .fnChan⟩]

theorem handledThenDestroyed_isSome :
    (exec State.step State.closesEmpty State.init handledThenDestroyed).isSome = true := rfl

def destroyedWithFunction : List Act :=
  [⟨1, .call .tryInvoke⟩, ⟨1, .go⟩, ⟨1, .go⟩, ⟨1, .go⟩, ⟨1, .go⟩, ⟨1, .call .destroy⟩, ⟨1, .go⟩,
    ⟨1, .go⟩, ⟨1, .ret⟩, ⟨1, .go⟩, ⟨1, .go⟩, ⟨1, .go⟩, ⟨0, .receive .mailbox⟩]

end DueServer.Mailbox
