import DueServer.MailboxSteps

/-! An actor that destroys itself waits for the write lock of its own channels. The goroutine that
does so must not be one that a holder of the read lock waits for. -/
namespace DueServer.Mailbox

open Lib List

abbrev Goroutine := Thread Role Frame

namespace State

def holds (t : Goroutine) : Bool := t.stack.any Frame.holds

/-- The goroutine is in `a.rw.Lock()` of a `Destroy` that a handler in `dispatch` has called, or a
callback of `AfterFunc`. -/
def selfDestroys (t : Goroutine) : Bool :=
  t.stack.head? = some .closing && (t.role = .dispatch || t.stack.contains .callback)

/-- What a goroutine waits for: a writer waits for the readers, a reader for a writer that is
announced, and the sender to a full channel for the `dispatch` loop. -/
def waitsFor (s : State) (t u : Goroutine) : Bool :=
  match t.stack.head? with
  | some .closing => holds u
  | some .firing => u.stack.any Frame.writes
  | some (.locking _) => u.stack.any Frame.writes
  | some (.sending item) => s.full item.chan && u.role = .dispatch
  | _ => false

/-- The actor waits for the write lock in a `Destroy` of its own, and whoever holds the read lock
waits for the same goroutine. -/
def circular (s : State) (t : Goroutine) : Bool :=
  selfDestroys t && s.threads.any holds && s.threads.all fun u => !holds u || s.waitsFor u t

def inFlight (s : State) (c : Chan) : ℕ := (frames s.threads).countP (Frame.sends c)

def fits (s : State) (c : Chan) : Bool := (s.actor.queue c).length + s.inFlight c ≤ capacity

/-- No callback of `AfterFunc` calls a method of its actor that takes the lock, and when a handler
destroys its actor, the senders that have passed the check of the state find room. -/
def orderly (s : State) (act : Act) : Bool :=
  (s.mover act).all fun t =>
    match t.stack, act.choice with
    | .callback :: _, .call m => !m.locks
    | .swapping :: _, _ => t.role ≠ .dispatch || s.fits .mailbox && s.fits .fnChan
    | _, _ => true

end State

namespace Frame

def plain : Frame → Bool
  | callback => false
  | f => State.runs f

def timed : Frame → Bool
  | firing | fired | callback => true
  | _ => false

theorem holds_eq_false_of_plain {f : Frame} (h : f.plain = true) : f.holds = false := by
  cases f <;> first | rfl | cases h

end Frame

/-- Along an orderly run, only plain code has called something; the `dispatch` loop is not the
goroutine of a timer; and when its own `Destroy` is under way, the senders in flight fit. -/
structure Orderly (s : State) : Prop where
  below : ∀ t ∈ s.threads, ∀ f ∈ t.stack.tail, f.plain = true
  untimed : ∀ t ∈ s.threads, t.role = .dispatch → ∀ f ∈ t.stack, f.timed = false
  destroyed : ∀ f ∈ frames s.threads, f.destroys = true → s.actor.destroyed = true
  room : (∃ t ∈ s.threads, t.role = .dispatch ∧ t.stack.any Frame.destroys = true) →
    ∀ c, s.fits c = true

namespace Does

variable {s : State} {f : Frame} {choice : Choice} {e : Effect}

theorem tail_plain (h : Does s f choice e)
    (hord : f = .callback → ∀ m, choice = .call m → m.locks = false) :
    ∀ g ∈ e.frames.tail, g.plain = true := by
  have hpla : ∀ m, choice = .call m → m.locks = true → State.runs f = true →
      ∀ g ∈ [f], g.plain = true := by
    intro m hcho hloc hruns g hg
    rw [mem_singleton.mp hg]
    cases f with
    | callback =>
      have hfree := hord rfl m hcho
      exact absurd hloc (Bool.eq_false_iff.mp hfree)
    | _ => exact hruns
  cases h with
  | enter _ m item hruns hloc => exact hpla m rfl hloc hruns
  | destroy _ hruns => exact hpla .destroy rfl rfl hruns
  | _ => exact fun g hg => nomatch hg

theorem timed_new (h : Does s f choice e) (hf : f.timed = false) :
    e.frames.any Frame.timed = false := by
  cases h
  case enter | destroy | late | start | afterFunc | afterInvoke | handOn =>
    simp only [any_cons, hf]
    rfl
  case fire | callback => cases hf
  all_goals rfl

theorem load_le (h : Does s f choice e) (c : Chan)
    (hclg : s.actor.destroyed = true ∨ f = .swapping) :
    ((e.write s.actor).queue c).length + (e.frames ++ e.started).countP (Frame.sends c) ≤
      (s.actor.queue c).length + [f].countP (Frame.sends c) := by
  have htake : ∀ {c' : Chan} {item : Item} {rest : List Item},
      s.actor.queue c' = item :: rest →
        ((s.actor.take c' item rest).queue c).length ≤ (s.actor.queue c).length := by
    intro c' item rest hqu
    by_cases hc : c = c'
    · subst hc
      rw [Actor.queue_take_self, hqu]
      exact Nat.le_succ _
    · rw [Actor.queue_take_of_ne hc]
  cases h
  case takeContext hqu | takeFunction hqu => exact htake hqu
  case send item =>
    by_cases hc : c = item.chan
    · subst hc
      have hsen : [Frame.sending item].countP (Frame.sends item.chan) = 1 :=
        countP_cons_of_pos (decide_eq_true rfl)
      rw [hsen, Actor.queue_send_self, length_append]
      exact Nat.le_refl _
    · rw [Actor.queue_send_of_ne hc]
      exact Nat.le_add_right _ _
  case giveUp => exact Nat.le_add_right _ _
  case admitContext t obj hdes | admitFunction t patient hdes =>
    rcases hclg with hclg | hclg
    · cases hdes.symm.trans hclg
    · cases hclg
  all_goals exact Nat.le_refl _

end Does

namespace State.Turn

variable {s s' : State} {act : Act} {role : Role} {f : Frame} {rest : List Frame} {e : Effect}
  {others : List Goroutine}

theorem fits_mono (h : s.Turn act role f rest e others s')
    (hclg : s.actor.destroyed = true ∨ f = .swapping) {c : Chan} (hfits : s.fits c = true) :
    s'.fits c = true := by
  have hstep := h.does.load_le c hclg
  have hbef := h.frames_before.countP_eq (Frame.sends c)
  have haft := h.frames_after.countP_eq (Frame.sends c)
  rw [countP_append] at haft
  rw [← singleton_append, countP_append] at hbef
  simp only [State.fits, State.inFlight, decide_eq_true_eq, h.actor, hbef] at hfits ⊢
  omega

end State.Turn

namespace Orderly

theorem init : Orderly State.init where
  below := by decide
  untimed := by decide
  destroyed := by decide
  room := by
    rintro ⟨t, ht, hrole, hdes⟩
    simp only [State.init, mem_cons, not_mem_nil, or_false] at ht
    rcases ht with rfl | rfl
    · cases hdes
    · cases hrole

variable {s s' : State} {act : Act} {role : Role} {f : Frame} {rest : List Frame} {e : Effect}
  {others : List Goroutine}

theorem callback_free (hG : s.orderly act = true) (ht : s.Turn act role f rest e others s') :
    f = .callback → ∀ m, act.choice = .call m → m.locks = false := by
  intro hf m hm
  subst hf
  simp only [State.orderly, ht.mover, hm] at hG
  exact Bool.eq_false_iff.mpr (by simpa using hG)

theorem fits_of_swap (hG : s.orderly act = true)
    (ht : s.Turn act .dispatch .swapping rest e others s') (c : Chan) : s.fits c = true := by
  simp only [State.orderly, ht.mover, Option.all_some, ne_eq, not_true_eq_false, decide_false,
    Bool.false_or, Bool.and_eq_true] at hG
  cases c with
  | mailbox => exact hG.1
  | fnChan => exact hG.2

theorem below_turn (h : Orderly s) (hG : s.orderly act = true)
    (ht : s.Turn act role f rest e others s') :
    ∀ t ∈ s'.threads, ∀ g ∈ t.stack.tail, g.plain = true := by
  intro t hmem g hg
  rcases ht.mem_after hmem with rfl | ⟨g', _, rfl⟩ | hoths
  · have hrest : ∀ g ∈ rest, g.plain = true := h.below _ ht.mover_mem
    have hnew := ht.does.tail_plain (callback_free hG ht)
    cases hfrs : e.frames with
    | nil =>
      simp only [hfrs] at hg
      exact hrest g (mem_of_mem_tail hg)
    | cons f' fs =>
      simp only [hfrs, cons_append, tail_cons, mem_append] at hg hnew
      exact hg.elim (hnew g) (hrest g)
  · cases hg
  · exact h.below t (ht.mem_others hoths) g hg

theorem untimed_turn (h : Orderly s) (ht : s.Turn act role f rest e others s') :
    ∀ t ∈ s'.threads, t.role = .dispatch → ∀ g ∈ t.stack, g.timed = false := by
  intro t hmem hrole g hg
  rcases ht.mem_after hmem with rfl | ⟨g', _, rfl⟩ | hoths
  · have hold := h.untimed _ ht.mover_mem hrole
    rcases mem_append.mp hg with hg | hg
    · have hnew := ht.does.timed_new (hold f mem_cons_self)
      exact Bool.eq_false_iff.mpr (any_eq_false.mp hnew g hg)
    · exact hold g (mem_cons_of_mem _ hg)
  · cases hrole
  · exact h.untimed t (ht.mem_others hoths) hrole g hg

/-- A `Destroy` in the `dispatch` loop was under way before, or its swap has found room. -/
theorem fits_turn (h : Orderly s) (hG : s.orderly act = true)
    (ht : s.Turn act role f rest e others s')
    (hdestr : ∃ t ∈ s'.threads, t.role = .dispatch ∧ t.stack.any Frame.destroys = true) :
    ∀ c, s'.fits c = true := by
  intro c
  have hold : ∀ t ∈ s.threads, t.role = .dispatch → t.stack.any Frame.destroys = true →
      s'.fits c = true := by
    intro t hmem hrole hany
    obtain ⟨g, hg, hdest⟩ := any_eq_true.mp hany
    have hdes := h.destroyed g (mem_frames.mpr ⟨t, hmem, hg⟩) hdest
    exact ht.fits_mono (.inl hdes) (h.room ⟨t, hmem, hrole, hany⟩ c)
  obtain ⟨t, hmem, hrole, hany⟩ := hdestr
  rcases ht.mem_after hmem with rfl | ⟨g', _, rfl⟩ | hoths
  · by_cases hbef : (f :: rest).any Frame.destroys = true
    · exact hold _ ht.mover_mem hrole hbef
    · -- no frame of the loop was past the swap, so this step is the swap
      rw [any_cons, Bool.or_eq_true, not_or, Bool.not_eq_true, Bool.not_eq_true] at hbef
      rw [any_append, hbef.2, Bool.or_false] at hany
      rcases ht.does.destroys_new hbef.1 with hnew | ⟨hswap, _⟩
      · rw [any_append, hany] at hnew
        cases hnew
      subst hswap
      cases hrole
      exact ht.fits_mono (.inr rfl) (fits_of_swap hG ht c)
  · cases hrole
  · exact hold t (ht.mem_others hoths) hrole hany

theorem turn (h : Orderly s) (hG : s.orderly act = true)
    (ht : s.Turn act role f rest e others s') : Orderly s' where
  below := h.below_turn hG ht
  untimed := h.untimed_turn ht
  destroyed := ht.destroyed h.destroyed
  room := h.fits_turn hG ht

theorem run {tr : List Act} (h : Run (guardedRel State.step State.orderly) State.init tr s) :
    Orderly s := by
  refine run_invariant (fun _ s => Orderly s) init ?_ h
  intro tr s act s' hs hstep
  obtain ⟨hG, role, f, rest, e, others, ht⟩ := turn_of_step hstep
  exact hs.turn hG ht

theorem holds_head (h : Orderly s) {t : Goroutine} (hmem : t ∈ s.threads)
    (hho : State.holds t = true) : ∃ f rest, t.stack = f :: rest ∧ f.holds = true := by
  obtain ⟨role, stack⟩ := t
  cases stack with
  | nil => cases hho
  | cons f rest =>
    obtain ⟨g, hg, hgho⟩ := any_eq_true.mp hho
    rcases mem_cons.mp hg with rfl | hg
    · exact ⟨g, rest, rfl, hgho⟩
    have hpla := h.below _ hmem g hg
    rw [Frame.holds_eq_false_of_plain hpla] at hgho
    cases hgho

theorem not_full (h : Orderly s) {t u : Goroutine} {item : Item} {rest : List Frame}
    (ht : t ∈ s.threads) (hrole : t.role = .dispatch) (hhead : t.stack.head? = some .closing)
    (hu : u ∈ s.threads) (hstk : u.stack = .sending item :: rest) :
    s.full item.chan = false := by
  have hany : t.stack.any Frame.destroys = true :=
    any_eq_true.mpr ⟨.closing, mem_of_mem_head? hhead, rfl⟩
  have hfits := h.room ⟨t, ht, hrole, hany⟩ item.chan
  have hmem : Frame.sending item ∈ frames s.threads :=
    mem_frames.mpr ⟨u, hu, hstk ▸ mem_cons_self⟩
  have hpos : 0 < s.inFlight item.chan :=
    countP_pos_iff.mpr ⟨_, hmem, decide_eq_true rfl⟩
  simp only [State.fits, decide_eq_true_eq] at hfits
  simp only [State.full, decide_eq_false_iff_not]
  omega

end Orderly

/-- An actor that destroys itself is not in a circular wait for its write lock, in any state of a
run in which no callback of `AfterFunc` calls a method that takes the lock, and the senders in
flight find room when a handler destroys its actor. -/
theorem self_destroy_not_circular {tr : List Act} {s : State}
    (h : Run (guardedRel State.step State.orderly) State.init tr s) :
    ∀ t ∈ s.threads, s.circular t = false := by
  have hs := Orderly.run h
  intro t ht
  by_contra hcir
  rw [Bool.not_eq_false, State.circular, Bool.and_eq_true, Bool.and_eq_true] at hcir
  obtain ⟨⟨hself, hheld⟩, hall⟩ := hcir
  rw [State.selfDestroys, Bool.and_eq_true, Bool.or_eq_true] at hself
  obtain ⟨hhead, hself⟩ := hself
  have hhead := of_decide_eq_true hhead
  have hrole : t.role = .dispatch := by
    rcases hself with hrole | hcal
    · exact of_decide_eq_true hrole
    -- a callback would have called `Destroy`
    obtain ⟨role, stack⟩ := t
    cases stack with
    | nil => cases hhead
    | cons f rest =>
      cases hhead
      rcases mem_cons.mp (contains_iff_mem.mp hcal) with hf | hmem
      · cases hf
      · cases hs.below _ ht _ hmem
  obtain ⟨u, hu, hho⟩ := any_eq_true.mp hheld
  have hws := all_eq_true.mp hall u hu
  rw [hho] at hws
  -- the holder `u` is in a frame of its own, and only a sender to a full channel waits there
  obtain ⟨f, rest, hstk, hf⟩ := hs.holds_head hu hho
  simp only [State.waitsFor, hstk] at hws
  cases f with
  | sending item =>
    have hfull : s.full item.chan = true := (Bool.and_eq_true_iff.mp hws).1
    rw [hs.not_full ht hrole hhead hu hstk] at hfull
    cases hfull
  | fired | callback | checking _ | marking _ _ | returning _ => cases hws
  | _ => cases hf

def destroyedInHandler : List Act :=
  [⟨1, .call (.next 0)⟩, ⟨1, .go⟩, ⟨1, .go⟩, ⟨1, .go⟩, ⟨1, .go⟩, ⟨1, .go⟩, ⟨1, .call .tryInvoke⟩,
    ⟨1, .go⟩, ⟨1, .go⟩, ⟨0, .receive .mailbox⟩, ⟨0, .call .destroy⟩, ⟨0, .go⟩, ⟨0, .go⟩, ⟨0, .ret⟩,
    ⟨0, .go⟩]

theorem destroyedInHandler_isSome :
    (exec State.step State.orderly State.init destroyedInHandler).isSome = true := rfl

/-- The loop waits for the sender, which has room. -/
theorem destroyedInHandler_not_circular :
    let s := ((exec State.step State.orderly State.init destroyedInHandler).get
      destroyedInHandler_isSome).2
    s.threads.any State.selfDestroys = true ∧ s.threads.any State.holds = true ∧
      ∀ t ∈ s.threads, s.circular t = false :=
  ⟨by decide +kernel, by decide +kernel,
    self_destroy_not_circular (run_of_exec _ destroyedInHandler_isSome)⟩

def destroyedInCallback : List Act :=
  [⟨1, .call .afterFunc⟩, ⟨2, .go⟩, ⟨2, .go⟩, ⟨2, .call .destroy⟩, ⟨2, .go⟩, ⟨2, .go⟩, ⟨2, .ret⟩,
    ⟨2, .go⟩]

/-- It waits for the read lock that it holds itself. -/
theorem afterFunc_destroy_circular :
    ¬∀ acts s, Run (guardedRel State.step fun _ _ => true) State.init acts s →
      ∀ t ∈ s.threads, s.circular t = false := by
  intro h
  have hfree := h _ _ (run_of_exec destroyedInCallback rfl)
    ⟨.other, [.closing, .callback]⟩ (by decide +kernel)
  exact absurd hfree (by decide +kernel)

end DueServer.Mailbox
