import DueServer.ClientCallCustody

/-! A connection refines the one-shot channels: the cell of a call says what has become of it, and
every response is settled once. -/
namespace DueServer.Client

open Lib.OneShot (Op Outcome Cell Cells Place links_update rel_update)
open Function (update update_self update_of_ne update_eq_self)

namespace Caller

def Live : Caller → Prop
  | .waiting | .loading | .swapping _ => True
  | _ => False

def Fresh : Caller → Prop
  | .idle | .sending _ => True
  | _ => False

end Caller

def Stands (word : Word) (caller : Caller) : Cell ℕ ℕ → Prop
  | .fresh => word = .pending ∧ caller.Fresh
  | .undecided => (word = .pending ∨ word = .sent) ∧ caller.Live
  | .abandoned =>
    word = .pending ∧ (caller = .returned .refused ∨ caller = .returned .clientClosed) ∨
      word = .canceled ∧ (caller = .deleting ∨ caller = .returned .canceled)
  | .failing _ live | .closed live =>
    word = .failed ∧
      if live then caller.Live else caller = .returned .hanged ∨ caller = .returned .canceled
  | .sending _ | .full _ => word = .delivered ∧ (caller.Live ∨ caller = .receiving)
  | .taken b => word = .delivered ∧ caller = .releasing b
  | .spent b =>
    word = .delivered ∧ (caller = .returned .canceled ∨ caller = .returned (.response b))

structure Fits (call : CallState) (cell : Cell ℕ ℕ) : Prop where
  stands : Stands call.word call.caller cell
  chan : call.chan = cell.slot
  ops : call.ops = cell.ops

def Reader.place {ι : Type} : Reader ι → Place ι
  | .unread => .absent
  | .parsed | .delivering _ | .releasing => .held
  | .sending c | .sent c => .bound c
  | .released => .dropped

variable {ι : Type} [DecidableEq ι]

structure Refines (s : Conn ι) (a : Cells ι ℕ ℕ) : Prop where
  fits (c : ι) : Fits (s.calls c) (a.cell c)
  closing (t : ℕ) (c : ι) : s.writers t = .closing c ↔ (a.cell c).closer = some t
  sending (b : ℕ) (c : ι) : (s.responses b).reader = .sending c ↔ a.cell c = .sending b
  place (b : ℕ) : a.place b = (s.responses b).reader.place
  outcomes : a.outcomes = s.outcomes

section Stands

variable {word : Word} {caller caller' : Caller} {cell : Cell ℕ ℕ} {b : ℕ}

theorem Caller.Live.not_fresh (h : caller.Live) : ¬ caller.Fresh := by
  cases caller <;> first | exact h.elim | exact id

section

variable (h : Stands word caller cell)

include h

theorem Stands.live (hold : caller.Live) (hnew : caller'.Live) : Stands word caller' cell := by
  cases cell with
  | fresh => exact absurd h.2 hold.not_fresh
  | undecided => exact ⟨h.1, hnew⟩
  | sending | full => exact ⟨h.1, .inl hnew⟩
  | failing t live | closed live =>
    cases live with
    | true => exact ⟨h.1, hnew⟩
    | false =>
      obtain ⟨-, rfl | rfl⟩ := h
      · exact hold.elim
      · exact hold.elim
  | abandoned =>
    obtain ⟨-, rfl | rfl⟩ | ⟨-, rfl | rfl⟩ := h
    all_goals exact hold.elim
  | taken =>
    obtain ⟨-, rfl⟩ := h
    exact hold.elim
  | spent =>
    obtain ⟨-, rfl | rfl⟩ := h
    · exact hold.elim
    · exact hold.elim

theorem Stands.of_sent (hword : word = .sent) : cell = .undecided := by
  subst hword
  cases cell <;> simp [Stands] at h ⊢

theorem Stands.of_pending (hword : word = .pending) (hque : caller.Queued) : cell = .undecided := by
  subst hword
  cases cell with
  | undecided => rfl
  | fresh =>
    cases caller <;> first | exact h.2.elim | exact hque.elim
  | abandoned =>
    obtain ⟨-, rfl | rfl⟩ | ⟨hword, -⟩ := h
    · exact hque.elim
    · exact hque.elim
    · cases hword
  | _ => exact nomatch h.1

theorem Stands.of_fresh (hfr : caller.Fresh) : cell = .fresh ∧ word = .pending := by
  cases caller with
  | idle | sending => cases cell <;> simp_all [Stands, Caller.Live]
  | _ => exact hfr.elim

theorem Stands.of_failed (hword : word = .failed) :
    (∃ t live, cell = .failing t live) ∨ ∃ live, cell = .closed live := by
  subst hword
  cases cell <;> simp [Stands] at h ⊢

theorem Stands.of_delivered (hword : word = .delivered) (hlive : caller.Live) :
    ∃ b, cell = .sending b ∨ cell = .full b := by
  subst hword
  cases cell with
  | sending b => exact ⟨b, .inl rfl⟩
  | full b => exact ⟨b, .inr rfl⟩
  | taken =>
    obtain ⟨-, rfl⟩ := h
    exact hlive.elim
  | spent =>
    obtain ⟨-, rfl | rfl⟩ := h
    · exact hlive.elim
    · exact hlive.elim
  | _ => simp [Stands] at h

theorem Stands.of_canceled (hword : word = .canceled) :
    cell = .abandoned ∧ (caller = .deleting ∨ caller = .returned .canceled) := by
  cases cell <;> simp_all [Stands]

theorem Stands.of_deleting (hcr : caller = .deleting) : cell = .abandoned ∧ word = .canceled := by
  cases cell <;> simp_all [Stands, Caller.Live, Caller.Fresh]

theorem Stands.of_releasing (hcr : caller = .releasing b) : cell = .taken b := by
  cases cell <;> simp_all [Stands, Caller.Live, Caller.Fresh]

end

theorem full_of_slot (h : cell.slot = some b) : cell = .full b := by
  cases cell <;> simp_all [Cell.slot]

theorem closed_of_ops (h : Op.close ∈ cell.ops) : ∃ live, cell = .closed live := by
  cases cell <;> simp_all [Cell.ops]

end Stands

section Update

variable {s : Conn ι} {a : Cells ι ℕ ℕ} {c : ι} {call : CallState} {x y : Cell ℕ ℕ}

theorem fits_update (h : ∀ c, Fits (s.calls c) (a.cell c)) (hfits : Fits call y) (c' : ι) :
    Fits (update s.calls c call c') (update a.cell c y c') :=
  rel_update Fits h hfits c'

theorem closer_update (hcell : a.cell c = x) (h : y.closer = x.closer) (t : ℕ) (c' : ι) :
    (a.cell c').closer = some t ↔ (update a.cell c y c').closer = some t := by
  by_cases hc : c' = c
  · subst hc
    rw [update_self, h, hcell]
  · rw [update_of_ne hc]

theorem sending_update (hcell : a.cell c = x) (h : ∀ b, y = .sending b ↔ x = .sending b) (b : ℕ)
    (c' : ι) : a.cell c' = .sending b ↔ update a.cell c y c' = .sending b := by
  by_cases hc : c' = c
  · subst hc
    rw [update_self, h, hcell]
  · rw [update_of_ne hc]

end Update

namespace Refines

variable {seq : ι → UInt64} {s s' : Conn ι} {a : Cells ι ℕ ℕ} {c : ι} {t b : ℕ}

theorem setCall (h : Refines s a) {call : CallState} {x y : Cell ℕ ℕ} (hcell : a.cell c = x)
    (hfits : Fits call y) (hclr : y.closer = x.closer)
    (hsen : ∀ b, y = .sending b ↔ x = .sending b) :
    Refines (s.setCall c call) { a with cell := update a.cell c y } where
  fits := fits_update h.fits hfits
  closing t c' := (h.closing t c').trans (closer_update hcell hclr t c')
  sending b c' := (h.sending b c').trans (sending_update hcell hsen b c')
  place := h.place
  outcomes := h.outcomes

theorem setCall_same (h : Refines s a) {call : CallState} (hfits : Fits call (a.cell c)) :
    Refines (s.setCall c call) a := by
  have hset := h.setCall rfl hfits rfl fun _ => Iff.rfl
  rwa [update_eq_self] at hset

theorem setCaller_live (h : Refines s a) {caller : Caller} (hold : (s.calls c).caller.Live)
    (hnew : caller.Live) : Refines (s.setCaller c caller) a :=
  h.setCall_same ⟨(h.fits c).stands.live hold hnew, (h.fits c).chan, (h.fits c).ops⟩

omit [DecidableEq ι] in
theorem setWriter (h : Refines s a) {w : Writer ι} (hcs : s'.calls = s.calls)
    (hwri : s'.writers = update s.writers t w) (hresp : s'.responses = s.responses)
    (hout : s'.outcomes = s.outcomes) (hold : ∀ c, s.writers t ≠ .closing c)
    (hnew : ∀ c, w ≠ .closing c) : Refines s' a where
  fits := hcs ▸ h.fits
  closing t' c := by
    rw [← h.closing t' c, hwri]
    by_cases ht : t' = t
    · subst ht
      rw [update_self]
      exact iff_of_false (hnew c) (hold c)
    · rw [update_of_ne ht]
  sending := hresp ▸ h.sending
  place := hresp ▸ h.place
  outcomes := h.outcomes.trans hout.symm

omit [DecidableEq ι] in
theorem place_update {place : ℕ → Place ι} {responses : ℕ → Response ι} {x : Response ι}
    {p : Place ι} (h : ∀ b, place b = (responses b).reader.place)
    (hx : p = x.reader.place) (b' : ℕ) :
    update place b p b' = (update responses b x b').reader.place :=
  rel_update (fun p (x : Response ι) => p = x.reader.place) h hx b'

omit [DecidableEq ι] in
theorem setReader (h : Refines s a) {r : Reader ι} {o : List (Outcome ι ℕ)}
    (hold : ∀ c, (s.responses b).reader ≠ .sending c) (hnew : ∀ c, r ≠ .sending c)
    {q : Option UInt64} :
    Refines { s with responses := update s.responses b ⟨q, r⟩, outcomes := o }
      { a with place := update a.place b r.place, outcomes := o } where
  fits := h.fits
  closing := h.closing
  sending b' c := by
    rw [← h.sending b' c]
    show (update s.responses b ⟨q, r⟩ b').reader = .sending c ↔ _
    by_cases hb : b' = b
    · subst hb
      rw [update_self]
      exact iff_of_false (hnew c) (hold c)
    · rw [update_of_ne hb]
  place := place_update h.place rfl
  outcomes := rfl

omit [DecidableEq ι] in
theorem keep (h : Refines s a) {r : Reader ι}
    (hold : ∀ c, (s.responses b).reader ≠ .sending c) (hnew : ∀ c, r ≠ .sending c)
    (hpl : r.place = (s.responses b).reader.place) : Refines (s.setReader b r) a := by
  have hset := h.setReader (q := (s.responses b).seq) (o := s.outcomes) hold hnew
  have ha : a = ⟨a.cell, a.place, s.outcomes⟩ := by rw [← h.outcomes]
  rw [hpl, ← h.place b, update_eq_self] at hset
  rw [ha]
  exact hset

omit [DecidableEq ι] in
theorem frame (h : Refines s a) (hcs : s'.calls = s.calls) (hwri : s'.writers = s.writers)
    (hresp : s'.responses = s.responses) (hout : s'.outcomes = s.outcomes) :
    Refines s' a where
  fits := hcs ▸ h.fits
  closing := hwri ▸ h.closing
  sending := hresp ▸ h.sending
  place := hresp ▸ h.place
  outcomes := h.outcomes.trans hout.symm

end Refines

namespace Conn

open Lib.OneShot (Step)

variable {seq : ι → UInt64} {s s' : Conn ι} {a : Cells ι ℕ ℕ}

variable {c : ι} {b t : ℕ}

section

variable (h : Refines s a)

include h

theorem refines_settle {caller : Caller} {o : Outcome ι ℕ}
    (hcell : a.cell c = .full b ∧ o = .returned c b ∨ a.cell c = .taken b ∧ o = .dropped b)
    (hcr : caller = .returned .canceled ∨ caller = .returned (.response b)) :
    ∃ a', Step a a' ∧
      Refines ((s.setCall c { s.calls c with chan := none, caller := caller }).settle o) a' := by
  refine ⟨_, .settle c b o hcell, ?_⟩
  have hold := h.fits c
  have hset : Refines (s.setCall c { s.calls c with chan := none, caller := caller })
      { a with cell := update a.cell c (.spent b) } := by
    rcases hcell with ⟨hcell, -⟩ | ⟨hcell, -⟩
    all_goals
      rw [hcell] at hold
      exact h.setCall hcell ⟨⟨hold.stands.1, hcr⟩, rfl, hold.ops⟩ rfl fun _ =>
        iff_of_false nofun nofun
  exact ⟨hset.fits, hset.closing, hset.sending, hset.place, congrArg (· ++ [o]) h.outcomes⟩

theorem refines_leave {r : Result} (hr : r = .hanged ∨ r = .canceled)
    (hcell : (∃ t live, a.cell c = .failing t live) ∨ ∃ live, a.cell c = .closed live) :
    ∃ a', Step a a' ∧ Refines (s.setCaller c (.returned r)) a' := by
  have hold := h.fits c
  have hret : Caller.returned r = .returned .hanged ∨ Caller.returned r = .returned .canceled :=
    hr.imp (congrArg _) (congrArg _)
  rcases hcell with ⟨t, live, hcell⟩ | ⟨live, hcell⟩
  · rw [hcell] at hold
    exact ⟨_, .move c (.failing t false) (hcell ▸ .leaveFailing t live), h.setCall hcell
      ⟨⟨hold.stands.1, hret⟩, hold.chan, hold.ops⟩ rfl fun _ => iff_of_false nofun nofun⟩
  rw [hcell] at hold
  exact ⟨_, .move c (.closed false) (hcell ▸ .leaveClosed live), h.setCall hcell
    ⟨⟨hold.stands.1, hret⟩, hold.chan, hold.ops⟩ rfl fun _ => iff_of_false nofun nofun⟩

theorem refines_abandon {call : CallState} (hcell : a.cell c = .fresh ∨ a.cell c = .undecided)
    (hsta : Stands call.word call.caller .abandoned) (hchan : call.chan = (s.calls c).chan)
    (hops : call.ops = (s.calls c).ops) :
    ∃ a', Step a a' ∧ Refines (s.setCall c call) a' := by
  have hold : call.chan = (a.cell c).slot ∧ call.ops = (a.cell c).ops :=
    ⟨hchan.trans (h.fits c).chan, hops.trans (h.fits c).ops⟩
  rcases hcell with hcell | hcell
  all_goals rw [hcell] at hold
  · exact ⟨_, .move c .abandoned (hcell ▸ .refuse),
      h.setCall hcell ⟨hsta, hold.1, hold.2⟩ rfl fun _ => iff_of_false nofun nofun⟩
  · exact ⟨_, .move c .abandoned (hcell ▸ .abandon),
      h.setCall hcell ⟨hsta, hold.1, hold.2⟩ rfl fun _ => iff_of_false nofun nofun⟩

theorem refines_callerMove (hmove : CallerMove seq s c s') : ∃ a', Step a a' ∧ Refines s' a' := by
  have hold := h.fits c
  cases hmove with
  | receive b hcr hchan =>
    have hcell := full_of_slot (hold.chan.symm.trans hchan)
    exact refines_settle h (.inl ⟨hcell, rfl⟩) (.inr rfl)
  | hang hcr hcl =>
    exact refines_leave h (.inl rfl) (.inr (closed_of_ops (hold.ops ▸ hcl)))
  | load sent hcr | again sent hcr =>
    exact ⟨a, .stay, h.setCaller_live (by rw [hcr]; trivial) trivial⟩
  | loadDelivered hcr hword =>
    refine ⟨a, .stay, h.setCall_same ⟨?_, hold.chan, hold.ops⟩⟩
    obtain ⟨b, hcell | hcell⟩ := hold.stands.of_delivered hword (by rw [hcr]; trivial)
    all_goals
      rw [hcell]
      exact ⟨hword, .inr rfl⟩
  | loadOver hcr hword =>
    rcases hword with hword | hword
    · exact refines_leave h (.inr rfl) (hold.stands.of_failed hword)
    · obtain ⟨-, hcon | hcon⟩ := hold.stands.of_canceled hword <;> cases hcr.symm.trans hcon
  | cancelPending hcr hword =>
    have hcell := hold.stands.of_pending hword (by rw [hcr]; trivial)
    exact refines_abandon h (.inr hcell) (.inr ⟨rfl, .inr rfl⟩) rfl rfl
  | cancelSent hcr hword =>
    have hcell := hold.stands.of_sent hword
    exact refines_abandon h (.inr hcell) (.inr ⟨rfl, .inl rfl⟩) rfl rfl
  | delete hcr =>
    obtain ⟨hcell, hword⟩ := hold.stands.of_deleting hcr
    refine ⟨a, .stay, (h.frame rfl rfl rfl rfl : Refines (s.delete (seq c)) a).setCall_same
      ⟨?_, hold.chan, hold.ops⟩⟩
    rw [hcell]
    exact .inr ⟨hword, .inr rfl⟩
  | take b hcr hchan =>
    have hcell := full_of_slot (hold.chan.symm.trans hchan)
    rw [hcell] at hold
    exact ⟨_, .move c (.taken b) (hcell ▸ .take b),
      h.setCall hcell ⟨⟨hold.stands.1, rfl⟩, rfl, hold.ops⟩ rfl fun _ => iff_of_false nofun nofun⟩
  | takeClosed hcr hcl =>
    obtain ⟨live, hcell⟩ := closed_of_ops (hold.ops ▸ hcl)
    exact refines_leave h (.inr rfl) (.inr ⟨live, hcell⟩)
  | release b hcr =>
    have hcell := hold.stands.of_releasing hcr
    have hchan : (s.calls c).chan = none := by rw [hold.chan, hcell]; rfl
    have hset : s.setCaller c (.returned .canceled) =
        s.setCall c { s.calls c with chan := none, caller := .returned .canceled } := by
      rw [setCaller, ← hchan]
    rw [hset]
    exact refines_settle h (.inr ⟨hcell, rfl⟩) (.inl rfl)

theorem refines_fail (hwr : s.writers t = .failing c) (hword : (s.calls c).word = .sent) :
    ∃ a', Step a a' ∧
      Refines ((s.setCall c { s.calls c with word := .failed }).setWriter t (.closing c)) a' := by
  have hold := h.fits c
  have hcell := hold.stands.of_sent hword
  rw [hcell] at hold
  refine ⟨_, .move c (.failing t true) (hcell ▸ .fail t),
    fits_update h.fits ⟨⟨rfl, hold.stands.2⟩, hold.chan, hold.ops⟩,
    links_update (fun w c => w = Writer.closing c) (fun x t => Cell.closer x = some t) h.closing
      (iff_of_true rfl rfl) (fun c' hc => ?_) (fun t' ht => ?_),
    fun b c' => (h.sending b c').trans (sending_update hcell ?_ b c'),
    h.place, h.outcomes⟩
  -- before, the writer closed no channel and the cell had no closer
  · rw [← h.closing t c', hwr]
    exact iff_of_false (fun heq => hc (Writer.closing.inj heq).symm) nofun
  · rw [h.closing t' c, hcell]
    exact iff_of_false nofun fun heq => ht (Option.some.inj heq).symm
  · exact fun _ => iff_of_false nofun nofun

theorem refines_close (hwr : s.writers t = .closing c) : ∃ a', Step a a' ∧
      Refines ((s.setCall c { s.calls c with
        ops := (s.calls c).ops ++ [.close] }).setWriter t .idle) a' := by
  have hold := h.fits c
  have hclr := (h.closing t c).mp hwr
  obtain ⟨live, hcell⟩ : ∃ live, a.cell c = .failing t live := by
    cases hcell : a.cell c with
    | failing t' live =>
      rw [hcell] at hclr
      exact ⟨live, by rw [Option.some.inj hclr]⟩
    | _ =>
      rw [hcell] at hclr
      cases hclr
  rw [hcell] at hold
  refine ⟨_, .move c (.closed live) (hcell ▸ .close t live),
    fits_update h.fits ⟨hold.stands, hold.chan, by rw [hold.ops]; rfl⟩,
    links_update (fun w c => w = Writer.closing c) (fun x t => Cell.closer x = some t) h.closing
      (iff_of_false nofun nofun) (fun c' hc => ?_) (fun t' ht => ?_),
    fun b c' => (h.sending b c').trans (sending_update hcell ?_ b c'),
    h.place, h.outcomes⟩
  · rw [← h.closing t c', hwr]
    exact iff_of_false nofun fun heq => hc (Writer.closing.inj heq).symm
  · rw [h.closing t' c, hcell]
    exact iff_of_false (fun heq => ht (Option.some.inj heq).symm) nofun
  · exact fun _ => iff_of_false nofun nofun

theorem refines_writerMove (hheld : s.Held) (hmove : WriterMove seq s t s') :
    ∃ a', Step a a' ∧ Refines s' a' := by
  cases hmove with
  | swap e c hwr hword =>
    have hold := h.fits c
    have hque : (s.calls c).caller.Queued := hheld.called t c (by rw [hwr]; rfl)
    have hcell := hold.stands.of_pending hword hque
    have hset : Refines (s.setCall c { s.calls c with word := .sent }) a := by
      have hsta := hold.stands
      refine h.setCall_same ⟨?_, hold.chan, hold.ops⟩
      rw [hcell] at hsta ⊢
      exact ⟨.inr rfl, hsta.2⟩
    refine ⟨a, .stay, hset.setWriter rfl rfl rfl rfl ?_ fun _ h => by cases h⟩
    rw [setCall, hwr]
    exact fun _ h => by cases h
  | skip e c hwr | store e c hwr | delete c hwr | late c hwr =>
    refine ⟨a, .stay, h.setWriter rfl rfl rfl rfl ?_ fun _ h => by cases h⟩
    rw [hwr]
    exact fun _ h => by cases h
  | write e c ok hwr =>
    refine ⟨a, .stay, h.setWriter rfl rfl rfl rfl ?_ fun c' => ?_⟩
    · rw [hwr]
      exact fun _ h => by cases h
    · cases ok <;> exact fun h => by cases h
  | fail c hwr hword => exact refines_fail h hwr hword
  | close c hwr => exact refines_close h hwr

theorem refines_win (hrd : (s.responses b).reader = .delivering c)
    (hword : (s.calls c).word = .sent) :
    ∃ a', Step a a' ∧
      Refines ((s.setCall c { s.calls c with word := .delivered }).setReader b (.sending c))
        a' := by
  have hold := h.fits c
  have hcell := hold.stands.of_sent hword
  rw [hcell] at hold
  have hpl : a.place b = .held := by rw [h.place, hrd]; rfl
  refine ⟨_, .win b c hpl hcell,
    fits_update h.fits ⟨⟨rfl, .inl hold.stands.2⟩, hold.chan, hold.ops⟩,
    fun t c' => (h.closing t c').trans (closer_update hcell (y := .sending b) rfl t c'),
    links_update (fun (r : Response ι) c => r.reader = .sending c)
      (fun x b => x = Cell.sending b) h.sending
      (iff_of_true rfl rfl) (fun c' hc => ?_) (fun b' hb => ?_),
    Refines.place_update h.place rfl, h.outcomes⟩
  · rw [← h.sending b c', hrd]
    exact iff_of_false (fun heq => hc (Reader.sending.inj heq).symm) nofun
  · rw [h.sending b' c, hcell]
    exact iff_of_false nofun fun heq => hb (Cell.sending.inj heq).symm

theorem refines_send (hrd : (s.responses b).reader = .sending c) : ∃ a', Step a a' ∧
      Refines ((s.setCall c { s.calls c with
        chan := some b
        ops := (s.calls c).ops ++ [.send b] }).setReader b (.sent c)) a' := by
  have hold := h.fits c
  have hcell := (h.sending b c).mp hrd
  have hpl : a.place b = .bound c := by rw [h.place, hrd]; rfl
  rw [hcell] at hold
  refine ⟨_, .move c (.full b) (hcell ▸ .send b),
    fits_update h.fits ⟨hold.stands, rfl, by rw [hold.ops]; rfl⟩,
    fun t c' => (h.closing t c').trans (closer_update hcell (y := .full b) rfl t c'),
    links_update (fun (r : Response ι) c => r.reader = .sending c)
      (fun x b => x = Cell.sending b) h.sending
      (iff_of_false nofun nofun) (fun c' hc => ?_) (fun b' hb => ?_),
    update_eq_self b a.place ▸ Refines.place_update h.place hpl, h.outcomes⟩
  · rw [← h.sending b c', hrd]
    exact iff_of_false nofun fun heq => hc (Reader.sending.inj heq).symm
  · rw [h.sending b' c, hcell]
    exact iff_of_false (fun heq => hb (Cell.sending.inj heq).symm) nofun

theorem refines_readerMove (hmove : ReaderMove s b s') : ∃ a', Step a a' ∧ Refines s' a' := by
  cases hmove with
  | unknown hrd | lose c hrd =>
    exact ⟨a, .stay, h.keep (by rw [hrd]; exact fun _ h => by cases h) (fun _ h => by cases h)
      (by rw [hrd]; rfl)⟩
  | extract seq c hrd =>
    have hfrm : Refines (s.delete seq) a := h.frame rfl rfl rfl rfl
    refine ⟨a, .stay, hfrm.keep ?_ (fun _ h => by cases h) ?_⟩
    · rw [delete, hrd]
      exact fun _ h => by cases h
    · rw [delete, hrd]
      rfl
  | win c hrd hword => exact refines_win h hrd hword
  | send c hrd => exact refines_send h hrd
  | release hrd =>
    have hpl : a.place b = .held := by rw [h.place, hrd]; rfl
    have hset := h.setReader (r := .released) (q := (s.responses b).seq)
      (o := s.outcomes ++ [.dropped b]) (by rw [hrd]; exact fun _ h => by cases h)
        fun _ h => by cases h
    refine ⟨_, .discard b hpl, ?_⟩
    rw [h.outcomes]
    exact hset

theorem refines_move (hheld : s.Held) {act : Action ι} (hmove : Move seq s act s') :
    ∃ a', Step a a' ∧ Refines s' a' := by
  cases hmove with
  | call c e hcr =>
    have hold := h.fits c
    obtain ⟨hcell, hword⟩ := hold.stands.of_fresh (by rw [hcr]; trivial)
    have hset : Refines (s.setCaller c (.sending e)) a := by
      refine h.setCall_same ⟨?_, hold.chan, hold.ops⟩
      rw [hcell]
      exact ⟨hword, trivial⟩
    exact ⟨a, .stay, hset.frame rfl rfl rfl rfl⟩
  | callClosed c hcr =>
    obtain ⟨hcell, hword⟩ := (h.fits c).stands.of_fresh (by rw [hcr]; trivial)
    exact refines_abandon h (.inl hcell) (.inl ⟨hword, .inr rfl⟩) rfl rfl
  | enqueue c e hcr =>
    have hold := h.fits c
    obtain ⟨hcell, hword⟩ := hold.stands.of_fresh (by rw [hcr]; trivial)
    rw [hcell] at hold
    exact ⟨_, .move c .undecided (hcell ▸ .start),
      (h.frame rfl rfl rfl rfl : Refines (s.enqueue e) a).setCall hcell
        ⟨⟨.inl hword, trivial⟩, hold.chan, hold.ops⟩ rfl fun _ => iff_of_false nofun nofun⟩
  | refuse c e hcr =>
    obtain ⟨hcell, hword⟩ := (h.fits c).stands.of_fresh (by rw [hcr]; trivial)
    exact refines_abandon (h.frame rfl rfl rfl rfl : Refines (s.release e) a) (.inl hcell)
      (.inl ⟨hword, .inl rfl⟩) rfl rfl
  | send | takeSend => exact ⟨a, .stay, h.frame rfl rfl rfl rfl⟩
  | done c hcr => exact ⟨a, .stay, h.setCaller_live (by rw [hcr]; trivial) trivial⟩
  | caller c hmove => exact refines_callerMove h hmove
  | take t e c queue hwr =>
    refine ⟨a, .stay, h.setWriter rfl rfl rfl rfl ?_ fun _ => nofun⟩
    rw [hwr]
    exact fun _ => nofun
  | writer t ok hmove => exact refines_writerMove h hheld hmove
  | read b seq' hrd =>
    have hpl : a.place b = .absent := by rw [h.place, hrd]; rfl
    have hset := h.setReader (r := .parsed) (q := seq') (o := s.outcomes)
      (by rw [hrd]; exact fun _ => nofun) fun _ => nofun
    refine ⟨_, .arrive b hpl, ?_⟩
    rw [h.outcomes]
    exact hset
  | reader b hmove => exact refines_readerMove h hmove

end

end Conn

end DueServer.Client
