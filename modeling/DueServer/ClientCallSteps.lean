import DueServer.ClientCallModel

/-! What a step of a connection can do, case by case. -/
namespace DueServer.Client

open Lib.OneShot (Op)
open Function (update)
open Option

variable {ι : Type} [DecidableEq ι]

namespace Conn

inductive CallerMove (seq : ι → UInt64) (s : Conn ι) (c : ι) : Conn ι → Prop where
  | receive (b : ℕ) (hcaller : (s.calls c).caller = .waiting) (hchan : (s.calls c).chan = some b) :
      CallerMove seq s c
        ((s.setCall c { s.calls c with chan := none, caller := .returned (.response b) }).settle
          (.returned c b))
  | hang (hcaller : (s.calls c).caller = .waiting) (hclosed : Op.close ∈ (s.calls c).ops) :
      CallerMove seq s c (s.setCaller c (.returned .hanged))
  | load (sent : Bool) (hcaller : (s.calls c).caller = .loading)
      (hword : (s.calls c).word = if sent then .sent else .pending) :
      CallerMove seq s c (s.setCaller c (.swapping sent))
  | loadDelivered (hcaller : (s.calls c).caller = .loading)
      (hword : (s.calls c).word = .delivered) :
      CallerMove seq s c (s.setCaller c .receiving)
  | loadOver (hcaller : (s.calls c).caller = .loading)
      (hword : (s.calls c).word = .failed ∨ (s.calls c).word = .canceled) :
      CallerMove seq s c (s.setCaller c (.returned .canceled))
  | cancelPending (hcaller : (s.calls c).caller = .swapping false)
      (hword : (s.calls c).word = .pending) :
      CallerMove seq s c
        (s.setCall c { s.calls c with word := .canceled, caller := .returned .canceled })
  | cancelSent (hcaller : (s.calls c).caller = .swapping true)
      (hword : (s.calls c).word = .sent) :
      CallerMove seq s c (s.setCall c { s.calls c with word := .canceled, caller := .deleting })
  | again (sent : Bool) (hcaller : (s.calls c).caller = .swapping sent) :
      CallerMove seq s c (s.setCaller c .loading)
  | delete (hcaller : (s.calls c).caller = .deleting) :
      CallerMove seq s c ((s.delete (seq c)).setCaller c (.returned .canceled))
  | take (b : ℕ) (hcaller : (s.calls c).caller = .receiving)
      (hchan : (s.calls c).chan = some b) :
      CallerMove seq s c (s.setCall c { s.calls c with chan := none, caller := .releasing b })
  | takeClosed (hcaller : (s.calls c).caller = .receiving) (hclosed : Op.close ∈ (s.calls c).ops) :
      CallerMove seq s c (s.setCaller c (.returned .canceled))
  | release (b : ℕ) (hcaller : (s.calls c).caller = .releasing b) :
      CallerMove seq s c ((s.setCaller c (.returned .canceled)).settle (.dropped b))

inductive WriterMove (seq : ι → UInt64) (s : Conn ι) (t : ℕ) : Conn ι → Prop where
  | swap (e : ℕ) (c : ι) (hwriter : s.writers t = .swapping e c)
      (hword : (s.calls c).word = .pending) :
      WriterMove seq s t ((s.setCall c { s.calls c with word := .sent }).setWriter t (.storing e c))
  | skip (e : ℕ) (c : ι) (hwriter : s.writers t = .swapping e c)
      (hword : (s.calls c).word ≠ .pending) :
      WriterMove seq s t ((s.release e).setWriter t .idle)
  | store (e : ℕ) (c : ι) (hwriter : s.writers t = .storing e c) :
      WriterMove seq s t
        ({ s with pending := update s.pending (seq c) (some c) }.setWriter t (.writing e c))
  | write (e : ℕ) (c : ι) (ok : Bool) (hwriter : s.writers t = .writing e c) :
      WriterMove seq s t ((s.release e).setWriter t (if ok then .idle else .deleting c))
  | delete (c : ι) (hwriter : s.writers t = .deleting c) :
      WriterMove seq s t ((s.delete (seq c)).setWriter t (.failing c))
  | fail (c : ι) (hwriter : s.writers t = .failing c) (hword : (s.calls c).word = .sent) :
      WriterMove seq s t ((s.setCall c { s.calls c with word := .failed }).setWriter t (.closing c))
  | late (c : ι) (hwriter : s.writers t = .failing c) (hword : (s.calls c).word ≠ .sent) :
      WriterMove seq s t (s.setWriter t .idle)
  | close (c : ι) (hwriter : s.writers t = .closing c) :
      WriterMove seq s t
        ((s.setCall c { s.calls c with ops := (s.calls c).ops ++ [.close] }).setWriter t .idle)

inductive ReaderMove (s : Conn ι) (b : ℕ) : Conn ι → Prop where
  | unknown (hreader : (s.responses b).reader = .parsed)
      (hseq : ∀ seq, (s.responses b).seq = some seq → s.pending seq = none) :
      ReaderMove s b (s.setReader b .releasing)
  | extract (seq : UInt64) (c : ι) (hreader : (s.responses b).reader = .parsed)
      (hseq : (s.responses b).seq = some seq) (hpending : s.pending seq = some c) :
      ReaderMove s b ((s.delete seq).setReader b (.delivering c))
  | win (c : ι) (hreader : (s.responses b).reader = .delivering c)
      (hword : (s.calls c).word = .sent) :
      ReaderMove s b
        ((s.setCall c { s.calls c with word := .delivered }).setReader b (.sending c))
  | lose (c : ι) (hreader : (s.responses b).reader = .delivering c)
      (hword : (s.calls c).word ≠ .sent) :
      ReaderMove s b (s.setReader b .releasing)
  | send (c : ι) (hreader : (s.responses b).reader = .sending c)
      (hchan : (s.calls c).chan = none) :
      ReaderMove s b
        ((s.setCall c { s.calls c with
          chan := some b
          ops := (s.calls c).ops ++ [.send b] }).setReader b (.sent c))
  | release (hreader : (s.responses b).reader = .releasing) :
      ReaderMove s b ((s.setReader b .released).settle (.dropped b))

inductive Move (seq : ι → UInt64) (s : Conn ι) : Action ι → Conn ι → Prop where
  | call (c : ι) (e : ℕ) (hcaller : (s.calls c).caller = .idle)
      (hpool : (s.envelopes e).holder = .pool) :
      Move seq s (.call c e)
        { s.setCaller c (.sending e) with envelopes := update s.envelopes e ⟨some c, .sender⟩ }
  | callClosed (c : ι) (hcaller : (s.calls c).caller = .idle) :
      Move seq s (.callClosed c) (s.setCaller c (.returned .clientClosed))
  | enqueue (c : ι) (e : ℕ) (hcaller : (s.calls c).caller = .sending e) :
      Move seq s (.enqueue c) ((s.enqueue e).setCaller c .waiting)
  | refuse (c : ι) (e : ℕ) (hcaller : (s.calls c).caller = .sending e) :
      Move seq s (.refuse c) ((s.release e).setCaller c (.returned .refused))
  | send (e : ℕ) (hpool : (s.envelopes e).holder = .pool) : Move seq s (.send e) (s.enqueue e)
  | done (c : ι) (hcaller : (s.calls c).caller = .waiting) :
      Move seq s (.done c) (s.setCaller c .loading)
  | caller (c : ι) {s' : Conn ι} (h : CallerMove seq s c s') : Move seq s (.caller c) s'
  | takeSend (t e : ℕ) (queue : List ℕ) (hqueue : s.queue = e :: queue) :
      Move seq s (.take t) ({ s with queue := queue }.release e)
  | take (t e : ℕ) (c : ι) (queue : List ℕ) (hwriter : s.writers t = .idle)
      (hqueue : s.queue = e :: queue) (hcall : (s.envelopes e).call = some c) :
      Move seq s (.take t)
        ({ s with
          queue := queue
          envelopes := update s.envelopes e ⟨some c, .writer t⟩ }.setWriter t (.swapping e c))
  | writer (t : ℕ) (ok : Bool) {s' : Conn ι} (h : WriterMove seq s t s') :
      Move seq s (.writer t ok) s'
  | read (b : ℕ) (seq' : Option UInt64) (hreader : (s.responses b).reader = .unread) :
      Move seq s (.read b seq') { s with responses := update s.responses b ⟨seq', .parsed⟩ }
  | reader (b : ℕ) {s' : Conn ι} (h : ReaderMove s b s') : Move seq s (.reader b) s'

variable {seq : ι → UInt64} {s s' : Conn ι}

theorem closed_of_received {call : CallState} (h : received call = some none) :
    Op.close ∈ call.ops := by
  unfold received at h
  split at h
  · cases h
  split at h
  · assumption
  · cases h

theorem chan_of_received {call : CallState} {b : ℕ} (h : received call = some (some b)) :
    call.chan = some b := by
  unfold received at h
  split at h
  · next hchan => rw [hchan, some.inj h]
  · split at h <;> cases h

theorem callerMove_of_step {c : ι} (h : s.stepCaller seq c = some s') : CallerMove seq s c s' := by
  unfold stepCaller at h
  simp only at h
  split at h
  · next hcr =>
    obtain ⟨r, hr, rfl⟩ := map_eq_some_iff.mp h
    cases r with
    | some b => exact .receive b hcr (chan_of_received hr)
    | none => exact .hang hcr (closed_of_received hr)
  · next hcr =>
    split at h
    · next hword =>
      cases h
      exact .load false hcr hword
    · next hword =>
      cases h
      exact .load true hcr hword
    · next hword =>
      cases h
      exact .loadDelivered hcr hword
    · next hword =>
      cases h
      exact .loadOver hcr (.inl hword)
    next hword =>
    cases h
    exact .loadOver hcr (.inr hword)
  · next sent hcr =>
    by_cases hword : (s.calls c).word = if sent then .sent else .pending
    · rw [if_pos hword] at h
      cases h
      cases sent with
      | false => exact .cancelPending hcr hword
      | true => exact .cancelSent hcr hword
    · rw [if_neg hword] at h
      cases h
      exact .again sent hcr
  · next hcr =>
    cases h
    exact .delete hcr
  · next hcr =>
    obtain ⟨r, hr, rfl⟩ := map_eq_some_iff.mp h
    cases r with
    | some b => exact .take b hcr (chan_of_received hr)
    | none => exact .takeClosed hcr (closed_of_received hr)
  · next b hcr =>
    cases h
    exact .release b hcr
  all_goals cases h

theorem writerMove_of_step {t : ℕ} {ok : Bool} (h : s.stepWriter seq t ok = some s') :
    WriterMove seq s t s' := by
  unfold stepWriter at h
  split at h
  · next e c hwr =>
    split at h
    · next hword =>
      cases h
      exact .swap e c hwr hword
    next hword =>
    cases h
    exact .skip e c hwr hword
  · next e c hwr =>
    cases h
    exact .store e c hwr
  · next e c hwr =>
    cases h
    exact .write e c ok hwr
  · next c hwr =>
    cases h
    exact .delete c hwr
  · next c hwr =>
    split at h
    · next hword =>
      cases h
      exact .fail c hwr hword
    next hword =>
    cases h
    exact .late c hwr hword
  · next c hwr =>
    cases h
    exact .close c hwr
  · cases h

theorem readerMove_of_step {b : ℕ} (h : s.stepReader b = some s') : ReaderMove s b s' := by
  unfold stepReader at h
  split at h
  · next hrd =>
    split at h
    · next hseq =>
      cases h
      exact .unknown hrd fun seq hsome => by rw [hseq] at hsome; cases hsome
    next seq hseq =>
    split at h
    · next c hpend =>
      cases h
      exact .extract seq c hrd hseq hpend
    next hpend =>
    cases h
    refine .unknown hrd fun seq' hsome => ?_
    rw [hseq] at hsome
    cases hsome
    exact hpend
  · next c hrd =>
    split at h
    · next hword =>
      cases h
      exact .win c hrd hword
    next hword =>
    cases h
    exact .lose c hrd hword
  · next c hrd =>
    split at h
    · next hchan =>
      cases h
      exact .send c hrd hchan
    · cases h
  · next hrd =>
    cases h
    exact .release hrd
  all_goals cases h

theorem move_of_next {act : Action ι} (h : s.next seq act = some s') : Move seq s act s' := by
  cases act with
  | call c e =>
    obtain ⟨hcond, h⟩ := ite_none_right_eq_some.mp h
    cases h
    exact .call c e hcond.1 hcond.2
  | callClosed c =>
    obtain ⟨hcr, h⟩ := ite_none_right_eq_some.mp h
    cases h
    exact .callClosed c hcr
  | enqueue c =>
    simp only [next] at h
    split at h
    · next e hcr =>
      cases h
      exact .enqueue c e hcr
    · cases h
  | refuse c =>
    simp only [next] at h
    split at h
    · next e hcr =>
      cases h
      exact .refuse c e hcr
    · cases h
  | send e =>
    obtain ⟨hpool, h⟩ := ite_none_right_eq_some.mp h
    cases h
    exact .send e hpool
  | done c =>
    obtain ⟨hcr, h⟩ := ite_none_right_eq_some.mp h
    cases h
    exact .done c hcr
  | caller c => exact .caller c (callerMove_of_step h)
  | take t =>
    simp only [next] at h
    split at h
    · next e queue hwr hqu =>
      split at h
      · cases h
        exact .takeSend t e queue hqu
      next c hcall =>
      cases h
      exact .take t e c queue hwr hqu hcall
    · cases h
  | writer t ok => exact .writer t ok (writerMove_of_step h)
  | read b seq' =>
    obtain ⟨hrd, h⟩ := ite_none_right_eq_some.mp h
    cases h
    exact .read b seq' hrd
  | reader b => exact .reader b (readerMove_of_step h)

theorem run_invariant {G : Conn ι → Action ι → Bool} (I : Conn ι → Prop) (h0 : I {})
    (hstep : ∀ s act s', I s → G s act = true → Move seq s act s' → I s')
    {acts : List (Action ι)}
    (h : Lib.Run (Lib.guardedRel (fun s act => Conn.step s seq act) G) {} acts s) : I s :=
  Lib.run_states I h0 (fun s act s' hs hG hnext => hstep s act s' hs hG (move_of_next hnext)) h

end Conn

end DueServer.Client
