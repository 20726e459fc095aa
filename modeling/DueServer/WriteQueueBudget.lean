import DueServer.WriteQueueLedger
import DueServer.WriteQueueSteps

/-! The budget counts the bytes of the tasks that are reserved and not given back yet, at every
point of every run, and gives the bytes of each task back once. -/
namespace DueServer.WriteQueue

open Lib List WriteQueue.Frame

section Queues

variable (q : Conn)

theorem queue_setQueue_of_ne {low low' : Bool} (h : low' ≠ low) (ts : List Task) :
    (q.setQueue low ts).queue low' = q.queue low' := by
  cases low <;> cases low' <;> first | rfl | exact absurd rfl h

theorem conn_setQueue (low : Bool) (ts : List Task) : (q.setQueue low ts).conn = q.conn := by
  cases low <;> rfl

theorem tasks_append (low : Bool) (t : Task) :
    (q.setQueue low (q.queue low ++ [t])).tasks.Perm (t :: q.tasks) := by
  cases low with
  | true =>
    change (q.highPriorityQueue ++ (q.lowPriorityQueue ++ [t])).Perm _
    rw [← append_assoc]
    exact perm_append_comm
  | false =>
    change (q.highPriorityQueue ++ [t] ++ q.lowPriorityQueue).Perm _
    rw [append_assoc]
    exact perm_middle

theorem tasks_take {low : Bool} {t : Task} {ts : List Task} (h : q.queue low = t :: ts) :
    q.tasks.Perm (t :: (q.setQueue low ts).tasks) := by
  cases low with
  | true =>
    change (q.highPriorityQueue ++ q.queue true).Perm _
    rw [h]
    exact perm_middle
  | false =>
    change (q.queue false ++ q.lowPriorityQueue).Perm _
    rw [h]
    exact Perm.refl _

end Queues

variable {c : ℕ} {q : Conn} {ts ts' : List Task} {s s' : State} {f : Frame} {e : Effect}

theorem setConn_tasks {s : Shared} (hq : s.conns[c]? = some q) :
    ∃ others, (s.conns.flatMap Conn.tasks).Perm (q.tasks ++ others) ∧
      ∀ q' : Conn, ((s.setConn c q').conns.flatMap Conn.tasks).Perm (q'.tasks ++ others) := by
  obtain ⟨others, hbef, haft⟩ := replaceAt_perm hq
  exact ⟨others.flatMap Conn.tasks, hbef.flatMap_right _,
    fun q' => (haft [q']).flatMap_right _⟩

/-- What a step does to the tasks `ts` that it can reach: nothing but moving them, adding a signal
or a reserved task, or giving a task back. -/
inductive Moves (s : Shared) (ts : List Task) : Shared → List Task → Prop where
  | keep (s' : Shared) (ts' : List Task) (hts : ts.Perm ts') (hbudget : s'.budget = s.budget)
      (htickets : s'.tickets = s.tickets) (hreleased : s'.released = s.released) : Moves s ts s' ts'
  | signal (s' : Shared) (ts' : List Task) (hts : (closeSig :: ts).Perm ts')
      (hbudget : s'.budget = s.budget) (htickets : s'.tickets = s.tickets)
      (hreleased : s'.released = s.released) : Moves s ts s' ts'
  | reserve (t : Task) (s' : Shared) (ts' : List Task) (hts : (t :: ts).Perm ts')
      (hsize : 0 ≤ t.queuedBytes) (hticket : t.ticket = some s.tickets)
      (hbudget : s.budget.reserve t.queuedBytes t.lowPriority = some s'.budget)
      (htickets : s'.tickets = s.tickets + 1) (hreleased : s'.released = s.released) :
      Moves s ts s' ts'
  | release (t : Task) (s' : Shared) (ts' : List Task) (hts : ts.Perm (t :: ts'))
      (hs' : s' = s.doRecycleToPool t) : Moves s ts s' ts'

theorem Moves.append_perm {s s' : Shared} {us bef aft : List Task} (h : Moves s ts s' ts')
    (hbef : bef.Perm (ts ++ us)) (haft : aft.Perm (ts' ++ us)) : Moves s bef s' aft := by
  cases h with
  | keep _ _ hts hbud htic hrel =>
    exact .keep _ _ ((hbef.trans (hts.append_right us)).trans haft.symm) hbud htic hrel
  | signal _ _ hts hbud htic hrel =>
    have hts := (hbef.cons _).trans (hts.append_right us)
    exact .signal _ _ (hts.trans haft.symm) hbud htic hrel
  | reserve t _ _ hts hsize htick hbud htic hrel =>
    have hts := (hbef.cons _).trans (hts.append_right us)
    exact .reserve t _ _ (hts.trans haft.symm) hsize htick hbud htic hrel
  | release t _ _ hts hs' =>
    exact .release t _ _ ((hbef.trans (hts.append_right us)).trans (haft.symm.cons _)) hs'

theorem Does.moves (h : Does s f e) :
    Moves s.shared (f.tasks ++ s.shared.conns.flatMap Conn.tasks) (e.write s.shared)
      (e.frames.flatMap tasks ++ (e.write s.shared).conns.flatMap Conn.tasks) := by
  cases h with
  | leave _ htas =>
    rw [htas]
    exact .keep _ _ (Perm.refl _) rfl rfl rfl
  | pass _ g htas _ hgta | enter _ g c q htas _ hgta =>
    rw [htas, flatMap_singleton, hgta]
    exact .keep _ _ (Perm.refl _) rfl rfl rfl
  | reserve c low typ msg b hb =>
    exact .reserve (s.shared.task low typ msg) _ _ (Perm.refl _) (Int.natCast_nonneg _) rfl hb
      rfl rfl
  | enqueue c t q hq =>
    obtain ⟨others, hbef, haft⟩ := setConn_tasks hq
    refine .keep _ _ ?_ rfl rfl rfl
    -- the task goes from the frame to the end of its queue
    have hqu := (tasks_append q t.lowPriority t).append_right others
    exact (hbef.cons t).trans (hqu.symm.trans (haft _).symm)
  | timeout | discardLow | discarded => exact .keep _ _ (Perm.refl _) rfl rfl rfl
  | recycle lock t => exact .release t _ _ (Perm.refl _) rfl
  | receive c q low t ts hq hqu | discard c q low t ts hq hqu =>
    obtain ⟨others, hbef, haft⟩ := setConn_tasks hq
    refine .keep _ _ ?_ rfl rfl rfl
    have htake := (tasks_take q hqu).append_right others
    exact (hbef.trans htake).trans ((haft _).symm.cons t)
  | signal c t q hq =>
    obtain ⟨others, hbef, haft⟩ := setConn_tasks hq
    have haft := haft { q with done := q.done || q.conn }
    exact .keep _ _ ((hbef.trans haft.symm).cons t) rfl rfl rfl
  | written c t gs hgta =>
    rw [flatMap_cons, hgta]
    exact .keep _ _ (Perm.refl _) rfl rfl rfl
  | touch _ g c q q' htas _ hgta _ hq _ hqu =>
    obtain ⟨others, hbef, haft⟩ := setConn_tasks hq
    have hsame : q'.tasks = q.tasks := congrArg₂ (· ++ ·) (hqu false) (hqu true)
    rw [htas, flatMap_singleton, hgta]
    refine .keep _ _ ?_ rfl rfl rfl
    have haft := haft q'
    rw [hsame] at haft
    exact hbef.trans haft.symm
  | enqueueSig c q hq =>
    obtain ⟨others, hbef, haft⟩ := setConn_tasks hq
    refine .signal _ _ ?_ rfl rfl rfl
    have hqu := (tasks_append q true closeSig).append_right others
    exact (hbef.cons closeSig).trans (hqu.symm.trans (haft _).symm)
  | close c q hq =>
    obtain ⟨others, hbef, haft⟩ := setConn_tasks hq
    exact .keep _ _ (hbef.trans (haft { q with conn := false }).symm) rfl rfl rfl

theorem Steps.moves (h : Steps s s') : Moves s.shared s.outstanding s'.shared s'.outstanding := by
  cases h with
  | accept =>
    refine .keep _ _ ?_ rfl rfl rfl
    have hconn : [Conn.new].flatMap Conn.tasks = [] := rfl
    have hfrm : [[selecting s.shared.conns.length]].flatten.flatMap tasks = [] := rfl
    simp only [State.outstanding, flatMap_append, flatten_append]
    rw [hconn, hfrm, append_nil, append_nil]
  | start f htas =>
    refine .keep _ _ ?_ rfl rfl rfl
    simp only [State.outstanding, flatMap_append, flatten_append]
    have hnew : [[f]].flatten.flatMap tasks = [] := by
      rw [flatten_singleton, flatMap_singleton, htas]
    rw [hnew, append_nil]
  | turn f rest e others _ h =>
    let us := (rest ++ others.flatten).flatMap tasks
    have hbef : s.outstanding.Perm (f.tasks ++ s.shared.conns.flatMap Conn.tasks ++ us) := by
      have hfrs := (h.before.flatten).flatMap_right tasks
      refine (hfrs.append_left _).trans ?_
      rw [append_assoc]
      exact perm_append_comm_assoc _ _ _
    have haft : s'.outstanding.Perm
        (e.frames.flatMap tasks ++ s'.shared.conns.flatMap Conn.tasks ++ us) := by
      have hfrs := (h.after.flatten).flatMap_right tasks
      rw [flatten_cons, append_assoc, flatMap_append] at hfrs
      refine (hfrs.append_left _).trans ?_
      rw [append_assoc]
      exact perm_append_comm_assoc _ _ _
    have hmov := h.does.moves
    rw [← h.shared] at hmov
    exact hmov.append_perm hbef haft

/-- The budget counts the outstanding tasks, and every reserved task is outstanding or was given
back once. -/
structure Exact (s : State) : Prop where
  accounts : Accounts s.shared.budget s.outstanding
  once : ((s.outstanding ++ s.shared.released).filterMap Task.ticket).Perm
    (range s.shared.tickets)

theorem exact_init {o : Options} (hpos : 0 < o.maxWriteQueueBytes) : Exact (State.init o) where
  accounts := Accounts.new hpos
  once := Perm.refl _

theorem Exact.steps (h : Exact s) (hste : Steps s s') : Exact s' := by
  have hmov := hste.moves
  cases hmov with
  | keep _ _ hts hbud htic hrel =>
    refine ⟨?_, ?_⟩
    · rw [hbud]
      exact h.accounts.perm hts
    · rw [htic, hrel]
      exact ((hts.symm.append_right _).filterMap _).trans h.once
  | signal _ _ hts hbud htic hrel =>
    refine ⟨?_, ?_⟩
    · rw [hbud]
      exact (h.accounts.cons_of_zero rfl).perm hts
    · rw [htic, hrel]
      exact ((hts.symm.append_right _).filterMap _).trans h.once
  | reserve t _ _ hts hsize htick hbud htic hrel =>
    refine ⟨(h.accounts.reserve hsize hbud).perm hts, ?_⟩
    rw [htic, hrel, range_succ]
    refine ((hts.symm.append_right _).filterMap _).trans ?_
    rw [cons_append, filterMap_cons_some htick]
    exact (h.once.cons _).trans (perm_append_singleton _ _).symm
  | release t _ _ hts hs' =>
    refine ⟨?_, ?_⟩
    · rw [hs']
      exact (h.accounts.perm hts).release
    · rw [hs']
      refine Perm.trans ?_ h.once
      apply Perm.filterMap
      change (s'.outstanding ++ (s.shared.released ++ [t])).Perm _
      refine Perm.trans ?_ (hts.symm.append_right _)
      rw [← append_assoc]
      exact perm_append_comm

theorem getElem?_setConn {s : Shared} (hq : s.conns[c]? = some q) (q' : Conn)
    (d : ℕ) : (s.setConn c q').conns[d]? = if c = d then some q' else s.conns[d]? :=
  getElem?_replaceAt hq q' d

theorem of_getElem?_setConn {s : Shared} {d : ℕ} {q' r : Conn} (hq : s.conns[c]? = some q)
    (hr : (s.setConn c q').conns[d]? = some r) :
    (c = d ∧ r = q') ∨ (c ≠ d ∧ s.conns[d]? = some r) := by
  rw [getElem?_setConn hq] at hr
  split at hr
  · rename_i heq
    cases hr
    exact .inl ⟨heq, rfl⟩
  rename_i hne
  exact .inr ⟨hne, hr⟩

namespace State

def opened (s : State) (c : ℕ) : Prop := ∃ q, s.shared.conns[c]? = some q ∧ q.conn = true

end State

namespace Does

variable {s : State} {f : Frame} {e : Effect}

theorem rlock_new (h : Does s f e) {g : Frame} {c : ℕ} (hg : g ∈ e.frames)
    (hrlo : g.rlock = some c) : f.rlock = some c ∨ s.opened c := by
  cases h with
  | leave | enqueue | recycle | discarded => cases hg
  | pass _ g' _ _ _ hgrl | touch _ g' d q q' _ _ _ hgrl =>
    cases mem_singleton.mp hg
    cases hgrl.symm.trans hrlo
  | enter _ g' d q _ _ _ hgrl hq hconn =>
    cases mem_singleton.mp hg
    cases hgrl.symm.trans hrlo
    exact .inr ⟨q, hq, hconn⟩
  | reserve =>
    cases mem_singleton.mp hg
    exact .inl hrlo
  | timeout =>
    rcases mem_cons.mp hg with rfl | hg
    · exact .inl hrlo
    cases mem_singleton.mp hg
    cases hrlo
  | receive | signal | enqueueSig | close | discardLow =>
    cases mem_singleton.mp hg
    cases hrlo
  | written d t gs _ hgrl =>
    rcases mem_cons.mp hg with rfl | hg
    · cases hrlo
    · cases (hgrl g hg).symm.trans hrlo
  | discard =>
    rcases mem_cons.mp hg with rfl | hg
    · cases hrlo
    cases mem_singleton.mp hg
    cases hrlo

theorem opened_after (h : Does s f e) {c : ℕ} (hopen : s.opened c) :
    (∃ q, (e.write s.shared).conns[c]? = some q ∧ q.conn = true) ∨
      (s.readers c = false ∧ ∀ g ∈ e.frames, g.rlock = none) := by
  -- a change of one connection that does not close it
  have hset : ∀ {d : ℕ} {q q' : Conn}, s.shared.conns[d]? = some q → q'.conn = q.conn →
      ∃ r, (s.shared.setConn d q').conns[c]? = some r ∧ r.conn = true := by
    intro d q q' hq hsame
    obtain ⟨r, hr, hconn⟩ := hopen
    rw [getElem?_setConn hq]
    split
    · rename_i heq
      subst heq
      cases hq.symm.trans hr
      exact ⟨q', rfl, hsame.trans hconn⟩
    · exact ⟨r, hr, hconn⟩
  cases h with
  | enqueue d t q hq | receive d q low t ts hq | enqueueSig d q hq | discard d q low t ts hq =>
    exact .inl (hset hq (conn_setQueue q _ _))
  | signal d t q hq => exact .inl (hset hq rfl)
  | touch _ g d q q' _ _ _ _ hq hconn => exact .inl (hset hq hconn)
  | close d q hq hrds =>
    by_cases heq : d = c
    · refine .inr ⟨heq ▸ hrds, fun g hg => ?_⟩
      rw [mem_singleton.mp hg]
      rfl
    obtain ⟨r, hr, hconn⟩ := hopen
    refine .inl ⟨r, ?_, hconn⟩
    rw [getElem?_setConn hq, if_neg heq]
    exact hr
  | leave | pass | enter | reserve | timeout | recycle | written | discardLow | discarded =>
    exact .inl hopen

/-- Tasks in a queue of a closed connection are about to be discarded, or were there before with a
discarding that is not the frame that moves. -/
theorem discards (h : Does s f e) (hloc : ∀ c, f.rlock = some c → s.opened c) {c : ℕ}
    {q' : Conn} {low : Bool} (hq' : (e.write s.shared).conns[c]? = some q')
    (hconn : q'.conn = false) (hne : q'.queue low ≠ []) :
    (∃ l ≤ low, discarding c l ∈ e.frames) ∨
      ∃ q, s.shared.conns[c]? = some q ∧ q.conn = false ∧ q.queue low ≠ [] ∧
        ∀ l ≤ low, f ≠ .discarding c l := by
  -- a task is taken from a queue
  have htake : ∀ {d : ℕ} {q : Conn} {l : Bool} {t : Task} {ts : List Task},
      s.shared.conns[d]? = some q → q.queue l = t :: ts →
      (s.shared.setConn d (q.setQueue l ts)).conns[c]? = some q' →
      ∃ r, s.shared.conns[c]? = some r ∧ r.conn = false ∧ r.queue low ≠ [] := by
    intro d q l t ts hq hqu hq'
    rcases of_getElem?_setConn hq hq' with ⟨rfl, rfl⟩ | ⟨_, hq'⟩
    · rw [conn_setQueue] at hconn
      refine ⟨q, hq, hconn, ?_⟩
      by_cases hl : low = l
      · rw [hl, hqu]
        exact cons_ne_nil _ _
      · rwa [queue_setQueue_of_ne q hl] at hne
    · exact ⟨q', hq', hconn, hne⟩
  -- a task is put into a queue by a goroutine that holds the read lock
  have hput : ∀ {d : ℕ} {q : Conn} {l : Bool} {ts : List Task}, f.rlock = some d →
      s.shared.conns[d]? = some q →
      (s.shared.setConn d (q.setQueue l ts)).conns[c]? = some q' →
      s.shared.conns[c]? = some q' := by
    intro d q l ts hrlo hq hq'
    rcases of_getElem?_setConn hq hq' with ⟨rfl, rfl⟩ | ⟨_, hq'⟩
    · obtain ⟨r, hr, hopen⟩ := hloc _ hrlo
      cases hq.symm.trans hr
      rw [conn_setQueue] at hconn
      cases hconn.symm.trans hopen
    · exact hq'
  have hnot : f.discards = false → ∀ l ≤ low, f ≠ .discarding c l := by
    rintro hdis l _ rfl
    cases hdis
  cases h with
  | leave _ _ hdis | pass _ _ _ hdis | enter _ _ _ _ _ hdis =>
    exact .inr ⟨q', hq', hconn, hne, hnot hdis⟩
  | reserve | timeout | recycle | written => exact .inr ⟨q', hq', hconn, hne, hnot rfl⟩
  | enqueue d t q hq | enqueueSig d q hq => exact .inr ⟨q', hput rfl hq hq', hconn, hne, hnot rfl⟩
  | receive d q l t ts hq hqu =>
    obtain ⟨r, hr, hrco, hrne⟩ := htake hq hqu hq'
    exact .inr ⟨r, hr, hrco, hrne, hnot rfl⟩
  | signal d t q hq =>
    refine .inr ?_
    rcases of_getElem?_setConn hq hq' with ⟨rfl, rfl⟩ | ⟨_, hq'⟩
    · exact ⟨q, hq, hconn, hne, hnot rfl⟩
    · exact ⟨q', hq', hconn, hne, hnot rfl⟩
  | touch _ g d q r _ hdis _ _ hq hsame hqu =>
    refine .inr ?_
    rcases of_getElem?_setConn hq hq' with ⟨rfl, rfl⟩ | ⟨_, hq'⟩
    · rw [hqu] at hne
      exact ⟨q, hq, hsame.symm.trans hconn, hne, hnot hdis⟩
    · exact ⟨q', hq', hconn, hne, hnot hdis⟩
  | close d q hq =>
    rcases of_getElem?_setConn hq hq' with ⟨rfl, _⟩ | ⟨_, hq'⟩
    · exact .inl ⟨false, Bool.false_le _, mem_singleton_self _⟩
    · exact .inr ⟨q', hq', hconn, hne, hnot rfl⟩
  | discard d q l t ts hq hqu =>
    by_cases hl : d = c ∧ l ≤ low
    · obtain ⟨rfl, hl⟩ := hl
      exact .inl ⟨l, hl, mem_cons_of_mem _ (mem_singleton_self _)⟩
    obtain ⟨r, hr, hrco, hrne⟩ := htake hq hqu hq'
    refine .inr ⟨r, hr, hrco, hrne, ?_⟩
    rintro l' hl' heq
    cases heq
    exact hl ⟨rfl, hl'⟩
  | discardLow d q hq hqu =>
    by_cases heq : d = c
    · subst heq
      cases hq.symm.trans hq'
      cases low with
      | true => exact .inl ⟨true, le_rfl, mem_singleton_self _⟩
      | false => exact absurd hqu hne
    · refine .inr ⟨q', hq', hconn, hne, ?_⟩
      rintro l _ hf
      cases hf
      exact heq rfl
  | discarded d q hq hqu =>
    refine .inr ⟨q', hq', hconn, hne, ?_⟩
    rintro l hl hf
    cases hf
    cases hq.symm.trans hq'
    cases low with
    | true => exact hne hqu
    | false => cases hl rfl

end Does

structure Drains (s : State) : Prop where
  locked : ∀ f ∈ s.threads.flatten, ∀ c, f.rlock = some c → s.opened c
  discards : ∀ c q low, s.shared.conns[c]? = some q → q.conn = false → q.queue low ≠ [] →
    ∃ l ≤ low, discarding c l ∈ s.threads.flatten

theorem drains_init (o : Options) : Drains (State.init o) where
  locked := fun _ hf => nomatch hf
  discards := fun _ _ _ hq => nomatch hq

theorem readers_eq_false (h : s.readers c = false)
    (hf : f ∈ s.threads.flatten) : f.rlock ≠ some c := by
  intro hrlo
  have hno := any_eq_false.mp h f hf
  exact hno (decide_eq_true hrlo)

theorem Drains.turn (hs : Drains s) {rest : List Frame}
    {others : List (List Frame)} (h : s.Turn f rest e others s') : Drains s' where
  locked := by
    intro g hg c hrlo
    -- the read lock was held, or is taken now: either way the connection was open
    have hopen : s.opened c := by
      rcases h.mem_frames_after hg with hnew | hold
      · exact (h.does.rlock_new hnew hrlo).elim (hs.locked f h.mover_mem c) id
      · exact hs.locked g hold c hrlo
    rcases h.does.opened_after hopen with hopen' | ⟨hrds, hnone⟩
    · rw [State.opened, h.shared]
      exact hopen'
    exfalso
    rcases h.mem_frames_after hg with hnew | hold
    · cases (hnone g hnew).symm.trans hrlo
    · exact readers_eq_false hrds hold hrlo
  discards := by
    intro c q' low hq' hconn hne
    rw [h.shared] at hq'
    rcases h.does.discards (hs.locked f h.mover_mem) hq' hconn hne with
      ⟨l, hl, hmem⟩ | ⟨q, hq, hqco, hqne, hnot⟩
    · exact ⟨l, hl, h.mem_frames_new hmem⟩
    obtain ⟨l, hl, hmem⟩ := hs.discards c q low hq hqco hqne
    have hkept := (h.mem_frames_before hmem).resolve_left fun heq => hnot l hl heq.symm
    exact ⟨l, hl, hkept⟩

theorem Drains.steps (hs : Drains s) (h : Steps s s') : Drains s' := by
  cases h with
  | accept =>
    -- the new connection is open and empty
    have hold : ∀ {c q}, s.shared.conns[c]? = some q →
      (s.shared.conns ++ [Conn.new])[c]? = some q :=
      fun hq => getElem?_append_left (getElem?_eq_some_iff.mp hq).1 ▸ hq
    refine ⟨fun f hf c hrlo => ?_, fun c q low hq hconn hne => ?_⟩
    · rw [flatten_append] at hf
      rcases mem_append.mp hf with hf | hf
      · obtain ⟨q, hq, hconn⟩ := hs.locked f hf c hrlo
        exact ⟨q, hold hq, hconn⟩
      cases mem_singleton.mp hf
      cases hrlo
    · have hloo : s.shared.conns[c]? = some q := by
        rw [getElem?_append] at hq
        split at hq
        · exact hq
        cases mem_singleton.mp (mem_of_getElem? hq)
        cases hconn
      obtain ⟨l, hl, hmem⟩ := hs.discards c q low hloo hconn hne
      refine ⟨l, hl, ?_⟩
      rw [flatten_append]
      exact mem_append_left _ hmem
  | start f _ hfrl =>
    refine ⟨fun g hg c hrlo => ?_, fun c q low hq hconn hne => ?_⟩
    · rw [flatten_append] at hg
      rcases mem_append.mp hg with hg | hg
      · exact hs.locked g hg c hrlo
      cases mem_singleton.mp hg
      cases hfrl.symm.trans hrlo
    · obtain ⟨l, hl, hmem⟩ := hs.discards c q low hq hconn hne
      refine ⟨l, hl, ?_⟩
      rw [flatten_append]
      exact mem_append_left _ hmem
  | turn f rest e others _ h => exact hs.turn h

/-- The budget as a whole. `drained`: once a closed connection has been gone through, no bytes are
left in its queues. -/
structure Conserves (s : State) : Prop where
  queued : s.shared.budget.queuedBytes = bytes s.outstanding
  low : s.shared.budget.lowPriorityBytes = lowBytes s.outstanding
  queued_le : s.shared.budget.queuedBytes ≤ s.shared.budget.maxBytes
  low_le : s.shared.budget.lowPriorityBytes ≤
    s.shared.budget.maxBytes - s.shared.budget.highReserveBytes
  once : ((s.outstanding ++ s.shared.released).filterMap Task.ticket).Perm
    (range s.shared.tickets)
  drained : ∀ c q, s.shared.conns[c]? = some q → q.conn = false →
    (∀ low, discarding c low ∉ s.threads.flatten) → q.tasks = []
  high : ∀ n, highBytes s.outstanding + n ≤ s.shared.budget.highReserveBytes →
    (s.shared.budget.reserve n false).isSome = true

theorem conserves_of_exact (hex : Exact s) (hdra : Drains s) : Conserves s where
  queued := hex.accounts.queued
  low := hex.accounts.low
  queued_le := hex.accounts.queued_le
  low_le := hex.accounts.low_le
  once := hex.once
  drained := by
    intro c q hq hconn hno
    have hem : ∀ low, q.queue low = [] := by
      intro low
      by_contra hne
      obtain ⟨l, _, hmem⟩ := hdra.discards c q low hq hconn hne
      exact hno l hmem
    have hhigh : q.highPriorityQueue = [] := hem false
    have hlow : q.lowPriorityQueue = [] := hem true
    rw [Conn.tasks, hhigh, hlow, append_nil]
  high := fun _ hn => hex.accounts.reserve_high hn

/-- Over every run of the connections that share a budget, the budget counts the bytes of the tasks
that are being enqueued, queued, written or recycled, within its limits, gives each back once, and
has room for the high priority up to its reserve. -/
theorem write_budget_conserved (o : Options) (hpos : 0 < o.maxWriteQueueBytes) {acts : List Act}
    {s : State} (h : Run (guardedRel (State.step o) fun _ _ => true) (State.init o) acts s) :
    Conserves s := by
  have hinv : Exact s ∧ Drains s := by
    refine run_invariant (fun _ s => Exact s ∧ Drains s) ⟨exact_init hpos, drains_init o⟩ ?_ h
    intro _ s act s' hs hstep
    have hste := steps_of_step hstep
    exact ⟨hs.1.steps hste, hs.2.steps hste⟩
  exact conserves_of_exact hinv.1 hinv.2

def narrowOptions : Options := ⟨10, 4, 1, true⟩

def fullQueueActs : List Act :=
  [.accept, .push 0 [1, 2, 3], .move 1 .go, .move 1 .go, .move 1 .go, .move 1 .go,
    .push 0 [4, 5, 6], .move 2 .go, .move 2 .go, .move 2 .go]

theorem fullQueueActs_isSome :
    (exec (State.step narrowOptions) (fun _ _ => true) (State.init narrowOptions)
      fullQueueActs).isSome = true := rfl

/-- The bytes of both are counted. -/
theorem fullQueue_conserved :
    let s := ((exec (State.step narrowOptions) (fun _ _ => true) (State.init narrowOptions)
      fullQueueActs).get fullQueueActs_isSome).2
    s.shared.budget.queuedBytes = 6 ∧ Conserves s :=
  ⟨by decide +kernel,
    write_budget_conserved narrowOptions (by decide) (run_of_exec _ fullQueueActs_isSome)⟩

namespace State

def queuedOrWritten (s : State) : List Task :=
  s.shared.conns.flatMap Conn.tasks ++
    s.threads.flatten.flatMap fun
      | .writing _ t => [t]
      | _ => []

end State

/-- The bytes of a sender that waits for room are counted while its task is neither queued nor being
written. -/
theorem waiting_sender_counted :
    ¬∀ (o : Options) (acts : List Act) (s : State), 0 < o.maxWriteQueueBytes →
      Run (guardedRel (State.step o) fun _ _ => true) (State.init o) acts s →
      s.shared.budget.queuedBytes = bytes s.queuedOrWritten := by
  intro hall
  have heq := hall narrowOptions _ _ (by decide) (run_of_exec _ fullQueueActs_isSome)
  revert heq
  decide +kernel

end DueServer.WriteQueue
