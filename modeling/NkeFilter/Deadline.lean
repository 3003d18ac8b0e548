import NkeFilter.DeliverWaiting
import NkeFilter.PendingCounters
import NkeFilter.Reinjection
import NkeFilter.Writers

/-!
# The deadline

A socket all of whose packets have outlived their deadline, and which `DeliverWaitingNotifications` finds at
the head of its list or which waits for nothing: one call of it and one `reinjectDeferredData` in all
directions empty the queue, whatever fails meanwhile (`deadline_drains`). The delivery does not stop at an
expired packet, so nothing is left that the reinjection would refuse.
-/

namespace NkeFilter
open Lib NkeSocketObject

/-- What the queue, the counters and the blocked writers have to do with each other while no packet is
outside the queue. -/
structure QueueInvariants (s : SocketState) : Prop where
  suffix : ReportSuffix s.so.pendingQueue
  waiting : s.so.packetsWaitingForReporting = Int32.ofNat (waitingCount s.so.pendingQueue)
  counts : Counts s.so s.so.pendingQueue
  blocked : ∀ w, s.blocked w → w ∈ waitEntries s.so.pendingQueue
  marked : ∀ pkt ∈ s.so.pendingQueue, ∀ w, pkt.waitEntry = some w → pkt.needToBeReported

/-- The deadline of every packet has passed at the time `now`. -/
def AllExpired (now : UInt64) (queue : List PendingPktQueueItem) : Prop :=
  ∀ pkt ∈ queue, (pkt.isDeadlineTimerExpired now).1

/-- The socket after `reinjectDeferredData( NkeSocketDataAll )`. -/
def SocketState.reinjectAll (s : SocketState) (clock : Nat → UInt64) (outcome : Nat → InjectOutcome) :
    SocketState :=
  { s with so := (s.so.reinjectDeferredDataNoting .NkeSocketDataAll clock outcome).1 }

variable {s s' s₀ : SocketState} {h : List SocketEvent} {queue rest taken : List PendingPktQueueItem}
  {pkt pkt' : PendingPktQueueItem} {now now' : UInt64} {so so' : NkeSocketObject} {object : Nat}
  {events : List SocketEvent} {l : DeliverLocals}

/-- The threads keep it so: it holds whenever no call holds a packet and none is being injected. -/
theorem queueInvariants_of_run {socketId : NkeSocketID} {size : Nat} {as : List SocketLabel}
    (hfew : socketMachine.Along FewWaiting (SocketState.start socketId size) as)
    (hr : socketMachine.run (SocketState.start socketId size) as = some (s, h))
    (hcalls : ∀ id, (s.calls id).allocated = none) (hidle : s.injection = none) : QueueInvariants s := by
  have hQ := queueShape_of_run hr
  have hW := waiting_of_run hr
  have hnone : s.pendingPkts = s.so.pendingQueue := by
    have hallocated : s.allocated = [] := List.filterMap_eq_nil_iff.2 fun id _ => hcalls id
    have hinjected : s.injected = [] := by
      rw [SocketState.injected, hidle]
      rfl
    rw [SocketState.pendingPkts, hallocated, hinjected, List.nil_append, List.append_nil]
  refine ⟨reportSuffix_of_run ⟨as, hr, hfew⟩, hQ.waiting, ?_, fun w hw => (hW.blocked w).2 hw, ?_⟩
  · exact hnone ▸ counts_of_socketRun hr
  · exact fun pkt hp w hw => (hW.marked pkt hp w hw).2.2

/-! ### Expired packets -/

theorem isDeadlineTimerExpired_mono (he : (pkt.isDeadlineTimerExpired now).1) (hle : now ≤ now') :
    (pkt.isDeadlineTimerExpired now').1 := by
  unfold PendingPktQueueItem.isDeadlineTimerExpired at he ⊢
  split
  · rfl
  · rename_i hl
    rw [if_neg hl] at he
    simp only [decide_eq_true_eq] at he ⊢
    exact UInt64.lt_of_lt_of_le he hle

theorem Delivered.expired_of (hd : Delivered events pkt pkt') (he : (pkt.isDeadlineTimerExpired now).1) :
    (pkt'.isDeadlineTimerExpired now).1 := by
  -- apart from the latch the test reads only the allocation time
  have hsame : ∀ pkt' : PendingPktQueueItem, pkt'.deadlineTimerExpired = pkt.deadlineTimerExpired →
      pkt'.allocationTime = pkt.allocationTime → (pkt'.isDeadlineTimerExpired now).1 := by
    intro pkt' hl ht
    unfold PendingPktQueueItem.isDeadlineTimerExpired at he ⊢
    rw [hl, ht]
    split
    · rfl
    · rename_i hnot
      rwa [if_neg hnot] at he
  cases hd with
  | expired => exact isDeadlineTimerExpired_of_latched rfl
  | _ => exact hsame _ rfl rfl

/-- A delivery that finds every packet expired is done with all of them. -/
theorem deliverLoop_expired (outcome : Nat → ReportOutcome) (queue : List PendingPktQueueItem)
    (so : NkeSocketObject) (l : DeliverLocals) (he : AllExpired now queue)
    (hclock : ∀ i, now ≤ (outcome i).now) : waitingCount (deliverLoop outcome queue so l).1 = 0 := by
  induction queue generalizing outcome so l with
  | nil => rfl
  | cons pkt rest ih =>
    have hrest := fun so l => ih (fun i => outcome (i + 1)) so l
      (fun pkt hp => he pkt (List.mem_cons_of_mem _ hp)) fun i => hclock (i + 1)
    have hexp := isDeadlineTimerExpired_mono (he pkt (List.mem_cons_self ..)) (hclock 0)
    unfold deliverLoop
    by_cases hneed : pkt.needToBeReported
    · simp only [hneed, Bool.not_true, Bool.false_eq_true, if_false]
      generalize so.report pkt (outcome 0) l = r
      obtain ⟨l₁, sent⟩ := r
      have hgoes : ∀ pkt', waitingCount ((so.reported pkt').1 ::
          (deliverLoop (fun i => outcome (i + 1)) rest (so.reported pkt').2.1 l₁).1) = 0 := by
        intro pkt'
        rw [reported_fst]
        simpa [waitingCount] using hrest (so.reported pkt').2.1 l₁
      by_cases hok : l₁.error = KERN_SUCCESS
      · simpa [hok] using hgoes pkt
      · simpa [hok, hexp] using hgoes { (pkt.isDeadlineTimerExpired (outcome 0).now).2 with allowData := false }
    · rw [if_pos (by simpa using hneed)]
      simpa [waitingCount, hneed] using hrest so l

/-! ### During the deliveries -/

/-- What every delivery keeps of a socket that was in `s₀`. -/
structure Draining (now : UInt64) (s₀ s : SocketState) : Prop where
  waiting : s.so.packetsWaitingForReporting = Int32.ofNat (waitingCount s.so.pendingQueue)
  counts : Counts s.so s.so.pendingQueue
  expired : AllExpired now s.so.pendingQueue
  marked : ∀ pkt ∈ s.so.pendingQueue, ∀ w, pkt.waitEntry = some w → pkt.needToBeReported
  woken : ∀ w, s₀.blocked w → s.waitSatisfied w ∨ w ∈ waitEntries s.so.pendingQueue

namespace Draining

theorem start (hQ : QueueInvariants s) (he : AllExpired now s.so.pendingQueue) : Draining now s s :=
  ⟨hQ.waiting, hQ.counts, he, hQ.marked, fun w hw => .inr (hQ.blocked w hw)⟩

theorem listed {inserted : Bool} (h : Draining now s₀ s) : Draining now s₀ (s.listed inserted) :=
  ⟨h.waiting, h.counts.of_perm (fun _ => ⟨rfl, rfl⟩) (.refl _), h.expired, h.marked, h.woken⟩

theorem deliver {outcome : Nat → ReportOutcome} (h : Draining now s₀ s)
    (hd : s.deliver outcome = (s', l, events)) : Draining now s₀ s' := by
  obtain ⟨hpkts, -, hso, -⟩ : DeliverEnd s.so.pendingQueue s.so (deliverLoop outcome s.so.pendingQueue s.so
    ⟨none, KERN_SUCCESS, false, false⟩) := deliverLoop_spec outcome
  have hwakes := deliverLoop_wakeups outcome s.so.pendingQueue s.so ⟨none, KERN_SUCCESS, false, false⟩
  have hwaiting := (deliver_end hd).1 h.waiting
  cases hd
  refine ⟨hwaiting, ?_, ?_, ?_, ?_⟩
  · refine h.counts.of_perm (fun dataInbound => ?_) (.of_eq (sized_delivered hpkts))
    show NkeSocketObject.numberOfPendingPackets { (deliverLoop _ _ _ _).2.1 with pendingQueue := _ } _ = _ ∧
      NkeSocketObject.totalPendingBytes { (deliverLoop _ _ _ _).2.1 with pendingQueue := _ } _ = _
    rw [hso]
    cases dataInbound <;> exact ⟨rfl, rfl⟩
  · intro pkt' hp
    obtain ⟨pkt, hp, hdel⟩ := exists_partner hpkts hp
    exact hdel.expired_of (h.expired pkt hp)
  · intro pkt' hp w hw
    obtain ⟨pkt, hp, hdel⟩ := exists_partner hpkts hp
    obtain rfl := hdel.waitEntry hw
    exact h.marked _ hp w hw
  · intro w hw
    simp only [SocketState.woken, Bool.or_eq_true, decide_eq_true_eq]
    rcases h.woken w hw with hsat | hmem
    · exact .inl (.inl hsat)
    · rcases List.mem_append.1 (hwakes.mem_iff.2 hmem) with hwoken | hstill
      · exact .inl (.inr (mem_wakeups.1 hwoken))
      · exact .inr hstill

end Draining

theorem deliver_expired {outcome : Nat → ReportOutcome} (he : AllExpired now s.so.pendingQueue)
    (hclock : ∀ i, now ≤ (outcome i).now) (hd : s.deliver outcome = (s', l, events)) :
    waitingCount s'.so.pendingQueue = 0 := by
  cases hd
  exact deliverLoop_expired outcome s.so.pendingQueue s.so _ he hclock

/-- Either nothing waits any more, or the call is about to deliver the socket. -/
structure DrainingCall (now : UInt64) (s₀ : SocketState) (object : Nat) (d : DeliverState) : Prop where
  draining : Draining now s₀ (d.objects object)
  next : waitingCount (d.objects object).so.pendingQueue = 0 ∨
    d.stack = [.loop] ∧ d.socketsListToReport.head? = some object ∨ d.stack = [.popped object]

theorem DrainingCall.step {d d' : DeliverState} {outcome : Nat → ReportOutcome} {e : List DeliverEvent}
    (h : DrainingCall now s₀ object d) (hclock : ∀ i, now ≤ (outcome i).now)
    (hs : deliverMachine.step d outcome = some (d', e)) : DrainingCall now s₀ object d' := by
  obtain ⟨hdraining, hnext⟩ := h
  -- a step that only lists the socket or takes it out of the list
  have hlisted : ∀ object' inserted, Draining now s₀
        ((d.setObject object' ((d.objects object').listed inserted)).objects object) ∧
      ((d.setObject object' ((d.objects object').listed inserted)).objects object).so.pendingQueue =
        (d.objects object).so.pendingQueue := by
    intro object' inserted
    by_cases hne : object = object'
    · subst hne
      rw [setObject_self]
      exact ⟨hdraining.listed, rfl⟩
    · rw [setObject_of_ne hne]
      exact ⟨hdraining, rfl⟩
  -- once it is delivered nothing waits
  have hsettled : ∀ {phase callers}, d.stack = phase :: callers → phase ≠ .loop → phase ≠ .popped object →
      waitingCount (d.objects object).so.pendingQueue = 0 := by
    intro phase callers hstack hloop hpopped
    rcases hnext with hzero | ⟨hs, -⟩ | hs
    · exact hzero
    · exact absurd (List.cons.inj (hstack.symm.trans hs)).1 hloop
    · exact absurd (List.cons.inj (hstack.symm.trans hs)).1 hpopped
  cases DeliverState.step_inv hs with
  | leave hstack hlist =>
    refine ⟨hdraining, .inl ?_⟩
    rcases hnext with hzero | ⟨-, hhead⟩ | hs
    · exact hzero
    · rw [hlist] at hhead
      cases hhead
    · cases hstack.symm.trans hs
  | @pop object' rest callers hstack hlist =>
    obtain ⟨hkeeps, hqueue⟩ := hlisted object' false
    refine ⟨hkeeps, ?_⟩
    rcases hnext with hzero | ⟨hs, hhead⟩ | hs
    · exact .inl ((congrArg waitingCount hqueue).trans hzero)
    · rw [hlist] at hhead
      obtain rfl : object' = object := Option.some.inj hhead
      obtain rfl : callers = [] := (List.cons.inj (hstack.symm.trans hs)).2
      exact .inr (.inr rfl)
    · cases hstack.symm.trans hs
  | @deliver object' callers s l events nested released hstack hd =>
    by_cases hne : object = object'
    · subst hne
      refine ⟨?_, .inl ?_⟩
      · show Draining now s₀ ((d.setObject object s).objects object)
        rw [setObject_self]
        exact hdraining.deliver hd
      · show waitingCount ((d.setObject object s).objects object).so.pendingQueue = 0
        rw [setObject_self]
        exact deliver_expired hdraining.expired hclock hd
    · have hsame : (d.setObject object' s).objects object = d.objects object := setObject_of_ne hne
      refine ⟨?_, .inl ?_⟩
      · show Draining now s₀ ((d.setObject object' s).objects object)
        rw [hsame]
        exact hdraining
      · show waitingCount ((d.setObject object' s).objects object).so.pendingQueue = 0
        rw [hsame]
        exact hsettled hstack nofun fun heq => hne (DeliverPhase.popped.inj heq).symm
  | @reinsert object' error callers hstack =>
    obtain ⟨hkeeps, hqueue⟩ := hlisted object' true
    exact ⟨hkeeps, .inl ((congrArg waitingCount hqueue).trans (hsettled hstack nofun nofun))⟩
  | release hstack => exact ⟨hdraining, .inl (hsettled hstack nofun nofun)⟩

/-! ### The reinjection -/

/-- It takes every packet that is reported and expired. -/
theorem collectLoop_expired (clock : Nat → UInt64) (hreported : ∀ pkt ∈ queue, pkt.needToBeReported = false)
    (he : AllExpired now queue) (hclock : ∀ i, now ≤ clock i) :
    (collectLoop .NkeSocketDataAll clock queue).1 = [] ∧
      sized (collectLoop .NkeSocketDataAll clock queue).2 = sized queue := by
  induction queue generalizing clock with
  | nil => exact ⟨rfl, rfl⟩
  | cons pkt rest ih =>
    obtain ⟨hleft, htaken⟩ := ih (fun i => clock (i + 1))
      (fun pkt hp => hreported pkt (List.mem_cons_of_mem _ hp))
      (fun pkt hp => he pkt (List.mem_cons_of_mem _ hp)) fun i => hclock (i + 1)
    have hexp := isDeadlineTimerExpired_mono (he pkt (List.mem_cons_self ..)) (hclock 0)
    have hpkt := isDeadlineTimerExpired_snd pkt (clock 0)
    rw [collectLoop]
    simp only [NkeSocketDataDirectionType.covers, hreported pkt (List.mem_cons_self ..), Bool.not_true,
      Bool.false_eq_true, if_false, hexp, Bool.false_and]
    exact ⟨hleft, by rw [sized_cons, htaken, hpkt, sized_cons]⟩

/-- Every packet that was taken is counted off. -/
theorem injectLoopNoting_counts (outcome : Nat → InjectOutcome) (hc : Counts so taken) :
    Counts (injectLoopNoting outcome taken so).1 [] ∧
      (injectLoopNoting outcome taken so).1.packetsWaitingForReporting = so.packetsWaitingForReporting := by
  induction taken generalizing outcome so with
  | nil => exact ⟨hc, rfl⟩
  | cons pkt rest ih =>
    rw [injectLoopNoting]
    have hnote : Counts (so.noteDisconnecting (outcome 0).disconnects) (pkt :: rest) := by
      refine hc.of_perm ?_ (.refl _)
      unfold NkeSocketObject.noteDisconnecting
      split <;> exact fun _ => ⟨rfl, rfl⟩
    obtain ⟨hcounts, hwaiting⟩ := ih (fun i => outcome (i + 1)) hnote.uncountPkt
    refine ⟨hcounts, hwaiting.trans (uncountPkt_same.waiting.trans ?_)⟩
    unfold NkeSocketObject.noteDisconnecting
    split <;> rfl

/-- The queue is empty, nothing waits and nothing is counted. -/
structure QueueDrained (s : SocketState) : Prop where
  queue : s.so.pendingQueue = []
  waiting : s.so.packetsWaitingForReporting = 0
  number : ∀ dataInbound, s.so.numberOfPendingPackets dataInbound = 0
  bytes : ∀ dataInbound, s.so.totalPendingBytes dataInbound = 0

theorem Draining.reinjectAll (h : Draining now s₀ s) (hzero : waitingCount s.so.pendingQueue = 0)
    (clock : Nat → UInt64) (hclock : ∀ i, now ≤ clock i) (outcome : Nat → InjectOutcome) :
    QueueDrained (s.reinjectAll clock outcome) ∧
      ∀ w, s₀.blocked w → (s.reinjectAll clock outcome).waitSatisfied w := by
  have hreported : ∀ pkt ∈ s.so.pendingQueue, pkt.needToBeReported = false := by
    intro pkt hp
    simpa using List.countP_eq_zero.1 hzero pkt hp
  obtain ⟨hleft, htaken⟩ := collectLoop_expired clock hreported h.expired hclock
  have hcounts : Counts (s.so.collect .NkeSocketDataAll clock).1 (s.so.collect .NkeSocketDataAll clock).2 :=
    h.counts.of_perm (fun _ => ⟨rfl, rfl⟩) (.of_eq htaken)
  obtain ⟨hnone, hwaiting⟩ := injectLoopNoting_counts outcome hcounts
  refine ⟨⟨?_, ?_, fun dataInbound => ?_, fun dataInbound => ?_⟩, ?_⟩
  · exact (injectLoopNoting_queue outcome _ _).trans hleft
  · refine hwaiting.trans (h.waiting.trans ?_)
    rw [hzero]
    rfl
  · exact hnone.number dataInbound
  · exact hnone.bytes dataInbound
  · intro w hw
    refine (h.woken w hw).resolve_right fun hmem => ?_
    obtain ⟨pkt, hp, hentry⟩ := mem_waitEntries.1 hmem
    have hneed := h.marked pkt hp w hentry
    rw [hreported pkt hp] at hneed
    cases hneed

/-! ### The result -/

/-- One thread alone calls `DeliverWaitingNotifications` and then `reinjectDeferredData( NkeSocketDataAll )`
on a socket whose packets had all expired at the time `now`, when it began. Whatever the copies, the client
and the injections answer, and whatever the other sockets in the list hold, the queue and the counters are
empty in the end and every writer that was blocked is woken up. -/
theorem deadline_drains (objects : Nat → SocketState) (list : List Nat) (object : Nat) (now : UInt64)
    (hQ : QueueInvariants (objects object)) (he : AllExpired now (objects object).so.pendingQueue)
    (hfirst : list.head? = some object ∨ waitingCount (objects object).so.pendingQueue = 0)
    (outcomes : Nat → Nat → ReportOutcome) (hdeliver : ∀ k i, now ≤ (outcomes k i).now)
    (clock : Nat → UInt64) (hclock : ∀ i, now ≤ clock i) (outcome : Nat → InjectOutcome) :
    ∃ k d h, deliverMachine.run (.call objects list) ((List.range k).map outcomes) = some (d, h) ∧
      d.stack = [] ∧ QueueDrained ((d.objects object).reinjectAll clock outcome) ∧
      ∀ w, (objects object).blocked w → ((d.objects object).reinjectAll clock outcome).waitSatisfied w := by
  obtain ⟨k, d, h, -, hr, hreturned⟩ := deliverMachine_returns objects list outcomes
  have hstart : DrainingCall now (objects object) object (.call objects list) := by
    refine ⟨.start hQ he, ?_⟩
    rcases hfirst with hhead | hzero
    · exact .inr (.inl ⟨rfl, hhead⟩)
    · exact .inl hzero
  have hlabels : deliverMachine.Along (fun _ outcome => ∀ i, now ≤ (outcome i).now) (.call objects list)
      ((List.range k).map outcomes) := by
    refine Machine.along_of_forall fun a ha _ => ?_
    obtain ⟨j, -, rfl⟩ := List.mem_map.1 ha
    exact hdeliver j
  obtain ⟨hdraining, hnext⟩ : DrainingCall now (objects object) object d :=
    Machine.ReachableAlong.invariant ⟨_, h, hr, hlabels⟩ hstart fun _ _ _ _ hI ha hs => hI.step ha hs
  have hzero : waitingCount (d.objects object).so.pendingQueue = 0 := by
    rcases hnext with hzero | ⟨hs, -⟩ | hs
    · exact hzero
    · cases hreturned.symm.trans hs
    · cases hreturned.symm.trans hs
  obtain ⟨hdrained, hwoken⟩ := hdraining.reinjectAll hzero clock hclock outcome
  exact ⟨k, d, h, hr, hreturned, hdrained, hwoken⟩

/-- The writer of the second packet is blocked, and no notification arrives within a minute or after it. -/
theorem secondNotCopied_drained :
    ∃ s k d h, s.blocked 1 ∧
      deliverMachine.run (.call (fun _ => s) [0])
        ((List.range k).map fun _ _ => ⟨KERN_SUCCESS, [0], ENOMEM, 60000000001⟩) = some (d, h) ∧
      d.stack = [] ∧
      QueueDrained ((d.objects 0).reinjectAll (fun _ => 60000000001) fun _ => ⟨false, 0, KERN_SUCCESS⟩) ∧
      ((d.objects 0).reinjectAll (fun _ => 60000000001) fun _ => ⟨false, 0, KERN_SUCCESS⟩).waitSatisfied 1 := by
  obtain ⟨s, h, hr, hfirst, hsecond, hcap, hidle, hexpired, hentries⟩ :
      ∃ s h, socketMachine.run (SocketState.start ⟨1, 1⟩ 65536) secondNotCopied = some (s, h) ∧
        (s.calls 0).allocated = none ∧ (s.calls 1).allocated = none ∧ s.captures = 2 ∧ s.injection = none ∧
        s.so.pendingQueue.all (fun pkt => (pkt.isDeadlineTimerExpired 60000000001).1) = true ∧
        waitEntries s.so.pendingQueue = [1] := ⟨_, _, rfl, rfl, rfl, rfl, rfl, rfl, rfl⟩
  have hcalls : ∀ id, (s.calls id).allocated = none := by
    intro id
    match id with
    | 0 => exact hfirst
    | 1 => exact hsecond
    | id + 2 =>
      rw [(custody_of_run hr).fresh (id + 2) (by omega)]
      rfl
  have hblocked : s.blocked 1 := ((waiting_of_run hr).blocked 1).1 (by simp [hentries])
  obtain ⟨k, d, h', hr', hreturned, hdrained, hwoken⟩ := deadline_drains (fun _ => s) [0] 0 60000000001
    (queueInvariants_of_run (by decide) hr hcalls hidle) (fun pkt hp => List.all_eq_true.1 hexpired pkt hp) (.inl rfl)
    (fun _ _ => ⟨KERN_SUCCESS, [0], ENOMEM, 60000000001⟩) (fun _ _ => UInt64.le_refl _)
    (fun _ => 60000000001) (fun _ => UInt64.le_refl _) fun _ => ⟨false, 0, KERN_SUCCESS⟩
  exact ⟨s, k, d, h', hblocked, hr', hreturned, hdrained, hwoken 1 hblocked⟩

end NkeFilter
