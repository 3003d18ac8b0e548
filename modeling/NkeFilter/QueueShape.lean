import NkeFilter.Disposition
import NkeFilter.Lib.Wrapping

/-!
# The shape of the pending queue

In every reachable state `packetsWaitingForReporting` is, as far as its 32 bits go, the number of packets
that still have to be reported, no packet is in the queue twice, and the packets of fewer than `2 ^ 32`
captures have distinct indices. The packets that have to be reported form a suffix of the queue as long as
`FltData`, which looks at the counter alone, queues none while `2 ^ 32` or more wait (`FewWaiting`).
-/

namespace NkeFilter
open Lib NkeSocketObject

/-- A packet on its way into the queue. -/
structure FreshPkt (id : Nat) (pkt : PendingPktQueueItem) : Prop where
  dataIndex : pkt.dataIndex = UInt32.ofNat id
  notMarked : pkt.needToBeReported = false
  notAllowed : pkt.allowData = false

structure QueueShape (s : SocketState) : Prop where
  nextIndex : s.so.pendingDataNextIndex = UInt32.ofNat s.captures
  fresh : ∀ id c, s.calls id = .captured c ∨ s.calls id = .copied c → FreshPkt id c.pendingPkt
  dataIndex : ∀ pkt ∈ s.so.pendingQueue, pkt.dataIndex = UInt32.ofNat pkt.id
  waiting : s.so.packetsWaitingForReporting = Int32.ofNat (waitingCount s.so.pendingQueue)

/-- A packet is queued while the counter still tells some waiting packets from none. -/
def FewWaiting (s : SocketState) : SocketLabel → Prop
  | .queue _ => waitingCount s.so.pendingQueue < 2 ^ 32
  | _ => True

instance FewWaiting.instDecidable (s : SocketState) : ∀ a, Decidable (FewWaiting s a)
  | .queue _ => inferInstanceAs (Decidable (_ < _))
  | .capture .. | .copy .. | .send .. | .finish _ | .deliver _ | .property _ | .collect .. | .inject ..
    | .freeMbufs | .account | .unlock | .purge _ | .disconnecting | .markAsDisconnected | .beginDetach
    | .listToReport _ => isTrue trivial

variable {s s' : SocketState} {a : SocketLabel} {h e : List SocketEvent} {id : Nat}
  {queue rest taken : List PendingPktQueueItem}

theorem queueShape_start {socketId : NkeSocketID} {size : Nat} :
    QueueShape (SocketState.start socketId size) := by
  refine ⟨rfl, ?_, fun _ h => (by cases h), rfl⟩
  intro id c hc
  rcases hc with hc | hc <;> cases hc

/-! ### Marks and their number -/

theorem waitingCount_append : waitingCount (queue ++ rest) = waitingCount queue + waitingCount rest :=
  List.countP_append

theorem ReportSuffix.sublist (hs : ReportSuffix queue) (hsub : rest.Sublist queue) : ReportSuffix rest :=
  List.Pairwise.sublist hsub hs

theorem marks_of_forall₂ {R : PendingPktQueueItem → PendingPktQueueItem → Prop}
    (hR : ∀ pkt pkt', R pkt pkt' → pkt'.needToBeReported = pkt.needToBeReported)
    (hl : List.Forall₂ R queue rest) :
    rest.map (·.needToBeReported) = queue.map (·.needToBeReported) := by
  induction hl with
  | nil => rfl
  | cons hpkt _ ih => exact congrArg₂ List.cons (hR _ _ hpkt) ih

theorem marks_latched {seen : List PendingPktQueueItem} (hl : List.Forall₂ Latched queue seen) :
    seen.map (·.needToBeReported) = queue.map (·.needToBeReported) := by
  refine marks_of_forall₂ ?_ hl
  rintro pkt _ ⟨b, rfl, -⟩
  rfl

theorem ReportSuffix.of_marks (hs : ReportSuffix queue)
    (hm : rest.map (·.needToBeReported) = queue.map (·.needToBeReported)) : ReportSuffix rest := by
  have hq : (queue.map (·.needToBeReported)).Pairwise fun m m' : Bool => m → m' := List.pairwise_map.2 hs
  exact List.pairwise_map.1 (hm ▸ hq)

theorem waitingCount_of_marks (hm : rest.map (·.needToBeReported) = queue.map (·.needToBeReported)) :
    waitingCount rest = waitingCount queue := by
  have hcount : ∀ l : List PendingPktQueueItem, waitingCount l = (l.map (·.needToBeReported)).countP id := by
    intro l
    rw [List.countP_map]
    rfl
  rw [hcount, hcount, hm]

theorem waitingCount_eq_zero (hq : ∀ pkt ∈ queue, pkt.needToBeReported = false) : waitingCount queue = 0 :=
  List.countP_eq_zero.2 fun pkt hp => by simp [hq pkt hp]

theorem marks_property {property : NkeSocketDataProperty} {reached : Option PendingPktQueueItem}
    (hp : PropertyEnd property queue (rest, reached)) :
    rest.map (·.needToBeReported) = queue.map (·.needToBeReported) := by
  cases hp with
  | none => rfl
  | applied => simp

/-- A packet at the end keeps the suffix when it is marked, or when none is. -/
theorem ReportSuffix.append (hs : ReportSuffix queue) {pkt : PendingPktQueueItem}
    (hp : pkt.needToBeReported ∨ waitingCount queue = 0) : ReportSuffix (queue ++ [pkt]) := by
  refine List.pairwise_append.2 ⟨hs, List.pairwise_singleton .., ?_⟩
  intro pkt' hmem pkt₁ hpkt₁ hmark
  obtain rfl := List.mem_singleton.1 hpkt₁
  rcases hp with hp | hp
  · exact hp
  · exact absurd hmark (List.countP_eq_zero.1 hp pkt' hmem)

/-! ### What a step keeps -/

theorem QueueShape.call {phase : CallPhase} (hQ : QueueShape s)
    (hphase : ∀ c, phase = .captured c ∨ phase = .copied c → FreshPkt id c.pendingPkt) :
    QueueShape (s.setCall id phase) := by
  refine ⟨hQ.nextIndex, ?_, hQ.dataIndex, hQ.waiting⟩
  intro id' c hc
  rcases s.setCall_inv id phase id' with ⟨rfl, hp⟩ | ⟨-, hp⟩
  · exact hphase c (hp ▸ hc)
  · exact hQ.fresh id' c (hp ▸ hc)

theorem QueueShape.requeue (hQ : QueueShape s) (hcalls : s'.calls = s.calls) (hcap : s'.captures = s.captures)
    (hnext : s'.so.pendingDataNextIndex = s.so.pendingDataNextIndex)
    (hindex : ∀ pkt' ∈ s'.so.pendingQueue, ∃ pkt ∈ s.so.pendingQueue, pkt'.id = pkt.id ∧
      pkt'.dataIndex = pkt.dataIndex)
    (hwait : s'.so.packetsWaitingForReporting = Int32.ofNat (waitingCount s'.so.pendingQueue)) :
    QueueShape s' := by
  refine ⟨?_, hcalls ▸ hQ.fresh, ?_, hwait⟩
  · rw [hnext, hcap]
    exact hQ.nextIndex
  · intro pkt' hp
    obtain ⟨pkt, hp, hid, hi⟩ := hindex pkt' hp
    rw [hid, hi]
    exact hQ.dataIndex pkt hp

theorem QueueShape.same (hQ : QueueShape s) (hcalls : s'.calls = s.calls) (hcap : s'.captures = s.captures)
    (hso : SameQueue s.so s'.so) : QueueShape s' := by
  refine hQ.requeue hcalls hcap hso.nextIndex (fun pkt hp => ⟨pkt, hso.queue ▸ hp, rfl, rfl⟩) ?_
  rw [hso.queue, hso.waiting]
  exact hQ.waiting

theorem QueueShape.queuePkt {so : NkeSocketObject} {c c' : FltDataCall} (hQ : QueueShape s)
    (hc : s.calls id = .copied c) (hid : c.pendingPkt.id = id) (hq : QueueEnd s.so c (so, c', e)) :
    QueueShape { s.setCall id (.queued c') with so } := by
  have hfresh := hQ.fresh id c (.inr hc)
  have hcalls : QueueShape (s.setCall id (.queued c')) := hQ.call (by simp)
  have hlast : ∀ pkt : PendingPktQueueItem, so.pendingQueue = s.so.pendingQueue ++ [pkt] →
      pkt.id = c.pendingPkt.id → pkt.dataIndex = c.pendingPkt.dataIndex →
      ∀ pkt' ∈ so.pendingQueue, pkt'.dataIndex = UInt32.ofNat pkt'.id := by
    intro pkt hqueue hpid hpi pkt' hp
    rcases List.mem_append.1 (hqueue ▸ hp : pkt' ∈ s.so.pendingQueue ++ [pkt]) with hp | hp
    · exact hQ.dataIndex pkt' hp
    · obtain rfl := List.mem_singleton.1 hp
      rw [hpi, hpid, hid]
      exact hfresh.dataIndex
  cases hq with
  | posted =>
    have hlone : waitingCount [c.pendingPkt] = 0 := by simp [waitingCount, hfresh.notMarked]
    refine ⟨hQ.nextIndex, hcalls.fresh, hlast c.pendingPkt rfl rfl rfl, ?_⟩
    show s.so.packetsWaitingForReporting = _
    rw [hQ.waiting, waitingCount_append, hlone, Nat.add_zero]
  | postponed _ hpid hpi _ _ hneed _ hqueue hwait hnext =>
    have hlone : waitingCount [c'.pendingPkt] = 1 := by simp [waitingCount, hneed]
    refine ⟨hnext.trans hQ.nextIndex, hcalls.fresh, hlast _ hqueue hpid hpi, ?_⟩
    show so.packetsWaitingForReporting = Int32.ofNat (waitingCount so.pendingQueue)
    rw [hqueue, hwait, waitingCount_append, hQ.waiting, hlone]
    exact (Int32.ofNat_add _ 1).symm

theorem QueueShape.step (hQ : QueueShape s) (hC : Custody s h) (hs : socketMachine.step s a = some (s', e)) :
    QueueShape s' := by
  cases SocketState.step_inv hs with
  | quiet hsame => exact hQ.same rfl rfl hsame
  | @capture _ so pkt hid hi _ hallow hneed hq hw hnext =>
    have hstep : QueueShape { s with so, captures := s.captures + 1 } := by
      refine ⟨?_, hQ.fresh, ?_, ?_⟩
      · show so.pendingDataNextIndex = _
        rw [hnext, hQ.nextIndex]
        exact (UInt32.ofNat_add ..).symm
      · show ∀ pkt ∈ so.pendingQueue, _
        rw [hq]
        exact hQ.dataIndex
      · show so.packetsWaitingForReporting = Int32.ofNat (waitingCount so.pendingQueue)
        rw [hq, hw]
        exact hQ.waiting
    show QueueShape (SocketState.setCall { s with so, captures := s.captures + 1 } s.captures _)
    refine hstep.call ?_
    intro c hc
    rcases hc with hc | hc <;> cases hc
    exact ⟨hi.trans hQ.nextIndex, hneed, hallow⟩
  | @copy id error buffers c hc =>
    refine hQ.call ?_
    intro c' hc'
    have hfresh := hQ.fresh id c (.inl hc)
    rcases hc' with hc' | hc' <;> cases hc'
    split
    · exact hfresh
    · unfold FltDataCall.copied
      split <;> exact hfresh
  | @queue id c _ _ _ hc hq => exact hQ.queuePkt hc (hC.captured id c (.inr hc)) hq
  | send => exact hQ.call (by simp)
  | noSend => exact hQ.call (by simp)
  | finish => exact hQ.call (by simp)
  | @deliver outcome queue so _ _ hd =>
    have hso : so = _ := hd.so_eq
    refine hQ.requeue rfl rfl (by rw [hso]; rfl) ?_ ?_
    · intro pkt' hp
      obtain ⟨pkt, hp, hdel⟩ := exists_partner hd.pkts hp
      exact ⟨pkt, hp, hdel.id, hdel.dataIndex⟩
    · show so.packetsWaitingForReporting = Int32.ofNat (waitingCount queue)
      rw [hso, hQ.waiting]
      grind
  | @property property queue reached hp =>
    have hmarks := marks_property hp
    refine hQ.requeue rfl rfl rfl ?_ ?_
    · intro pkt' hp'
      obtain ⟨pkt, hmem, rfl | hset⟩ := hp.mem hp'
      · exact ⟨_, hmem, rfl, rfl⟩
      · obtain ⟨_, _, heq⟩ := setProperty_eq pkt property
        obtain rfl := hset.trans heq
        exact ⟨pkt, hmem, rfl, rfl⟩
    · show s.so.packetsWaitingForReporting = Int32.ofNat (waitingCount queue)
      rw [waitingCount_of_marks hmarks]
      exact hQ.waiting
  | @collect injectType clock rest taken _ hc =>
    obtain ⟨⟨seen, hseen, hrest, -, hperm⟩, htaken⟩ := hc
    have hmarks := marks_latched hseen
    refine hQ.requeue rfl rfl rfl ?_ ?_
    · intro pkt' hp
      obtain ⟨pkt, hmem, b, rfl, -⟩ := exists_partner hseen (hrest.subset hp)
      exact ⟨pkt, hmem, rfl, rfl⟩
    · have hcount : waitingCount (taken ++ rest) = waitingCount seen := hperm.countP_eq _
      rw [waitingCount_append, waitingCount_eq_zero htaken, Nat.zero_add,
        waitingCount_of_marks hmarks] at hcount
      show s.so.packetsWaitingForReporting = Int32.ofNat (waitingCount rest)
      rw [hcount]
      exact hQ.waiting
  | inject => exact hQ.same rfl rfl ⟨rfl, rfl, rfl, rfl⟩
  | freeMbufs => exact hQ.same rfl rfl ⟨rfl, rfl, rfl, rfl⟩
  | account _ hsame => exact hQ.same rfl rfl hsame
  | unlock => exact hQ.same rfl rfl ⟨rfl, rfl, rfl, rfl⟩
  | @purge purgeType so purged _ hpurged hq hw hnext =>
    have hperm := List.filter_append_perm (fun pkt => purgeType.covers pkt.dataInbound) s.so.pendingQueue
    rw [← hq, ← hpurged] at hperm
    have hcount : waitingCount (purged ++ so.pendingQueue) = waitingCount s.so.pendingQueue :=
      hperm.countP_eq _
    rw [waitingCount_append] at hcount
    refine hQ.requeue rfl rfl hnext ?_ ?_
    · intro pkt hp
      exact ⟨pkt, List.mem_of_mem_filter (hq ▸ hp : pkt ∈ List.filter _ _), rfl, rfl⟩
    · show so.packetsWaitingForReporting = Int32.ofNat (waitingCount so.pendingQueue)
      rw [hw, hQ.waiting, ← hcount, Nat.add_comm, Int32.ofNat_add]
      exact Int32.add_sub_cancel _ _

/-- Every step keeps the suffix; a packet that is not postponed goes behind packets none of which waits. -/
theorem ReportSuffix.step (hsuffix : ReportSuffix s.so.pendingQueue) (hQ : QueueShape s)
    (hfew : FewWaiting s a) (hs : socketMachine.step s a = some (s', e)) :
    ReportSuffix s'.so.pendingQueue := by
  cases SocketState.step_inv hs with
  | quiet hsame => exact hsame.queue ▸ hsuffix
  | @capture _ so pkt _ _ _ _ _ hq =>
    show ReportSuffix so.pendingQueue
    exact hq ▸ hsuffix
  | @queue id c so c' _ hc hq =>
    show ReportSuffix so.pendingQueue
    cases hq with
    | posted _ hzero =>
      have hnone : waitingCount s.so.pendingQueue = 0 :=
        (int32_ofNat_eq_zero_of_lt hfew).1 (hQ.waiting.symm.trans hzero)
      exact hsuffix.append (.inr hnone)
    | postponed _ _ _ _ _ hneed _ hqueue =>
      rw [hqueue]
      exact hsuffix.append (.inl hneed)
  | deliver hd => exact hd.suffix hsuffix
  | property hp => exact hsuffix.of_marks (marks_property hp)
  | @collect _ _ rest _ _ hc =>
    obtain ⟨⟨seen, hseen, hrest, -, -⟩, -⟩ := hc
    have hmarks := marks_latched hseen
    show ReportSuffix rest
    exact (hsuffix.of_marks hmarks).sublist hrest
  | account _ hsame => exact hsame.queue ▸ hsuffix
  | @purge _ so _ _ _ hq =>
    show ReportSuffix so.pendingQueue
    rw [hq]
    exact hsuffix.sublist List.filter_sublist
  | _ => exact hsuffix

/-! ### Distinct packets -/

theorem Custody.inserted_le (hC : Custody s h) (id : Nat) : insertions h id ≤ 1 := by
  rw [hC.inserted id]
  split <;> omega

theorem Custody.nodup (hC : Custody s h) : (pktIds s.so.pendingQueue).Nodup := by
  refine List.nodup_iff_count_le_one.2 ?_
  intro id
  have hone := hC.inserted_le id
  have hm := hC.mbufs id
  rw [SocketState.inQueue] at hm
  omega

theorem Custody.queued_mem {pkt : PendingPktQueueItem} (hC : Custody s h) (hp : pkt ∈ s.so.pendingQueue) :
    .queued pkt.id ∈ h ∧ pkt.id < s.captures := by
  have hpos : 0 < s.inQueue pkt.id := List.count_pos_iff.2 (List.mem_map_of_mem hp)
  have hins : 0 < insertions h pkt.id := by
    have := hC.mbufs pkt.id
    omega
  refine ⟨insertions_pos.1 hins, hC.lt_captures ?_⟩
  intro hidle
  rw [hC.inserted pkt.id, hidle] at hins
  exact absurd hins (by decide)

theorem Custody.length_le (hC : Custody s h) : s.so.pendingQueue.length ≤ s.captures := by
  have hsub : pktIds s.so.pendingQueue ⊆ List.range s.captures := by
    intro id hid
    obtain ⟨pkt, hp, rfl⟩ := List.mem_map.1 hid
    exact List.mem_range.2 (hC.queued_mem hp).2
  simpa [pktIds] using (hC.nodup.subperm hsub).length_le

/-- As long as fewer than `2 ^ 32` packets were captured not so many can wait. -/
theorem Custody.fewWaiting (hC : Custody s h) (hcap : s.captures < 2 ^ 32) : FewWaiting s a := by
  cases a with
  | queue id => exact (List.countP_le_length.trans hC.length_le).trans_lt hcap
  | _ => trivial

theorem captures_le_of_step (hs : socketMachine.step s a = some (s', e)) : s.captures ≤ s'.captures := by
  cases SocketState.step_inv hs with
  | capture => exact Nat.le_succ _
  | _ => exact le_refl _

theorem ofNat_ne {i j : Nat} (hi : i < 2 ^ 32) (hj : j < 2 ^ 32) (hne : i ≠ j) :
    UInt32.ofNat i ≠ UInt32.ofNat j := by
  intro heq
  have := congrArg UInt32.toNat heq
  rw [UInt32.toNat_ofNat', UInt32.toNat_ofNat', Nat.mod_eq_of_lt hi, Nat.mod_eq_of_lt hj] at this
  exact hne this

/-- As long as fewer than `2 ^ 32` packets were captured an index names one packet. -/
theorem QueueShape.index_ne (hQ : QueueShape s) (hC : Custody s h) (hcap : s.captures < 2 ^ 32)
    (pkt pkt' : PendingPktQueueItem) (hp : pkt ∈ s.so.pendingQueue) (hp' : pkt' ∈ s.so.pendingQueue)
    (hne : pkt.id ≠ pkt'.id) : pkt.dataIndex ≠ pkt'.dataIndex := by
  rw [hQ.dataIndex pkt hp, hQ.dataIndex pkt' hp']
  exact ofNat_ne ((hC.queued_mem hp).2.trans hcap) ((hC.queued_mem hp').2.trans hcap) hne

/-! ### The result -/

theorem queueShape_of_run {socketId : NkeSocketID} {size : Nat} {as : List SocketLabel}
    (hr : socketMachine.run (SocketState.start socketId size) as = some (s, h)) : QueueShape s :=
  (Machine.run_induction (fun s h => Custody s h ∧ QueueShape s) [] ⟨custody_start, queueShape_start⟩
    (fun _ _ _ _ _ hI _ hs => ⟨hI.1.step hs, hI.2.step hI.1 hs⟩) Machine.along_true hr).2

theorem queueShape_of_reachable {socketId : NkeSocketID} {size : Nat}
    (hr : socketMachine.Reachable (SocketState.start socketId size) s) : QueueShape s := by
  obtain ⟨as, h, hr⟩ := hr
  exact queueShape_of_run hr

theorem reportSuffix_of_run {socketId : NkeSocketID} {size : Nat}
    (hr : socketMachine.RunAlong FewWaiting (SocketState.start socketId size) s h) :
    ReportSuffix s.so.pendingQueue := by
  obtain ⟨as, hr, hfew⟩ := hr
  exact (Machine.run_induction
    (fun s h => Custody s h ∧ QueueShape s ∧ ReportSuffix s.so.pendingQueue) []
    ⟨custody_start, queueShape_start, .nil⟩
    (fun _ _ _ _ _ hI hfew hs => ⟨hI.1.step hs, hI.2.1.step hI.1 hs, hI.2.2.step hI.2.1 hfew hs⟩)
    hfew hr).2.2

theorem reportSuffix_of_captures {socketId : NkeSocketID} {size : Nat}
    (hr : socketMachine.Reachable (SocketState.start socketId size) s) (hcap : s.captures < 2 ^ 32) :
    ReportSuffix s.so.pendingQueue := by
  obtain ⟨as, h, hr⟩ := hr
  refine (Machine.run_induction (fun s h => Custody s h ∧ QueueShape s ∧
    (s.captures < 2 ^ 32 → ReportSuffix s.so.pendingQueue)) []
    ⟨custody_start, queueShape_start, fun _ => .nil⟩ ?_ Machine.along_true hr).2.2 hcap
  rintro s h a s' e ⟨hC, hQ, hsuffix⟩ - hs
  refine ⟨hC.step hs, hQ.step hC hs, fun hlt => ?_⟩
  have hcap := (captures_le_of_step hs).trans_lt hlt
  exact (hsuffix hcap).step hQ (hC.fewWaiting hcap) hs

theorem ReportSuffix.filter_suffix (hs : ReportSuffix queue) :
    queue.filter (·.needToBeReported) <:+ queue := by
  induction queue with
  | nil => exact List.suffix_refl _
  | cons pkt rest ih =>
    obtain ⟨hfirst, hrest⟩ := List.pairwise_cons.1 hs
    by_cases hneed : pkt.needToBeReported
    · -- behind a marked packet all are marked
      have hall : ∀ pkt' ∈ pkt :: rest, pkt'.needToBeReported := by
        intro pkt' hp
        rcases List.mem_cons.1 hp with rfl | hp
        · exact hneed
        · exact hfirst pkt' hp hneed
      rw [List.filter_eq_self.2 hall]
    · rw [List.filter_cons_of_neg hneed]
      exact (ih hrest).trans (List.suffix_cons ..)

/-- In every run of the threads of one socket, whatever the copies, the client, the clock and the injections
return: the counter is the number of packets that have to be reported modulo `2 ^ 32`, so it is that number
while fewer than `2 ^ 31` wait, and they are a suffix of the queue if `FewWaiting` held along the run. -/
theorem pendingQueue_shape {socketId : NkeSocketID} {size : Nat} {as : List SocketLabel}
    (hr : socketMachine.run (SocketState.start socketId size) as = some (s, h)) :
    s.so.packetsWaitingForReporting = Int32.ofNat (s.so.pendingQueue.filter (·.needToBeReported)).length ∧
      ((s.so.pendingQueue.filter (·.needToBeReported)).length < 2 ^ 31 →
        s.so.packetsWaitingForReporting.toInt = (s.so.pendingQueue.filter (·.needToBeReported)).length) ∧
      (socketMachine.Along FewWaiting (SocketState.start socketId size) as →
        s.so.pendingQueue.filter (·.needToBeReported) <:+ s.so.pendingQueue) := by
  have hwait := (queueShape_of_run hr).waiting
  rw [waitingCount, List.countP_eq_length_filter] at hwait
  refine ⟨hwait, ?_, fun hfew => (reportSuffix_of_run ⟨as, hr, hfew⟩).filter_suffix⟩
  intro hlt
  rw [hwait, Int32.toInt_ofNat_of_lt hlt]

/-- Two packets, the data of the second is not copied. -/
def secondNotCopied : List SocketLabel :=
  [.capture [⟨[7], some ⟨1, none, []⟩, none⟩] [] 0 true true 0, .copy 0 KERN_SUCCESS [0], .queue 0,
    .capture [⟨[8], some ⟨1, none, []⟩, none⟩] [] 0 false true 0, .copy 1 ENOMEM [0], .queue 1]

theorem secondNotCopied_shape :
    ∃ s h, socketMachine.run (SocketState.start ⟨1, 1⟩ 65536) secondNotCopied = some (s, h) ∧
      pktIds s.so.pendingQueue = [0, 1] ∧ s.so.packetsWaitingForReporting.toInt = 1 ∧
      s.so.pendingQueue.filter (·.needToBeReported) <:+ s.so.pendingQueue := by
  obtain ⟨s, h, hr, hids, hone⟩ : ∃ s h, socketMachine.run (SocketState.start ⟨1, 1⟩ 65536)
      secondNotCopied = some (s, h) ∧ pktIds s.so.pendingQueue = [0, 1] ∧
        (s.so.pendingQueue.filter (·.needToBeReported)).length = 1 := ⟨_, _, rfl, rfl, rfl⟩
  obtain ⟨-, hexact, hsuffix⟩ := pendingQueue_shape hr
  refine ⟨s, h, hr, hids, ?_, hsuffix (by decide)⟩
  rw [hexact (by rw [hone]; decide), hone]
  rfl

/-! ### The counter wraps -/

section Wrap

/-- An inbound packet of one byte. -/
def onePkt : MbufChain := [⟨[7], some ⟨1, none, []⟩, none⟩]

theorem onePkt_ne_nil : onePkt ≠ [] := List.cons_ne_nil _ _

/-- A call of `FltData` that finds no buffers for its packet. -/
def notCopied (id : Nat) : List SocketLabel :=
  [.capture onePkt [] 0 true true 0, .copy id ENOMEM [], .queue id, .send id none, .finish id]

/-- A call that finds a buffer, up to its notification. -/
def sentDirectly (id : Nat) : List SocketLabel :=
  [.capture onePkt [] 0 true true 0, .copy id KERN_SUCCESS [0], .queue id, .send id (some KERN_SUCCESS)]

def queuedPkt : SocketEvent → Option Nat
  | .queued id => some id
  | _ => none

/-- `n` packets were captured, and all of them wait. -/
structure AllWaiting (n : Nat) (s : SocketState) (h : List SocketEvent) : Prop where
  captures : s.captures = n
  waiting : s.so.packetsWaitingForReporting = Int32.ofNat n
  pending : s.so.numberOfPendingInPackets = Int32.ofNat n
  ids : pktIds s.so.pendingQueue = List.range n
  pkts : ∀ pkt ∈ s.so.pendingQueue, pkt.needToBeReported ∧ pkt.dataInbound ∧ pkt.data ≠ []
  calls : ∀ id, s.calls id = .idle ∨ s.calls id = .returned
  queued : h.filterMap queuedPkt = List.range n

variable {c : FltDataCall} {n : Nat}

/-- The object after the packet was allocated and counted. -/
def NkeSocketObject.withOne (so : NkeSocketObject) : NkeSocketObject :=
  { so.countPkt true 1 with pendingDataNextIndex := so.pendingDataNextIndex + 1 }

def SocketState.capturedOne (s : SocketState) : FltDataCall :=
  .captured s.so.withOne (s.so.newPkt s.captures onePkt [] 0 true 0)

theorem step_captureOne : socketMachine.step s (.capture onePkt [] 0 true true 0) =
    some ({ s.setCall s.captures (.captured s.capturedOne) with
      so := s.so.withOne, captures := s.captures + 1 }, []) := rfl

theorem step_copyOne {error : Errno} {buffers : List Nat} (hc : s.calls id = .captured c)
    (hd : c.pendingPkt.data ≠ []) : socketMachine.step s (.copy id error buffers) =
      some (s.setCall id (.copied (c.copied error buffers)), []) := by
  simp [socketMachine, SocketState.step, hc, hd]

theorem step_queueOne (hc : s.calls id = .copied c) : socketMachine.step s (.queue id) =
    some ({ s.setCall id (.queued (s.so.queuePkt c).2.1) with so := (s.so.queuePkt c).1 },
      (s.so.queuePkt c).2.2) := by
  simp [socketMachine, SocketState.step, hc]

theorem step_sendNone (hc : s.calls id = .queued c) (hsend : c.sendNotification = false) :
    socketMachine.step s (.send id none) = some (s.setCall id (.sent c), []) := by
  simp [socketMachine, SocketState.step, hc, hsend]

theorem step_sendSome (hc : s.calls id = .queued c) (hsend : c.sendNotification) :
    socketMachine.step s (.send id (some KERN_SUCCESS)) =
      some (s.setCall id (.sent (c.sent (some KERN_SUCCESS))), [.notified id c.notification]) := by
  simp [socketMachine, SocketState.step, hc, hsend, FltDataCall.sent]

theorem step_finishOne (hc : s.calls id = .sent c) (hwait : c.wait = false) :
    socketMachine.step s (.finish id) = some (s.setCall id .returned, [.swallowed id]) := by
  simp [socketMachine, SocketState.step, hc, hwait]

theorem queuePkt_postponed (so : NkeSocketObject) (hp : c.error ≠ KERN_SUCCESS)
    (hin : c.pendingPkt.dataInbound) :
    (so.queuePkt c).1.pendingQueue =
        so.pendingQueue ++ [{ c.pendingPkt with needToBeReported := true, waitEntry := none }] ∧
      (so.queuePkt c).1.packetsWaitingForReporting = so.packetsWaitingForReporting + 1 ∧
      (so.queuePkt c).1.numberOfPendingInPackets = so.numberOfPendingInPackets ∧
      (so.queuePkt c).2.1.sendNotification = false ∧ (so.queuePkt c).2.1.wait = false ∧
      (so.queuePkt c).2.2.filterMap queuedPkt = [c.pendingPkt.id] := by
  simp [NkeSocketObject.queuePkt, hp, hin, List.filterMap_append, queuedPkt]
  rintro x - - rfl
  rfl

theorem AllWaiting.run_notCopied (hA : AllWaiting n s h) :
    ∃ s' e, socketMachine.run s (notCopied n) = some (s', e) ∧ AllWaiting (n + 1) s' (h ++ e) := by
  have hn := hA.captures
  subst hn
  have herror : (s.capturedOne.copied ENOMEM []).error ≠ KERN_SUCCESS := by
    simp [FltDataCall.copied, ENOMEM, KERN_SUCCESS]
  obtain ⟨hqueue, hwaiting, hpending, hsend, hwait, hqueued⟩ :=
    queuePkt_postponed s.so.withOne herror rfl
  refine ⟨_, _, Machine.run_cons.2 ⟨_, _, _, step_captureOne, Machine.run_cons.2 ⟨_, _, _,
    step_copyOne SocketState.setCall_self onePkt_ne_nil, Machine.run_cons.2 ⟨_, _, _,
    step_queueOne SocketState.setCall_self, Machine.run_cons.2 ⟨_, _, _,
    step_sendNone SocketState.setCall_self hsend,
    Machine.run_single (step_finishOne SocketState.setCall_self hwait), rfl⟩, rfl⟩, rfl⟩, rfl⟩, ?_⟩
  refine ⟨rfl, ?_, ?_, ?_, ?_, ?_, ?_⟩
  · exact hwaiting.trans ((congrArg (· + 1) hA.waiting).trans (Int32.ofNat_add _ 1).symm)
  · exact hpending.trans ((congrArg (· + 1) hA.pending).trans (Int32.ofNat_add _ 1).symm)
  · refine (congrArg pktIds hqueue).trans ?_
    rw [List.range_succ, ← hA.ids]
    exact List.map_append
  · intro pkt hp
    rcases List.mem_append.1 (hqueue ▸ hp : pkt ∈ _ ++ [_]) with hp | hp
    · exact hA.pkts pkt hp
    · obtain rfl := List.mem_singleton.1 hp
      exact ⟨rfl, rfl, onePkt_ne_nil⟩
  · intro id
    by_cases hid : id = s.captures
    · subst hid
      exact .inr SocketState.setCall_self
    · have hother := hA.calls id
      simpa [SocketState.setCall, hid] using hother
  · have hone : ∀ events : List SocketEvent, events.filterMap queuedPkt = [s.captures] →
        ([] ++ ([] ++ (events ++ ([] ++ [SocketEvent.swallowed s.captures])))).filterMap queuedPkt =
          [s.captures] := by
      intro events he
      simp [he, queuedPkt]
    rw [List.range_succ, ← hA.queued, List.filterMap_append]
    exact congrArg _ (hone _ hqueued)

/-- Any number of packets can wait at once. -/
theorem exists_allWaiting (n : Nat) : ∃ s h,
    socketMachine.run (SocketState.start ⟨1, 1⟩ 65536) ((List.range n).flatMap notCopied) = some (s, h) ∧
      AllWaiting n s h := by
  induction n with
  | zero =>
    exact ⟨_, _, rfl, rfl, rfl, rfl, rfl, fun _ h => (by cases h), fun _ => .inl rfl, rfl⟩
  | succ n ih =>
    obtain ⟨s, h, hr, hA⟩ := ih
    obtain ⟨s', e, hr', hA'⟩ := hA.run_notCopied
    refine ⟨s', h ++ e, ?_, hA'⟩
    rw [List.range_succ, List.flatMap_append, List.flatMap_singleton]
    exact Machine.run_append.2 ⟨s, h, e, hr, hr', rfl⟩

theorem step_queueDirect (hc : s.calls id = .copied c) (he : c.error = KERN_SUCCESS)
    (hzero : s.so.packetsWaitingForReporting = 0) : socketMachine.step s (.queue id) =
      some ({ s.setCall id (.queued c) with
        so := { s.so with pendingQueue := s.so.pendingQueue ++ [c.pendingPkt] } },
        [.queued c.pendingPkt.id]) := by
  simp [socketMachine, SocketState.step, hc, NkeSocketObject.queuePkt, he, hzero]

/-- When the number that waits has no trace in 32 bits the next packet is sent directly. -/
theorem AllWaiting.run_sentDirectly (hA : AllWaiting n s h) (hn : Int32.ofNat n = 0) :
    ∃ s' notification, socketMachine.run s (sentDirectly n) =
        some (s', [.queued n, .notified n notification]) ∧
      s'.so.packetsWaitingForReporting = 0 ∧ notification.event = .NkeSocketFilterEventDataIn ∧
      ∃ pkt, s'.so.pendingQueue = s.so.pendingQueue ++ [pkt] ∧ pkt.needToBeReported = false := by
  have hzero : s.so.withOne.packetsWaitingForReporting = 0 := hA.waiting.trans hn
  have hid := hA.captures
  subst hid
  refine ⟨_, (s.capturedOne.copied KERN_SUCCESS [0]).notification, Machine.run_cons.2
    ⟨_, _, _, step_captureOne, Machine.run_cons.2 ⟨_, _, _,
      step_copyOne SocketState.setCall_self onePkt_ne_nil, Machine.run_cons.2 ⟨_, _, _,
      step_queueDirect SocketState.setCall_self rfl hzero, Machine.run_single
        (step_sendSome SocketState.setCall_self rfl), rfl⟩, rfl⟩, rfl⟩, hzero, rfl, _, rfl, rfl⟩

/-- With `2 ^ 32` waiting packets the counter is not their number, and the packets that have to be reported
are not a suffix of the queue after the next packet. -/
theorem pendingQueue_not_shape : ∃ as s h,
    socketMachine.run (SocketState.start ⟨1, 1⟩ 65536) as = some (s, h) ∧
      s.so.packetsWaitingForReporting.toInt ≠ (s.so.pendingQueue.filter (·.needToBeReported)).length ∧
      ¬ s.so.pendingQueue.filter (·.needToBeReported) <:+ s.so.pendingQueue := by
  obtain ⟨s, h, hr, hA⟩ := exists_allWaiting (2 ^ 32)
  obtain ⟨s', c, hr', hzero, -, pkt, hqueue, hneed⟩ := hA.run_sentDirectly (by decide)
  have hall : s.so.pendingQueue.filter (·.needToBeReported) = s.so.pendingQueue :=
    List.filter_eq_self.2 fun pkt hp => (hA.pkts pkt hp).1
  have hlength : s.so.pendingQueue.length = 2 ^ 32 := by
    rw [← List.length_map PendingPktQueueItem.id]
    exact (congrArg List.length hA.ids).trans List.length_range
  have hmarked : s'.so.pendingQueue.filter (·.needToBeReported) = s.so.pendingQueue := by
    simp [hqueue, List.filter_append, hall, hneed]
  refine ⟨_, s', _, Machine.run_append.2 ⟨s, h, _, hr, hr', rfl⟩, ?_, ?_⟩
  · rw [hzero, hmarked, hlength]
    decide
  · -- the last packet of the queue is not marked
    rw [hmarked, hqueue, List.suffix_concat_iff]
    rintro (hnil | ⟨first, heq, -⟩)
    · rw [hnil] at hlength
      cases hlength
    · have hmem : pkt ∈ s.so.pendingQueue := by simp [heq]
      rw [(hA.pkts pkt hmem).1] at hneed
      cases hneed

end Wrap

end NkeFilter
