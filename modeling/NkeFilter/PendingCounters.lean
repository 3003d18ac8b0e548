import NkeFilter.QueueShape

/-!
# The pending counters

`numberOfPendingInPackets`, `totalPendingBytesIn` and their outbound twins count the packets that are
allocated, queued or in the hands of the thread that reinjects (`SocketState.pendingPkts`), after every
step of every thread and as far as their 32 bits go. With them the threads that wait for them in
`checkForInjectionCompletion`: such a thread leaves its loop over one direction only when no packet of it is
left, or a multiple of `2 ^ 32`.
-/

namespace NkeFilter
open Lib NkeSocketObject

/-! ### What is counted -/

def CallPhase.allocated : CallPhase → Option PendingPktQueueItem
  | .captured c | .copied c => some c.pendingPkt
  | _ => none

def Handling.pkt : Handling → PendingPktQueueItem
  | .toFree pkt | .toAccount pkt => pkt

/-- The packets the reinjecting thread has not accounted as done. -/
def Injection.pkts (i : Injection) : List PendingPktQueueItem :=
  (i.current.map Handling.pkt).toList ++ i.packetsToInject

namespace SocketState

/-- The packets that are allocated and not yet queued. -/
def allocated (s : SocketState) : List PendingPktQueueItem :=
  (List.range s.captures).filterMap fun id => (s.calls id).allocated

def injected (s : SocketState) : List PendingPktQueueItem := (s.injection.map Injection.pkts).getD []

def pendingPkts (s : SocketState) : List PendingPktQueueItem :=
  s.allocated ++ s.so.pendingQueue ++ s.injected

end SocketState

def packetsOf (dataInbound : Bool) (pkts : List PendingPktQueueItem) : Nat :=
  pkts.countP (·.dataInbound == dataInbound)

def bytesOf (dataInbound : Bool) (pkts : List PendingPktQueueItem) : Nat :=
  ((pkts.filter (·.dataInbound == dataInbound)).map (·.totalbytes.toNat)).sum

def NkeSocketObject.totalPendingBytes (so : NkeSocketObject) (dataInbound : Bool) : UInt32 :=
  if dataInbound then so.totalPendingBytesIn else so.totalPendingBytesOut

/-- The counters of `so` are those of the packets `pkts`, modulo `2 ^ 32`. -/
structure Counts (so : NkeSocketObject) (pkts : List PendingPktQueueItem) : Prop where
  number : ∀ dataInbound, so.numberOfPendingPackets dataInbound = Int32.ofNat (packetsOf dataInbound pkts)
  bytes : ∀ dataInbound, so.totalPendingBytes dataInbound = UInt32.ofNat (bytesOf dataInbound pkts)

/-- All that the counters depend on. -/
def sized (pkts : List PendingPktQueueItem) : List (Bool × UInt32) :=
  pkts.map fun pkt => (pkt.dataInbound, pkt.totalbytes)

variable {so so' : NkeSocketObject} {pkt pkt' : PendingPktQueueItem}
  {pkts pkts' queue rest taken : List PendingPktQueueItem}
  {dataInbound : Bool} {s s' : SocketState} {a : SocketLabel} {h e : List SocketEvent} {id : Nat}

@[simp] theorem sized_append : sized (pkts ++ pkts') = sized pkts ++ sized pkts' := List.map_append

@[simp] theorem sized_cons : sized (pkt :: pkts) = (pkt.dataInbound, pkt.totalbytes) :: sized pkts := rfl

@[simp] theorem sized_nil : sized [] = [] := rfl

theorem sized_perm (hp : pkts.Perm pkts') : (sized pkts).Perm (sized pkts') := hp.map _

theorem packetsOf_sized : packetsOf dataInbound pkts = (sized pkts).countP (·.1 == dataInbound) := by
  rw [sized, List.countP_map]
  rfl

theorem bytesOf_sized :
    bytesOf dataInbound pkts = (((sized pkts).filter (·.1 == dataInbound)).map (·.2.toNat)).sum := by
  rw [sized, List.filter_map, List.map_map]
  rfl

theorem sized_forall₂ {R : PendingPktQueueItem → PendingPktQueueItem → Prop}
    (hR : ∀ pkt pkt', R pkt pkt' → pkt'.dataInbound = pkt.dataInbound ∧ pkt'.totalbytes = pkt.totalbytes)
    (hl : List.Forall₂ R queue rest) : sized rest = sized queue := by
  induction hl with
  | nil => rfl
  | cons hpkt _ ih =>
    obtain ⟨hin, hbytes⟩ := hR _ _ hpkt
    rw [sized_cons, sized_cons, ih, hin, hbytes]

/-- The objects agree on the pending counters. -/
def SameCounters (so so' : NkeSocketObject) : Prop :=
  ∀ dataInbound, so'.numberOfPendingPackets dataInbound = so.numberOfPendingPackets dataInbound ∧
    so'.totalPendingBytes dataInbound = so.totalPendingBytes dataInbound

theorem SameCounters.refl : SameCounters so so := fun _ => ⟨rfl, rfl⟩

namespace Counts

theorem of_perm (hc : Counts so pkts) (hso : SameCounters so so') (hp : (sized pkts').Perm (sized pkts)) :
    Counts so' pkts' := by
  refine ⟨?_, ?_⟩
  · intro dataInbound
    rw [(hso dataInbound).1, hc.number, packetsOf_sized, packetsOf_sized, hp.countP_eq]
  · intro dataInbound
    rw [(hso dataInbound).2, hc.bytes, bytesOf_sized, bytesOf_sized, ((hp.filter _).map _).sum_nat]

theorem countPkt (hc : Counts so pkts) (pkt : PendingPktQueueItem) :
    Counts (so.countPkt pkt.dataInbound pkt.totalbytes) (pkt :: pkts) := by
  refine ⟨?_, ?_⟩
  · intro dataInbound
    have hn := hc.number dataInbound
    cases hd : pkt.dataInbound <;> cases dataInbound <;>
      simp_all [numberOfPendingPackets, NkeSocketObject.countPkt, packetsOf]
  · intro dataInbound
    have hb := hc.bytes dataInbound
    cases hd : pkt.dataInbound <;> cases dataInbound <;>
      simp_all [totalPendingBytes, NkeSocketObject.countPkt, bytesOf, UInt32.ofNat_add, UInt32.add_comm]

theorem uncountPkt (hc : Counts so (pkt :: pkts)) : Counts (so.uncountPkt pkt) pkts := by
  refine ⟨?_, ?_⟩
  · intro dataInbound
    have hn := hc.number dataInbound
    cases hd : pkt.dataInbound <;> cases dataInbound <;>
      simp_all [numberOfPendingPackets, NkeSocketObject.uncountPkt, packetsOf]
  · intro dataInbound
    have hb := hc.bytes dataInbound
    cases hd : pkt.dataInbound <;> cases dataInbound <;>
      simp_all [totalPendingBytes, NkeSocketObject.uncountPkt, bytesOf, UInt32.ofNat_add]

/-- What `purgePendingQueue` takes out of the queue it also counts off. -/
theorem purgeLoop (purgeType : NkeSocketDataDirectionType) (hc : Counts so (queue ++ pkts)) :
    Counts (NkeSocketObject.purgeLoop purgeType queue so).2.1
      ((NkeSocketObject.purgeLoop purgeType queue so).1 ++ pkts) := by
  induction queue generalizing so pkts with
  | nil => exact hc
  | cons pkt rest ih =>
    unfold NkeSocketObject.purgeLoop
    split
    · -- the packet stays, so it joins the packets outside the rest
      have hnext : Counts so (rest ++ (pkt :: pkts)) :=
        hc.of_perm .refl (by simp [List.perm_middle])
      exact (ih hnext).of_perm .refl (by simpa using List.perm_middle.symm)
    · refine ih (uncountPkt (hc.of_perm ?_ ?_))
      · split
        · exact fun _ => ⟨rfl, rfl⟩
        · exact .refl
      · rw [satisfyWait_fst]
        exact .refl _

end Counts

/-! ### Where the steps put the packets -/

namespace SocketState

theorem allocated_setCall {phase : CallPhase} (hsame : phase.allocated = (s.calls id).allocated) :
    (s.setCall id phase).allocated = s.allocated := by
  refine List.filterMap_congr ?_
  intro id' _
  rcases s.setCall_inv id phase id' with ⟨rfl, hp⟩ | ⟨-, hp⟩
  · rw [hp, hsame]
  · rw [hp]

/-- The call of an allocated packet goes on to a phase in which it is not. -/
theorem allocated_leave {phase : CallPhase} (hlt : id < s.captures)
    (hold : (s.calls id).allocated = some pkt) (hnew : phase.allocated = none) :
    s.allocated.Perm (pkt :: (s.setCall id phase).allocated) := by
  have hperm : (List.range s.captures).Perm (id :: (List.range s.captures).erase id) :=
    List.perm_cons_erase (List.mem_range.2 hlt)
  have hothers : ((List.range s.captures).erase id).filterMap (fun id => (s.calls id).allocated) =
      ((List.range s.captures).erase id).filterMap fun id' => ((s.setCall id phase).calls id').allocated := by
    refine List.filterMap_congr ?_
    intro id' hmem
    have hne : id' ≠ id := (List.nodup_range.mem_erase_iff.1 hmem).1
    rw [setCall_of_ne hne]
  have hleft := hperm.filterMap fun id => (s.calls id).allocated
  have hright := hperm.filterMap fun id' => ((s.setCall id phase).calls id').allocated
  rw [List.filterMap_cons, hold] at hleft
  rw [List.filterMap_cons, setCall_self, hnew] at hright
  exact hleft.trans ((hothers ▸ hright.symm).cons pkt)

theorem allocated_capture {c : FltDataCall} (so : NkeSocketObject) :
    ({ s.setCall s.captures (.captured c) with so, captures := s.captures + 1 } : SocketState).allocated =
      s.allocated ++ [c.pendingPkt] := by
  have hbefore : (List.range s.captures).filterMap
      (fun id => ((s.setCall s.captures (.captured c)).calls id).allocated) = s.allocated := by
    refine List.filterMap_congr ?_
    intro id' hmem
    rw [setCall_of_ne (List.mem_range.1 hmem).ne]
  have hlast : ((s.setCall s.captures (.captured c)).calls s.captures).allocated = some c.pendingPkt := by
    rw [setCall_self]
    rfl
  rw [← hbefore]
  simp only [allocated, List.range_succ, List.filterMap_append, List.filterMap_cons, List.filterMap_nil]
  rw [hlast]

end SocketState

theorem sized_delivered (hd : List.Forall₂ (Delivered e) queue rest) : sized rest = sized queue :=
  sized_forall₂ (fun _ _ h => by cases h <;> exact ⟨rfl, rfl⟩) hd

theorem sized_property {property : NkeSocketDataProperty} {reached : Option PendingPktQueueItem}
    (hp : PropertyEnd property queue (rest, reached)) : sized rest = sized queue := by
  cases hp with
  | none => rfl
  | @applied pre post pkt =>
    obtain ⟨allowData, responseReceived, heq⟩ := setProperty_eq pkt property
    simp [heq]

theorem sized_collected (hc : CollectEnd queue (rest, taken)) :
    (sized (rest ++ taken)).Perm (sized queue) := by
  obtain ⟨⟨seen, hseen, -, -, hperm⟩, -⟩ := hc
  rw [← sized_forall₂ (fun _ _ ⟨_, heq, _⟩ => heq ▸ ⟨rfl, rfl⟩) hseen]
  exact (List.perm_append_comm.trans hperm).map _

theorem queuePkt_sized (so : NkeSocketObject) (c : FltDataCall) :
    SameCounters so (so.queuePkt c).1 ∧
      sized (so.queuePkt c).1.pendingQueue = sized (so.pendingQueue ++ [c.pendingPkt]) := by
  unfold queuePkt
  split
  · refine ⟨fun _ => ⟨rfl, rfl⟩, ?_⟩
    simp
  · exact ⟨fun _ => ⟨rfl, rfl⟩, rfl⟩

theorem counts_start {socketId : NkeSocketID} {size : Nat} :
    Counts (SocketState.start socketId size).so (SocketState.start socketId size).pendingPkts := by
  refine ⟨?_, ?_⟩ <;> intro dataInbound <;> cases dataInbound <;> rfl

/-- A packet goes from the first of three lists to the end of the second. -/
theorem perm_passed {α : Type} (x : α) (l m n : List α) :
    (l ++ (m ++ ([x] ++ n))).Perm (x :: l ++ (m ++ n)) :=
  (List.perm_middle.append_left l).trans List.perm_middle

/-- The counters after a step that leaves the packets `allocated`, `queue` and `rest` in the three places. -/
theorem Counts.of_parts {allocated : List PendingPktQueueItem} (hc : Counts so pkts)
    (hso : SameCounters so s'.so) (ha : s'.allocated = allocated) (hq : s'.so.pendingQueue = queue)
    (hi : s'.injected = rest)
    (hp : (sized allocated ++ (sized queue ++ sized rest)).Perm (sized pkts)) :
    Counts s'.so s'.pendingPkts := by
  refine hc.of_perm hso ?_
  rw [SocketState.pendingPkts, ha, hq, hi, sized_append, sized_append, List.append_assoc]
  exact hp

theorem sized_pendingPkts :
    sized s.pendingPkts = sized s.allocated ++ (sized s.so.pendingQueue ++ sized s.injected) := by
  rw [SocketState.pendingPkts, sized_append, sized_append, List.append_assoc]

/-- A step of an `FltData` call that keeps its packet, or has none. -/
theorem Counts.setCall {phase : CallPhase} (hc : Counts s.so s.pendingPkts)
    (hsame : phase.allocated = (s.calls id).allocated) :
    Counts s.so (s.setCall id phase).pendingPkts := by
  rw [SocketState.pendingPkts, SocketState.allocated_setCall hsame]
  exact hc

/-- The queue changes without a packet entering or leaving it. -/
theorem Counts.withQueue (hc : Counts s.so s.pendingPkts) (hso : SameCounters s.so so')
    (hq : sized so'.pendingQueue = sized s.so.pendingQueue) (waitSatisfied : Nat → Bool) :
    Counts so' ({ s with so := so', waitSatisfied } : SocketState).pendingPkts := by
  refine hc.of_perm hso (.of_eq ?_)
  simp only [SocketState.pendingPkts, sized_append]
  exact congrArg (fun l => sized s.allocated ++ l ++ sized s.injected) hq

theorem Counts.injection (hc : Counts s.so s.pendingPkts) (i : Option Injection)
    (hi : (i.map Injection.pkts).getD [] = s.injected) :
    Counts s.so ({ s with injection := i } : SocketState).pendingPkts := by
  refine hc.of_perm .refl (.of_eq ?_)
  exact congrArg (fun l => sized (s.allocated ++ s.so.pendingQueue ++ l)) hi

/-- A packet is allocated and counted. -/
theorem Counts.step_capture {mbufData mbufControl : MbufChain} {flags : UInt32}
    {isInboundData allocated : Bool} {now : UInt64} (hc : Counts s.so s.pendingPkts)
    (hs : socketMachine.step s (.capture mbufData mbufControl flags isInboundData allocated now) =
      some (s', e)) : Counts s'.so s'.pendingPkts := by
  simp only [socketMachine, SocketState.step] at hs
  split at hs
  · cases hs
  · rename_i hd
    unfold allocatePkt at hs
    rw [if_neg (fun h => hd h.1)] at hs
    cases allocated with
    | false =>
      obtain ⟨rfl, -⟩ := Prod.mk.inj (Option.some.inj hs)
      exact hc
    | true =>
      obtain ⟨rfl, -⟩ := Prod.mk.inj (Option.some.inj hs)
      have hcount := hc.countPkt (s.so.newPkt s.captures mbufData mbufControl flags isInboundData now)
      refine hcount.of_parts ?_ (SocketState.allocated_capture _) countPkt_same.queue rfl ?_
      · intro dataInbound
        cases dataInbound <;> exact ⟨rfl, rfl⟩
      · rw [sized_cons, sized_pendingPkts, sized_append, List.append_assoc]
        exact List.perm_middle

/-- The packet of a `FltData` call goes into the queue. -/
theorem Counts.step_queue (hc : Counts s.so s.pendingPkts) (hC : Custody s h)
    (hs : socketMachine.step s (.queue id) = some (s', e)) : Counts s'.so s'.pendingPkts := by
  simp only [socketMachine, SocketState.step] at hs
  split at hs
  · rename_i c hcall
    obtain ⟨rfl, -⟩ := Prod.mk.inj (Option.some.inj hs)
    obtain ⟨hso, hq⟩ := queuePkt_sized s.so c
    have hleave : s.allocated.Perm (c.pendingPkt :: (s.setCall id (.queued (s.so.queuePkt c).2.1)).allocated) :=
      SocketState.allocated_leave (hC.lt_captures (by simp [hcall])) (congrArg CallPhase.allocated hcall) rfl
    refine hc.of_parts hso rfl rfl rfl ?_
    rw [hq, sized_pendingPkts, sized_append, List.append_assoc]
    exact (perm_passed ..).trans ((sized_perm hleave).symm.append_right _)
  · cases hs

/-- Packets go from the queue to `packetsToInject`. -/
theorem Counts.step_collect {injectType : NkeSocketDataDirectionType} {clock : Nat → UInt64}
    (hc : Counts s.so s.pendingPkts)
    (hs : socketMachine.step s (.collect injectType clock) = some (s', e)) : Counts s'.so s'.pendingPkts := by
  simp only [socketMachine, SocketState.step] at hs
  split at hs
  · cases hs
  · rename_i hnone
    obtain ⟨rfl, -⟩ := Prod.mk.inj (Option.some.inj hs)
    have hc' : CollectEnd s.so.pendingQueue (collectLoop injectType clock s.so.pendingQueue) :=
      collectLoop_spec injectType clock
    have hperm := sized_collected hc'
    have hnone : s.injected = [] := by rw [SocketState.injected, hnone]; rfl
    refine hc.of_parts (fun _ => ⟨rfl, rfl⟩) rfl rfl rfl ?_
    rw [sized_pendingPkts, hnone, sized_nil, List.append_nil]
    exact List.Perm.append_left _ (sized_append ▸ hperm)

/-- The packet in hand is accounted as done. -/
theorem Counts.step_account (hc : Counts s.so s.pendingPkts)
    (hs : socketMachine.step s .account = some (s', e)) : Counts s'.so s'.pendingPkts := by
  simp only [socketMachine, SocketState.step] at hs
  split at hs
  · rename_i rest pkt hi
    obtain ⟨rfl, -⟩ := Prod.mk.inj (Option.some.inj hs)
    have hi : s.injected = pkt :: rest := by rw [SocketState.injected, hi]; rfl
    have hfirst : Counts s.so (pkt :: (s.allocated ++ s.so.pendingQueue ++ rest)) := by
      refine hc.of_perm .refl ?_
      rw [SocketState.pendingPkts, hi]
      exact List.perm_middle.symm.map _
    refine hfirst.uncountPkt.of_parts .refl rfl uncountPkt_same.queue rfl ?_
    rw [sized_append, sized_append, List.append_assoc]
    exact .refl _
  · cases hs

theorem Counts.step_purge {purgeType : NkeSocketDataDirectionType} (hc : Counts s.so s.pendingPkts)
    (hs : socketMachine.step s (.purge purgeType) = some (s', e)) : Counts s'.so s'.pendingPkts := by
  simp only [socketMachine, SocketState.step] at hs
  split at hs
  · cases hs
  · rename_i hnone
    obtain ⟨rfl, -⟩ := Prod.mk.inj (Option.some.inj hs)
    have hi : s.injected = [] := by rw [SocketState.injected, hnone]; rfl
    have hfirst : Counts s.so (s.so.pendingQueue ++ s.allocated) := by
      refine hc.of_perm .refl ?_
      rw [SocketState.pendingPkts, hi, List.append_nil]
      exact List.perm_append_comm.map _
    refine (hfirst.purgeLoop purgeType).of_parts (fun _ => ⟨rfl, rfl⟩) rfl rfl hi ?_
    rw [sized_append, sized_nil, List.append_nil]
    exact List.perm_append_comm

theorem Counts.step (hc : Counts s.so s.pendingPkts) (hC : Custody s h)
    (hs : socketMachine.step s a = some (s', e)) : Counts s'.so s'.pendingPkts := by
  cases a with
  | capture => exact hc.step_capture hs
  | copy id error buffers =>
    simp only [socketMachine, SocketState.step] at hs
    split at hs
    · rename_i c hcall
      obtain ⟨rfl, -⟩ := Prod.mk.inj (Option.some.inj hs)
      refine hc.setCall ?_
      rw [hcall]
      simp only [CallPhase.allocated, FltDataCall.copied]
      repeat' split
      all_goals rfl
    · cases hs
  | queue => exact hc.step_queue hC hs
  | send id client =>
    simp only [socketMachine, SocketState.step] at hs
    split at hs
    · rename_i c hcall
      split at hs <;> obtain ⟨rfl, -⟩ := Prod.mk.inj (Option.some.inj hs)
      all_goals exact hc.setCall (congrArg CallPhase.allocated hcall).symm
    · cases hs
  | finish id =>
    simp only [socketMachine, SocketState.step] at hs
    split at hs
    · rename_i c hcall
      split at hs
      · cases hs
      · obtain ⟨rfl, -⟩ := Prod.mk.inj (Option.some.inj hs)
        exact hc.setCall (congrArg CallPhase.allocated hcall).symm
    · cases hs
  | deliver outcome =>
    obtain ⟨rfl, -⟩ := Prod.mk.inj (Option.some.inj hs)
    have hd : DeliverEnd s.so.pendingQueue s.so
      (deliverLoop outcome s.so.pendingQueue s.so ⟨none, KERN_SUCCESS, false, false⟩) := deliverLoop_spec outcome
    refine hc.withQueue ?_ (sized_delivered hd.pkts) _
    intro dataInbound
    rw [hd.so_eq]
    cases dataInbound <;> exact ⟨rfl, rfl⟩
  | property property =>
    obtain ⟨rfl, -⟩ := Prod.mk.inj (Option.some.inj hs)
    have hp : PropertyEnd property s.so.pendingQueue (propertyLoop property s.so.pendingQueue) :=
      propertyLoop_spec property
    refine hc.withQueue ?_ (sized_property hp) _
    exact fun _ => ⟨rfl, rfl⟩
  | collect => exact hc.step_collect hs
  | inject uninitialised result =>
    simp only [socketMachine, SocketState.step] at hs
    split at hs
    · rename_i pkt rest hi
      obtain ⟨rfl, -⟩ := Prod.mk.inj (Option.some.inj hs)
      refine hc.injection _ ?_
      rw [SocketState.injected, hi]
      split <;> rfl
    · cases hs
  | freeMbufs =>
    simp only [socketMachine, SocketState.step] at hs
    split at hs
    · rename_i rest pkt hi
      obtain ⟨rfl, -⟩ := Prod.mk.inj (Option.some.inj hs)
      refine hc.injection _ ?_
      rw [SocketState.injected, hi]
      rfl
    · cases hs
  | account => exact hc.step_account hs
  | unlock =>
    simp only [socketMachine, SocketState.step] at hs
    split at hs
    · rename_i hi
      obtain ⟨rfl, -⟩ := Prod.mk.inj (Option.some.inj hs)
      refine hc.injection _ ?_
      rw [SocketState.injected, hi]
      rfl
    · cases hs
  | purge => exact hc.step_purge hs
  | disconnecting | markAsDisconnected | beginDetach | listToReport =>
    obtain ⟨rfl, -⟩ := Prod.mk.inj (Option.some.inj hs)
    exact hc.of_perm (fun _ => ⟨rfl, rfl⟩) (.refl _)

theorem counts_of_socketRun {socketId : NkeSocketID} {size : Nat} {as : List SocketLabel}
    (hr : socketMachine.run (SocketState.start socketId size) as = some (s, h)) : Counts s.so s.pendingPkts :=
  (Machine.run_induction (fun s h => Custody s h ∧ Counts s.so s.pendingPkts) [] ⟨custody_start, counts_start⟩
    (fun _ _ _ _ _ hI _ hs => ⟨hI.1.step hs, hI.2.step hI.1 hs⟩) Machine.along_true hr).2

/-! ### Waiting for the counters -/

/-- The directions `checkForInjectionCompletion` waits for, in its order. -/
def NkeSocketDataDirectionType.waitOrder : NkeSocketDataDirectionType → List Bool
  | NkeSocketDataAll => [false, true]
  | NkeSocketDataInbound => [true]
  | NkeSocketDataOutbound => [false]

/-- The socket, and for each thread the directions its call of `checkForInjectionCompletion` has still to
wait for. -/
structure CompletionState where
  socket : SocketState
  waits : Nat → List Bool

inductive CompletionLabel where
  | socket (a : SocketLabel)
  /-- thread `t` calls `checkForInjectionCompletion( injectType, true )` -/
  | call (t : Nat) (injectType : NkeSocketDataDirectionType)
  /-- it tests the condition of the loop it is in; it may have slept before -/
  | test (t : Nat)

inductive CompletionEvent where
  | socket (event : SocketEvent)
  /-- the thread left its loop over the direction -/
  | passed (t : Nat) (dataInbound : Bool)
  deriving DecidableEq, Repr

namespace CompletionState

def start (socketId : NkeSocketID) (origReceiveBufferSize : Nat) : CompletionState where
  socket := SocketState.start socketId origReceiveBufferSize
  waits := fun _ => []

def step (s : CompletionState) : CompletionLabel → Option (CompletionState × List CompletionEvent)
  | .socket a => match s.socket.step a with
    | none => none
    | some (socket, events) => some ({ s with socket }, events.map .socket)
  | .call t injectType =>
    if s.waits t = [] then some ({ s with waits := Function.update s.waits t injectType.waitOrder }, [])
    else none
  | .test t => match s.waits t with
    | [] => none
    | dataInbound :: rest =>
      if s.socket.so.numberOfPendingPackets dataInbound ≠ 0 then some (s, [])
      else some ({ s with waits := Function.update s.waits t rest }, [.passed t dataInbound])

end CompletionState

/-- The threads of one socket together with any number of threads that wait for its packets. -/
def completionMachine : Machine CompletionState CompletionLabel CompletionEvent where
  step := CompletionState.step

/-- The four counters and the packets they count, modulo `2 ^ 32`. -/
structure PendingCounters (s : SocketState) : Prop where
  numberIn : s.so.numberOfPendingInPackets = Int32.ofNat (packetsOf true s.pendingPkts)
  numberOut : s.so.numberOfPendingOutPackets = Int32.ofNat (packetsOf false s.pendingPkts)
  bytesIn : s.so.totalPendingBytesIn.toNat ≡ bytesOf true s.pendingPkts [MOD 2 ^ 32]
  bytesOut : s.so.totalPendingBytesOut.toNat ≡ bytesOf false s.pendingPkts [MOD 2 ^ 32]

theorem Counts.pendingCounters (hc : Counts s.so s.pendingPkts) : PendingCounters s := by
  have hbytes : ∀ dataInbound, (s.so.totalPendingBytes dataInbound).toNat ≡
      bytesOf dataInbound s.pendingPkts [MOD 2 ^ 32] := by
    intro dataInbound
    rw [hc.bytes, UInt32.toNat_ofNat']
    exact Nat.mod_modEq ..
  exact ⟨hc.number true, hc.number false, hbytes true, hbytes false⟩

theorem Counts.none_pending (hc : Counts so pkts) (h0 : so.numberOfPendingPackets dataInbound = 0)
    (hfew : packetsOf dataInbound pkts < 2 ^ 32) : ∀ pkt ∈ pkts, pkt.dataInbound ≠ dataInbound := by
  have hnone : packetsOf dataInbound pkts = 0 :=
    (int32_ofNat_eq_zero_of_lt hfew).1 ((hc.number dataInbound).symm.trans h0)
  intro pkt hmem heq
  exact List.countP_eq_zero.1 hnone pkt hmem (beq_iff_eq.2 heq)

variable {c c' : CompletionState} {b : CompletionLabel} {events : List CompletionEvent} {t : Nat}

namespace CompletionState

theorem step_socket (hs : completionMachine.step c b = some (c', events)) :
    c'.socket = c.socket ∨ ∃ a e, socketMachine.step c.socket a = some (c'.socket, e) := by
  cases b with
  | socket a =>
    simp only [completionMachine, step] at hs
    split at hs
    · cases hs
    · rename_i socket e hsocket
      obtain ⟨rfl, -⟩ := Prod.mk.inj (Option.some.inj hs)
      exact .inr ⟨a, e, hsocket⟩
  | call t injectType =>
    simp only [completionMachine, step] at hs
    split at hs
    · obtain ⟨rfl, -⟩ := Prod.mk.inj (Option.some.inj hs)
      exact .inl rfl
    · cases hs
  | test t =>
    simp only [completionMachine, step] at hs
    repeat' split at hs
    all_goals cases hs <;> exact .inl rfl

/-- A thread leaves its loop only on a counter that is 0. -/
theorem step_passed (hs : completionMachine.step c b = some (c', events))
    (hp : .passed t dataInbound ∈ events) : c.socket.so.numberOfPendingPackets dataInbound = 0 := by
  cases b with
  | socket a =>
    simp only [completionMachine, step] at hs
    split at hs
    · cases hs
    · obtain ⟨-, rfl⟩ := Prod.mk.inj (Option.some.inj hs)
      simp at hp
  | call t injectType =>
    simp only [completionMachine, step] at hs
    split at hs <;> cases hs
    cases hp
  | test t =>
    simp only [completionMachine, step] at hs
    split at hs
    · cases hs
    · split at hs <;> obtain ⟨-, rfl⟩ := Prod.mk.inj (Option.some.inj hs)
      · cases hp
      · rename_i hzero
        obtain ⟨-, rfl⟩ := CompletionEvent.passed.inj (List.mem_singleton.1 hp)
        exact not_not.1 hzero

end CompletionState

theorem counts_of_run {socketId : NkeSocketID} {size : Nat} {as : List CompletionLabel}
    {h : List CompletionEvent}
    (hr : completionMachine.run (CompletionState.start socketId size) as = some (c, h)) :
    (∃ h', Custody c.socket h') ∧ Counts c.socket.so c.socket.pendingPkts := by
  refine Machine.Reachable.invariant (M := completionMachine)
    (I := fun c => (∃ h', Custody c.socket h') ∧ Counts c.socket.so c.socket.pendingPkts) ⟨as, h, hr⟩
    ⟨⟨[], custody_start⟩, counts_start⟩ ?_
  rintro c b c' events ⟨⟨h', hC⟩, hc⟩ hs
  rcases CompletionState.step_socket hs with heq | ⟨a, e, hsocket⟩
  · rw [heq]
    exact ⟨⟨h', hC⟩, hc⟩
  · exact ⟨⟨h' ++ e, hC.step hsocket⟩, hc.step hC hsocket⟩

/-- After every run the counters are exact modulo `2 ^ 32`, those of the packets altogether below `2 ^ 31`;
and whoever is let past a direction by the next step, while fewer than `2 ^ 32` packets of it are pending,
finds no packet of it allocated, queued or being injected. -/
theorem pendingCounters_of_run {socketId : NkeSocketID} {size : Nat} {as : List CompletionLabel}
    {h : List CompletionEvent}
    (hr : completionMachine.run (CompletionState.start socketId size) as = some (c, h)) :
    PendingCounters c.socket ∧
      (∀ dataInbound, packetsOf dataInbound c.socket.pendingPkts < 2 ^ 31 →
        (c.socket.so.numberOfPendingPackets dataInbound).toInt = packetsOf dataInbound c.socket.pendingPkts) ∧
      ∀ b c' events t dataInbound, completionMachine.step c b = some (c', events) →
        .passed t dataInbound ∈ events → packetsOf dataInbound c.socket.pendingPkts < 2 ^ 32 →
          ∀ pkt ∈ c.socket.pendingPkts, pkt.dataInbound ≠ dataInbound := by
  obtain ⟨-, hc⟩ := counts_of_run hr
  refine ⟨hc.pendingCounters, ?_, ?_⟩
  · intro dataInbound hlt
    rw [hc.number, Int32.toInt_ofNat_of_lt hlt]
  · intro b c' events t dataInbound hs hp hfew
    exact hc.none_pending (CompletionState.step_passed hs hp) hfew

/-- The detaching thread waits for both directions while an inbound packet goes through. -/
def waitForOne : List CompletionLabel :=
  failedInjection.map .socket ++ [.call 0 .NkeSocketDataAll, .test 0]

theorem waitForOne_passed :
    ∃ c h c', completionMachine.run (CompletionState.start ⟨1, 1⟩ 65536) waitForOne = some (c, h) ∧
      completionMachine.step c (.test 0) = some (c', [.passed 0 true]) ∧ PendingCounters c.socket ∧
      c.socket.so.numberOfPendingInPackets.toInt = 0 ∧ ∀ pkt ∈ c.socket.pendingPkts, pkt.dataInbound ≠ true := by
  obtain ⟨c, h, c', hr, hs, hnone⟩ : ∃ c h c',
      completionMachine.run (CompletionState.start ⟨1, 1⟩ 65536) waitForOne = some (c, h) ∧
        completionMachine.step c (.test 0) = some (c', [.passed 0 true]) ∧
          packetsOf true c.socket.pendingPkts = 0 := ⟨_, _, _, rfl, rfl, rfl⟩
  obtain ⟨hcounters, hexact, hpassed⟩ := pendingCounters_of_run hr
  refine ⟨c, h, c', hr, hs, hcounters, ?_, hpassed _ _ _ _ _ hs (List.mem_singleton_self _) ?_⟩
  · refine (hexact true ?_).trans ?_ <;> rw [hnone] <;> decide
  · rw [hnone]
    decide

/-- The steps of the socket alone are steps of the machine. -/
theorem run_socket {as : List SocketLabel} (hr : socketMachine.run s as = some (s', h)) :
    ∃ bs, completionMachine.run ⟨s, fun _ => []⟩ bs = some (⟨s', fun _ => []⟩, h.map .socket) := by
  have hsim := Machine.run_simulation (M := socketMachine) (N := completionMachine) (I := fun _ => True)
    (f := fun s => ⟨s, fun _ => []⟩) (g := fun e => some (.socket e)) (fun _ _ _ _ _ _ => trivial)
    (fun s a s' e _ hs => ⟨[.socket a], Machine.run_single ?_⟩) trivial hr
  · rwa [List.filterMap_eq_map'] at hsim
  · have hs : s.step a = some (s', e) := hs
    simp only [completionMachine, CompletionState.step, hs]
    rw [List.filterMap_eq_map']

/-- With `2 ^ 32` packets in the queue the counter is not their number, and a thread that waits for inbound
packets is let past them. -/
theorem pendingCounters_wrap : ∃ as c h c',
    completionMachine.run (CompletionState.start ⟨1, 1⟩ 65536) as = some (c, h) ∧
      c.socket.so.numberOfPendingInPackets.toInt ≠ packetsOf true c.socket.pendingPkts ∧
      completionMachine.step c (.test 0) = some (c', [.passed 0 true]) ∧
      ∃ pkt ∈ c.socket.pendingPkts, pkt.dataInbound = true := by
  obtain ⟨s, h, hr, hA⟩ := exists_allWaiting (2 ^ 32)
  obtain ⟨bs, hr⟩ := run_socket hr
  have hzero : s.so.numberOfPendingInPackets = 0 := hA.pending.trans (by decide)
  obtain ⟨pkt, hp⟩ : ∃ pkt, pkt ∈ s.so.pendingQueue := by
    have hmem : 0 ∈ pktIds s.so.pendingQueue := hA.ids ▸ List.mem_range.2 (by decide)
    obtain ⟨pkt, hp, -⟩ := List.mem_map.1 hmem
    exact ⟨pkt, hp⟩
  have hpending : pkt ∈ s.pendingPkts := List.mem_append_left _ (List.mem_append_right _ hp)
  have hin : pkt.dataInbound = true := (hA.pkts pkt hp).2.1
  have hsome : 0 < packetsOf true s.pendingPkts := List.countP_pos_iff.2 ⟨pkt, hpending, by simp [hin]⟩
  have hwaits : ∀ waits : Nat → List Bool, waits 0 = [true] → completionMachine.step ⟨s, waits⟩ (.test 0) =
      some (⟨s, Function.update waits 0 []⟩, [.passed 0 true]) := by
    intro waits hwaits
    simp [completionMachine, CompletionState.step, hwaits, NkeSocketObject.numberOfPendingPackets, hzero]
  refine ⟨_, _, _, _, Machine.run_append.2 ⟨_, _, _, hr,
    Machine.run_single (a := .call 0 .NkeSocketDataInbound) rfl, rfl⟩, ?_,
    hwaits _ (Function.update_self ..), pkt, hpending, hin⟩
  show s.so.numberOfPendingInPackets.toInt ≠ packetsOf true s.pendingPkts
  rw [hzero]
  exact (Int.natCast_pos.2 hsome).ne

end NkeFilter
