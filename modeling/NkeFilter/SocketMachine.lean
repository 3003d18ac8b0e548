import NkeFilter.SocketRegions
import NkeFilter.Lib.Machine

/-!
# The machine of one socket

All threads that work on one socket object: any number of `FltData` calls, of threads that deliver
notifications, process answers, reinject, purge, detach and log socket events. Every region of `rwLock`,
every allocation, copy, notification, injection, freeing and accounting is one step; what it returns is
in the label.
-/

namespace NkeFilter
open Lib NkeSocketObject

/-- How far the `FltData` call of a captured packet is. -/
inductive CallPhase where
  | idle
  | captured (c : FltDataCall)
  | copied (c : FltDataCall)
  | queued (c : FltDataCall)
  /-- after `socketFilterNotification`, or its omission -/
  | sent (c : FltDataCall)
  | returned
  deriving DecidableEq, Repr

/-- A packet that was taken out of `packetsToInject`. -/
inductive Handling where
  /-- its mbufs are still to be freed -/
  | toFree (pkt : PendingPktQueueItem)
  /-- its mbufs are gone, its entry is still to be counted off and freed -/
  | toAccount (pkt : PendingPktQueueItem)
  deriving DecidableEq, Repr

/-- The variables of the thread in `reinjectDeferredData` that has `injectionMutex`. -/
structure Injection where
  packetsToInject : List PendingPktQueueItem
  current : Option Handling
  deriving DecidableEq, Repr

/-- The object, the `FltData` calls by the number of their packet, the number of packets captured so far,
the holder of `injectionMutex`, and which `WaitEntry` was satisfied. -/
structure SocketState where
  so : NkeSocketObject
  calls : Nat → CallPhase
  captures : Nat
  injection : Option Injection
  waitSatisfied : Nat → Bool

inductive SocketLabel where
  /-- `FltData` has tagged the packet, so `*data` is not `NULL`, and allocates its entry -/
  | capture (mbufData mbufControl : MbufChain) (flags : UInt32) (isInboundData allocated : Bool)
    (now : UInt64)
  | copy (id : Nat) (error : Errno) (buffers : List Nat)
  | queue (id : Nat)
  | send (id : Nat) (client : Option Errno)
  /-- `FltData` returns `EJUSTRETURN`, when it need not wait any more -/
  | finish (id : Nat)
  | deliver (outcome : Nat → ReportOutcome)
  | property (property : NkeSocketDataProperty)
  | collect (injectType : NkeSocketDataDirectionType) (clock : Nat → UInt64)
  | inject (uninitialised result : Errno)
  | freeMbufs
  | account
  /-- `packetsToInject` is empty: gives `injectionMutex` back -/
  | unlock
  /-- takes `injectionMutex` for the whole purge -/
  | purge (purgeType : NkeSocketDataDirectionType)
  | disconnecting
  | markAsDisconnected
  /-- the decrement in `acquireDetachingLockForRemoval` -/
  | beginDetach
  /-- a region of `SocketsListToReportLock` that puts the object in `SocketsListToReport` or takes it out -/
  | listToReport (inserted : Bool)

namespace SocketState

def start (socketId : NkeSocketID) (origReceiveBufferSize : Nat) : SocketState where
  so := withSocket socketId origReceiveBufferSize
  calls := fun _ => .idle
  captures := 0
  injection := none
  waitSatisfied := fun _ => false

def woken (s : SocketState) (events : List SocketEvent) : Nat → Bool :=
  fun id => s.waitSatisfied id || decide (.wakeup id ∈ events)

def setCall (s : SocketState) (id : Nat) (phase : CallPhase) : SocketState :=
  { s with calls := Function.update s.calls id phase }

def step (s : SocketState) : SocketLabel → Option (SocketState × List SocketEvent)
  | .capture mbufData mbufControl flags isInboundData allocated now =>
    if mbufData = [] then none
    else match s.so.allocatePkt s.captures mbufData mbufControl flags isInboundData allocated now with
      | (none, so) => some ({ s with so }, [])
      | (some pkt, so) =>
        some ({ s.setCall s.captures (.captured (.captured so pkt)) with so, captures := s.captures + 1 }, [])
  | .copy id error buffers => match s.calls id with
    | .captured c =>
      some (s.setCall id (.copied (if c.pendingPkt.data = [] then c else c.copied error buffers)), [])
    | _ => none
  | .queue id => match s.calls id with
    | .copied c =>
      let (so, c, events) := s.so.queuePkt c
      some ({ s.setCall id (.queued c) with so }, events)
    | _ => none
  | .send id client => match s.calls id with
    | .queued c =>
      if c.sendNotification then
        some (s.setCall id (.sent (c.sent client)),
          if (c.sent client).error = KERN_SUCCESS then [.notified id c.notification] else [])
      else some (s.setCall id (.sent c), [])
    | _ => none
  | .finish id => match s.calls id with
    | .sent c =>
      if c.wait && !s.waitSatisfied id then none else some (s.setCall id .returned, [.swallowed id])
    | _ => none
  | .deliver outcome =>
    let (so, _, events) := s.so.deliverQueue outcome
    some ({ s with so, waitSatisfied := s.woken events }, events)
  | .property property =>
    let (so, events) := s.so.setDeferredDataProperties property
    some ({ s with so }, events)
  | .collect injectType clock => match s.injection with
    | some _ => none
    | none =>
      let (so, taken) := s.so.collect injectType clock
      some ({ s with so, injection := some ⟨taken, none⟩ }, taken.map fun pkt => .taken pkt.id)
  | .inject uninitialised result => match s.injection with
    | some ⟨pkt :: rest, none⟩ =>
      let (freeMbufs, events) := s.so.inject pkt uninitialised result
      some ({ s with injection := some ⟨rest, some (if freeMbufs then .toFree pkt else .toAccount pkt)⟩ },
        events)
    | _ => none
  | .freeMbufs => match s.injection with
    | some ⟨rest, some (.toFree pkt)⟩ =>
      some ({ s with injection := some ⟨rest, some (.toAccount pkt)⟩ }, [.freedMbufs pkt.id])
    | _ => none
  | .account => match s.injection with
    | some ⟨rest, some (.toAccount pkt)⟩ =>
      some ({ s with so := s.so.uncountPkt pkt, injection := some ⟨rest, none⟩ }, [.freedEntry pkt.id])
    | _ => none
  | .unlock => match s.injection with
    | some ⟨[], none⟩ => some ({ s with injection := none }, [])
    | _ => none
  | .purge purgeType => match s.injection with
    | some _ => none
    | none =>
      let (so, events) := s.so.purgePendingQueue purgeType
      some ({ s with so, waitSatisfied := s.woken events }, events)
  | .disconnecting => some ({ s with so := { s.so with f_sock_evt_disconnecting := true } }, [])
  | .markAsDisconnected => some ({ s with so := { s.so with disconnected := true } }, [])
  | .beginDetach => some ({ s with so := { s.so with lockCount := s.so.lockCount - 1 } }, [])
  | .listToReport inserted => some ({ s with so := { s.so with insertedInSocketsListToReport := inserted } }, [])

end SocketState

/-- The direction of the packet that is captured. -/
def SocketLabel.capturedInbound : SocketLabel → Option Bool
  | .capture _ _ _ isInboundData true _ => some isInboundData
  | _ => none

/-- Any interleaving of the threads of one socket. -/
def socketMachine : Machine SocketState SocketLabel SocketEvent where
  step := SocketState.step

/-! ### What a step can do -/

def NkeSocketObject.withQueue (so : NkeSocketObject) (queue : List PendingPktQueueItem) (waiting : Int32) :
    NkeSocketObject :=
  { so with pendingQueue := queue, packetsWaitingForReporting := waiting }

/-- The objects agree on the queue, the counter of waiting packets, the next index and the identity. -/
structure SameQueue (so so' : NkeSocketObject) : Prop where
  queue : so'.pendingQueue = so.pendingQueue
  waiting : so'.packetsWaitingForReporting = so.packetsWaitingForReporting
  nextIndex : so'.pendingDataNextIndex = so.pendingDataNextIndex
  socketId : so'.socketId = so.socketId

/-- The steps of `socketMachine`, with what the regions do as their descriptions have it. -/
inductive SocketStep (s : SocketState) : SocketLabel → SocketState → List SocketEvent → Prop
  | quiet {a so} : SameQueue s.so so → SocketStep s a { s with so } []
  | capture {a so} {pkt : PendingPktQueueItem} : pkt.id = s.captures →
    pkt.dataIndex = s.so.pendingDataNextIndex →
      pkt.data ≠ [] → pkt.allowData = false → pkt.needToBeReported = false →
      so.pendingQueue = s.so.pendingQueue → so.packetsWaitingForReporting = s.so.packetsWaitingForReporting →
      so.pendingDataNextIndex = s.so.pendingDataNextIndex + 1 → so.socketId = s.so.socketId →
      SocketStep s a
        { s.setCall s.captures (.captured (.captured so pkt)) with so, captures := s.captures + 1 } []
  | copy {id error buffers c} : s.calls id = .captured c → SocketStep s (.copy id error buffers)
      (s.setCall id (.copied (if c.pendingPkt.data = [] then c else c.copied error buffers))) []
  | queue {id c so c' events} : s.calls id = .copied c → QueueEnd s.so c (so, c', events) →
      SocketStep s (.queue id) { s.setCall id (.queued c') with so } events
  | send {id client c} : s.calls id = .queued c → c.sendNotification →
      SocketStep s (.send id client) (s.setCall id (.sent (c.sent client)))
        (if (c.sent client).error = KERN_SUCCESS then [.notified id c.notification] else [])
  | noSend {id client c} : s.calls id = .queued c → c.sendNotification = false →
      SocketStep s (.send id client) (s.setCall id (.sent c)) []
  | finish {id c} : s.calls id = .sent c → (c.wait → s.waitSatisfied id) →
      SocketStep s (.finish id) (s.setCall id .returned) [.swallowed id]
  | deliver {outcome queue so l events} : DeliverEnd s.so.pendingQueue s.so (queue, so, l, events) →
      SocketStep s (.deliver outcome)
        { s with so := so.withQueue queue so.packetsWaitingForReporting, waitSatisfied := s.woken events }
          events
  | property {property queue reached} : PropertyEnd property s.so.pendingQueue (queue, reached) →
      SocketStep s (.property property)
        { s with so := s.so.withQueue queue s.so.packetsWaitingForReporting } [.answered property reached]
  | collect {injectType clock rest taken} : s.injection = none → CollectEnd s.so.pendingQueue (rest, taken) →
      SocketStep s (.collect injectType clock)
        { s with so := s.so.withQueue rest s.so.packetsWaitingForReporting, injection := some ⟨taken, none⟩ }
        (taken.map fun pkt => .taken pkt.id)
  | inject {uninitialised result pkt rest freeMbufs events} : s.injection = some ⟨pkt :: rest, none⟩ →
      s.so.inject pkt uninitialised result = (freeMbufs, events) →
      SocketStep s (.inject uninitialised result)
        { s with injection := some ⟨rest, some (if freeMbufs then .toFree pkt else .toAccount pkt)⟩ } events
  | freeMbufs {pkt rest} : s.injection = some ⟨rest, some (.toFree pkt)⟩ →
      SocketStep s .freeMbufs { s with injection := some ⟨rest, some (.toAccount pkt)⟩ } [.freedMbufs pkt.id]
  | account {pkt rest so} : s.injection = some ⟨rest, some (.toAccount pkt)⟩ → SameQueue s.so so →
      SocketStep s .account { s with so, injection := some ⟨rest, none⟩ } [.freedEntry pkt.id]
  | unlock : s.injection = some ⟨[], none⟩ → SocketStep s .unlock { s with injection := none } []
  | purge {purgeType so purged} : s.injection = none →
      purged = s.so.pendingQueue.filter (fun pkt => purgeType.covers pkt.dataInbound) →
      so.pendingQueue = s.so.pendingQueue.filter (fun pkt => !purgeType.covers pkt.dataInbound) →
      so.packetsWaitingForReporting = s.so.packetsWaitingForReporting - Int32.ofNat (waitingCount purged) →
      so.pendingDataNextIndex = s.so.pendingDataNextIndex → so.socketId = s.so.socketId →
      SocketStep s (.purge purgeType)
        { s with so, waitSatisfied := s.woken (purged.flatMap purgeEvents) } (purged.flatMap purgeEvents)

section Uncount
variable {so : NkeSocketObject} {pkt : PendingPktQueueItem}

theorem uncountPkt_same : SameQueue so (so.uncountPkt pkt) := by
  unfold uncountPkt
  split <;> exact ⟨rfl, rfl, rfl, rfl⟩

theorem countPkt_same {inbound : Bool} {n : UInt32} : SameQueue so (so.countPkt inbound n) := by
  unfold countPkt
  split <;> exact ⟨rfl, rfl, rfl, rfl⟩

theorem purgeLoop_same (purgeType : NkeSocketDataDirectionType) (queue : List PendingPktQueueItem)
    (so : NkeSocketObject) :
    (purgeLoop purgeType queue so).2.1.pendingDataNextIndex = so.pendingDataNextIndex ∧
      (purgeLoop purgeType queue so).2.1.socketId = so.socketId := by
  induction queue generalizing so with
  | nil => exact ⟨rfl, rfl⟩
  | cons pkt rest ih =>
    unfold purgeLoop
    split
    · exact ih so
    · obtain ⟨hi, hs⟩ := ih ((if pkt.satisfyWait.1.needToBeReported then
        { so with packetsWaitingForReporting := so.packetsWaitingForReporting - 1 } else so).uncountPkt
          pkt.satisfyWait.1)
      refine ⟨hi.trans ?_, hs.trans ?_⟩
      · rw [uncountPkt_same.nextIndex]
        split <;> rfl
      · rw [uncountPkt_same.socketId]
        split <;> rfl

end Uncount

namespace SocketState
variable {s s' : SocketState} {a : SocketLabel} {e : List SocketEvent}

theorem step_inv (hs : socketMachine.step s a = some (s', e)) : SocketStep s a s' e := by
  cases a with
  | capture mbufData mbufControl flags isInboundData allocated now =>
    simp only [socketMachine, step] at hs
    split at hs
    · cases hs
    · rename_i hd
      unfold allocatePkt at hs
      rw [if_neg (fun h => hd h.1)] at hs
      cases allocated with
      | false =>
        obtain ⟨rfl, rfl⟩ := Prod.mk.inj (Option.some.inj hs)
        exact .quiet ⟨rfl, rfl, rfl, rfl⟩
      | true =>
        obtain ⟨rfl, rfl⟩ := Prod.mk.inj (Option.some.inj hs)
        exact .capture rfl rfl hd rfl rfl countPkt_same.queue countPkt_same.waiting rfl countPkt_same.socketId
  | copy id error buffers =>
    simp only [socketMachine, step] at hs
    split at hs
    · rename_i c hc
      obtain ⟨rfl, rfl⟩ := Prod.mk.inj (Option.some.inj hs)
      exact .copy hc
    · cases hs
  | queue id =>
    simp only [socketMachine, step] at hs
    split at hs
    · rename_i c hc
      obtain ⟨rfl, rfl⟩ := Prod.mk.inj (Option.some.inj hs)
      exact .queue hc (queuePkt_spec s.so c)
    · cases hs
  | send id client =>
    simp only [socketMachine, step] at hs
    split at hs
    · rename_i c hc
      split at hs
      · rename_i hsend
        obtain ⟨rfl, rfl⟩ := Prod.mk.inj (Option.some.inj hs)
        exact .send hc hsend
      · rename_i hsend
        obtain ⟨rfl, rfl⟩ := Prod.mk.inj (Option.some.inj hs)
        exact .noSend hc (by simpa using hsend)
    · cases hs
  | finish id =>
    simp only [socketMachine, step] at hs
    split at hs
    · rename_i c hc
      split at hs
      · cases hs
      · rename_i hwait
        obtain ⟨rfl, rfl⟩ := Prod.mk.inj (Option.some.inj hs)
        exact .finish hc fun hw => by simpa [hw] using hwait
    · cases hs
  | deliver outcome =>
    obtain ⟨rfl, rfl⟩ := Prod.mk.inj (Option.some.inj hs)
    exact .deliver (deliverLoop_spec outcome)
  | property property =>
    obtain ⟨rfl, rfl⟩ := Prod.mk.inj (Option.some.inj hs)
    exact .property (propertyLoop_spec property)
  | collect injectType clock =>
    simp only [socketMachine, step] at hs
    split at hs
    · cases hs
    · rename_i hnone
      obtain ⟨rfl, rfl⟩ := Prod.mk.inj (Option.some.inj hs)
      exact .collect hnone (collectLoop_spec injectType clock)
  | inject uninitialised result =>
    simp only [socketMachine, step] at hs
    split at hs
    · rename_i pkt rest hi
      obtain ⟨rfl, rfl⟩ := Prod.mk.inj (Option.some.inj hs)
      exact .inject hi rfl
    · cases hs
  | freeMbufs =>
    simp only [socketMachine, step] at hs
    split at hs
    · rename_i rest pkt hi
      obtain ⟨rfl, rfl⟩ := Prod.mk.inj (Option.some.inj hs)
      exact .freeMbufs hi
    · cases hs
  | account =>
    simp only [socketMachine, step] at hs
    split at hs
    · rename_i rest pkt hi
      obtain ⟨rfl, rfl⟩ := Prod.mk.inj (Option.some.inj hs)
      exact .account hi uncountPkt_same
    · cases hs
  | unlock =>
    simp only [socketMachine, step] at hs
    split at hs
    · rename_i hi
      obtain ⟨rfl, rfl⟩ := Prod.mk.inj (Option.some.inj hs)
      exact .unlock hi
    · cases hs
  | purge purgeType =>
    simp only [socketMachine, step] at hs
    split at hs
    · cases hs
    · rename_i hnone
      obtain ⟨hq, he, hw⟩ := purgeLoop_spec purgeType s.so.pendingQueue s.so
      obtain ⟨hi, hid⟩ := purgeLoop_same purgeType s.so.pendingQueue s.so
      obtain ⟨rfl, rfl⟩ := Prod.mk.inj (Option.some.inj hs)
      simp only [purgePendingQueue]
      rw [he]
      exact .purge hnone rfl hq hw hi hid
  | disconnecting =>
    obtain ⟨rfl, rfl⟩ := Prod.mk.inj (Option.some.inj hs)
    exact .quiet ⟨rfl, rfl, rfl, rfl⟩
  | markAsDisconnected =>
    obtain ⟨rfl, rfl⟩ := Prod.mk.inj (Option.some.inj hs)
    exact .quiet ⟨rfl, rfl, rfl, rfl⟩
  | beginDetach =>
    obtain ⟨rfl, rfl⟩ := Prod.mk.inj (Option.some.inj hs)
    exact .quiet ⟨rfl, rfl, rfl, rfl⟩
  | listToReport inserted =>
    obtain ⟨rfl, rfl⟩ := Prod.mk.inj (Option.some.inj hs)
    exact .quiet ⟨rfl, rfl, rfl, rfl⟩

theorem setCall_self {id : Nat} {phase : CallPhase} : (s.setCall id phase).calls id = phase :=
  Function.update_self ..

theorem setCall_of_ne {id id' : Nat} {phase : CallPhase} (hne : id' ≠ id) :
    (s.setCall id phase).calls id' = s.calls id' :=
  Function.update_of_ne hne ..

theorem setCall_inv (s : SocketState) (id : Nat) (phase : CallPhase) (id' : Nat) :
    id' = id ∧ (s.setCall id phase).calls id' = phase ∨
      id' ≠ id ∧ (s.setCall id phase).calls id' = s.calls id' := by
  by_cases hne : id' = id
  · exact .inl ⟨hne, hne ▸ setCall_self⟩
  · exact .inr ⟨hne, setCall_of_ne hne⟩

/-! ### The regions a step runs -/

/-- Only a `capture` that allocates an entry counts a packet. -/
theorem capture_inv (hs : socketMachine.step s a = some (s', e)) :
    a.capturedInbound = none ∧ s'.captures = s.captures ∨
      ∃ mbufData mbufControl flags isInboundData now,
        a = .capture mbufData mbufControl flags isInboundData true now ∧
        ∃ so, s' = { s.setCall s.captures (.captured (.captured so
          (s.so.newPkt s.captures mbufData mbufControl flags isInboundData now))) with
            so, captures := s.captures + 1 } := by
  cases a with
  | capture mbufData mbufControl flags isInboundData allocated now =>
    simp only [socketMachine, step] at hs
    split at hs
    · cases hs
    · rename_i hd
      unfold allocatePkt at hs
      rw [if_neg (fun h => hd h.1)] at hs
      cases allocated with
      | false =>
        obtain ⟨rfl, -⟩ := Prod.mk.inj (Option.some.inj hs)
        exact .inl ⟨rfl, rfl⟩
      | true =>
        obtain ⟨rfl, -⟩ := Prod.mk.inj (Option.some.inj hs)
        exact .inr ⟨mbufData, mbufControl, flags, isInboundData, now, rfl, _, rfl⟩
  | _ =>
    refine .inl ⟨rfl, ?_⟩
    simp only [socketMachine, step, setCall] at hs
    repeat' split at hs
    all_goals cases hs <;> rfl

theorem capturedPkt_eq {so : NkeSocketObject} {pkt : PendingPktQueueItem}
    (hs : socketMachine.step s a =
      some ({ s.setCall s.captures (.captured (.captured so pkt)) with so, captures := s.captures + 1 }, e)) :
    ∃ mbufData mbufControl flags isInboundData now,
      a = .capture mbufData mbufControl flags isInboundData true now ∧
        pkt = s.so.newPkt s.captures mbufData mbufControl flags isInboundData now := by
  rcases capture_inv hs with ⟨-, hcap⟩ | ⟨mbufData, mbufControl, flags, isInboundData, now, rfl, so', heq⟩
  · exact absurd hcap (Nat.succ_ne_self _)
  · refine ⟨mbufData, mbufControl, flags, isInboundData, now, rfl, ?_⟩
    have hcall := congrArg (fun s' : SocketState => s'.calls s.captures) heq
    simp only [setCall, Function.update_self] at hcall
    exact congrArg FltDataCall.pendingPkt (CallPhase.captured.inj hcall)

theorem queue_eq {id : Nat} {c c' : FltDataCall} {so : NkeSocketObject} (hc : s.calls id = .copied c)
    (hs : socketMachine.step s (.queue id) = some ({ s.setCall id (.queued c') with so }, e)) :
    s.so.queuePkt c = (so, c', e) := by
  simp only [socketMachine, step, hc] at hs
  obtain ⟨hs, he⟩ := Prod.mk.inj (Option.some.inj hs)
  have hcall := congrArg (fun s : SocketState => s.calls id) hs
  simp only [setCall, Function.update_self] at hcall
  exact Prod.ext (congrArg SocketState.so hs) (Prod.ext (CallPhase.queued.inj hcall) he)

theorem deliver_eq {outcome : Nat → ReportOutcome} {queue : List PendingPktQueueItem}
    {so : NkeSocketObject} {waiting : Int32} {woken : Nat → Bool}
    (hs : socketMachine.step s (.deliver outcome) =
      some ({ s with so := so.withQueue queue waiting, waitSatisfied := woken }, e)) :
    (s.so.deliverQueue outcome).1.pendingQueue = queue ∧ (s.so.deliverQueue outcome).2.2 = e := by
  obtain ⟨hs, he⟩ := Prod.mk.inj (Option.some.inj hs)
  exact ⟨congrArg (fun s : SocketState => s.so.pendingQueue) hs, he⟩

theorem collect_eq {injectType : NkeSocketDataDirectionType} {clock : Nat → UInt64}
    {rest taken : List PendingPktQueueItem} {waiting : Int32} (hnone : s.injection = none)
    (hs : socketMachine.step s (.collect injectType clock) =
      some ({ s with so := s.so.withQueue rest waiting, injection := some ⟨taken, none⟩ }, e)) :
    collectLoop injectType clock s.so.pendingQueue = (rest, taken) := by
  simp only [socketMachine, step, hnone] at hs
  obtain ⟨hs, -⟩ := Prod.mk.inj (Option.some.inj hs)
  have hi := congrArg SocketState.injection hs
  exact Prod.ext (congrArg (fun s : SocketState => s.so.pendingQueue) hs)
    (congrArg Injection.packetsToInject (Option.some.inj hi))

end SocketState

theorem socketId_of_step {s s' : SocketState} {a : SocketLabel} {e : List SocketEvent}
    (hs : socketMachine.step s a = some (s', e)) : s'.so.socketId = s.so.socketId := by
  cases SocketState.step_inv hs with
  | quiet hsame => exact hsame.socketId
  | capture _ _ _ _ _ _ _ _ hid => exact hid
  | queue _ hq =>
    cases hq with
    | posted => rfl
    | postponed _ _ _ _ _ _ _ _ _ _ hid => exact hid
  | @deliver _ _ so _ _ hd =>
    have hso : so = _ := hd.so_eq
    rw [hso]
    rfl
  | account _ hsame => exact hsame.socketId
  | purge _ _ _ _ _ hid => exact hid
  | _ => rfl

end NkeFilter
