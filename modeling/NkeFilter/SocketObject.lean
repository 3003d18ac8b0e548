import NkeFilter.BufferPool

/-!
# Socket objects

The data of `NkeSocketObject` and what its functions do inside one region of `rwLock`: inserting a
captured packet (`queuePkt`, from `FltData`), reporting the packets that wait (`deliverQueue`, from
`DeliverWaitingNotifications`), taking packets out for injection (`collect`, from
`reinjectDeferredData`), `setDeferredDataProperties` and `purgePendingQueue`. What the calls to the
kernel and to the client return is an argument. The packet counters are `SInt32` and wrap as the atomic
increments and decrements do; the byte counters, of which only sums and differences are taken, are kept as
unsigned patterns of 32 bits.
-/

namespace NkeFilter

structure NkeSocketID where
  socket : UInt64
  socketSequence : UInt64
  deriving DecidableEq, Repr

inductive NkeSocketDataDirectionType where
  | NkeSocketDataAll
  | NkeSocketDataInbound
  | NkeSocketDataOutbound
  deriving DecidableEq, Repr

def NkeSocketDataDirectionType.covers : NkeSocketDataDirectionType → (dataInbound : Bool) → Bool
  | NkeSocketDataAll, _ => true
  | NkeSocketDataInbound, dataInbound => dataInbound
  | NkeSocketDataOutbound, dataInbound => !dataInbound

inductive NkeSocketFilterEvent where
  | NkeSocketFilterEventDataIn
  | NkeSocketFilterEventDataOut
  deriving DecidableEq, Repr

/-- The notification of captured data, without its constant size. -/
structure NkeSocketFilterNotification where
  event : NkeSocketFilterEvent
  socketId : NkeSocketID
  notificationForDisconnectedSocket : Bool
  dataSize : UInt32
  dataIndex : UInt32
  buffers : List Nat
  deriving DecidableEq, Repr

inductive NkeSocketDataPropertyType where
  | NkeSocketDataPropertyTypeUnknown
  | NkeSocketDataPropertyTypePermission
  | other (type : Nat)
  deriving DecidableEq, Repr

structure NkeSocketDataProperty where
  type : NkeSocketDataPropertyType
  dataIndex : UInt32
  socketId : NkeSocketID
  allowData : UInt8
  deriving DecidableEq, Repr

/-- A captured packet. `id` is ghost: the number of the `FltData` call that captured it, which also
names that call's `WaitEntry`. -/
structure PendingPktQueueItem where
  id : Nat
  dataIndex : UInt32
  totalbytes : UInt32
  allocationTime : UInt64
  data : MbufChain
  control : MbufChain
  allowData : Bool
  dataInbound : Bool
  needToBeReported : Bool
  responseReceived : Bool
  deadlineTimerExpired : Bool
  sflt_flags : UInt32
  waitEntry : Option Nat
  deriving DecidableEq, Repr

structure NkeSocketObject where
  pendingDataNextIndex : UInt32
  socketId : NkeSocketID
  origReceiveBufferSize : Nat
  lockCount : UInt32
  disconnected : Bool
  f_sock_evt_disconnecting : Bool
  totalPendingBytesOut : UInt32
  numberOfPendingOutPackets : Int32
  totalPendingBytesIn : UInt32
  numberOfPendingInPackets : Int32
  pendingQueue : List PendingPktQueueItem
  packetsWaitingForReporting : Int32
  insertedInSocketsListToReport : Bool
  deriving DecidableEq, Repr

inductive SocketEvent where
  | queued (id : Nat)
  | enlisted
  | setRcvBuf (size : Nat)
  | wakeup (waitEntry : Nat)
  /-- `copyDataToBuffers` succeeded for the packet and left this array. -/
  | copied (id : Nat) (buffers : List Nat)
  | notified (id : Nat) (notification : NkeSocketFilterNotification)
  /-- A property was processed; `reached` is the packet it was applied to, as it was before. -/
  | answered (property : NkeSocketDataProperty) (reached : Option PendingPktQueueItem)
  | taken (id : Nat)
  /-- `sock_inject_data_in` or `sock_inject_data_out` returned `error`. -/
  | injected (id : Nat) (dataInbound : Bool) (error : Errno)
  /-- `mbuf_freem` of data and control. -/
  | freedMbufs (id : Nat)
  | freedEntry (id : Nat)
  /-- `FltData` returned `EJUSTRETURN` for the packet. -/
  | swallowed (id : Nat)
  deriving DecidableEq, Repr

namespace PendingPktQueueItem

/-- The deadline of 60 seconds, against the clock `now`; once found expired it stays so. -/
def isDeadlineTimerExpired (pkt : PendingPktQueueItem) (now : UInt64) : Bool × PendingPktQueueItem :=
  if pkt.deadlineTimerExpired then (true, pkt)
  else
    let expired := decide (now > pkt.allocationTime + 60 * 1000000000)
    (expired, { pkt with deadlineTimerExpired := expired })

def satisfyWait (pkt : PendingPktQueueItem) : PendingPktQueueItem × List SocketEvent :=
  match pkt.waitEntry with
  | none => (pkt, [])
  | some w => ({ pkt with waitEntry := none }, [.wakeup w])

end PendingPktQueueItem

namespace NkeSocketObject

/-- `INIT_SOCKET_NOTIFICATION` for a data event, followed by the packet's index and size. -/
def initSocketNotification (so : NkeSocketObject)
    (pkt : PendingPktQueueItem) : NkeSocketFilterNotification where
  event := if pkt.dataInbound then .NkeSocketFilterEventDataIn else .NkeSocketFilterEventDataOut
  socketId := so.socketId
  notificationForDisconnectedSocket := so.disconnected
  dataSize := UInt32.ofNat pkt.data.pkthdrLen
  dataIndex := pkt.dataIndex
  buffers := (List.replicate kt_NkeSocketBuffersNumber 0).set 0 UINT8_MAX

def countPkt (so : NkeSocketObject) (dataInbound : Bool) (totalbytes : UInt32) : NkeSocketObject :=
  if dataInbound then
    { so with
      numberOfPendingInPackets := so.numberOfPendingInPackets + 1
      totalPendingBytesIn := so.totalPendingBytesIn + totalbytes }
  else
    { so with
      numberOfPendingOutPackets := so.numberOfPendingOutPackets + 1
      totalPendingBytesOut := so.totalPendingBytesOut + totalbytes }

/-- Undo `countPkt` for a packet that was injected or freed. -/
def uncountPkt (so : NkeSocketObject) (pkt : PendingPktQueueItem) : NkeSocketObject :=
  if pkt.dataInbound then
    { so with
      numberOfPendingInPackets := so.numberOfPendingInPackets - 1
      totalPendingBytesIn := so.totalPendingBytesIn - pkt.totalbytes }
  else
    { so with
      numberOfPendingOutPackets := so.numberOfPendingOutPackets - 1
      totalPendingBytesOut := so.totalPendingBytesOut - pkt.totalbytes }

/-- The counter of the direction. -/
def numberOfPendingPackets (so : NkeSocketObject) (inbound : Bool) : Int32 :=
  if inbound then so.numberOfPendingInPackets else so.numberOfPendingOutPackets

def withSocket (socketId : NkeSocketID) (origReceiveBufferSize : Nat) : NkeSocketObject where
  pendingDataNextIndex := 0
  socketId := socketId
  origReceiveBufferSize := origReceiveBufferSize
  lockCount := 1
  disconnected := false
  f_sock_evt_disconnecting := false
  totalPendingBytesOut := 0
  numberOfPendingOutPackets := 0
  totalPendingBytesIn := 0
  numberOfPendingInPackets := 0
  pendingQueue := []
  packetsWaitingForReporting := 0
  insertedInSocketsListToReport := false

def newPkt (so : NkeSocketObject) (id : Nat) (mbufData mbufControl : MbufChain) (flags : UInt32)
    (isInboundData : Bool) (now : UInt64) : PendingPktQueueItem where
  id := id
  dataIndex := so.pendingDataNextIndex
  totalbytes := UInt32.ofNat mbufData.pkthdrLen + UInt32.ofNat mbufControl.pkthdrLen
  allocationTime := now
  data := mbufData
  control := mbufControl
  allowData := false
  dataInbound := isInboundData
  needToBeReported := false
  responseReceived := false
  deadlineTimerExpired := false
  sflt_flags := flags
  waitEntry := none

/-- Allocates the queue entry of a packet and counts it; `allocated` is whether `OSMalloc` succeeded. -/
def allocatePkt (so : NkeSocketObject) (id : Nat) (mbufData mbufControl : MbufChain) (flags : UInt32)
    (isInboundData allocated : Bool) (now : UInt64) : Option PendingPktQueueItem × NkeSocketObject :=
  if mbufData = [] ∧ mbufControl = [] then (none, so)
  else if !allocated then (none, so)
  else
    let pkt := so.newPkt id mbufData mbufControl flags isInboundData now
    (some pkt,
      { so.countPkt isInboundData pkt.totalbytes with pendingDataNextIndex := so.pendingDataNextIndex + 1 })

/-! ### Reporting the waiting packets -/

/-- What the calls made while reporting one packet return: `copyDataToBuffers` (with the array it
leaves), `getUserClient` and `socketFilterNotification` together, and the clock. -/
structure ReportOutcome where
  copied : Errno
  buffers : List Nat
  notified : Errno
  now : UInt64

/-- The variables of `DeliverWaitingNotifications` that live across the packets of one queue. The
notification is `none` until it is initialised for the first time. -/
structure DeliverLocals where
  notification : Option NkeSocketFilterNotification
  error : Errno
  releaseBuffers : Bool
  reinsertInList : Bool
  deriving DecidableEq, Repr

/-- The attempt to report one packet. A packet without data is passed over and leaves `error` as the
packet before left it. -/
def report (so : NkeSocketObject) (pkt : PendingPktQueueItem) (o : ReportOutcome) (l : DeliverLocals) :
    DeliverLocals × List SocketEvent :=
  if pkt.data = [] then (l, [])
  else
    let notification := { so.initSocketNotification pkt with buffers := o.buffers }
    let l := { l with notification := some notification }
    if o.copied ≠ KERN_SUCCESS then ({ l with error := o.copied }, [])
    else if o.notified ≠ KERN_SUCCESS then
      ({ l with error := o.notified, releaseBuffers := true }, [.copied pkt.id o.buffers])
    else ({ l with error := KERN_SUCCESS }, [.copied pkt.id o.buffers, .notified pkt.id notification])

/-- The packet was reported or given up: it waits no longer. -/
def reported (so : NkeSocketObject) (pkt : PendingPktQueueItem) :
    PendingPktQueueItem × NkeSocketObject × List SocketEvent :=
  let (pkt, woken) := { pkt with needToBeReported := false }.satisfyWait
  (pkt, { so with packetsWaitingForReporting := so.packetsWaitingForReporting - 1 },
    woken ++ if pkt.dataInbound then [.setRcvBuf so.origReceiveBufferSize] else [])

/-- The loop over the pending queue; `outcome i` is for the `i`-th packet from here. -/
def deliverLoop (outcome : Nat → ReportOutcome) :
    (pendingQueue : List PendingPktQueueItem) → NkeSocketObject → DeliverLocals →
      List PendingPktQueueItem × NkeSocketObject × DeliverLocals × List SocketEvent
  | [], so, l => ([], so, l, [])
  | pkt :: rest, so, l =>
    if !pkt.needToBeReported then
      let (rest, so, l, events) := deliverLoop (fun i => outcome (i + 1)) rest so l
      (pkt :: rest, so, l, events)
    else
      let (l, sent) := so.report pkt (outcome 0) l
      let (expired, pkt) :=
        if l.error ≠ KERN_SUCCESS then pkt.isDeadlineTimerExpired (outcome 0).now else (false, pkt)
      if l.error ≠ KERN_SUCCESS ∧ !expired then (pkt :: rest, so, { l with reinsertInList := true }, sent)
      else
        let pkt := if expired then { pkt with allowData := false } else pkt
        let (pkt, so, done) := so.reported pkt
        let (rest, so, l, events) := deliverLoop (fun i => outcome (i + 1)) rest so l
        (pkt :: rest, so, l, sent ++ done ++ events)

/-- The array `DeliverWaitingNotifications` releases after the lock. -/
def DeliverLocals.released (l : DeliverLocals) : List Nat :=
  if l.releaseBuffers then (l.notification.map (·.buffers)).getD [] else []

def deliverQueue (so : NkeSocketObject) (outcome : Nat → ReportOutcome) :
    NkeSocketObject × DeliverLocals × List SocketEvent :=
  let (queue, so, l, events) := deliverLoop outcome so.pendingQueue so ⟨none, KERN_SUCCESS, false, false⟩
  ({ so with pendingQueue := queue }, l, events)

/-! ### Taking packets out of the queue -/

/-- The loop of `reinjectDeferredData` that moves packets to `packetsToInject`: what stays and what is
taken; `clock i` is the time at the `i`-th packet from here. -/
def collectLoop (injectType : NkeSocketDataDirectionType) (clock : Nat → UInt64) :
    (pendingQueue : List PendingPktQueueItem) → List PendingPktQueueItem × List PendingPktQueueItem
  | [] => ([], [])
  | pkt :: rest =>
    if !injectType.covers pkt.dataInbound then
      let (rest, taken) := collectLoop injectType (fun i => clock (i + 1)) rest
      (pkt :: rest, taken)
    else if pkt.needToBeReported then (pkt :: rest, [])
    else
      let (expired, pkt) := pkt.isDeadlineTimerExpired (clock 0)
      if !expired && !pkt.responseReceived then (pkt :: rest, [])
      else
        let (rest, taken) := collectLoop injectType (fun i => clock (i + 1)) rest
        (rest, pkt :: taken)

def collect (so : NkeSocketObject) (injectType : NkeSocketDataDirectionType) (clock : Nat → UInt64) :
    NkeSocketObject × List PendingPktQueueItem :=
  let (queue, taken) := collectLoop injectType clock so.pendingQueue
  ({ so with pendingQueue := queue }, taken)

/-- The part of one turn of the injection loop up to the freeing of the mbufs: whether they are to be
freed. `error` is not initialised when nothing is injected; `uninitialised` is what it then holds. -/
def inject (so : NkeSocketObject) (pkt : PendingPktQueueItem) (uninitialised result : Errno) :
    Bool × List SocketEvent :=
  let skip := so.f_sock_evt_disconnecting || !pkt.allowData
  let error := if skip then uninitialised else result
  (skip || error != KERN_SUCCESS && pkt.dataInbound,
    if skip then [] else [.injected pkt.id pkt.dataInbound result])

/-- The loop of `purgePendingQueue`. -/
def purgeLoop (purgeType : NkeSocketDataDirectionType) :
    (pendingQueue : List PendingPktQueueItem) → NkeSocketObject →
      List PendingPktQueueItem × NkeSocketObject × List SocketEvent
  | [], so => ([], so, [])
  | pkt :: rest, so =>
    if !purgeType.covers pkt.dataInbound then
      let (rest, so, events) := purgeLoop purgeType rest so
      (pkt :: rest, so, events)
    else
      let (pkt, woken) := pkt.satisfyWait
      let so :=
        if pkt.needToBeReported then
          { so with packetsWaitingForReporting := so.packetsWaitingForReporting - 1 }
        else so
      let (rest, so, events) := purgeLoop purgeType rest (so.uncountPkt pkt)
      (rest, so, woken ++ [.freedMbufs pkt.id, .freedEntry pkt.id] ++ events)

def purgePendingQueue (so : NkeSocketObject) (purgeType : NkeSocketDataDirectionType) :
    NkeSocketObject × List SocketEvent :=
  let (queue, so, events) := purgeLoop purgeType so.pendingQueue so
  ({ so with pendingQueue := queue }, events)

/-! ### The client's answer -/

def setProperty (pkt : PendingPktQueueItem) (property : NkeSocketDataProperty) : PendingPktQueueItem :=
  match property.type with
  | .NkeSocketDataPropertyTypePermission =>
    { pkt with allowData := property.allowData ≠ 0, responseReceived := true }
  | _ => pkt

/-- The loop of `setDeferredDataProperties`, with the packet it reached. -/
def propertyLoop (property : NkeSocketDataProperty) :
    (pendingQueue : List PendingPktQueueItem) → List PendingPktQueueItem × Option PendingPktQueueItem
  | [] => ([], none)
  | pkt :: rest =>
    if pkt.needToBeReported then (pkt :: rest, none)
    else if pkt.dataIndex ≠ property.dataIndex then
      let (rest, reached) := propertyLoop property rest
      (pkt :: rest, reached)
    else (setProperty pkt property :: rest, some pkt)

def setDeferredDataProperties (so : NkeSocketObject) (property : NkeSocketDataProperty) :
    NkeSocketObject × List SocketEvent :=
  let (queue, reached) := propertyLoop property so.pendingQueue
  ({ so with pendingQueue := queue }, [.answered property reached])

end NkeSocketObject

end NkeFilter
