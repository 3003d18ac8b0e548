import NkeFilter.FailClosed
import NkeFilter.Deliver
import NkeFilter.BufferContents
import NkeFilter.Answers
import NkeFilter.UserToKernel

/-!
# The driver and its client

The sockets over the pool of communication buffers and the ring, with the client that reads both. What the
machine of one socket takes from its labels, the result of a copy and of a notification, is here what the
pool and the ring give. A step is a region of one thread: a copy, a notification under the lock of the ring,
a region of `rwLock` with the copies and notifications made in it, the release of an array, a dequeue of the
client; between any two steps of a thread the others may move, but not within one. So here nobody meets the
free list between two accesses of another thread, as in `FreeList.machine`, nor the pool between two indices
of one copy. What a copy and a release do index by index, and that each index is taken or given back at one
moment when the pops are fresh, is in `IndexPool`.
-/

namespace NkeFilter
open Lib NkeSocketObject NkeSocketFilter

/-- The codes `socketFilterNotification` fails with. -/
def kIOReturnError : Errno := -536870212
def kIOReturnNoMemory : Errno := -536870211

/-- The indices of an array of the shared structures. -/
def bufferIndices (a : Fin kt_NkeSocketBuffersNumber → UInt8) : List Nat := List.ofFn fun i => (a i).toNat

namespace UserToKernel.NkeSocketFilterNotification

/-- Is it about a packet? Only then the client looks for buffers. -/
def isData (n : NkeSocketFilterNotification) : Bool :=
  n.event = NkeSocketFilterEvent.NkeSocketFilterEventDataIn.value ∨
    n.event = NkeSocketFilterEvent.NkeSocketFilterEventDataOut.value

/-- The buffers with the data. -/
def indices (n : NkeSocketFilterNotification) : List Nat :=
  if n.isData then listed (bufferIndices n.inputoutput.buffers) else []

/-- What the client reads in its mappings of them. -/
def visible (n : NkeSocketFilterNotification) (f : NkeSocketFilter) : List UInt8 :=
  (f.contents n.indices).take n.inputoutput.dataSize.toNat

end UserToKernel.NkeSocketFilterNotification

/-- The property as the driver tells the types apart. -/
def UserToKernel.NkeSocketDataProperty.property (p : UserToKernel.NkeSocketDataProperty) :
    NkeFilter.NkeSocketDataProperty where
  type := match p.type.toNat with
    | 0 => NkeSocketDataPropertyType.NkeSocketDataPropertyTypeUnknown
    | 1 => NkeSocketDataPropertyType.NkeSocketDataPropertyTypePermission
    | type => NkeSocketDataPropertyType.other type
  dataIndex := p.dataIndex
  socketId := p.socketId
  allowData := p.allowData

/-- The properties of a response that are processed. -/
def UserToKernel.NkeSocketFilterServiceResponse.properties (r : UserToKernel.NkeSocketFilterServiceResponse) :
    List NkeFilter.NkeSocketDataProperty :=
  NkeFilter.properties (List.ofFn fun i => (r.property i).property)

/-- What `NkeSocketHandler` answers: the packet may pass, its buffers are given back. The rest is zero, so the
second property is the terminating one. -/
def UserToKernel.NkeSocketFilterNotification.response (n : UserToKernel.NkeSocketFilterNotification) :
    UserToKernel.NkeSocketFilterServiceResponse where
  property := fun i =>
    if i.val = 0 then ⟨1, n.inputoutput.dataIndex, n.socketId, 0, 1⟩ else ⟨0, 0, ⟨0, 0⟩, 0, 0⟩
  buffersToRelease := n.inputoutput.buffers

/-- The array a call of `FltData` is about to release. -/
def FltDataCall.toRelease (c : FltDataCall) : List (List Nat) :=
  if c.releaseBuffers then [c.notification.buffers] else []

namespace Service
open UserToKernel

/-- What a thread with a notification finds: no registered client, one without a notification port, or one
with a port. -/
inductive ClientState where
  | missing
  | noPort
  | listening
  deriving DecidableEq, Repr

/-- `getUserClient` and `socketFilterNotification`. -/
def notify (q : IODataQueueMemory) (client : ClientState) (n : UserToKernel.NkeSocketFilterNotification) :
    Option Errno × IODataQueueMemory :=
  match client with
  | .missing => (none, q)
  | .noPort => (some kIOReturnError, q)
  | .listening =>
    let r := q.enqueueWithBarrier (notificationLayout.store n)
    (some (if r.result then KERN_SUCCESS else kIOReturnNoMemory), r.dataQueue)

/-! ### The reports of one delivery -/

/-- One turn of the loop of `DeliverWaitingNotifications`: the packet is copied and, if that succeeds, the
client is told. -/
def serve (so : NkeSocketObject) (pkt : PendingPktQueueItem) (client : ClientState) (now : UInt64)
    (f : NkeSocketFilter) (q : IODataQueueMemory) :
    Except Fault (ReportOutcome × NkeSocketFilter × IODataQueueMemory) :=
  let notification := so.initSocketNotification pkt
  match f.copyDataToBuffers pkt.data notification.buffers with
  | .error e => .error e
  | .ok (error, buffers, f) =>
    if error ≠ KERN_SUCCESS then .ok (⟨error, buffers, KERN_SUCCESS, now⟩, f, q)
    else
      let (result, q) := notify q client (ofData { notification with buffers })
      .ok (⟨error, buffers, result.getD ENOENT, now⟩, f, q)

/-- The outcome of a turn that neither copies nor tells. -/
def idleOutcome (now : UInt64) : ReportOutcome := ⟨KERN_SUCCESS, [], KERN_SUCCESS, now⟩

/-- What the calls made in the loop return, for the packets it gets to; `client i` and `now i` are for the
`i`-th packet from here, `error` is what the packet before left. -/
def serveLoop (so : NkeSocketObject) (client : Nat → ClientState) (now : Nat → UInt64) :
    (pendingQueue : List PendingPktQueueItem) → (error : Errno) → NkeSocketFilter → IODataQueueMemory →
      Except Fault (List ReportOutcome × NkeSocketFilter × IODataQueueMemory)
  | [], _, f, q => .ok ([], f, q)
  | pkt :: rest, error, f, q =>
    let later := serveLoop so (fun i => client (i + 1)) (fun i => now (i + 1)) rest
    if !pkt.needToBeReported then (later error f q).map fun r => (idleOutcome (now 0) :: r.1, r.2)
    else
      let turn := if pkt.data = [] then .ok (idleOutcome (now 0), f, q)
        else serve so pkt (client 0) (now 0) f q
      match turn with
      | .error e => .error e
      | .ok (o, f, q) =>
        let error := if pkt.data = [] then error else o.error
        if error ≠ KERN_SUCCESS ∧ !(pkt.isDeadlineTimerExpired (now 0)).1 then .ok ([o], f, q)
        else (later error f q).map fun r => (o :: r.1, r.2)

/-- The outcomes of the packets, by their place in the queue. -/
def outcomes (os : List ReportOutcome) : Nat → ReportOutcome := fun i => os.getD i (idleOutcome 0)

/-! ### The machine -/

/-- The pool, the ring, the sockets, the arrays some thread is about to release, what the client has received
and not yet answered, and the properties each thread in `processServiceResponse` has left. -/
structure ServiceState where
  filter : NkeSocketFilter
  dataQueue : IODataQueueMemory
  objects : Nat → SocketState
  toRelease : List (List Nat)
  received : List UserToKernel.NkeSocketFilterNotification
  responses : List (List NkeSocketDataProperty)

inductive ServiceLabel where
  /-- a step of a thread of the socket that neither needs the pool or the ring nor processes a property -/
  | socket (object : Nat) (label : SocketLabel)
  | copy (object id : Nat)
  | send (object id : Nat) (client : ClientState)
  | deliver (object : Nat) (client : Nat → ClientState) (now : Nat → UInt64)
  /-- a notification of `FltNotify`, with what `isDisconnected` was when it was filled in -/
  | event (object : Nat) (disconnected : Bool) (data : SocketNotification) (client : ClientState)
  | release (thread : Nat)
  /-- `notification` is what the variable of the client holds before -/
  | receive (notification : Memory)
  /-- the client answers the `i`-th notification it has; `processServiceResponse` releases the buffers -/
  | respond (i : Nat) (response : UserToKernel.NkeSocketFilterServiceResponse)
  | property (thread object : Nat)
  /-- no socket object has the identity -/
  | skip (thread : Nat)

inductive ServiceEvent where
  | socket (object : Nat) (event : SocketEvent)
  | captured (object id : Nat) (mbufData : MbufChain) (isInboundData : Bool)
  /-- with the bytes the client sees then -/
  | received (n : UserToKernel.NkeSocketFilterNotification) (bytes : List UInt8)
  | responded (n : UserToKernel.NkeSocketFilterNotification)
    (response : UserToKernel.NkeSocketFilterServiceResponse)

/-- The labels of the machine of one socket that are steps of their own here. -/
def alone : SocketLabel → Bool
  | .copy .. | .send .. | .deliver _ | .property _ => false
  | _ => true

/-- The packet a step of socket `object` captures. -/
def capturedBy (object captures : Nat) : SocketLabel → List ServiceEvent
  | .capture mbufData _ _ isInboundData true _ => [.captured object captures mbufData isInboundData]
  | _ => []

namespace ServiceState

def setObject (s : ServiceState) (object : Nat) (o : SocketState) : ServiceState :=
  { s with objects := Function.update s.objects object o }

def onSocket (s : ServiceState) (object : Nat) (label : SocketLabel) :
    Option (ServiceState × List ServiceEvent) :=
  (socketMachine.step (s.objects object) label).map fun r =>
    (s.setObject object r.1, r.2.map (ServiceEvent.socket object))

def step (s : ServiceState) : ServiceLabel → Option (ServiceState × List ServiceEvent)
  | .socket object label =>
    if alone label then (s.onSocket object label).map fun r =>
      (r.1, capturedBy object (s.objects object).captures label ++ r.2)
    else none
  | .copy object id => match (s.objects object).calls id with
    | .captured c => match c.copy s.filter with
      | .error _ => none
      | .ok (error, buffers, f) => { s with filter := f }.onSocket object (.copy id error buffers)
    | _ => none
  | .send object id client => match (s.objects object).calls id with
    | .queued c =>
      let (result, q) := if c.sendNotification then notify s.dataQueue client (ofData c.notification)
        else (none, s.dataQueue)
      let c := if c.sendNotification then c.sent result else c
      { s with dataQueue := q, toRelease := s.toRelease ++ c.toRelease }.onSocket object (.send id result)
    | _ => none
  | .deliver object client now =>
    let so := (s.objects object).so
    match serveLoop so client now so.pendingQueue KERN_SUCCESS s.filter s.dataQueue with
    | .error _ => none
    | .ok (os, f, q) =>
      let l := (so.deliverQueue (outcomes os)).2.1
      { s with
        filter := f
        dataQueue := q
        toRelease := s.toRelease ++ if l.releaseBuffers then [l.released] else [] }.onSocket object
          (.deliver (outcomes os))
  | .event object disconnected data client =>
    let n := data.init { (s.objects object).so with disconnected }
    some ({ s with dataQueue := (notify s.dataQueue client n).2 }, [])
  | .release thread => match s.toRelease[thread]? with
    | none => none
    | some buffers => some ({ s with
        filter := s.filter.releaseDataBuffers buffers, toRelease := s.toRelease.eraseIdx thread }, [])
  | .receive notification =>
    let (retVal, n, q) := receive s.dataQueue notification
    if retVal = .kIOReturnSuccess then
      some ({ s with dataQueue := q, received := s.received ++ [n] }, [.received n (n.visible s.filter)])
    else some ({ s with dataQueue := q }, [])
  | .respond i response => match s.received[i]? with
    | none => none
    | some n => some ({ s with
        filter := s.filter.releaseDataBuffers (bufferIndices response.buffersToRelease)
        received := s.received.eraseIdx i
        responses := s.responses ++ [response.properties] }, [.responded n response])
  | .property thread object => match s.responses[thread]? with
    | some (property :: rest) =>
      if property.socketId = (s.objects object).so.socketId then
        { s with responses := s.responses.set thread rest }.onSocket object (.property property)
      else none
    | _ => none
  | .skip thread => match s.responses[thread]? with
    | some (_ :: rest) => some ({ s with responses := s.responses.set thread rest }, [])
    | _ => none

end ServiceState

def serviceMachine : Machine ServiceState ServiceLabel ServiceEvent where
  step := ServiceState.step

/-! ### What a step can do -/

inductive ServiceStep (s : ServiceState) : ServiceLabel → ServiceState → List ServiceEvent → Prop
  | socket {object label o e} : alone label →
      socketMachine.step (s.objects object) label = some (o, e) →
      ServiceStep s (.socket object label) (s.setObject object o)
        (capturedBy object (s.objects object).captures label ++ e.map (.socket object))
  | copy {object id c error buffers f o e} : (s.objects object).calls id = .captured c →
      c.copy s.filter = .ok (error, buffers, f) →
      socketMachine.step (s.objects object) (.copy id error buffers) = some (o, e) →
      ServiceStep s (.copy object id) ({ s with filter := f }.setObject object o) (e.map (.socket object))
  | send {object id client c result q o e} : (s.objects object).calls id = .queued c → c.sendNotification →
      notify s.dataQueue client (ofData c.notification) = (result, q) →
      socketMachine.step (s.objects object) (.send id result) = some (o, e) →
      ServiceStep s (.send object id client)
        ({ s with dataQueue := q, toRelease := s.toRelease ++ (c.sent result).toRelease }.setObject object o)
        (e.map (.socket object))
  | noSend {object id client c o e} : (s.objects object).calls id = .queued c → c.sendNotification = false →
      socketMachine.step (s.objects object) (.send id none) = some (o, e) →
      ServiceStep s (.send object id client)
        ({ s with toRelease := s.toRelease ++ c.toRelease }.setObject object o) (e.map (.socket object))
  | deliver {object client now os f q l o e} :
      serveLoop (s.objects object).so client now (s.objects object).so.pendingQueue KERN_SUCCESS s.filter
        s.dataQueue = .ok (os, f, q) →
      ((s.objects object).so.deliverQueue (outcomes os)).2.1 = l →
      socketMachine.step (s.objects object) (.deliver (outcomes os)) = some (o, e) →
      ServiceStep s (.deliver object client now)
        ({ s with
          filter := f
          dataQueue := q
          toRelease := s.toRelease ++ if l.releaseBuffers then [l.released] else [] }.setObject object o)
        (e.map (.socket object))
  | event {object disconnected data client result q} :
      notify s.dataQueue client (SocketNotification.init { (s.objects object).so with disconnected } data) =
        (result, q) →
      ServiceStep s (.event object disconnected data client) { s with dataQueue := q } []
  | release {thread buffers} : s.toRelease[thread]? = some buffers →
      ServiceStep s (.release thread) { s with
        filter := s.filter.releaseDataBuffers buffers, toRelease := s.toRelease.eraseIdx thread } []
  | receive {notification n q} : receive s.dataQueue notification = (.kIOReturnSuccess, n, q) →
      ServiceStep s (.receive notification) { s with dataQueue := q, received := s.received ++ [n] }
        [.received n (n.visible s.filter)]
  | underrun {notification retVal n q} : receive s.dataQueue notification = (retVal, n, q) →
      retVal ≠ .kIOReturnSuccess → ServiceStep s (.receive notification) { s with dataQueue := q } []
  | respond {i n response} : s.received[i]? = some n →
      ServiceStep s (.respond i response) { s with
        filter := s.filter.releaseDataBuffers (bufferIndices response.buffersToRelease)
        received := s.received.eraseIdx i
        responses := s.responses ++ [response.properties] } [.responded n response]
  | property {thread object property rest o e} : s.responses[thread]? = some (property :: rest) →
      property.socketId = (s.objects object).so.socketId →
      socketMachine.step (s.objects object) (.property property) = some (o, e) →
      ServiceStep s (.property thread object)
        ({ s with responses := s.responses.set thread rest }.setObject object o) (e.map (.socket object))
  | skip {thread property rest} : s.responses[thread]? = some (property :: rest) →
      ServiceStep s (.skip thread) { s with responses := s.responses.set thread rest } []

variable {s s' : ServiceState} {a : ServiceLabel} {e : List ServiceEvent} {object : Nat}

theorem ServiceState.onSocket_inv {label : SocketLabel} (hs : s.onSocket object label = some (s', e)) :
    ∃ o e', socketMachine.step (s.objects object) label = some (o, e') ∧ s' = s.setObject object o ∧
      e = e'.map (.socket object) := by
  obtain ⟨⟨o, e'⟩, hstep, heq⟩ := Option.map_eq_some_iff.1 hs
  obtain ⟨rfl, rfl⟩ := Prod.mk.inj heq
  exact ⟨o, e', hstep, rfl, rfl⟩

theorem ServiceState.step_inv (hs : serviceMachine.step s a = some (s', e)) : ServiceStep s a s' e := by
  simp only [serviceMachine, step] at hs
  cases a with
  | socket object label =>
    simp only at hs
    split at hs
    · rename_i halone
      obtain ⟨⟨s₁, e₁⟩, hon, heq⟩ := Option.map_eq_some_iff.1 hs
      obtain ⟨o, e', hstep, rfl, rfl⟩ := onSocket_inv hon
      obtain ⟨rfl, rfl⟩ := Prod.mk.inj heq
      exact .socket halone hstep
    · cases hs
  | copy object id =>
    simp only at hs
    split at hs
    · rename_i c hc
      split at hs
      · cases hs
      · rename_i error buffers f hcopy
        obtain ⟨o, e', hstep, rfl, rfl⟩ := onSocket_inv hs
        exact .copy hc hcopy hstep
    · cases hs
  | send object id client =>
    simp only at hs
    split at hs
    · rename_i c hc
      obtain ⟨o, e', hstep, rfl, rfl⟩ := onSocket_inv hs
      cases hsend : c.sendNotification with
      | true =>
        simp only [hsend, if_true] at hstep ⊢
        exact .send hc hsend rfl hstep
      | false =>
        simp only [hsend, Bool.false_eq_true, if_false] at hstep ⊢
        exact .noSend hc hsend hstep
    · cases hs
  | deliver object client now =>
    simp only at hs
    split at hs
    · cases hs
    · rename_i os f q hserve
      obtain ⟨o, e', hstep, rfl, rfl⟩ := onSocket_inv hs
      exact .deliver hserve rfl hstep
  | event object disconnected data client =>
    obtain ⟨rfl, rfl⟩ := Prod.mk.inj (Option.some.inj hs)
    exact .event Prod.mk.eta.symm
  | release thread =>
    simp only at hs
    split at hs
    · cases hs
    · rename_i buffers hthread
      obtain ⟨rfl, rfl⟩ := Prod.mk.inj (Option.some.inj hs)
      exact .release hthread
  | receive notification =>
    simp only at hs
    split at hs
    · rename_i hret
      obtain ⟨rfl, rfl⟩ := Prod.mk.inj (Option.some.inj hs)
      exact .receive (Prod.ext hret rfl)
    · rename_i hret
      obtain ⟨rfl, rfl⟩ := Prod.mk.inj (Option.some.inj hs)
      exact .underrun rfl hret
  | respond i response =>
    simp only at hs
    split at hs
    · cases hs
    · rename_i n hn
      obtain ⟨rfl, rfl⟩ := Prod.mk.inj (Option.some.inj hs)
      exact .respond hn
  | property thread object =>
    simp only at hs
    split at hs
    · rename_i property rest hthread
      split at hs
      · rename_i hid
        obtain ⟨o, e', hstep, rfl, rfl⟩ := onSocket_inv hs
        exact .property hthread hid hstep
      · cases hs
    · cases hs
  | skip thread =>
    simp only at hs
    split at hs
    · rename_i property rest hthread
      obtain ⟨rfl, rfl⟩ := Prod.mk.inj (Option.some.inj hs)
      exact .skip hthread
    · cases hs

/-! ### Every socket runs its machine -/

/-- The part of the history that is the socket's. -/
def ServiceEvent.ofSocket (object : Nat) : ServiceEvent → Option SocketEvent
  | .socket object' event => if object' = object then some event else none
  | _ => none

@[simp] theorem objects_setObject_self {o : SocketState} : (s.setObject object o).objects object = o :=
  Function.update_self ..

theorem objects_setObject_of_ne {o : SocketState} {object' : Nat} (hne : object' ≠ object) :
    (s.setObject object o).objects object' = s.objects object' :=
  Function.update_of_ne hne ..

theorem ofSocket_map {events : List SocketEvent} {object' : Nat} :
    (events.map (ServiceEvent.socket object')).filterMap (ServiceEvent.ofSocket object) =
      if object' = object then events else [] := by
  rw [List.filterMap_map]
  split
  · rename_i heq
    subst heq
    exact (List.filterMap_congr fun _ _ => if_pos rfl).trans List.filterMap_some
  · rename_i hne
    exact List.filterMap_eq_nil_iff.2 fun _ _ => if_neg hne

theorem ofSocket_capturedBy {object' captures : Nat} {label : SocketLabel} :
    (capturedBy object' captures label).filterMap (ServiceEvent.ofSocket object) = [] := by
  unfold capturedBy
  split <;> rfl

/-- A step is a step of one socket, or of none. -/
inductive ObjectsStep (s s' : ServiceState) (e : List ServiceEvent) : Prop
  | one {object label o} : socketMachine.step (s.objects object) label =
        some (o, e.filterMap (ServiceEvent.ofSocket object)) →
      Addressed (s.objects object) label → s'.objects = Function.update s.objects object o →
      (∀ object', object' ≠ object → e.filterMap (ServiceEvent.ofSocket object') = []) → ObjectsStep s s' e
  | none : s'.objects = s.objects → (∀ object, e.filterMap (ServiceEvent.ofSocket object) = []) →
      ObjectsStep s s' e

theorem ObjectsStep.of_step {label : SocketLabel} {o : SocketState} {e' : List SocketEvent}
    (captured : List ServiceEvent) (hstep : socketMachine.step (s.objects object) label = some (o, e'))
    (haddr : Addressed (s.objects object) label)
    (hnone : ∀ object', captured.filterMap (ServiceEvent.ofSocket object') = [])
    (hs' : s'.objects = Function.update s.objects object o)
    (he : e = captured ++ e'.map (.socket object)) : ObjectsStep s s' e := by
  have hofs : ∀ object', e.filterMap (ServiceEvent.ofSocket object') = if object = object' then e' else [] := by
    intro object'
    rw [he, List.filterMap_append, hnone, ofSocket_map, List.nil_append]
  refine .one ?_ haddr hs' ?_
  · rw [hofs, if_pos rfl]
    exact hstep
  · intro object' hne
    rw [hofs, if_neg (Ne.symm hne)]

theorem ServiceState.objects_step (hs : serviceMachine.step s a = some (s', e)) : ObjectsStep s s' e := by
  cases ServiceState.step_inv hs with
  | @socket object label _ _ halone hstep =>
    have haddr : Addressed (s.objects object) label := by
      cases label with
      | property => cases halone
      | _ => trivial
    exact .of_step _ hstep haddr (fun _ => ofSocket_capturedBy) rfl rfl
  | copy _ _ hstep => exact .of_step [] hstep trivial (fun _ => rfl) rfl rfl
  | send _ _ _ hstep => exact .of_step [] hstep trivial (fun _ => rfl) rfl rfl
  | noSend _ _ hstep => exact .of_step [] hstep trivial (fun _ => rfl) rfl rfl
  | deliver _ _ hstep => exact .of_step [] hstep trivial (fun _ => rfl) rfl rfl
  | property _ hid hstep => exact .of_step [] hstep hid (fun _ => rfl) rfl rfl
  | event => exact .none rfl fun _ => rfl
  | release => exact .none rfl fun _ => rfl
  | receive => exact .none rfl fun _ => rfl
  | underrun => exact .none rfl fun _ => rfl
  | respond => exact .none rfl fun _ => rfl
  | skip => exact .none rfl fun _ => rfl

/-- The driver before the first packet, with the buffers that could be allocated and an empty ring. -/
def ServiceState.start (withSize : Nat → Bool) (queueSize : UInt32) (queue : Memory)
    (socketIds : Nat → NkeSocketID) (origReceiveBufferSize : Nat → Nat) : ServiceState where
  filter := withDefault withSize
  dataQueue := ⟨queueSize, 0, 0, queue⟩
  objects := fun object => .start (socketIds object) (origReceiveBufferSize object)
  toRelease := []
  received := []
  responses := []

theorem ObjectsStep.runAlong {s₀ : SocketState} {h : List ServiceEvent} (hstep : ObjectsStep s s' e)
    (hr : socketMachine.RunAlong Addressed s₀ (s.objects object) (h.filterMap (ServiceEvent.ofSocket object))) :
    socketMachine.RunAlong Addressed s₀ (s'.objects object)
      ((h ++ e).filterMap (ServiceEvent.ofSocket object)) := by
  rw [List.filterMap_append]
  cases hstep with
  | @one object' label o hstep haddr hs' hother =>
    rw [hs']
    by_cases heq : object = object'
    · subst heq
      rw [Function.update_self]
      exact hr.snoc haddr hstep
    · rw [Function.update_of_ne heq, hother object heq, List.append_nil]
      exact hr
  | none hs' hnone =>
    rw [hs', hnone, List.append_nil]
    exact hr

/-- Whatever the client does, each socket has made a run of its own machine. -/
theorem socket_of_run {withSize : Nat → Bool} {queueSize : UInt32} {queue : Memory}
    {socketIds : Nat → NkeSocketID} {origReceiveBufferSize : Nat → Nat} {as : List ServiceLabel}
    {h : List ServiceEvent} (object : Nat)
    (hr : serviceMachine.run (.start withSize queueSize queue socketIds origReceiveBufferSize) as = some (s, h)) :
    socketMachine.RunAlong Addressed (.start (socketIds object) (origReceiveBufferSize object))
      (s.objects object) (h.filterMap (ServiceEvent.ofSocket object)) := by
  refine Machine.run_induction (fun s h => socketMachine.RunAlong Addressed
    (.start (socketIds object) (origReceiveBufferSize object)) (s.objects object)
    (h.filterMap (ServiceEvent.ofSocket object))) [] .refl ?_ Machine.along_true hr
  intro s h a s' e hrun _ hs
  exact (ServiceState.objects_step hs).runAlong hrun

end Service
end NkeFilter
