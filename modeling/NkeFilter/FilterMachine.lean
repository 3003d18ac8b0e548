import NkeFilter.FailClosed

/-!
# The filter

All sockets with all threads: `FltAttach` and `FltDetach`, `FltNotify`, `processServiceResponse`, the
injection thread, `DeliverWaitingNotifications`, and the `FltData` calls. One step is one region of
`SocketsListLock`, `SocketsListToReportLock` or `rwLock`, one atomic operation, or one step of
`reinjectDeferredData` under `injectionMutex`. What happens inside an object is a step of `socketMachine`.
`DeliverWaitingNotifications` that runs inside another call counts as a thread of its own.
-/

namespace NkeFilter
open Lib NkeSocketObject

/-- What `FltAttach` is called with, and the buffer size that `sock_getsockopt` returns in it. -/
structure AttachCall where
  so : UInt64
  origReceiveBufferSize : Nat
  deriving DecidableEq, Repr

inductive ShutdownHow where
  | SHUT_RD
  | SHUT_WR
  | SHUT_RDWR
  | unknown
  deriving DecidableEq, Repr

/-- `sflt_event_t`; `other` are the events that make no call that concerns the data. -/
inductive SfltEvent where
  | sock_evt_closing
  | sock_evt_disconnecting
  | sock_evt_disconnected
  | sock_evt_shutdown (how : ShutdownHow)
  | sock_evt_cantrecvmore
  | other
  deriving DecidableEq, Repr

/-- The calls on an object that a thread makes one after the other. -/
inductive ObjectCall where
  | reinjectDeferredData (injectType : NkeSocketDataDirectionType)
  | purgePendingQueue (purgeType : NkeSocketDataDirectionType)
  /-- the wait of `checkForInjectionCompletion` for one direction -/
  | waitForCompletion (inbound : Bool)
  | markAsDisconnected
  /-- `logSocketPostEvent` of `sock_evt_disconnecting` -/
  | logDisconnecting
  deriving DecidableEq, Repr

/-- What `FltNotify` calls on the object. -/
def SfltEvent.calls : SfltEvent → List ObjectCall
  | sock_evt_closing => [.purgePendingQueue .NkeSocketDataInbound]
  | sock_evt_disconnecting =>
    [.reinjectDeferredData .NkeSocketDataAll, .waitForCompletion false, .waitForCompletion true,
      .logDisconnecting]
  | sock_evt_disconnected => [.markAsDisconnected]
  | sock_evt_shutdown .SHUT_RDWR =>
    [.reinjectDeferredData .NkeSocketDataOutbound, .purgePendingQueue .NkeSocketDataInbound]
  | sock_evt_shutdown .SHUT_WR => [.reinjectDeferredData .NkeSocketDataOutbound]
  | sock_evt_shutdown .SHUT_RD => [.purgePendingQueue .NkeSocketDataInbound]
  | sock_evt_shutdown .unknown => []
  | sock_evt_cantrecvmore => [.reinjectDeferredData .NkeSocketDataInbound]
  | other => []

/-- What `FltDetach` does next. -/
inductive DetachStep where
  | retain
  | removeFromSocketsList
  | removeFromSocketsListToReport (wasInSocketsList : Bool)
  /-- the releases at the end of `removeFromSocketsList` -/
  | releaseLists (wasInSocketsList wasInSocketsToReportList : Bool)
  /-- the decrement in `acquireDetachingLockForRemoval` -/
  | decrementLockCount
  | waitLockCount
  | purgePendingQueue
  | waitOutbound
  | waitInbound
  | release
  deriving DecidableEq, Repr

/-- What `processServiceResponse` does next with the object it found. -/
inductive RespondStep where
  /-- the comparison of the sequence numbers, then `setDeferredDataProperties` -/
  | compare
  | reinjectDeferredData
  | injecting
  | release
  deriving DecidableEq, Repr

/-- What a thread does next, with the objects it has references on. -/
inductive FilterPhase where
  | idle
  /-- `NkeIsSocketObjectInList` in `FltAttach`, and the release in it -/
  | attachCheck (attach : AttachCall)
  | attachChecked (object : Nat) (attach : AttachCall)
  | attachFind (attach : AttachCall)
  /-- the release of the old object after its `FltDetach` -/
  | attachOld (object : Nat) (attach : AttachCall)
  | attachCreate (attach : AttachCall)
  | attachInsert (object : Nat)
  | attachReturn (object : Nat)
  /-- `FltDetach`; `resume` is the `FltAttach` that called it -/
  | detach (step : DetachStep) (object : Nat) (resume : Option AttachCall)
  | respond (step : RespondStep) (object : Nat) (property : NkeSocketDataProperty)
  /-- `FltNotify` or the injection thread: `calls` on the first object, `reinjectDeferredData` on the rest -/
  | holding (objects : List Nat) (calls : List ObjectCall)
  | injecting (objects : List Nat) (calls : List ObjectCall)
  /-- `DeliverWaitingNotifications` took the object out of `SocketsListToReport` -/
  | popped (object : Nat)
  | delivered (object : Nat) (reinsertInList : Bool)
  deriving DecidableEq, Repr

inductive FilterEvent where
  | socket (object : Nat) (event : SocketEvent)
  | attached (object : Nat)
  /-- `FltDetach` returned -/
  | detached (object : Nat)
  | freed (object : Nat)
  deriving DecidableEq, Repr

/-- What the calls out of a step return. -/
structure Outside where
  allocated : Bool
  outcome : Nat → ReportOutcome
  clock : Nat → UInt64
  uninitialised : Errno
  result : Errno

def Outside.success : Outside where
  allocated := true
  outcome := fun _ => ⟨KERN_SUCCESS, [], KERN_SUCCESS, 0⟩
  clock := fun _ => 0
  uninitialised := KERN_SUCCESS
  result := KERN_SUCCESS

inductive FilterLabel where
  | fltAttach (thread : Nat) (attach : AttachCall)
  | fltDetach (thread object : Nat)
  | fltNotify (thread : Nat) (so : UInt64) (event : SfltEvent)
  /-- `processServiceResponse` turns to its next property -/
  | respond (thread : Nat) (property : NkeSocketDataProperty)
  /-- the injection thread collects the sockets with deferred data -/
  | injectionPass (thread : Nat)
  /-- `DeliverWaitingNotifications` takes the first object of `SocketsListToReport` -/
  | deliver (thread : Nat)
  /-- a step of a `FltData` call on the object -/
  | data (object : Nat) (label : SocketLabel)
  | next (thread : Nat) (outside : Outside)

/-- All objects ever created, by number, with their reference counts and flags; the lists; the objects whose
`FltAttach` has returned; and, as ghost, those whose `FltDetach` has begun. -/
structure FilterState where
  objects : List SocketState
  socketsList : List Nat
  socketsListToReport : List Nat
  insertedInSocketsList : Nat → Bool
  retainCount : Nat → Nat
  gSocketSequence : Int32
  cookies : List Nat
  detaching : List Nat
  threads : Nat → FilterPhase

/-- The steps of a `FltData` call. -/
def SocketLabel.isFltData : SocketLabel → Bool
  | .capture .. | .copy .. | .queue _ | .send .. | .finish _ => true
  | _ => false

/-- The next step of the thread that has `injectionMutex`. -/
def Injection.label (outside : Outside) : Injection → SocketLabel
  | ⟨_, some (.toFree _)⟩ => .freeMbufs
  | ⟨_, some (.toAccount _)⟩ => .account
  | ⟨_ :: _, none⟩ => .inject outside.uninitialised outside.result
  | ⟨[], none⟩ => .unlock

namespace FilterState

def start : FilterState where
  objects := []
  socketsList := []
  socketsListToReport := []
  insertedInSocketsList := fun _ => false
  retainCount := fun _ => 0
  gSocketSequence := 1
  cookies := []
  detaching := []
  threads := fun _ => .idle

def go (w : FilterState) (thread : Nat) (phase : FilterPhase) : FilterState :=
  { w with threads := Function.update w.threads thread phase }

def retain (w : FilterState) (object : Nat) : FilterState :=
  { w with retainCount := Function.update w.retainCount object (w.retainCount object + 1) }

/-- `release`; the last one frees the object. -/
def release (w : FilterState) (object : Nat) : FilterState × List FilterEvent :=
  ({ w with retainCount := Function.update w.retainCount object (w.retainCount object - 1) },
    if w.retainCount object = 1 then [.freed object] else [])

def releaseIf (w : FilterState) (object : Nat) (was : Bool) : FilterState × List FilterEvent :=
  if was then w.release object else (w, [])

def act (w : FilterState) (object : Nat) (label : SocketLabel) : Option (FilterState × List FilterEvent) :=
  match w.objects[object]? with
  | none => none
  | some s => (socketMachine.step s label).map fun r =>
    ({ w with objects := w.objects.set object r.1 }, r.2.map fun event => .socket object event)

/-- `act`, after which the thread goes on with `phase`. -/
def actThen (w : FilterState) (object : Nat) (label : SocketLabel) (thread : Nat) (phase : FilterPhase) :
    Option (FilterState × List FilterEvent) :=
  (w.act object label).map fun r => (r.1.go thread phase, r.2)

/-- The search of `GetSocketObjectRef`. -/
def getSocketObject (w : FilterState) (so : UInt64) : Option Nat :=
  w.socketsList.find? fun object => w.objects[object]?.any fun s => s.so.socketId.socket == so

/-- `withSocket`; the counter is widened with its sign. -/
def withSocket (w : FilterState) (attach : AttachCall) : FilterState :=
  { w with
    objects := w.objects ++
      [.start ⟨attach.so, w.gSocketSequence.toInt64.toUInt64⟩ attach.origReceiveBufferSize]
    retainCount := Function.update w.retainCount w.objects.length 1
    gSocketSequence := w.gSocketSequence + 1 }

def insertInSocketsList (w : FilterState) (object : Nat) : FilterState :=
  if w.insertedInSocketsList object then w
  else
    { w with
      socketsList := object :: w.socketsList
      insertedInSocketsList := Function.update w.insertedInSocketsList object true }.retain object

/-- The region of `SocketsListLock` in `removeFromSocketsList`. -/
def removeFromSocketsList (w : FilterState) (object : Nat) : FilterState :=
  if w.insertedInSocketsList object then
    { w with
      socketsList := w.socketsList.erase object
      insertedInSocketsList := Function.update w.insertedInSocketsList object false }
  else w

def insertedInSocketsListToReport (w : FilterState) (object : Nat) : Bool :=
  w.objects[object]?.any fun s => s.so.insertedInSocketsListToReport

/-- The ghost mark that `FltDetach` has begun. -/
def beginDetach (w : FilterState) (object : Nat) : FilterState :=
  { w with detaching := object :: w.detaching }

def attachNext (w : FilterState) (thread : Nat) (outside : Outside) :
    FilterPhase → Option (FilterState × List FilterEvent)
  | .attachCheck attach => match w.getSocketObject attach.so with
    | some object => some ((w.retain object).go thread (.attachChecked object attach), [])
    | none => some (w.go thread (.attachCreate attach), [])
  | .attachChecked object attach =>
    let (w, events) := w.release object
    some (w.go thread (.attachFind attach), events)
  | .attachFind attach => match w.getSocketObject attach.so with
    | some object => some (((w.retain object).beginDetach object).go thread
        (.detach .retain object (some attach)), [])
    | none => some (w.go thread (.attachCreate attach), [])
  | .attachOld object attach =>
    let (w, events) := w.release object
    some (w.go thread (.attachCreate attach), events)
  | .attachCreate attach =>
    if outside.allocated then
      some ((w.withSocket attach).go thread (.attachInsert w.objects.length), [])
    else some (w.go thread .idle, [])
  | .attachInsert object => some ((w.insertInSocketsList object).go thread (.attachReturn object), [])
  | .attachReturn object =>
    let (w, events) := w.release object
    some ({ w with cookies := object :: w.cookies }.go thread .idle, events ++ [.attached object])
  | _ => none

def detachNext (w : FilterState) (thread object : Nat) (resume : Option AttachCall) :
    DetachStep → Option (FilterState × List FilterEvent)
  | .retain => some ((w.retain object).go thread (.detach .removeFromSocketsList object resume), [])
  | .removeFromSocketsList =>
    some ((w.removeFromSocketsList object).go thread
      (.detach (.removeFromSocketsListToReport (w.insertedInSocketsList object)) object resume), [])
  | .removeFromSocketsListToReport wasInSocketsList =>
    if w.insertedInSocketsListToReport object then
      { w with socketsListToReport := w.socketsListToReport.erase object }.actThen object
        (.listToReport false) thread (.detach (.releaseLists wasInSocketsList true) object resume)
    else some (w.go thread (.detach (.releaseLists wasInSocketsList false) object resume), [])
  | .releaseLists wasInSocketsList wasInSocketsToReportList =>
    let (w, events) := w.releaseIf object wasInSocketsList
    let (w, events') := w.releaseIf object wasInSocketsToReportList
    some (w.go thread (.detach .decrementLockCount object resume), events ++ events')
  | .decrementLockCount => w.actThen object .beginDetach thread (.detach .waitLockCount object resume)
  | .waitLockCount =>
    if w.objects[object]?.any fun s => s.so.lockCount = 0 then
      some (w.go thread (.detach .purgePendingQueue object resume), [])
    else none
  | .purgePendingQueue =>
    w.actThen object (.purge .NkeSocketDataAll) thread (.detach .waitOutbound object resume)
  | .waitOutbound =>
    if w.objects[object]?.any fun s => s.so.numberOfPendingPackets false = 0 then
      some (w.go thread (.detach .waitInbound object resume), [])
    else none
  | .waitInbound =>
    if w.objects[object]?.any fun s => s.so.numberOfPendingPackets true = 0 then
      some (w.go thread (.detach .release object resume), [])
    else none
  | .release =>
    let (w, events) := w.release object
    some (w.go thread (match resume with
      | none => .idle
      | some attach => .attachOld object attach), events ++ [.detached object])

def respondNext (w : FilterState) (thread : Nat) (outside : Outside) (object : Nat)
    (property : NkeSocketDataProperty) : RespondStep → Option (FilterState × List FilterEvent)
  | .compare =>
    if w.objects[object]?.any fun s => s.so.socketId.socketSequence = property.socketId.socketSequence then
      w.actThen object (.property property) thread (.respond .reinjectDeferredData object property)
    else some (w.go thread (.respond .release object property), [])
  | .reinjectDeferredData =>
    w.actThen object (.collect .NkeSocketDataAll outside.clock) thread (.respond .injecting object property)
  | .injecting => match w.objects[object]?.bind (·.injection) with
    | none => none
    | some injection => w.actThen object (injection.label outside) thread
      (if injection = ⟨[], none⟩ then .respond .release object property
      else .respond .injecting object property)
  | .release =>
    let (w, events) := w.release object
    some (w.go thread .idle, events)

def holdingNext (w : FilterState) (thread : Nat) (outside : Outside) (objects : List Nat) (object : Nat) :
    List ObjectCall → Option (FilterState × List FilterEvent)
  | [] =>
    let (w, events) := w.release object
    some (w.go thread (if objects = [] then .idle
      else .holding objects [.reinjectDeferredData .NkeSocketDataAll]), events)
  | .reinjectDeferredData injectType :: calls =>
    w.actThen object (.collect injectType outside.clock) thread (.injecting (object :: objects) calls)
  | .purgePendingQueue purgeType :: calls =>
    w.actThen object (.purge purgeType) thread (.holding (object :: objects) calls)
  | .waitForCompletion inbound :: calls =>
    if w.objects[object]?.any fun s => s.so.numberOfPendingPackets inbound = 0 then
      some (w.go thread (.holding (object :: objects) calls), [])
    else none
  | .markAsDisconnected :: calls =>
    w.actThen object .markAsDisconnected thread (.holding (object :: objects) calls)
  | .logDisconnecting :: calls =>
    w.actThen object .disconnecting thread (.holding (object :: objects) calls)

def injectingNext (w : FilterState) (thread : Nat) (outside : Outside) (objects : List Nat) (object : Nat)
    (calls : List ObjectCall) : Option (FilterState × List FilterEvent) :=
  match w.objects[object]?.bind (·.injection) with
  | none => none
  | some injection => w.actThen object (injection.label outside) thread
    (if injection = ⟨[], none⟩ then .holding (object :: objects) calls
    else .injecting (object :: objects) calls)

def deliverNext (w : FilterState) (thread : Nat) (outside : Outside) :
    FilterPhase → Option (FilterState × List FilterEvent)
  | .popped object => match w.objects[object]? with
    | none => none
    | some s => w.actThen object (.deliver outside.outcome) thread
      (.delivered object (s.so.deliverQueue outside.outcome).2.1.reinsertInList)
  | .delivered object true =>
    if w.insertedInSocketsListToReport object then some (w.go thread (.delivered object false), [])
    else
      { w with socketsListToReport := w.socketsListToReport ++ [object] }.actThen object
        (.listToReport true) thread .idle
  | .delivered object false =>
    let (w, events) := w.release object
    some (w.go thread .idle, events)
  | _ => none

def next (w : FilterState) (thread : Nat) (outside : Outside) : Option (FilterState × List FilterEvent) :=
  match w.threads thread with
  | .detach step object resume => w.detachNext thread object resume step
  | .respond step object property => w.respondNext thread outside object property step
  | .holding (object :: objects) calls => w.holdingNext thread outside objects object calls
  | .injecting (object :: objects) calls => w.injectingNext thread outside objects object calls
  | .popped object => w.deliverNext thread outside (.popped object)
  | .delivered object reinsertInList => w.deliverNext thread outside (.delivered object reinsertInList)
  | phase => w.attachNext thread outside phase

/-- A new call starts on a thread that is in none. -/
def step (w : FilterState) : FilterLabel → Option (FilterState × List FilterEvent)
  | .fltAttach thread attach =>
    if w.threads thread = .idle then some (w.go thread (.attachCheck attach), []) else none
  | .fltDetach thread object =>
    if w.threads thread = .idle ∧ object ∈ w.cookies then
      some ((w.beginDetach object).go thread (.detach .retain object none), [])
    else none
  | .fltNotify thread so event =>
    if w.threads thread = .idle then match w.getSocketObject so with
      | none => some (w, [])
      | some object => some ((w.retain object).go thread (.holding [object] event.calls), [])
    else none
  | .respond thread property =>
    if w.threads thread = .idle ∧ property.type ≠ .NkeSocketDataPropertyTypeUnknown then
      match w.getSocketObject property.socketId.socket with
      | none => some (w, [])
      | some object => some ((w.retain object).go thread (.respond .compare object property), [])
    else none
  | .injectionPass thread =>
    if w.threads thread = .idle then
      match w.socketsList.filter fun object => w.objects[object]?.any fun s => s.so.pendingQueue ≠ [] with
      | [] => some (w, [])
      -- `sockObj` is null behind `TAILQ_FOREACH`: the `retain` there is never made
      | object :: objects => some (((object :: objects).foldl retain w).go thread
          (.holding (object :: objects) [.reinjectDeferredData .NkeSocketDataAll]), [])
    else none
  | .deliver thread =>
    if w.threads thread = .idle then match w.socketsListToReport with
      | [] => some (w, [])
      | object :: rest =>
        { w with socketsListToReport := rest }.actThen object (.listToReport false) thread (.popped object)
    else none
  | .data object label =>
    if label.isFltData then
      (w.act object label).map fun r =>
        if .socket object .enlisted ∈ r.2 then
          ({ r.1 with socketsListToReport := r.1.socketsListToReport ++ [object] }.retain object, r.2)
        else r
    else none
  | .next thread outside => w.next thread outside

end FilterState

/-- Any interleaving of the threads. -/
def filterMachine : Machine FilterState FilterLabel FilterEvent where
  step := FilterState.step

end NkeFilter
