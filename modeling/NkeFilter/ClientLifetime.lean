import NkeFilter.ClientResources
import NkeFilter.ClientSession

/-!
# The life of user clients

Any number of `NkeIOUserClient` objects from `newUserClient` to `free`, with any number of threads that notify
the registered client, open and close clients and terminate them, and the steps of IOKit that stop a terminated
client and drop the last reference to it. The accesses to the two references are those of `NkeIOUserClientRef`,
`stop` gives back and clears the pointers one by one, and `newUserClient` and `free`, which work on a client that
nobody else can call, are one step; a use of a freed or missing object is observed as a `panic`.
-/

namespace NkeFilter
open Lib

/-- The two references a client is registered in. -/
inductive ClientRefName where
  | gServiceUserClient
  | gSocketFilter
  deriving DecidableEq, Repr

instance : Fintype ClientRefName where
  elems := {.gServiceUserClient, .gSocketFilter}
  complete which := by cases which <;> decide

inductive NotifyStage where
  | checkPort
  | lock
  | enqueue
  | unlock
  deriving DecidableEq, Repr

/-- `open`, and `startLogging` from `registerService` on. -/
inductive OpenStage where
  | isInactive
  | openProvider
  | registerService
  | registerSocket
  /-- `startLogging` takes back what failed with `RC`. -/
  | unregisterSocket (RC : RegistrationResult)
  deriving DecidableEq, Repr

/-- `clientClose`, `terminate` from `closeProvider` on. -/
inductive CloseStage where
  | close
  | closeProvider
  | clearPort
  | unregisterSocket
  | unregisterService
  | superTerminate
  | clearProvider
  deriving DecidableEq, Repr

/-- Where a thread is, apart from the functions of the references; `clientClose` is whether `terminate` was
called by it. -/
inductive ClientProgram (C : Type*) where
  | outside
  /-- in `socketFilterNotification` -/
  | notifying (client : C) (stage : NotifyStage)
  | opening (client : C) (stage : OpenStage)
  | closing (client : C) (stage : CloseStage) (clientClose : Bool)
  deriving DecidableEq, Repr

namespace ClientProgram
variable {C : Type*}

/-- The call of a reference the thread is in or about to make. -/
def refCall : ClientProgram C → Option (ClientRefName × UserClientCall C)
  | opening client .registerService => some (.gServiceUserClient, .registerUserClient client)
  | opening client .registerSocket => some (.gSocketFilter, .registerUserClient client)
  | opening client (.unregisterSocket _) => some (.gSocketFilter, .unregisterUserClient client)
  | closing client .unregisterSocket _ => some (.gSocketFilter, .unregisterUserClient client)
  | closing client .unregisterService _ => some (.gServiceUserClient, .unregisterUserClient client)
  | _ => none

/-- The client whose `open`, `clientClose` or `terminate` it is in. -/
def calling : ClientProgram C → Option C
  | opening client _ | closing client _ _ => some client
  | _ => none

/-- The client whose functions it is in. -/
def client : ClientProgram C → Option C
  | outside => none
  | notifying client _ | opening client _ | closing client _ _ => some client

end ClientProgram

inductive ClientStage where
  /-- before `newUserClient`, or it failed -/
  | absent
  | started
  /-- IOKit has called `stop`, and this access of `freeAllocatedResources` is next. -/
  | stopping (type : NkeNotifyType) (access : FreeAccess)
  | stopped
  /-- IOKit has dropped its reference. -/
  | finalized
  deriving DecidableEq, Repr

namespace ClientStage

/-- The task can call the client. -/
def callable : ClientStage → Bool
  | started | stopping .. | stopped => true
  | absent | finalized => false

/-- What follows an access of the loop of `freeAllocatedResources`. -/
def afterAccess (type : NkeNotifyType) (access : FreeAccess) : ClientStage :=
  match access.next, type.next with
  | some access, _ => stopping type access
  | none, some type => stopping type .enqueue
  | none, none => stopped

end ClientStage

structure ClientObject (T : Type*) extends NkeIOUserClient where
  stage : ClientStage
  retainCount : ℕ
  queues : ClientQueues
  /-- who holds `fLock[ kt_NkeNotifyTypeSocketFilter ]` -/
  lockHolder : Option T

/-- What the client has for `kt_NkeNotifyTypeSocketFilter`. -/
def ClientObject.socketQueue {T : Type*} (client : ClientObject T) : NotifyQueue :=
  client.queues .kt_NkeNotifyTypeSocketFilter

/-- The owner of the provider, the references, the threads, the clients, and the kernel objects with the
references that the tasks hold by what they have mapped. -/
structure LifetimeState (T C : Type*) where
  owner : Option C
  refs : ClientRefName → UserClientState T C
  programs : T → ClientProgram C
  clients : C → ClientObject T
  heap : RefHeap
  mappings : ℕ → ℕ

inductive LifetimeEvent (C : Type*) where
  | ref (which : ClientRefName) (event : UserClientEvent C)
  | newUserClientReturned (client : C) (result : NewUserClientReturn)
  | openReturned (client : C) (result : SessionReturn)
  /-- `enqueueWithBarrier` of the client's queue. -/
  | enqueued (client : C)
  | notificationReturned (client : C)
  | mapped (id : ℕ)
  /-- `NkeIOUserClient::free` has run. -/
  | freed (client : C)
  | panic
  deriving DecidableEq, Repr

inductive LifetimeLabel (T C : Type*) where
  | newUserClient (client : C) (outcome : NewUserClientOutcome)
  | callOpen (thread : T) (client : C)
  | callClose (client : C)
  | callClientClose (thread : T) (client : C)
  | callTerminate (thread : T) (client : C)
  | registerNotificationPort (client : C) (port : ℕ) (type : NkeNotifyType)
  | clientMemoryForType (client : C) (type : NkeNotifyType)
  | unmap (id : ℕ)
  | getUserClient (thread : T)
  | releaseUserClient (thread : T)
  | socketFilterNotification (thread : T)
  | run (thread : T)
  /-- IOKit calls `stop` of a terminated client, or `stop` goes on with `freeAllocatedResources`. -/
  | stop (client : C)
  /-- IOKit drops its reference. -/
  | finalize (client : C)

/-- The result that a function of the reference returned. -/
def UserClientEvent.result {C : Type*} : UserClientEvent C → Option RegistrationResult
  | .registerReturned _ result | .unregisterReturned _ result => some result
  | _ => none

/-- What follows the return of a function of a reference. -/
def ClientProgram.returned {C : Type*} :
    ClientProgram C → RegistrationResult → ClientProgram C × List (LifetimeEvent C)
  | .opening client .registerService, .kIOReturnSuccess => (.opening client .registerSocket, [])
  | .opening client .registerService, RC => (.opening client (.unregisterSocket RC), [])
  | .opening client .registerSocket, .kIOReturnSuccess => (.outside, [.openReturned client .kIOReturnSuccess])
  | .opening client .registerSocket, RC => (.opening client (.unregisterSocket RC), [])
  | .opening client (.unregisterSocket RC), _ => (.outside, [.openReturned client RC.toSessionReturn])
  | .closing client .unregisterSocket clientClose, _ => (.closing client .unregisterService clientClose, [])
  | .closing client .unregisterService clientClose, _ => (.closing client .superTerminate clientClose, [])
  | program, _ => (program, [])

namespace LifetimeState
variable {T C : Type*}

def start : LifetimeState T C where
  owner := none
  refs := fun _ => .start
  programs := fun _ => .outside
  clients := fun _ => ⟨⟨false, true, false⟩, .absent, 0, .withTask, none⟩
  heap := .empty
  mappings := fun _ => 0

variable [DecidableEq T] [DecidableEq C]

def setProgram (s : LifetimeState T C) (t : T) (program : ClientProgram C) : LifetimeState T C :=
  { s with programs := Function.update s.programs t program }

def setClient (s : LifetimeState T C) (c : C) (client : ClientObject T) : LifetimeState T C :=
  { s with clients := Function.update s.clients c client }

def setRef (s : LifetimeState T C) (which : ClientRefName) (ref : UserClientState T C) : LifetimeState T C :=
  { s with refs := Function.update s.refs which ref }

omit [DecidableEq T] in
@[simp] theorem setClient_self (s : LifetimeState T C) (c : C) (client : ClientObject T) :
    (s.setClient c client).clients c = client := Function.update_self ..

omit [DecidableEq T] in
theorem setClient_of_ne (s : LifetimeState T C) {c c' : C} (client : ClientObject T) (hne : c' ≠ c) :
    (s.setClient c client).clients c' = s.clients c' := Function.update_of_ne hne ..

/-- `fProvider->close( this )` of a provider that is open for the client. -/
def closeProvider (s : LifetimeState T C) (c : C) : LifetimeState T C :=
  if (s.clients c).fProvider ∧ s.owner = some c then { s with owner := none } else s

/-- An access of `stop`; a lock that somebody holds is not freed. -/
def freeAccess (s : LifetimeState T C) (c : C) (type : NkeNotifyType) (access : FreeAccess) :
    Option (LifetimeState T C) :=
  if access = .freeLock ∧ type = .kt_NkeNotifyTypeSocketFilter ∧ (s.clients c).lockHolder ≠ none then none
  else (((s.clients c).queues type).freeAccess s.heap access).map fun (queue, heap) =>
    let queues := Function.update (s.clients c).queues type queue
    let stage := .afterAccess type access
    { s.setClient c { s.clients c with queues, stage } with heap }

/-- `freeAllocatedResources` of a client that nobody can call. -/
def freeAllocatedResources (s : LifetimeState T C) (c : C) : Option (LifetimeState T C) :=
  if (s.clients c).lockHolder ≠ none then none
  else ((s.clients c).queues.freeAllocatedResources s.heap).map fun (queues, heap) =>
    { s.setClient c { s.clients c with queues } with heap }

def retain (s : LifetimeState T C) (c : C) : LifetimeState T C × List (LifetimeEvent C) :=
  if (s.clients c).retainCount = 0 then (s, [.panic])
  else (s.setClient c { s.clients c with retainCount := (s.clients c).retainCount + 1 }, [])

/-- The last `release` calls `free`. -/
def release (s : LifetimeState T C) (c : C) : LifetimeState T C × List (LifetimeEvent C) :=
  if (s.clients c).retainCount = 0 then (s, [.panic])
  else
    let s := s.setClient c { s.clients c with retainCount := (s.clients c).retainCount - 1 }
    if (s.clients c).retainCount ≠ 0 then (s, [])
    else match s.freeAllocatedResources c with
      | none => (s, [.panic])
      | some s => (s, [.freed c])

/-- `retain` and `release` of the client by a function of a reference. -/
def handleEvent (s : LifetimeState T C) : UserClientEvent C → LifetimeState T C × List (LifetimeEvent C)
  | .retained c => s.retain c
  | .released c => s.release c
  | _ => (s, [])

def handle (s : LifetimeState T C) : List (UserClientEvent C) → LifetimeState T C × List (LifetimeEvent C)
  | [] => (s, [])
  | event :: events =>
    let (s, e) := s.handleEvent event
    let (s, e') := s.handle events
    (s, e ++ e')

/-- A step of a reference. -/
def stepRef (s : LifetimeState T C) (which : ClientRefName) (label : UserClientLabel T C) :
    Option (LifetimeState T C × List (UserClientEvent C) × List (LifetimeEvent C)) :=
  ((s.refs which).step label).map fun (ref, events) =>
    let (s, e) := (s.setRef which ref).handle events
    (s, events, events.map (.ref which) ++ e)

/-- A thread that is in a function of a reference, or about to call it. -/
def runRef (s : LifetimeState T C) (t : T) (which : ClientRefName) (call : UserClientCall C) :
    Option (LifetimeState T C × List (LifetimeEvent C)) :=
  if (s.refs which).threads t = .idle then
    (s.stepRef which (.call t call)).map fun (s, _, e) => (s, e)
  else
    (s.stepRef which (.access t)).map fun (s, events, e) => match events.findSome? UserClientEvent.result with
      | none => (s, e)
      | some RC =>
        let (program, e') := (s.programs t).returned RC
        (s.setProgram t program, e ++ e')

/-- `socketFilterNotification`; `IOLockLock` waits until nobody holds the lock. -/
def runNotification (s : LifetimeState T C) (t : T) (c : C) :
    NotifyStage → Option (LifetimeState T C × List (LifetimeEvent C))
  | .checkPort =>
    if (s.clients c).socketQueue.fNotificationPort = 0 then
      some (s.setProgram t .outside, [.notificationReturned c])
    else some (s.setProgram t (.notifying c .lock), [])
  | .lock => match (s.clients c).socketQueue.fLock.bind s.heap.deref with
    | none => some (s, [.panic])
    | some () =>
      if (s.clients c).lockHolder ≠ none then none
      else
        some ((s.setClient c { s.clients c with lockHolder := some t }).setProgram t (.notifying c .enqueue), [])
  | .enqueue => match (s.clients c).socketQueue.fDataQueue.bind s.heap.deref with
    | none => some (s, [.panic])
    | some () => some (s.setProgram t (.notifying c .unlock), [.enqueued c])
  | .unlock => match (s.clients c).socketQueue.fLock.bind s.heap.deref with
    | none => some (s, [.panic])
    | some () =>
      some ((s.setClient c { s.clients c with lockHolder := none }).setProgram t .outside,
        [.notificationReturned c])

/-- `open` up to `startLogging`. -/
def runOpen (s : LifetimeState T C) (t : T) (c : C) :
    OpenStage → Option (LifetimeState T C × List (LifetimeEvent C))
  | .isInactive =>
    if (s.clients c).inactive then some (s.setProgram t .outside, [.openReturned c .kIOReturnNotAttached])
    else some (s.setProgram t (.opening c .openProvider), [])
  | .openProvider =>
    if !(s.clients c).fProvider then some (s, [.panic])
    else if s.owner ≠ none then some (s.setProgram t .outside, [.openReturned c .kIOReturnExclusiveAccess])
    else some ({ s.setProgram t (.opening c .registerService) with owner := some c }, [])
  | _ => none

/-- `close`. -/
def close (s : LifetimeState T C) (c : C) : LifetimeState T C :=
  if !(s.clients c).fProvider then s
  else
    let s := s.closeProvider c
    s.setClient c { s.clients c with clientClosedItself := true }

/-- `clientClose` and `terminate` apart from the two references. -/
def runClose (s : LifetimeState T C) (t : T) (c : C) (clientClose : Bool) :
    CloseStage → Option (LifetimeState T C × List (LifetimeEvent C))
  | .close =>
    let s := if !(s.clients c).clientClosedItself then (s.closeProvider c).close c else s
    some (s.setProgram t (.closing c .closeProvider clientClose), [])
  | .closeProvider => some ((s.closeProvider c).setProgram t (.closing c .clearPort clientClose), [])
  | .clearPort =>
    let queue := { (s.clients c).socketQueue with fNotificationPort := 0 }
    let queues := Function.update (s.clients c).queues .kt_NkeNotifyTypeSocketFilter queue
    some ((s.setClient c { s.clients c with queues }).setProgram t (.closing c .unregisterSocket clientClose), [])
  | .superTerminate =>
    let s := s.setClient c { s.clients c with inactive := true }
    some (s.setProgram t (if clientClose then .closing c .clearProvider clientClose else .outside), [])
  | .clearProvider =>
    some ((s.setClient c { s.clients c with fProvider := false }).setProgram t .outside, [])
  | _ => none

/-- A thread goes on with what it is in; to be in a function of a freed client is a panic. -/
def run (s : LifetimeState T C) (t : T) : Option (LifetimeState T C × List (LifetimeEvent C)) :=
  if ∃ c ∈ (s.programs t).client, (s.clients c).retainCount = 0 then some (s, [.panic])
  else match (s.programs t).refCall with
    | some (which, call) => s.runRef t which call
    | none => match s.programs t with
      | .outside => (s.stepRef .gSocketFilter (.access t)).map fun (s, _, e) => (s, e)
      | .notifying c stage => s.runNotification t c stage
      | .opening c stage => s.runOpen t c stage
      | .closing c stage clientClose => s.runClose t c clientClose stage

def Callable (s : LifetimeState T C) (c : C) : Prop := (s.clients c).stage.callable = true

instance Callable.instDecidable (s : LifetimeState T C) (c : C) : Decidable (s.Callable c) :=
  inferInstanceAs (Decidable (_ = true))

/-- A thread that is in nothing calls a function of a client. -/
def call (s : LifetimeState T C) (t : T) (c : C) (program : ClientProgram C) :
    Option (LifetimeState T C × List (LifetimeEvent C)) :=
  if s.programs t = .outside ∧ (s.refs .gSocketFilter).threads t = .idle ∧ s.Callable c then
    some (s.setProgram t program, [])
  else none

def step (s : LifetimeState T C) : LifetimeLabel T C → Option (LifetimeState T C × List (LifetimeEvent C))
  | .newUserClient c outcome =>
    if (s.clients c).stage ≠ .absent then none
    else match newUserClient outcome s.heap with
      | none => some (s, [.panic])
      | some (result, none, heap) => some ({ s with heap }, [.newUserClientReturned c result])
      | some (result, some queues, heap) =>
        some ({ s.setClient c { s.clients c with stage := .started, retainCount := 1, queues } with heap },
          [.newUserClientReturned c result])
  | .callOpen t c => s.call t c (.opening c .isInactive)
  | .callClose c => if s.Callable c then some (s.close c, []) else none
  | .callClientClose t c => s.call t c (.closing c .close true)
  | .callTerminate t c => s.call t c (.closing c .closeProvider false)
  | .registerNotificationPort c port type =>
    if ¬ s.Callable c then none
    else if port = 0 ∨ type = .kt_NkeNotifyTypeUnknown ∨ ((s.clients c).queues type).fDataQueue = none then
      some (s, [])
    else match ((s.clients c).queues type).fDataQueue.bind s.heap.deref with
      | none => some (s, [.panic])
      | some () =>
        let queues := Function.update (s.clients c).queues type
          { (s.clients c).queues type with fNotificationPort := port }
        some (s.setClient c { s.clients c with queues }, [])
  | .clientMemoryForType c type =>
    if ¬ s.Callable c then none
    else if type = .kt_NkeNotifyTypeUnknown then some (s, [])
    else match ((s.clients c).queues type).fSharedMemory with
      | none => some (s, [])
      | some id => match s.heap.retain id with
        | none => some (s, [.panic])
        | some heap =>
          some ({ s with heap, mappings := Function.update s.mappings id (s.mappings id + 1) }, [.mapped id])
  | .unmap id =>
    if s.mappings id = 0 then none
    else match s.heap.release id with
      | none => some (s, [.panic])
      | some heap => some ({ s with heap, mappings := Function.update s.mappings id (s.mappings id - 1) }, [])
  | .getUserClient t =>
    if s.programs t = .outside then
      (s.stepRef .gSocketFilter (.call t .getUserClient)).map fun (s, _, e) => (s, e)
    else none
  | .releaseUserClient t =>
    if s.programs t = .outside then
      (s.stepRef .gSocketFilter (.call t .releaseUserClient)).map fun (s, _, e) => (s, e)
    else none
  | .socketFilterNotification t => match s.programs t, (s.refs .gSocketFilter).threads t with
    | .outside, .holding c => some (s.setProgram t (.notifying c .checkPort), [])
    | _, _ => none
  | .run t => s.run t
  | .stop c => match (s.clients c).stage with
    | .started =>
      if (s.clients c).inactive then
        let stage := .stopping .kt_NkeNotifyTypeUnknown .enqueue
        some (s.setClient c { s.clients c with stage }, [])
      else none
    | .stopping type access => match s.freeAccess c type access with
      | none => some (s, [.panic])
      | some s => some (s, [])
    | _ => none
  | .finalize c =>
    if (s.clients c).stage = .stopped then
      some ((s.setClient c { s.clients c with stage := .finalized }).release c)
    else none

end LifetimeState

/-- Clients are objects here, not addresses: the object of a freed client is not used for another one. -/
def lifetimeMachine (T C : Type*) [DecidableEq T] [DecidableEq C] :
    Machine (LifetimeState T C) (LifetimeLabel T C) (LifetimeEvent C) where
  step := LifetimeState.step

end NkeFilter
