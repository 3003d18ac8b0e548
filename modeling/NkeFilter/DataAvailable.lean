import NkeFilter.DataQueue
import NkeFilter.Lib.Machine

/-!
# The data-available notification

Any number of threads in `socketFilterNotification` and `registerNotificationPort`, and the client that
waits for a message on its port and then dequeues until the queue is empty, one step for each access to
what they share. Whether an enqueue sends a message is decided by the head it read before the write and by
another one after it. A client that waits while the queue is not empty always has a message coming
(`awake_of_reachable`).
-/

namespace NkeFilter
open Lib IODataQueueMemory

/-! ### The parts of an enqueue -/

/-- The two ways to publish an entry: `tail += entrySize` and `tail = entrySize`. -/
inductive TailUpdate where
  | advance (entrySize : UInt32)
  | restart (entrySize : UInt32)
  deriving DecidableEq, Repr

def TailUpdate.publish : TailUpdate → IODataQueueMemory → IODataQueueMemory
  | advance entrySize, dataQueue => { dataQueue with tail := dataQueue.tail + entrySize }
  | restart entrySize, dataQueue => { dataQueue with tail := entrySize }

/-- `enqueueWithBarrier` up to the barrier, for the head and tail it has read: the bytes it writes and how
it will publish them. -/
def IODataQueueMemory.place (dataQueue : IODataQueueMemory) (head tail : UInt32) (data : List UInt8) :
    Option (Memory × TailUpdate) :=
  let dataSize := UInt32.ofNat data.length
  let entrySize := dataSize + DATA_QUEUE_ENTRY_HEADER_SIZE
  let append := (dataQueue.queue.setWord tail.toNat dataSize).write (tail.toNat + 4) data
  if tail ≥ head then
    if tail + entrySize ≤ dataQueue.queueSize then some (append, .advance entrySize)
    else if head > entrySize then
      let queue := dataQueue.queue.setWord 0 dataSize
      let queue :=
        if dataQueue.queueSize - tail ≥ DATA_QUEUE_ENTRY_HEADER_SIZE then
          queue.setWord tail.toNat dataSize
        else queue
      some (queue.write 4 data, .restart entrySize)
    else none
  else if head - tail > entrySize then some (append, .advance entrySize)
  else none

/-- With nobody between them the parts are the whole. -/
theorem enqueueWithBarrier_eq (dataQueue : IODataQueueMemory) (data : List UInt8) :
    dataQueue.enqueueWithBarrier data = match dataQueue.place dataQueue.head dataQueue.tail data with
      | none => ⟨false, false, dataQueue⟩
      | some (queue, update) =>
        ⟨true, decide (dataQueue.head = dataQueue.tail), update.publish { dataQueue with queue }⟩ := by
  unfold enqueueWithBarrier place
  simp only [or_self]
  split
  · split
    · rfl
    · split <;> rfl
  · split <;> rfl

/-! ### The threads -/

inductive NotificationResult where
  | kIOReturnSuccess
  | kIOReturnError
  | kIOReturnNoMemory
  deriving DecidableEq, Repr

/-- What a thread of the kernel does next. -/
inductive NotifyPhase where
  | idle
  -- `socketFilterNotification`
  | checkPort (data : List UInt8)
  | lock (data : List UInt8)
  -- `enqueueWithBarrier`
  | readHead (data : List UInt8)
  | readTail (data : List UInt8) (head : UInt32)
  | write (data : List UInt8) (head tail : UInt32)
  | publish (head tail : UInt32) (update : TailUpdate)
  | test (head tail : UInt32)
  | send
  | unlock (enqueued : Bool)
  -- `registerNotificationPort`
  | setNotificationPort
  | setPorts
  deriving DecidableEq, Repr

/-- What the client does next: it waits for a message, tests whether data is available, dequeues, or stores
the new head at the end of a dequeue. -/
inductive ConsumerPhase where
  | waiting
  | testing
  | dequeuing
  | moving (newHead : UInt32)
  deriving DecidableEq, Repr

/-- The shared memory, whether `fNotificationPorts` and the port in `notifyMsg` are set, `fLock`, the
messages on the port, the threads of the kernel and the client. -/
structure NotifyState (T : Type*) where
  dataQueue : IODataQueueMemory
  fNotificationPort : Bool
  notifyMsg : Bool
  fLock : Option T
  messages : Nat
  threads : T → NotifyPhase
  consumer : ConsumerPhase

inductive NotifyLabel (T : Type*) where
  | socketFilterNotification (t : T) (data : List UInt8)
  | registerNotificationPort (t : T)
  /-- `full` counts for a send only: the port has messages and takes no more -/
  | access (t : T) (full : Bool)
  /-- a step of the client, with the size of its buffer -/
  | consume (dataSize : UInt32)

namespace NotifyState
variable {T : Type*}

/-- Before the first registration: an empty queue of any size. -/
def start (queueSize : UInt32) (queue : Memory) : NotifyState T where
  dataQueue := ⟨queueSize, 0, 0, queue⟩
  fNotificationPort := false
  notifyMsg := false
  fLock := none
  messages := 0
  threads := fun _ => .idle
  consumer := .waiting

/-- `sendDataAvailableNotification`; a send to a full port times out at once. -/
def sendDataAvailableNotification (s : NotifyState T) (full : Bool) : Option (NotifyState T) :=
  if !s.notifyMsg then some s
  else if !full then some { s with messages := s.messages + 1 }
  else if s.messages ≠ 0 then some s
  else none

/-- One access of the thread `t`: its next phase, the state, and what it returned. -/
def access (s : NotifyState T) (t : T) (full : Bool) :
    NotifyPhase → Option (NotifyPhase × NotifyState T × List (T × NotificationResult))
  | .idle => none
  | .checkPort data =>
    if !s.fNotificationPort then some (.idle, s, [(t, .kIOReturnError)]) else some (.lock data, s, [])
  | .lock data => match s.fLock with
    | none => some (.readHead data, { s with fLock := some t }, [])
    | some _ => none
  | .readHead data => some (.readTail data s.dataQueue.head, s, [])
  | .readTail data head => some (.write data head s.dataQueue.tail, s, [])
  | .write data head tail => match s.dataQueue.place head tail data with
    | none => some (.unlock false, s, [])
    | some (queue, update) =>
      some (.publish head tail update, { s with dataQueue := { s.dataQueue with queue } }, [])
  | .publish head tail update => some (.test head tail, { s with dataQueue := update.publish s.dataQueue }, [])
  | .test head tail =>
    some (if head = tail ∨ s.dataQueue.head = tail then .send else .unlock true, s, [])
  | .send => (s.sendDataAvailableNotification full).map fun s => (.unlock true, s, [])
  | .unlock enqueued =>
    some (.idle, { s with fLock := none }, [(t, if enqueued then .kIOReturnSuccess else .kIOReturnNoMemory)])
  | .setNotificationPort => some (.setPorts, { s with notifyMsg := true }, [])
  | .setPorts => some (.idle, { s with fNotificationPort := true }, [])

/-- A step of the client. A dequeue that fails leaves the head where it is. -/
def consume (s : NotifyState T) (dataSize : UInt32) : Option (NotifyState T) :=
  match s.consumer with
  | .waiting => if s.messages = 0 then none else some { s with messages := s.messages - 1, consumer := .testing }
  | .testing =>
    some { s with consumer := if s.dataQueue.head ≠ s.dataQueue.tail then .dequeuing else .waiting }
  | .dequeuing =>
    let r := s.dataQueue.dequeue true (some dataSize)
    some { s with consumer := if r.retVal = .kIOReturnSuccess then .moving r.dataQueue.head else .testing }
  | .moving newHead => some { s with dataQueue := { s.dataQueue with head := newHead }, consumer := .testing }

variable [DecidableEq T]

def setThread (s : NotifyState T) (t : T) (phase : NotifyPhase) : NotifyState T :=
  { s with threads := Function.update s.threads t phase }

def step (s : NotifyState T) : NotifyLabel T → Option (NotifyState T × List (T × NotificationResult))
  | .socketFilterNotification t data =>
    if s.threads t = .idle then some (s.setThread t (.checkPort data), []) else none
  | .registerNotificationPort t =>
    if s.threads t = .idle then some (s.setThread t .setNotificationPort, []) else none
  | .access t full =>
    (s.access t full (s.threads t)).map fun (next, s', results) => (s'.setThread t next, results)
  | .consume dataSize => (s.consume dataSize).map fun s' => (s', [])

end NotifyState

/-- Any interleaving of any number of threads `T` with the client. -/
def notifyMachine (T : Type*) [DecidableEq T] :
    Machine (NotifyState T) (NotifyLabel T) (T × NotificationResult) where
  step := NotifyState.step

/-! ### What keeps the client awake -/

namespace NotifyPhase

/-- Between locking `fLock` and unlocking it. -/
def holdsLock : NotifyPhase → Bool
  | readHead _ | readTail .. | write .. | publish .. | test .. | send | unlock _ => true
  | _ => false

/-- The tail the thread has read and not yet replaced. -/
def localTail : NotifyPhase → Option UInt32
  | write _ _ tail | publish _ tail _ => some tail
  | _ => none

/-- Past the port check, or between the two writes of a registration. -/
def sawPort : NotifyPhase → Bool
  | lock _ | setPorts => true
  | phase => phase.holdsLock

theorem holdsLock_of_localTail {phase : NotifyPhase} {tail : UInt32} (h : phase.localTail = some tail) :
    phase.holdsLock := by
  cases phase with
  | write | publish => rfl
  | _ => cases h

end NotifyPhase

/-- The thread has published its tail and its remaining steps send a message: it is about to, or its test
will succeed. -/
def NotifyState.WillSend {T : Type*} (s : NotifyState T) (t : T) : Prop :=
  s.threads t = .send ∨
    ∃ head tail, s.threads t = .test head tail ∧ (head = tail ∨ s.dataQueue.head = tail)

structure Awake {T : Type*} (s : NotifyState T) : Prop where
  lock : ∀ t, (s.threads t).holdsLock → s.fLock = some t
  tail : ∀ t tail, (s.threads t).localTail = some tail → tail = s.dataQueue.tail
  ports : s.fNotificationPort → s.notifyMsg
  sawPort : ∀ t, (s.threads t).sawPort → s.notifyMsg
  awake : s.consumer = .waiting → s.dataQueue.head ≠ s.dataQueue.tail →
    s.messages ≠ 0 ∨ ∃ t, s.WillSend t

variable {T : Type*} {s s' : NotifyState T} {t u : T} {next : NotifyPhase}

theorem awake_start {queueSize : UInt32} {queue : Memory} :
    Awake (NotifyState.start queueSize queue : NotifyState T) :=
  ⟨fun _ => nofun, fun _ _ => nofun, nofun, fun _ => nofun, fun _ hne => absurd rfl hne⟩

theorem NotifyState.WillSend.holdsLock (h : s.WillSend t) : (s.threads t).holdsLock := by
  rcases h with h | ⟨_, _, h, -⟩ <;> rw [h] <;> rfl

theorem NotifyState.not_willSend (hp : s.threads t ≠ .send) (hp' : ∀ head tail, s.threads t ≠ .test head tail) :
    ¬ s.WillSend t := by
  rintro (h | ⟨head, tail, h, -⟩)
  · exact hp h
  · exact hp' head tail h

/-- After a send there is a message, also when the port was full. -/
theorem NotifyState.send_spec {full : Bool} (hmsg : s.notifyMsg)
    (hs : s.sendDataAvailableNotification full = some s') :
    ∃ messages, messages ≠ 0 ∧ s' = { s with messages } := by
  unfold sendDataAvailableNotification at hs
  rw [if_neg (by simp [hmsg])] at hs
  cases full with
  | false => exact ⟨s.messages + 1, Nat.succ_ne_zero _, (Option.some.inj hs).symm⟩
  | true =>
    rw [if_neg (by simp)] at hs
    split at hs
    · rename_i hm
      exact ⟨s.messages, hm, (Option.some.inj hs).symm⟩
    · cases hs

/-- What a step of the client leaves: only a head that was reached makes it wait. -/
inductive Consumed (s : NotifyState T) : NotifyState T → Prop
  | received : s.messages ≠ 0 → Consumed s { s with messages := s.messages - 1, consumer := .testing }
  | done : s.dataQueue.head = s.dataQueue.tail → Consumed s { s with consumer := .waiting }
  | busy {consumer : ConsumerPhase} {head : UInt32} : consumer ≠ .waiting →
      Consumed s { s with dataQueue := { s.dataQueue with head }, consumer }

theorem NotifyState.consume_inv {dataSize : UInt32} (hc : s.consume dataSize = some s') : Consumed s s' := by
  unfold consume at hc
  split at hc
  · split at hc
    · cases hc
    · rename_i hm
      obtain rfl := Option.some.inj hc
      exact .received hm
  · obtain rfl := Option.some.inj hc
    split
    · exact @Consumed.busy T s _ s.dataQueue.head nofun
    · rename_i heq
      exact .done (not_not.1 heq)
  · obtain rfl := Option.some.inj hc
    split
    · exact @Consumed.busy T s _ s.dataQueue.head nofun
    · exact @Consumed.busy T s _ s.dataQueue.head nofun
  · obtain rfl := Option.some.inj hc
    exact .busy nofun

theorem Awake.consume (h : Awake s) {dataSize : UInt32} (hc : s.consume dataSize = some s') : Awake s' := by
  cases NotifyState.consume_inv hc with
  | received => exact ⟨h.lock, h.tail, h.ports, h.sawPort, nofun⟩
  | done heq => exact ⟨h.lock, h.tail, h.ports, h.sawPort, fun _ hne => absurd heq hne⟩
  | busy hne => exact ⟨h.lock, h.tail, h.ports, h.sawPort, fun hw => absurd hw hne⟩

section Update
variable [DecidableEq T]

theorem NotifyState.setThread_inv (s : NotifyState T) (t : T) (phase : NotifyPhase) (u : T) :
    u = t ∧ (s.setThread t phase).threads u = phase ∨
      u ≠ t ∧ (s.setThread t phase).threads u = s.threads u := by
  by_cases hne : u = t
  · exact .inl ⟨hne, hne ▸ Function.update_self ..⟩
  · exact .inr ⟨hne, Function.update_of_ne hne ..⟩

/-- A step of one thread: what it does to `fLock` and the tail is its to do, and what it learns is so. -/
theorem Awake.setThread (h : Awake s) (hthreads : s'.threads = s.threads)
    (hlock : next.holdsLock → s'.fLock = some t)
    (hothers : ∀ u, u ≠ t → s.fLock = some u → s'.fLock = some u)
    (hlocal : ∀ tail, next.localTail = some tail → tail = s'.dataQueue.tail)
    (htail : s'.dataQueue.tail = s.dataQueue.tail ∨ s.fLock = some t)
    (hports : s'.fNotificationPort → s'.notifyMsg) (hmsg : s.notifyMsg → s'.notifyMsg)
    (hsaw : next.sawPort → s'.notifyMsg)
    (hawake : s'.consumer = .waiting → s'.dataQueue.head ≠ s'.dataQueue.tail →
      s'.messages ≠ 0 ∨ ∃ t', (s'.setThread t next).WillSend t') : Awake (s'.setThread t next) := by
  refine ⟨?_, ?_, hports, ?_, hawake⟩
  · intro u hu
    rcases s'.setThread_inv t next u with ⟨rfl, hp⟩ | ⟨hne, hp⟩
    · rw [hp] at hu
      exact hlock hu
    · rw [hp, hthreads] at hu
      exact hothers u hne (h.lock u hu)
  · intro u tail hu
    rcases s'.setThread_inv t next u with ⟨rfl, hp⟩ | ⟨hne, hp⟩
    · rw [hp] at hu
      exact hlocal tail hu
    · rw [hp, hthreads] at hu
      have hu' : s.fLock = some u := h.lock u (NotifyPhase.holdsLock_of_localTail hu)
      rcases htail with heq | heq
      · exact (h.tail u tail hu).trans heq.symm
      · exact absurd (Option.some.inj (hu'.symm.trans heq)) hne
  · intro u hu
    rcases s'.setThread_inv t next u with ⟨rfl, hp⟩ | ⟨-, hp⟩
    · rw [hp] at hu
      exact hsaw hu
    · rw [hp, hthreads] at hu
      exact hmsg (h.sawPort u hu)

/-- The client stays awake when the thread was not the one to send and touches neither queue nor port. -/
theorem Awake.stays (h : Awake s) (hnot : ¬ s.WillSend t) (hthreads : s'.threads = s.threads)
    (hhead : s'.dataQueue.head = s.dataQueue.head) (htail : s'.dataQueue.tail = s.dataQueue.tail)
    (hmessages : s'.messages = s.messages) (hconsumer : s'.consumer = s.consumer) :
    s'.consumer = .waiting → s'.dataQueue.head ≠ s'.dataQueue.tail →
      s'.messages ≠ 0 ∨ ∃ t', (s'.setThread t next).WillSend t' := by
  intro hw hne
  rw [hhead, htail] at hne
  refine (h.awake (hconsumer.symm.trans hw) hne).imp (fun hm => hmessages ▸ hm) ?_
  rintro ⟨u, hu⟩
  refine ⟨u, ?_⟩
  rcases s'.setThread_inv t next u with ⟨rfl, -⟩ | ⟨-, hp⟩
  · exact absurd hu hnot
  · unfold NotifyState.WillSend at hu ⊢
    rw [hp, hthreads]
    show _ ∨ ∃ _ _, _ ∧ (_ ∨ s'.dataQueue.head = _)
    rw [hhead]
    exact hu

theorem Awake.access (h : Awake s) {full : Bool} {results : List (T × NotificationResult)}
    (ha : s.access t full (s.threads t) = some (next, s', results)) : Awake (s'.setThread t next) := by
  have hlock := h.lock t
  have hlocal := h.tail t
  have hsaw := h.sawPort t
  have hnot := @NotifyState.not_willSend T s t
  cases hp : s.threads t with
  | idle =>
    rw [hp] at ha
    cases ha
  | checkPort data =>
    rw [hp] at ha hnot
    simp only [NotifyState.access] at ha
    split at ha
    · cases ha
      exact h.setThread rfl nofun (fun _ _ => id) nofun (.inl rfl) h.ports id nofun
        (h.stays (hnot nofun nofun) rfl rfl rfl rfl rfl)
    · rename_i hport
      cases ha
      refine h.setThread rfl nofun (fun _ _ => id) nofun (.inl rfl) h.ports id ?_
        (h.stays (hnot nofun nofun) rfl rfl rfl rfl rfl)
      exact fun _ => h.ports (by simpa using hport)
  | lock data =>
    rw [hp] at ha hnot hsaw
    simp only [NotifyState.access] at ha
    split at ha
    · rename_i hfree
      cases ha
      refine h.setThread rfl (fun _ => rfl) ?_ nofun (.inl rfl) h.ports id (fun _ => hsaw rfl)
        (h.stays (hnot nofun nofun) rfl rfl rfl rfl rfl)
      intro u _ hu
      rw [hfree] at hu
      cases hu
    · cases ha
  | readHead data =>
    rw [hp] at ha hnot hsaw hlock
    cases ha
    exact h.setThread rfl (fun _ => hlock rfl) (fun _ _ => id) nofun (.inl rfl) h.ports id (fun _ => hsaw rfl)
      (h.stays (hnot nofun nofun) rfl rfl rfl rfl rfl)
  | readTail data head =>
    rw [hp] at ha hnot hsaw hlock
    cases ha
    refine h.setThread rfl (fun _ => hlock rfl) (fun _ _ => id) ?_ (.inl rfl) h.ports id (fun _ => hsaw rfl)
      (h.stays (hnot nofun nofun) rfl rfl rfl rfl rfl)
    intro tail htail
    exact (Option.some.inj htail).symm
  | write data head tail =>
    rw [hp] at ha hnot hsaw hlock hlocal
    simp only [NotifyState.access] at ha
    split at ha
    · cases ha
      exact h.setThread rfl (fun _ => hlock rfl) (fun _ _ => id) nofun (.inl rfl) h.ports id (fun _ => hsaw rfl)
        (h.stays (hnot nofun nofun) rfl rfl rfl rfl rfl)
    · cases ha
      exact h.setThread rfl (fun _ => hlock rfl) (fun _ _ => id) hlocal (.inl rfl) h.ports id
        (fun _ => hsaw rfl) (h.stays (hnot nofun nofun) rfl rfl rfl rfl rfl)
  | publish head tail update =>
    rw [hp] at ha hnot hsaw hlock hlocal
    cases ha
    have hhead : (update.publish s.dataQueue).head = s.dataQueue.head := by cases update <;> rfl
    refine h.setThread rfl (fun _ => hlock rfl) (fun _ _ => id) nofun (.inr (hlock rfl)) h.ports id
      (fun _ => hsaw rfl) ?_
    intro hw _
    by_cases heq : s.dataQueue.head = s.dataQueue.tail
    · -- the client had emptied the queue up to the tail the thread has read
      refine .inr ⟨t, .inr ⟨head, tail, Function.update_self .., .inr ?_⟩⟩
      exact hhead.trans (heq.trans (hlocal tail rfl).symm)
    · rcases h.awake hw heq with hm | ⟨u, hu⟩
      · exact .inl hm
      · obtain rfl := Option.some.inj ((h.lock u hu.holdsLock).symm.trans (hlock rfl))
        exact absurd hu (hnot nofun nofun)
  | test head tail =>
    rw [hp] at ha hsaw hlock
    simp only [NotifyState.access] at ha
    split at ha
    · cases ha
      refine h.setThread rfl (fun _ => hlock rfl) (fun _ _ => id) nofun (.inl rfl) h.ports id
        (fun _ => hsaw rfl) ?_
      exact fun _ _ => .inr ⟨t, .inl (Function.update_self ..)⟩
    · rename_i hne
      cases ha
      refine h.setThread rfl (fun _ => hlock rfl) (fun _ _ => id) nofun (.inl rfl) h.ports id (fun _ => hsaw rfl)
        (h.stays ?_ rfl rfl rfl rfl rfl)
      rintro (hsend | ⟨head', tail', htest, hwill⟩)
      · rw [hp] at hsend
        cases hsend
      · rw [hp] at htest
        cases htest
        exact hne hwill
  | send =>
    rw [hp] at ha hsaw hlock
    obtain ⟨s₁, hsend, heq⟩ := Option.map_eq_some_iff.1 ha
    cases heq
    obtain ⟨messages, hmessages, rfl⟩ := NotifyState.send_spec (hsaw rfl) hsend
    exact h.setThread rfl (fun _ => hlock rfl) (fun _ _ => id) nofun (.inl rfl) h.ports id (fun _ => hsaw rfl)
      fun _ _ => .inl hmessages
  | unlock enqueued =>
    rw [hp] at ha hnot hlock
    cases ha
    refine h.setThread rfl nofun ?_ nofun (.inl rfl) h.ports id nofun
      (h.stays (hnot nofun nofun) rfl rfl rfl rfl rfl)
    intro u hne hu
    exact absurd (Option.some.inj (hu.symm.trans (hlock rfl))) hne
  | setNotificationPort =>
    rw [hp] at ha hnot
    cases ha
    exact h.setThread rfl nofun (fun _ _ => id) nofun (.inl rfl) (fun _ => rfl) (fun _ => rfl) (fun _ => rfl)
      (h.stays (hnot nofun nofun) rfl rfl rfl rfl rfl)
  | setPorts =>
    rw [hp] at ha hnot hsaw
    cases ha
    exact h.setThread rfl nofun (fun _ _ => id) nofun (.inl rfl) (fun _ => hsaw rfl) id nofun
      (h.stays (hnot nofun nofun) rfl rfl rfl rfl rfl)

theorem Awake.step (h : Awake s) {a : NotifyLabel T} {results : List (T × NotificationResult)}
    (hs : (notifyMachine T).step s a = some (s', results)) : Awake s' := by
  have henter : ∀ t phase, s.threads t = .idle → phase.holdsLock = false → phase.localTail = none →
      phase.sawPort = false → Awake (s.setThread t phase) := by
    intro t phase hidle hlock hlocal hsaw
    refine h.setThread rfl (by simp [hlock]) (fun _ _ => id) (by simp [hlocal]) (.inl rfl) h.ports id
      (by simp [hsaw]) (h.stays ?_ rfl rfl rfl rfl rfl)
    exact NotifyState.not_willSend (by simp [hidle]) (by simp [hidle])
  cases a with
  | socketFilterNotification t data =>
    simp only [notifyMachine, NotifyState.step] at hs
    split at hs
    · rename_i hidle
      cases hs
      exact henter t _ hidle rfl rfl rfl
    · cases hs
  | registerNotificationPort t =>
    simp only [notifyMachine, NotifyState.step] at hs
    split at hs
    · rename_i hidle
      cases hs
      exact henter t _ hidle rfl rfl rfl
    · cases hs
  | access t full =>
    obtain ⟨⟨next, s₁, results₁⟩, ha, heq⟩ := Option.map_eq_some_iff.1 hs
    cases heq
    exact h.access ha
  | consume dataSize =>
    obtain ⟨s₁, hc, heq⟩ := Option.map_eq_some_iff.1 hs
    cases heq
    exact h.consume hc

/-- The thread needs at most two more steps. -/
theorem NotifyState.WillSend.sends (hs : Awake s) (h : s.WillSend t) :
    ∃ as, (∀ a ∈ as, a = .access t false) ∧
      ∃ s' results, (notifyMachine T).run s as = some (s', results) ∧ s'.messages ≠ 0 := by
  have hlast : ∀ s : NotifyState T, s.threads t = .send → s.notifyMsg →
      ∃ s' results, (notifyMachine T).run s [.access t false] = some (s', results) ∧ s'.messages ≠ 0 := by
    intro s hp hmsg
    refine ⟨({ s with messages := s.messages + 1 } : NotifyState T).setThread t (.unlock true), [],
      Machine.run_single ?_, Nat.succ_ne_zero _⟩
    simp [notifyMachine, step, access, hp, sendDataAvailableNotification, hmsg]
  rcases h with hp | ⟨head, tail, hp, hwill⟩
  · exact ⟨_, by simp, hlast s hp (hs.sawPort t (by rw [hp]; rfl))⟩
  · have htest : (notifyMachine T).step s (.access t false) = some (s.setThread t .send, []) := by
      simp [notifyMachine, step, access, hp, hwill]
    obtain ⟨s', results, hr, hm⟩ := hlast (s.setThread t .send) (Function.update_self ..)
      (hs.sawPort t (by rw [hp]; rfl))
    exact ⟨[.access t false, .access t false], by simp, s', _, Machine.run_cons.2 ⟨_, _, _, htest, hr, rfl⟩, hm⟩

/-- After every run: while the client waits and the queue is not empty, a message is on the port, or a
thread that has published an entry will put one there. -/
theorem awake_of_reachable {queueSize : UInt32} {queue : Memory}
    (hr : (notifyMachine T).Reachable (NotifyState.start queueSize queue) s) (hw : s.consumer = .waiting)
    (hne : s.dataQueue.head ≠ s.dataQueue.tail) :
    s.messages ≠ 0 ∨ ∃ t, s.WillSend t ∧ ∃ as, (∀ a ∈ as, a = .access t false) ∧
      ∃ s' results, (notifyMachine T).run s as = some (s', results) ∧ s'.messages ≠ 0 := by
  have hawake : Awake s := hr.invariant awake_start fun _ _ _ _ h hs => h.step hs
  refine (hawake.awake hw hne).imp_right ?_
  rintro ⟨t, ht⟩
  exact ⟨t, ht, ht.sends hawake⟩

end Update

/-- The client registers its port and waits; a thread has just published an entry of four bytes. -/
def publishedOne : List (NotifyLabel Nat) :=
  .registerNotificationPort 0 :: List.replicate 2 (.access 0 false) ++
    .socketFilterNotification 1 [1, 2, 3, 4] :: List.replicate 6 (.access 1 false)

theorem publishedOne_awake : ∃ s, (notifyMachine Nat).Reachable (NotifyState.start 64 fun _ => 0) s ∧
    s.consumer = .waiting ∧ s.dataQueue.head ≠ s.dataQueue.tail ∧
    (s.messages ≠ 0 ∨ ∃ t, s.WillSend t ∧ ∃ as, (∀ a ∈ as, a = .access t false) ∧
      ∃ s' results, (notifyMachine Nat).run s as = some (s', results) ∧ s'.messages ≠ 0) := by
  obtain ⟨s, results, hr, hw, hne⟩ : ∃ s results,
      (notifyMachine Nat).run (NotifyState.start 64 fun _ => 0) publishedOne = some (s, results) ∧
        s.consumer = .waiting ∧ s.dataQueue.head ≠ s.dataQueue.tail := ⟨_, _, rfl, rfl, by decide⟩
  exact ⟨s, ⟨_, _, hr⟩, hw, hne, awake_of_reachable ⟨_, _, hr⟩ hw hne⟩

end NkeFilter
