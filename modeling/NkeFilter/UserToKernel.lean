import NkeFilter.Lib.Packed
import NkeFilter.DataQueueBounds
import NkeFilter.SocketAddress
import NkeFilter.SocketObject

/-!
# What the driver and its client exchange

The structures of the shared header and how they lie in memory. They are packed and aligned to four bytes so
that a 32-bit driver and a 64-bit client agree. A notification goes through the ring as its bytes
(`notifications_inOrder`); a response comes in as bytes of a length the client chose, of which the driver
looks at those of the structure only (`response_of_bytes`).
-/

namespace NkeFilter
open Lib

namespace UserToKernel

/-! ### Notifications -/

inductive NkeSocketFilterEvent where
  | NkeSocketFilterEventUnknown
  | NkeSocketFilterEventConnected
  | NkeSocketFilterEventDisconnected
  | NkeSocketFilterEventShutdown
  | NkeSocketFilterEventCantrecvmore
  | NkeSocketFilterEventCantsendmore
  | NkeSocketFilterEventClosing
  | NkeSocketFilterEventBound
  | NkeSocketFilterEventDataIn
  | NkeSocketFilterEventDataOut
  deriving DecidableEq, Repr

/-- The enumerators count from zero. -/
def NkeSocketFilterEvent.value (event : NkeSocketFilterEvent) : UInt32 := UInt32.ofNat event.ctorIdx

structure NkeSocketFilterEventIoData where
  dataSize : UInt32
  dataIndex : UInt32
  buffers : Fin kt_NkeSocketBuffersNumber → UInt8
  deriving DecidableEq

structure NkeSocketFilterEventConnectedData where
  sa_family : UInt8
  localAddress : Fin sizeofAddress → UInt8
  remoteAddress : Fin sizeofAddress → UInt8
  deriving DecidableEq

/-- The union of the event data, as large as the addresses of a connected socket, the size of which is
rounded up to four bytes. -/
def sizeofEventData : Nat := 60

/-- The structure itself; the event data is a union and therefore bytes. -/
structure NkeSocketFilterNotification where
  event : UInt32
  size : UInt32
  socketId : NkeSocketID
  flags : UInt32
  eventData : Fin sizeofEventData → UInt8
  deriving DecidableEq

def socketIdLayout : Packed NkeSocketID :=
  (Packed.word64.prod Packed.word64).map (fun s => (s.socket, s.socketSequence)) (fun p => ⟨p.1, p.2⟩)
    fun _ => rfl

def ioDataLayout : Packed NkeSocketFilterEventIoData :=
  (Packed.word.prod (Packed.word.prod (Packed.byte.array kt_NkeSocketBuffersNumber))).map
    (fun d => (d.dataSize, d.dataIndex, d.buffers)) (fun p => ⟨p.1, p.2.1, p.2.2⟩) fun _ => rfl

def connectedLayout : Packed NkeSocketFilterEventConnectedData :=
  (Packed.byte.prod ((Packed.byte.array sizeofAddress).prod ((Packed.byte.array sizeofAddress).prod
    (Packed.pad 3)))).map (fun d => (d.sa_family, d.localAddress, d.remoteAddress, ()))
      (fun p => ⟨p.1, p.2.1, p.2.2.1⟩) fun _ => rfl

def notificationLayout : Packed NkeSocketFilterNotification :=
  (Packed.word.prod (Packed.word.prod (socketIdLayout.prod (Packed.word.prod
    (Packed.byte.array sizeofEventData))))).map (fun n => (n.event, n.size, n.socketId, n.flags, n.eventData))
      (fun p => ⟨p.1, p.2.1, p.2.2.1, p.2.2.2.1, p.2.2.2.2⟩) fun _ => rfl

theorem size_ioDataLayout : ioDataLayout.size = 48 := by simp [ioDataLayout, kt_NkeSocketBuffersNumber]

theorem size_connectedLayout : connectedLayout.size = sizeofEventData := by
  simp [connectedLayout, sizeofAddress, sizeofEventData]

theorem size_notificationLayout : notificationLayout.size = sizeofNkeSocketFilterNotification := by
  simp [notificationLayout, socketIdLayout, sizeofEventData, sizeofNkeSocketFilterNotification]

/-- The union, all zeros but for the bytes stored at its start. -/
def eventDataOf (bytes : List UInt8) : Fin sizeofEventData → UInt8 := fun i => bytes.getD i 0

def NkeSocketFilterNotification.eventMemory (n : NkeSocketFilterNotification) : Memory :=
  fun p => if h : p < sizeofEventData then n.eventData ⟨p, h⟩ else 0

def NkeSocketFilterNotification.inputoutput (n : NkeSocketFilterNotification) : NkeSocketFilterEventIoData :=
  ioDataLayout.load n.eventMemory 0

def NkeSocketFilterNotification.connected (n : NkeSocketFilterNotification) : NkeSocketFilterEventConnectedData :=
  connectedLayout.load n.eventMemory 0

/-- The bit `notificationForDisconnectedSocket`. -/
def disconnectedFlag (disconnected : Bool) : UInt32 := if disconnected then 1 else 0

/-- `INIT_SOCKET_NOTIFICATION` for the events without data. -/
def initSocketNotification (so : NkeSocketObject) (event : NkeSocketFilterEvent) :
    NkeSocketFilterNotification where
  event := event.value
  size := UInt32.ofNat sizeofNkeSocketFilterNotification
  socketId := so.socketId
  flags := disconnectedFlag so.disconnected
  eventData := eventDataOf []

/-- The notifications of `FltNotify`. -/
inductive SocketNotification where
  | connected (data : NkeSocketFilterEventConnectedData)
  | closing
  | disconnected
  deriving DecidableEq

/-- The structure `FltNotify` sends. -/
def SocketNotification.init (so : NkeSocketObject) : SocketNotification → NkeSocketFilterNotification
  | connected data =>
    { initSocketNotification so .NkeSocketFilterEventConnected with
      eventData := eventDataOf (connectedLayout.store data) }
  | closing => initSocketNotification so .NkeSocketFilterEventClosing
  | disconnected => initSocketNotification so .NkeSocketFilterEventDisconnected

def eventOf : NkeFilter.NkeSocketFilterEvent → NkeSocketFilterEvent
  | .NkeSocketFilterEventDataIn => .NkeSocketFilterEventDataIn
  | .NkeSocketFilterEventDataOut => .NkeSocketFilterEventDataOut

/-- The event data of a data notification, its indices as the bytes they are. -/
def ioData (n : NkeFilter.NkeSocketFilterNotification) : NkeSocketFilterEventIoData where
  dataSize := n.dataSize
  dataIndex := n.dataIndex
  buffers := fun i => UInt8.ofNat (n.buffers.getD i 0)

/-- The structure of a data notification. -/
def ofData (n : NkeFilter.NkeSocketFilterNotification) : NkeSocketFilterNotification where
  event := (eventOf n.event).value
  size := UInt32.ofNat sizeofNkeSocketFilterNotification
  socketId := n.socketId
  flags := disconnectedFlag n.notificationForDisconnectedSocket
  eventData := eventDataOf (ioDataLayout.store (ioData n))

variable {n : NkeSocketFilterNotification}

/-- What is stored at the start of the union is read back from there. -/
theorem load_eventDataOf {α : Type*} (c : Packed α) (a : α) (hsize : c.size ≤ sizeofEventData)
    (hn : n.eventData = eventDataOf (c.store a)) : c.load n.eventMemory 0 = a := by
  refine c.load_of_read (List.ext_getElem (by simp [c.length_store]) ?_)
  intro i h₁ h₂
  have hi : i < sizeofEventData := by simp at h₁; omega
  simp [Memory.read, NkeSocketFilterNotification.eventMemory, hi, hn, eventDataOf, h₂]

theorem connected_init (so : NkeSocketObject) (data : NkeSocketFilterEventConnectedData) :
    ((SocketNotification.connected data).init so).connected = data :=
  load_eventDataOf connectedLayout _ (by rw [size_connectedLayout]) rfl

theorem inputoutput_ofData (n : NkeFilter.NkeSocketFilterNotification) : (ofData n).inputoutput = ioData n :=
  load_eventDataOf ioDataLayout _ (by rw [size_ioDataLayout, sizeofEventData]; omega) rfl

/-! ### Notifications in the ring -/

open IODataQueueMemory

/-- The ring holds these notifications, the oldest first. -/
def Notified (q : IODataQueueMemory) (ns : List NkeSocketFilterNotification) : Prop :=
  Holds q (ns.map notificationLayout.store)

/-- What `IODataQueueDequeue( queue, &notification, &dataSize )` returns for a `dataSize` of the structure,
with what `notification` holds then. -/
def receive (q : IODataQueueMemory) (notification : Memory) :
    IOReturn × NkeSocketFilterNotification × IODataQueueMemory :=
  let r := q.dequeue true (some (UInt32.ofNat sizeofNkeSocketFilterNotification))
  (r.retVal, notificationLayout.load (notification.write 0 r.data) 0, r.dataQueue)

inductive NotificationLabel where
  | notify (n : NkeSocketFilterNotification)
  /-- `notification` is what the variable of the client holds before -/
  | receive (notification : Memory)

inductive NotificationEvent where
  | sent (n : NkeSocketFilterNotification)
  | refused (n : NkeSocketFilterNotification)
  | received (n : NkeSocketFilterNotification)
  | failed (retVal : IOReturn)
  deriving DecidableEq

namespace NotificationEvent

def sentOf : NotificationEvent → Option NkeSocketFilterNotification
  | sent n => some n
  | _ => none

def receivedOf : NotificationEvent → Option NkeSocketFilterNotification
  | received n => some n
  | _ => none

end NotificationEvent

/-- `socketFilterNotification` under its lock, and the client that dequeues. -/
def notificationMachine : Machine IODataQueueMemory NotificationLabel NotificationEvent where
  step q
    | .notify n =>
      let r := q.enqueueWithBarrier (notificationLayout.store n)
      some (r.dataQueue, [if r.result then .sent n else .refused n])
    | .receive notification =>
      let (retVal, n, q) := receive q notification
      some (q, [if retVal = .kIOReturnSuccess then .received n else .failed retVal])

variable {q q' : IODataQueueMemory} {ns : List NkeSocketFilterNotification}

theorem entrySize_notification (n : NkeSocketFilterNotification) :
    entrySize (notificationLayout.store n) = 92 := by
  rw [entrySize, notificationLayout.length_store, size_notificationLayout]
  rfl

theorem Notified.enqueue (hq : Notified q ns) (hsize : 92 ≤ q.queueSize.toNat) (n : NkeSocketFilterNotification)
    (hr : (q.enqueueWithBarrier (notificationLayout.store n)).result = true) :
    Notified (q.enqueueWithBarrier (notificationLayout.store n)).dataQueue (ns ++ [n]) := by
  have h := Holds.enqueue hq (by rw [entrySize_notification]; exact hsize) hr
  rwa [Notified, List.map_append, List.map_singleton]

/-- An empty ring that can hold two takes one. -/
theorem Notified.result_of_nil (hq : Notified q []) (hsize : 184 ≤ q.queueSize.toNat)
    (n : NkeSocketFilterNotification) : (q.enqueueWithBarrier (notificationLayout.store n)).result = true :=
  enqueue_result_of_empty (UInt32.toNat_inj.1 ((Holds.layout hq).head_eq_tail_iff.2 rfl))
    (by rw [entrySize_notification]; omega)

theorem Notified.receive_nil (hq : Notified q []) (notification : Memory) :
    (receive q notification).1 = .kIOReturnUnderrun ∧ (receive q notification).2.2 = q := by
  have hr := Holds.dequeue_nil hq (UInt32.ofNat sizeofNkeSocketFilterNotification)
  exact ⟨hr, dequeue_of_error (by rw [hr]; decide)⟩

/-- The oldest notification comes out as it went in; its size never exceeds the variable. -/
theorem Notified.receive_cons (hq : Notified q (n :: ns)) (notification : Memory) :
    ∃ q', receive q notification = (.kIOReturnSuccess, n, q') ∧ Notified q' ns := by
  obtain ⟨-, ⟨-, hr, hd, hq'⟩ | ⟨hlt, -⟩⟩ :=
    Holds.dequeue hq (UInt32.ofNat sizeofNkeSocketFilterNotification)
  · refine ⟨_, ?_, hq'⟩
    simp only [receive, hr, hd, Packed.load_write]
  · rw [notificationLayout.length_store, size_notificationLayout] at hlt
    exact absurd hlt (by decide)

theorem queueSize_enqueue (q : IODataQueueMemory) (data : List UInt8) :
    (q.enqueueWithBarrier data).dataQueue.queueSize = q.queueSize := by
  have hspec := enqueue_spec q data
  generalize q.enqueueWithBarrier data = r at hspec
  cases hspec <;> rfl

theorem queueSize_receive (q : IODataQueueMemory) (notification : Memory) :
    (receive q notification).2.2.queueSize = q.queueSize := by
  unfold receive IODataQueueMemory.dequeue
  simp only
  repeat' split
  all_goals rfl

/-- A ring of this size holds notifications. -/
def Sized (size : UInt32) (q : IODataQueueMemory) (ns : List NkeSocketFilterNotification) : Prop :=
  q.queueSize = size ∧ Notified q ns

theorem notificationMachine_isFifo {size : UInt32} (hsize : 92 ≤ size.toNat) :
    notificationMachine.IsFifo (fun _ _ => True) (Sized size) NotificationEvent.sentOf
      NotificationEvent.receivedOf := by
  rintro q a q' e ns ⟨rfl, hq⟩ - hs
  cases a with
  | notify n =>
    obtain ⟨rfl, rfl⟩ := Prod.mk.inj (Option.some.inj hs)
    by_cases hr : (q.enqueueWithBarrier (notificationLayout.store n)).result
    · exact ⟨ns ++ [n], ⟨queueSize_enqueue .., hq.enqueue hsize n hr⟩,
        by simp [hr, List.filterMap_cons, NotificationEvent.sentOf, NotificationEvent.receivedOf]⟩
    · refine ⟨ns, ?_, by simp [hr, List.filterMap_cons, NotificationEvent.sentOf, NotificationEvent.receivedOf]⟩
      rw [enqueue_of_not_result (by simpa using hr)]
      exact ⟨rfl, hq⟩
  | receive notification =>
    cases ns with
    | nil =>
      obtain ⟨hr, hq'⟩ := hq.receive_nil notification
      simp only [notificationMachine, hr, hq'] at hs
      obtain ⟨rfl, rfl⟩ := Prod.mk.inj (Option.some.inj hs)
      exact ⟨[], ⟨rfl, hq⟩, rfl⟩
    | cons n ns =>
      obtain ⟨q₁, hr, hq₁⟩ := hq.receive_cons notification
      have hsame := queueSize_receive q notification
      simp only [notificationMachine, hr, if_true] at hs hsame
      obtain ⟨rfl, rfl⟩ := Prod.mk.inj (Option.some.inj hs)
      exact ⟨ns, ⟨hsame, hq₁⟩, by simp [NotificationEvent.sentOf, NotificationEvent.receivedOf]⟩

/-- The client only ever fails to get a notification when there is none. -/
theorem failed_underrun {a : NotificationLabel} {e : List NotificationEvent} {retVal : IOReturn}
    (hq : Notified q ns) (hs : notificationMachine.step q a = some (q', e)) (hf : .failed retVal ∈ e) :
    retVal = .kIOReturnUnderrun := by
  cases a with
  | notify n =>
    obtain ⟨rfl, rfl⟩ := Prod.mk.inj (Option.some.inj hs)
    split at hf <;> simp at hf
  | receive notification =>
    cases ns with
    | nil =>
      obtain ⟨hr, -⟩ := hq.receive_nil notification
      simp only [notificationMachine, hr] at hs
      obtain ⟨-, rfl⟩ := Prod.mk.inj (Option.some.inj hs)
      simpa using hf
    | cons n ns =>
      obtain ⟨q₁, hr, -⟩ := hq.receive_cons notification
      simp only [notificationMachine, hr, if_true] at hs
      obtain ⟨-, rfl⟩ := Prod.mk.inj (Option.some.inj hs)
      simp at hf

/-- What the client has got of the notifications that were sent. -/
structure InOrder (q : IODataQueueMemory) (h : List NotificationEvent) : Prop where
  received : h.filterMap NotificationEvent.receivedOf <+: h.filterMap NotificationEvent.sentOf
  underrun : ∀ notification, (receive q notification).1 = .kIOReturnUnderrun ↔
    h.filterMap NotificationEvent.receivedOf = h.filterMap NotificationEvent.sentOf
  failed : ∀ retVal, .failed retVal ∈ h → retVal = .kIOReturnUnderrun
  /-- a client that has got everything has made room -/
  accepted : h.filterMap NotificationEvent.receivedOf = h.filterMap NotificationEvent.sentOf →
    ∀ n, (q.enqueueWithBarrier (notificationLayout.store n)).result = true

/-- From an empty ring in which two notifications fit, whatever was in it and in the client's variable
before: every field of every notification arrives as it was sent, in order. -/
theorem notifications_inOrder {q₀ : IODataQueueMemory} {as : List NotificationLabel}
    {h : List NotificationEvent} (hsize : 184 ≤ q₀.queueSize.toNat) (hlt : q₀.queueSize.toNat < 2 ^ 31)
    (hhead : q₀.head = 0) (htail : q₀.tail = 0) (hr : notificationMachine.run q₀ as = some (q, h)) :
    InOrder q h := by
  have hstart : Notified q₀ [] := by
    refine ⟨hlt, ?_⟩
    rw [hhead, htail]
    exact .straight (Nat.zero_le _) rfl
  have hend := Machine.run_induction (fun q h => ∃ ns, Sized q₀.queueSize q ns ∧
      h.filterMap NotificationEvent.sentOf = h.filterMap NotificationEvent.receivedOf ++ ns ∧
      ∀ retVal, .failed retVal ∈ h → retVal = .kIOReturnUnderrun) [] ⟨[], ⟨rfl, hstart⟩, rfl, by simp⟩ ?_
    Machine.along_true hr
  · obtain ⟨ns, ⟨hsame, hq⟩, heq, hfailed⟩ := hend
    rw [List.nil_append] at heq hfailed
    rw [← hsame] at hsize
    have hall : h.filterMap NotificationEvent.receivedOf = h.filterMap NotificationEvent.sentOf ↔ ns = [] := by
      rw [heq]
      exact ⟨fun h => by simpa using h, fun h => by simp [h]⟩
    refine ⟨⟨ns, heq.symm⟩, ?_, hfailed, ?_⟩
    · intro notification
      rw [hall]
      cases ns with
      | nil => exact ⟨fun _ => rfl, fun _ => (hq.receive_nil notification).1⟩
      | cons n ns =>
        obtain ⟨q₁, hr, -⟩ := hq.receive_cons notification
        simp [hr]
    · intro hdone n
      obtain rfl := hall.1 hdone
      exact hq.result_of_nil hsize n
  · rintro q h a q' e ⟨ns, hq, heq, hfailed⟩ - hs
    obtain ⟨ns', hq', heq'⟩ := notificationMachine_isFifo (by omega) q a q' e ns hq trivial hs
    refine ⟨ns', hq', ?_, ?_⟩
    · rw [List.filterMap_append, List.filterMap_append, heq, List.append_assoc, heq', List.append_assoc]
    · intro retVal hf
      rcases List.mem_append.1 hf with hf | hf
      · exact hfailed retVal hf
      · exact failed_underrun hq.2 hs hf

/-- A ring that two notifications fit in. -/
def twoNotifications : List NotificationLabel :=
  [.notify ⟨8, 88, ⟨1, 1⟩, 0, fun _ => 7⟩, .notify ⟨9, 88, ⟨1, 1⟩, 0, fun _ => 0⟩, .receive fun _ => 3]

theorem twoNotifications_inOrder : ∃ q h,
    notificationMachine.run ⟨184, 0, 0, fun _ => 255⟩ twoNotifications = some (q, h) ∧ InOrder q h := by
  obtain ⟨q, h, hr⟩ : ∃ q h, notificationMachine.run ⟨184, 0, 0, fun _ => 255⟩ twoNotifications =
      some (q, h) := ⟨_, _, rfl⟩
  exact ⟨q, h, hr, notifications_inOrder (by decide) (by decide) rfl rfl hr⟩

/-! ### Responses -/

structure NkeSocketDataProperty where
  type : UInt32
  dataIndex : UInt32
  socketId : NkeSocketID
  socketSequence : UInt64
  allowData : UInt8
  deriving DecidableEq

structure NkeSocketFilterServiceResponse where
  property : Fin kt_NkeSocketBuffersNumber → NkeSocketDataProperty
  buffersToRelease : Fin kt_NkeSocketBuffersNumber → UInt8
  deriving DecidableEq

/-- One byte of permission, then up to the next four-byte boundary. -/
def propertyLayout : Packed NkeSocketDataProperty :=
  (Packed.word.prod (Packed.word.prod (socketIdLayout.prod (Packed.word64.prod (Packed.byte.prod
    (Packed.pad 3)))))).map (fun p => (p.type, p.dataIndex, p.socketId, p.socketSequence, p.allowData, ()))
      (fun p => ⟨p.1, p.2.1, p.2.2.1, p.2.2.2.1, p.2.2.2.2.1⟩) fun _ => rfl

def responseLayout : Packed NkeSocketFilterServiceResponse :=
  ((propertyLayout.array kt_NkeSocketBuffersNumber).prod (Packed.byte.array kt_NkeSocketBuffersNumber)).map
    (fun r => (r.property, r.buffersToRelease)) (fun p => ⟨p.1, p.2⟩) fun _ => rfl

theorem size_responseLayout : responseLayout.size = 1480 := by
  simp [responseLayout, propertyLayout, socketIdLayout, kt_NkeSocketBuffersNumber]

/-- The byte means something; the last three of each property are padding. -/
def responseByte (p : Nat) : Prop := p < 1440 → p % 36 < 33

theorem tells_propertyLayout : propertyLayout.Tells fun p => p < 33 := by
  have hsocketId : socketIdLayout.Tells fun _ => True := by
    refine ((Packed.tells_word64.prod Packed.tells_word64).map ?_).congr fun _ _ => by rw [ite_self]
    rintro ⟨a, b⟩ ⟨a', b'⟩ h
    cases h
    rfl
  have hfields : Function.Injective fun p : UInt32 × UInt32 × NkeSocketID × UInt64 × UInt8 × Unit =>
      (⟨p.1, p.2.1, p.2.2.1, p.2.2.2.1, p.2.2.2.2.1⟩ : NkeSocketDataProperty) := by
    rintro ⟨a, b, c, d, e, _⟩ ⟨a', b', c', d', e', _⟩ h
    cases h
    rfl
  have hsize : socketIdLayout.size = 16 := rfl
  refine (Packed.Tells.map (Packed.tells_word.prod (Packed.tells_word.prod (hsocketId.prod
    (Packed.tells_word64.prod (Packed.tells_byte.prod (Packed.tells_pad 3)))))) hfields).congr fun p _ => ?_
  simp only [Packed.size_word, Packed.size_word64, Packed.size_byte, hsize]
  grind

theorem tells_responseLayout : responseLayout.Tells responseByte := by
  have hsize : propertyLayout.size = 36 := rfl
  refine (((tells_propertyLayout.array _).prod (Packed.tells_byte.array _)).map ?_).congr fun p _ => ?_
  · rintro ⟨a, b⟩ ⟨a', b'⟩ h
    cases h
    rfl
  · have hall : (propertyLayout.array kt_NkeSocketBuffersNumber).size = 1440 := by
      rw [Packed.size_array, hsize]
      rfl
    rw [hall, hsize, responseByte]
    split
    · rename_i hlt
      exact ⟨fun h _ => h, fun h => h hlt⟩
    · rename_i hge
      exact ⟨fun _ h => absurd h hge, fun _ => trivial⟩

/-- What `*vOutSizeP` becomes, and what is done with the bytes a client passes to
`kt_NkeUserClientSocketFilterResponse`: they are refused, or taken for the structure and handed to
`processServiceResponse` of `gSocketFilter`. -/
def processServiceSocketFilterResponse {F : Type} (gSocketFilter : Option F) (vInBuffer : Memory) (inSize : Nat) :
    UInt32 × Except IOReturn (F × NkeSocketFilterServiceResponse) :=
  if inSize < responseLayout.size then (0, .error .kIOReturnBadArgument)
  else match gSocketFilter with
    | none => (0, .error .kIOReturnBadArgument)
    | some filter => (0, .ok (filter, responseLayout.load vInBuffer 0))

variable {F : Type} {gSocketFilter : Option F} {filter : F} {bytes bytes' : List UInt8}

/-- How the driver treats the bytes of a client: it refuses those that are too few, and all when it has no
filter; it looks at none behind the ones it was given; it understands what was stored, whatever follows; and
it takes two byte strings for the same response exactly when they agree in every byte that means something. -/
structure ResponseOfBytes (gSocketFilter : Option F) (bytes : List UInt8) : Prop where
  refused : ∀ m : Memory, processServiceSocketFilterResponse gSocketFilter (m.write 0 bytes) bytes.length =
    (0, .error .kIOReturnBadArgument) ↔ bytes.length < 1480 ∨ gSocketFilter = none
  inside : ∀ m m' : Memory, processServiceSocketFilterResponse gSocketFilter (m.write 0 bytes) bytes.length =
    processServiceSocketFilterResponse gSocketFilter (m'.write 0 bytes) bytes.length
  understood : ∀ filter r rest, gSocketFilter = some filter → bytes = responseLayout.store r ++ rest →
    ∀ m : Memory, processServiceSocketFilterResponse gSocketFilter (m.write 0 bytes) bytes.length =
      (0, .ok (filter, r))
  told : ∀ bytes' : List UInt8, gSocketFilter.isSome → 1480 ≤ bytes.length → 1480 ≤ bytes'.length →
    ∀ m m' : Memory, processServiceSocketFilterResponse gSocketFilter (m.write 0 bytes) bytes.length =
        processServiceSocketFilterResponse gSocketFilter (m'.write 0 bytes') bytes'.length ↔
      ∀ p < 1480, responseByte p → bytes[p]? = bytes'[p]?

theorem processServiceSocketFilterResponse_of_le {m : Memory} {inSize : Nat} (h : 1480 ≤ inSize) :
    processServiceSocketFilterResponse (some filter) m inSize = (0, .ok (filter, responseLayout.load m 0)) := by
  rw [processServiceSocketFilterResponse, size_responseLayout, if_neg (by omega)]

theorem processServiceSocketFilterResponse_refused {m : Memory} {inSize : Nat}
    (h : inSize < 1480 ∨ gSocketFilter = none) :
    processServiceSocketFilterResponse gSocketFilter m inSize = (0, .error .kIOReturnBadArgument) := by
  unfold processServiceSocketFilterResponse
  rw [size_responseLayout]
  rcases h with hlt | rfl
  · rw [if_pos hlt]
  · rw [ite_self]

/-- Responses are told apart by the bytes that mean something. -/
theorem load_eq_iff (hlen : 1480 ≤ bytes.length) (hlen' : 1480 ≤ bytes'.length) (m m' : Memory) :
    responseLayout.load (m.write 0 bytes) 0 = responseLayout.load (m'.write 0 bytes') 0 ↔
      ∀ p < 1480, responseByte p → bytes[p]? = bytes'[p]? := by
  rw [tells_responseLayout, size_responseLayout]
  refine forall₂_congr fun p hp => ?_
  rw [Nat.zero_add, Memory.write_apply_of_inside (Nat.zero_le _) (by omega),
    Memory.write_apply_of_inside (Nat.zero_le _) (by omega), List.getElem?_eq_getElem (by omega),
    List.getElem?_eq_getElem (by omega), Option.some_inj]
  rfl

/-- For all bytes a client may pass, with or without a filter. -/
theorem response_of_bytes {F : Type} (gSocketFilter : Option F) (bytes : List UInt8) :
    ResponseOfBytes gSocketFilter bytes := by
  by_cases hrefused : bytes.length < 1480 ∨ gSocketFilter = none
  · have hbad (m : Memory) : processServiceSocketFilterResponse gSocketFilter (m.write 0 bytes) bytes.length =
        (0, .error .kIOReturnBadArgument) := processServiceSocketFilterResponse_refused hrefused
    refine ⟨fun m => ⟨fun _ => hrefused, fun _ => hbad m⟩, fun m m' => (hbad m).trans (hbad m').symm, ?_, ?_⟩
    · rintro filter r rest rfl rfl
      rw [List.length_append, responseLayout.length_store, size_responseLayout] at hrefused
      rcases hrefused with hlt | hnone
      · omega
      · cases hnone
    · intro bytes' hsome hlen
      rcases hrefused with hlt | rfl
      · omega
      · cases hsome
  · rw [not_or, Nat.not_lt] at hrefused
    obtain ⟨hlen, hfilter⟩ := hrefused
    obtain ⟨filter, rfl⟩ := Option.ne_none_iff_exists'.1 hfilter
    have htaken (m : Memory) : processServiceSocketFilterResponse (some filter) (m.write 0 bytes) bytes.length =
        (0, .ok (filter, responseLayout.load (m.write 0 bytes) 0)) := processServiceSocketFilterResponse_of_le hlen
    constructor
    · intro m
      rw [htaken]
      refine ⟨fun h => by simp at h, ?_⟩
      rintro (hlt | hnone)
      · omega
      · cases hnone
    · intro m m'
      rw [htaken, htaken, (load_eq_iff hlen hlen m m').2 fun _ _ _ => rfl]
    · rintro filter' r rest hsome rfl m
      obtain rfl := Option.some.inj hsome
      rw [htaken]
      have hread : (m.write 0 (responseLayout.store r ++ rest)).read 0 responseLayout.size =
          responseLayout.store r := by
        rw [Memory.read_write_take (by rw [size_responseLayout]; exact hlen), ← responseLayout.length_store r,
          List.take_left]
      rw [responseLayout.load_of_read hread]
    · intro bytes' _ _ hlen' m m'
      rw [htaken, processServiceSocketFilterResponse_of_le hlen', ← load_eq_iff hlen hlen' m m']
      simp

end UserToKernel
end NkeFilter
