import NkeFilter.Lib.RefHeap
import NkeFilter.Lib.Tally

/-!
# The resources of a user client

For each type of notification a client has a lock, a data queue and the memory descriptor of the queue.
`start` allocates them, with smaller and smaller queues when memory is short, and `freeAllocatedResources`
gives back what there is, one pointer after the other (`freeAccess_spec`); `newUserClient` frees a client that
could not be attached or started. Whatever fails, the client ends with all of its resources, the queue between
16 Kb and 1 Mb, or with none (`newUserClient_spec`).
-/

namespace NkeFilter
open Lib

inductive NkeNotifyType where
  | kt_NkeNotifyTypeUnknown
  | kt_NkeNotifyTypeSocketFilter
  deriving DecidableEq, Repr

instance : Fintype NkeNotifyType where
  elems := {.kt_NkeNotifyTypeUnknown, .kt_NkeNotifyTypeSocketFilter}
  complete type := by cases type <;> decide

/-- The types below `kt_NkeNotifyTypeMax` in order. -/
def NkeNotifyType.types : List NkeNotifyType := [.kt_NkeNotifyTypeUnknown, .kt_NkeNotifyTypeSocketFilter]

/-- `++type`, while it is below `kt_NkeNotifyTypeMax`. -/
def NkeNotifyType.next : NkeNotifyType → Option NkeNotifyType
  | kt_NkeNotifyTypeUnknown => some kt_NkeNotifyTypeSocketFilter
  | kt_NkeNotifyTypeSocketFilter => none

/-- What a client has for one type; the pointers are `none` when they are `NULL`. -/
structure NotifyQueue where
  fQueueSize : ℕ
  fLock : Option ℕ
  fDataQueue : Option ℕ
  /-- the capacity the queue was allocated with -/
  capacity : ℕ
  fSharedMemory : Option ℕ
  fNotificationPort : ℕ
  deriving DecidableEq, Repr

abbrev ClientQueues := NkeNotifyType → NotifyQueue

/-! ### Allocation -/

/-- The outcomes of the calls `start` makes. -/
structure StartOutcome where
  superStart : Bool
  lockAlloc : NkeNotifyType → Bool
  /-- `IODataQueue::withCapacity` -/
  withCapacity : NkeNotifyType → ℕ → Bool
  getMemoryDescriptor : NkeNotifyType → Bool

/-- The loop that decreases the queue size: the size it ends with, and the capacity of the queue it got. -/
def decreaseQueueSize (withCapacity : ℕ → Bool) (fQueueSize : ℕ) : ℕ × Option ℕ :=
  if 0x8000 < fQueueSize then
    let fQueueSize := fQueueSize / 2
    if withCapacity (fQueueSize / 2) then (fQueueSize, some (fQueueSize / 2))
    else decreaseQueueSize withCapacity fQueueSize
  else (fQueueSize, none)

def allocateQueue (withCapacity : ℕ → Bool) (fQueueSize : ℕ) : ℕ × Option ℕ :=
  if withCapacity fQueueSize then (fQueueSize, some fQueueSize) else decreaseQueueSize withCapacity fQueueSize

/-- One turn of the loop of `start`, and whether it went through. -/
def NotifyQueue.start (queue : NotifyQueue) (lockAlloc : Bool) (withCapacity : ℕ → Bool)
    (getMemoryDescriptor : Bool) (heap : RefHeap) : Bool × NotifyQueue × RefHeap :=
  if !lockAlloc then (false, queue, heap)
  else
    let (fLock, heap) := heap.alloc
    let (fQueueSize, capacity) := allocateQueue withCapacity queue.fQueueSize
    let queue := { queue with fLock := some fLock, fQueueSize }
    match capacity with
    | none => (false, queue, heap)
    | some capacity =>
      let (fDataQueue, heap) := heap.alloc
      let queue := { queue with fDataQueue := some fDataQueue, capacity }
      if !getMemoryDescriptor then (false, queue, heap)
      else
        let (fSharedMemory, heap) := heap.alloc
        (true, { queue with fSharedMemory := some fSharedMemory }, heap)

namespace ClientQueues

/-- `withTask`: the sizes, and no resources. -/
def withTask : ClientQueues := fun type =>
  { fQueueSize := if type = .kt_NkeNotifyTypeSocketFilter then 0x100000 else 0x80000
    fLock := none
    fDataQueue := none
    capacity := 0
    fSharedMemory := none
    fNotificationPort := 0 }

/-- The loop of `start` from some type on. -/
def startTypes (o : StartOutcome) :
    List NkeNotifyType → ClientQueues → RefHeap → Bool × ClientQueues × RefHeap
  | [], queues, heap => (true, queues, heap)
  | type :: types, queues, heap =>
    if type = .kt_NkeNotifyTypeUnknown then startTypes o types queues heap
    else
      let (started, queue, heap) := (queues type).start (o.lockAlloc type) (o.withCapacity type)
        (o.getMemoryDescriptor type) heap
      let queues := Function.update queues type queue
      if started then startTypes o types queues heap else (false, queues, heap)

def start (o : StartOutcome) (queues : ClientQueues) (heap : RefHeap) : Bool × ClientQueues × RefHeap :=
  if !o.superStart then (false, queues, heap) else startTypes o NkeNotifyType.types queues heap

end ClientQueues

/-- The accesses of one turn of the loop of `freeAllocatedResources`, in order. -/
inductive FreeAccess where
  /-- the message `kt_NkeStopListeningToMessages` -/
  | enqueue
  | releaseSharedMemory
  | clearSharedMemory
  | releaseDataQueue
  | clearDataQueue
  | freeLock
  | clearLock
  deriving DecidableEq, Repr

def FreeAccess.next : FreeAccess → Option FreeAccess
  | enqueue => some releaseSharedMemory
  | releaseSharedMemory => some clearSharedMemory
  | clearSharedMemory => some releaseDataQueue
  | releaseDataQueue => some clearDataQueue
  | clearDataQueue => some freeLock
  | freeLock => some clearLock
  | clearLock => none

namespace NotifyQueue

def freeAccess (queue : NotifyQueue) (heap : RefHeap) : FreeAccess → Option (NotifyQueue × RefHeap)
  | .enqueue => do
    if let some fDataQueue := queue.fDataQueue then heap.deref fDataQueue
    return (queue, heap)
  | .releaseSharedMemory => do return (queue, ← heap.releaseAny queue.fSharedMemory)
  | .clearSharedMemory => some ({ queue with fSharedMemory := none }, heap)
  | .releaseDataQueue => do return (queue, ← heap.releaseAny queue.fDataQueue)
  | .clearDataQueue => some ({ queue with fDataQueue := none }, heap)
  | .freeLock => do return (queue, ← heap.releaseAny queue.fLock)
  | .clearLock => some ({ queue with fLock := none }, heap)

/-- One turn of the loop. -/
def free (queue : NotifyQueue) (heap : RefHeap) : Option (NotifyQueue × RefHeap) := do
  let (queue, heap) ← queue.freeAccess heap .enqueue
  let (queue, heap) ← queue.freeAccess heap .releaseSharedMemory
  let (queue, heap) ← queue.freeAccess heap .clearSharedMemory
  let (queue, heap) ← queue.freeAccess heap .releaseDataQueue
  let (queue, heap) ← queue.freeAccess heap .clearDataQueue
  let (queue, heap) ← queue.freeAccess heap .freeLock
  queue.freeAccess heap .clearLock

end NotifyQueue

namespace ClientQueues

/-- The loop of `freeAllocatedResources` from some type on. -/
def freeTypes : List NkeNotifyType → ClientQueues → RefHeap → Option (ClientQueues × RefHeap)
  | [], queues, heap => some (queues, heap)
  | type :: types, queues, heap => do
    let (queue, heap) ← (queues type).free heap
    freeTypes types (Function.update queues type queue) heap

def freeAllocatedResources (queues : ClientQueues) (heap : RefHeap) : Option (ClientQueues × RefHeap) :=
  freeTypes NkeNotifyType.types queues heap

end ClientQueues

/-- The outcomes of the calls `newUserClient` makes. -/
structure NewUserClientOutcome where
  /-- the type is `kNkeUserClientCookie` -/
  cookie : Bool
  /-- `new NkeIOUserClient` -/
  alloc : Bool
  init : Bool
  attach : Bool
  start : StartOutcome

inductive NewUserClientReturn where
  | kIOReturnSuccess
  | kIOReturnBadArgument
  | kIOReturnNoResources
  deriving DecidableEq, Repr

/-- What it returns and, when it succeeds, the queues of the new client. A client that it gives up has one
reference, so `free` follows its release. -/
def newUserClient (o : NewUserClientOutcome) (heap : RefHeap) :
    Option (NewUserClientReturn × Option ClientQueues × RefHeap) :=
  if !o.cookie then some (.kIOReturnBadArgument, none, heap)
  else if !o.alloc then some (.kIOReturnNoResources, none, heap)
  else
    let queues := ClientQueues.withTask
    if !o.init ∨ !o.attach then do
      let (_, heap) ← queues.freeAllocatedResources heap
      return (.kIOReturnNoResources, none, heap)
    else
      let (started, queues, heap) := queues.start o.start heap
      if !started then do
        let (_, heap) ← queues.freeAllocatedResources heap
        return (.kIOReturnNoResources, none, heap)
      else some (.kIOReturnSuccess, some queues, heap)

/-! ### Ownership -/

open RefHeap

namespace NotifyQueue
variable {queue : NotifyQueue} {heap : RefHeap} {rest : ℕ → ℕ}

/-- The references a client holds for one type. -/
def held (queue : NotifyQueue) : ℕ → ℕ := one queue.fLock + one queue.fDataQueue + one queue.fSharedMemory

structure Unallocated (queue : NotifyQueue) : Prop where
  fLock : queue.fLock = none
  fDataQueue : queue.fDataQueue = none
  fSharedMemory : queue.fSharedMemory = none

structure Ready (queue : NotifyQueue) : Prop where
  fLock : queue.fLock ≠ none
  fDataQueue : queue.fDataQueue ≠ none
  fSharedMemory : queue.fSharedMemory ≠ none
  capacity : ∃ k, 14 ≤ k ∧ k ≤ 20 ∧ queue.capacity = 2 ^ k

theorem Unallocated.held (h : queue.Unallocated) : queue.held = 0 := by
  rw [NotifyQueue.held, h.fLock, h.fDataQueue, h.fSharedMemory]
  rfl

theorem decreaseQueueSize_capacity {withCapacity : ℕ → Bool} {capacity : ℕ} (k : ℕ)
    (h : (decreaseQueueSize withCapacity (2 ^ k)).2 = some capacity) :
    ∃ j, 14 ≤ j ∧ j ≤ k ∧ capacity = 2 ^ j := by
  induction k with
  | zero =>
    rw [decreaseQueueSize, if_neg (by decide)] at h
    cases h
  | succ k ih =>
    rw [decreaseQueueSize] at h
    by_cases hbig : 0x8000 < 2 ^ (k + 1)
    · have hk : 15 ≤ k := by
        have := (Nat.pow_lt_pow_iff_right (by decide : 1 < 2)).1 (show 2 ^ 15 < 2 ^ (k + 1) from hbig)
        omega
      have hhalf : 2 ^ (k + 1) / 2 = 2 ^ k := by
        rw [pow_succ, Nat.mul_div_cancel _ (by decide)]
      rw [if_pos hbig] at h
      simp only [hhalf] at h
      by_cases hgot : withCapacity (2 ^ k / 2)
      · rw [if_pos hgot] at h
        obtain ⟨j, rfl⟩ : ∃ j, k = j + 1 := ⟨k - 1, by omega⟩
        refine ⟨j, by omega, by omega, ?_⟩
        rw [← Option.some.inj h, pow_succ, Nat.mul_div_cancel _ (by decide)]
      · rw [if_neg hgot] at h
        obtain ⟨j, hle, hj, hcap⟩ := ih h
        exact ⟨j, hle, by omega, hcap⟩
    · rw [if_neg hbig] at h
      cases h

theorem allocateQueue_capacity {withCapacity : ℕ → Bool} {capacity k : ℕ} (hk : 14 ≤ k)
    (h : (allocateQueue withCapacity (2 ^ k)).2 = some capacity) :
    ∃ j, 14 ≤ j ∧ j ≤ k ∧ capacity = 2 ^ j := by
  rw [allocateQueue] at h
  split at h
  · exact ⟨k, hk, le_rfl, (Option.some.inj h).symm⟩
  · exact decreaseQueueSize_capacity k h

/-- The client holds what `start` has allocated, and when it went through nothing is missing. -/
structure Started (rest : ℕ → ℕ) (r : Bool × NotifyQueue × RefHeap) : Prop where
  ledger : Ledger r.2.2 (rest + r.2.1.held)
  ready : r.1 → r.2.1.Ready

theorem Started.failed (h : Ledger heap (rest + queue.held)) : Started rest (false, queue, heap) :=
  ⟨h, fun hstarted => by cases hstarted⟩

theorem start_spec {lockAlloc getMemoryDescriptor : Bool} {withCapacity : ℕ → Bool} (hnone : queue.Unallocated)
    (hsize : ∃ k, 14 ≤ k ∧ k ≤ 20 ∧ queue.fQueueSize = 2 ^ k) (h : Ledger heap rest) :
    Started rest (queue.start lockAlloc withCapacity getMemoryDescriptor heap) := by
  cases lockAlloc with
  | false =>
    refine .failed ?_
    rw [hnone.held, add_zero]
    exact h
  | true =>
    have hlock := h.alloc
    have hqueue := hlock.alloc
    have hmemory := hqueue.alloc
    obtain ⟨k, hk, hle, hpow⟩ := hsize
    have hcapacity : ∀ capacity, (allocateQueue withCapacity queue.fQueueSize).2 = some capacity →
        ∃ j, 14 ≤ j ∧ j ≤ k ∧ capacity = 2 ^ j := by
      rw [hpow]
      exact fun _ => allocateQueue_capacity hk
    simp only [start, Bool.not_true, Bool.false_eq_true, if_false]
    generalize allocateQueue withCapacity queue.fQueueSize = allocated at hcapacity
    obtain ⟨fQueueSize, _ | capacity⟩ := allocated
    · refine .failed ?_
      simpa [held, hnone.fDataQueue, hnone.fSharedMemory] using hlock
    · obtain ⟨j, hj, hjk, hcap⟩ := hcapacity capacity rfl
      cases getMemoryDescriptor with
      | false =>
        refine .failed ?_
        simpa [held, hnone.fSharedMemory, add_assoc] using hqueue
      | true =>
        refine ⟨?_, fun _ => ⟨by simp, by simp, by simp, j, hj, hjk.trans hle, hcap⟩⟩
        simpa [held, add_assoc] using hmemory

/-- What is left of the references before an access: the one that was released is not held, though the pointer
may still be there. `none` is after the last access. -/
def owned (queue : NotifyQueue) : Option FreeAccess → NotifyQueue
  | some .clearSharedMemory => { queue with fSharedMemory := none }
  | some .clearDataQueue => { queue with fDataQueue := none }
  | some .clearLock => { queue with fLock := none }
  | _ => queue

/-- The pointers that were cleared before an access. -/
def Cleared (queue : NotifyQueue) : Option FreeAccess → Prop
  | some .enqueue | some .releaseSharedMemory | some .clearSharedMemory => True
  | some .releaseDataQueue | some .clearDataQueue => queue.fSharedMemory = none
  | some .freeLock | some .clearLock => queue.fSharedMemory = none ∧ queue.fDataQueue = none
  | none => queue.Unallocated

variable {access : Option FreeAccess}

theorem owned_fSharedMemory (hheld : access ≠ some .clearSharedMemory) :
    (queue.owned access).fSharedMemory = queue.fSharedMemory := by
  rcases access with _ | _ | _ | _ | _ | _ | _ | _ <;> first | rfl | exact absurd rfl hheld

theorem owned_fDataQueue (hheld : access ≠ some .clearDataQueue) :
    (queue.owned access).fDataQueue = queue.fDataQueue := by
  rcases access with _ | _ | _ | _ | _ | _ | _ | _ <;> first | rfl | exact absurd rfl hheld

theorem Unallocated.owned (h : queue.Unallocated) : queue.owned access = queue := by
  obtain ⟨fQueueSize, fLock, fDataQueue, capacity, fSharedMemory, fNotificationPort⟩ := queue
  obtain ⟨rfl, rfl, rfl⟩ := h
  rcases access with _ | _ | _ | _ | _ | _ | _ | _ <;> rfl

theorem Unallocated.cleared (h : queue.Unallocated) : queue.Cleared access := by
  rcases access with _ | _ | _ | _ | _ | _ | _ | _
  · exact h
  · trivial
  · trivial
  · trivial
  · exact h.fSharedMemory
  · exact h.fSharedMemory
  · exact ⟨h.fSharedMemory, h.fDataQueue⟩
  · exact ⟨h.fSharedMemory, h.fDataQueue⟩

/-- The holders and the client, which is at an access of the loop, hold all references. -/
structure Freeing (rest : ℕ → ℕ) (queue : NotifyQueue) (heap : RefHeap) (access : Option FreeAccess) : Prop where
  ledger : Ledger heap (rest + (queue.owned access).held)
  cleared : queue.Cleared access

/-- The client has the reference that the access gives back, and keeps the others. -/
theorem freeAccess_spec {access : FreeAccess} (h : Freeing rest queue heap (some access)) :
    ∃ queue' heap', queue.freeAccess heap access = some (queue', heap') ∧
      Freeing rest queue' heap' access.next := by
  have hheld : rest + queue.held = rest + one queue.fLock + one queue.fDataQueue + one queue.fSharedMemory := by
    rw [held, add_assoc, add_assoc, add_assoc]
  cases access with
  | enqueue =>
    have hledger : Ledger heap (rest + queue.held) := h.ledger
    refine ⟨queue, heap, ?_, hledger, trivial⟩
    cases hsome : queue.fDataQueue with
    | none => simp [freeAccess, hsome]
    | some fDataQueue =>
      have hmessage : heap.deref fDataQueue = some () := by
        refine hledger.deref ?_
        simp only [held, Pi.add_apply, hsome, one_self]
        omega
      simp [freeAccess, hsome, hmessage]
  | releaseSharedMemory =>
    have hledger : Ledger heap (rest + queue.held) := h.ledger
    rw [hheld] at hledger
    obtain ⟨heap', hrelease, hledger⟩ := hledger.releaseAny
    refine ⟨queue, heap', by simp [freeAccess, hrelease], ?_, trivial⟩
    simpa [owned, FreeAccess.next, held, add_assoc] using hledger
  | clearSharedMemory => exact ⟨_, heap, rfl, h.ledger, rfl⟩
  | releaseDataQueue =>
    have hledger : Ledger heap (rest + queue.held) := h.ledger
    have hmemory : queue.fSharedMemory = none := h.cleared
    rw [hheld, hmemory, one_none, add_zero] at hledger
    obtain ⟨heap', hrelease, hledger⟩ := hledger.releaseAny
    refine ⟨queue, heap', by simp [freeAccess, hrelease], ?_, hmemory⟩
    simpa [owned, FreeAccess.next, held, hmemory] using hledger
  | clearDataQueue => exact ⟨_, heap, rfl, h.ledger, h.cleared, rfl⟩
  | freeLock =>
    have hledger : Ledger heap (rest + queue.held) := h.ledger
    obtain ⟨hmemory, hqueue⟩ := h.cleared
    rw [hheld, hmemory, hqueue, one_none, add_zero, add_zero] at hledger
    obtain ⟨heap', hrelease, hledger⟩ := hledger.releaseAny
    refine ⟨queue, heap', by simp [freeAccess, hrelease], ?_, hmemory, hqueue⟩
    simpa [owned, FreeAccess.next, held, hmemory, hqueue] using hledger
  | clearLock => exact ⟨_, heap, rfl, h.ledger, rfl, h.cleared.2, h.cleared.1⟩

/-- A client can always free what it holds. -/
theorem free_spec (h : Ledger heap (rest + queue.held)) :
    ∃ queue' heap', queue.free heap = some (queue', heap') ∧ Ledger heap' rest ∧ queue'.Unallocated := by
  have hstart : Freeing rest queue heap (some .enqueue) := ⟨h, trivial⟩
  obtain ⟨queue₁, heap₁, h₁, hfreeing⟩ := freeAccess_spec hstart
  obtain ⟨queue₂, heap₂, h₂, hfreeing⟩ := freeAccess_spec hfreeing
  obtain ⟨queue₃, heap₃, h₃, hfreeing⟩ := freeAccess_spec hfreeing
  obtain ⟨queue₄, heap₄, h₄, hfreeing⟩ := freeAccess_spec hfreeing
  obtain ⟨queue₅, heap₅, h₅, hfreeing⟩ := freeAccess_spec hfreeing
  obtain ⟨queue₆, heap₆, h₆, hfreeing⟩ := freeAccess_spec hfreeing
  obtain ⟨queue₇, heap₇, h₇, hfreeing⟩ := freeAccess_spec hfreeing
  have hnone : queue₇.Unallocated := hfreeing.cleared
  have hledger : Ledger heap₇ (rest + queue₇.held) := hfreeing.ledger
  rw [hnone.held, add_zero] at hledger
  exact ⟨queue₇, heap₇, by simp [free, h₁, h₂, h₃, h₄, h₅, h₆, h₇], hledger, hnone⟩

end NotifyQueue

namespace ClientQueues
variable {queues queues' : ClientQueues} {heap heap' : RefHeap} {rest : ℕ → ℕ} {type : NkeNotifyType}

/-- The references a client holds. -/
noncomputable def held (queues : ClientQueues) (id : ℕ) : ℕ := total (fun queue => queue.held id) queues

structure Unallocated (queues : ClientQueues) : Prop where
  unallocated : ∀ type, (queues type).Unallocated

theorem held_le (queues : ClientQueues) (type : NkeNotifyType) (id : ℕ) :
    (queues type).held id ≤ queues.held id :=
  le_total (w := fun queue : NotifyQueue => queue.held id) (f := queues) (Set.toFinite _) type

theorem held_update (queue : NotifyQueue) :
    held (Function.update queues type queue) + (queues type).held = held queues + queue.held := by
  funext id
  exact total_update (Set.toFinite _) type queue

theorem Unallocated.held (h : queues.Unallocated) : queues.held = 0 := by
  funext id
  exact total_of_zero fun type => congrFun (h.unallocated type).held id

/-- Someone else holds all but what the client holds for one type. -/
theorem exists_rest (queues : ClientQueues) (type : NkeNotifyType) :
    ∃ others, queues.held = others + (queues type).held ∧
      ∀ queue, held (Function.update queues type queue) = others + queue.held := by
  refine ⟨fun id => queues.held id - (queues type).held id, ?_, ?_⟩
  · funext id
    exact (Nat.sub_add_cancel (held_le queues type id)).symm
  · intro queue
    funext id
    have hle := held_le queues type id
    have hupdate : (held (Function.update queues type queue) + (queues type).held) id =
        (held queues + queue.held) id := congrFun (held_update queue) id
    simp only [Pi.add_apply] at hupdate ⊢
    omega

theorem freeTypes_spec (types : List NkeNotifyType) (h : Ledger heap (rest + queues.held)) :
    ∃ queues' heap', freeTypes types queues heap = some (queues', heap') ∧
      Ledger heap' (rest + queues'.held) ∧
      ∀ type, type ∈ types ∨ (queues type).Unallocated → (queues' type).Unallocated := by
  induction types generalizing queues heap with
  | nil => exact ⟨queues, heap, rfl, h, fun type hnone => hnone.resolve_left List.not_mem_nil⟩
  | cons type types ih =>
    obtain ⟨others, hheld, hupdate⟩ := exists_rest queues type
    rw [hheld, ← add_assoc] at h
    obtain ⟨queue, heap₁, hfree, h₁, hqueue⟩ := NotifyQueue.free_spec h
    have h₂ : Ledger heap₁ (rest + held (Function.update queues type queue)) := by
      rwa [hupdate, hqueue.held, add_zero]
    obtain ⟨queues', heap', hrest, h', hnone⟩ := ih h₂
    refine ⟨queues', heap', ?_, h', fun type' htype => hnone type' ?_⟩
    · simp [freeTypes, hfree, hrest]
    · by_cases heq : type' = type
      · subst heq
        rw [Function.update_self]
        exact .inr hqueue
      · rw [Function.update_of_ne heq]
        exact htype.imp (fun hmem => (List.mem_cons.1 hmem).resolve_left heq) id

theorem freeAllocatedResources_spec (h : Ledger heap (rest + queues.held)) :
    ∃ queues' heap', queues.freeAllocatedResources heap = some (queues', heap') ∧ Ledger heap' rest ∧
      queues'.Unallocated := by
  obtain ⟨queues', heap', hfree, h', hnone⟩ := freeTypes_spec NkeNotifyType.types h
  have hall : queues'.Unallocated := ⟨fun type => hnone type (.inl (by cases type <;> decide))⟩
  rw [hall.held, add_zero] at h'
  exact ⟨queues', heap', hfree, h', hall⟩

/-- As `withTask` leaves the types whose turn has not come. -/
structure Sized (queue : NotifyQueue) : Prop where
  unallocated : queue.Unallocated
  size : ∃ k, 14 ≤ k ∧ k ≤ 20 ∧ queue.fQueueSize = 2 ^ k

theorem startTypes_spec {o : StartOutcome} (types : List NkeNotifyType) (hnodup : types.Nodup)
    (hsized : ∀ type ∈ types, Sized (queues type)) (h : Ledger heap (rest + queues.held)) :
    ∃ started queues' heap', startTypes o types queues heap = (started, queues', heap') ∧
      Ledger heap' (rest + queues'.held) ∧ (∀ type, type ∉ types → queues' type = queues type) ∧
      (started → ∀ type ∈ types, type ≠ .kt_NkeNotifyTypeUnknown → (queues' type).Ready) := by
  induction types generalizing queues heap with
  | nil => exact ⟨true, queues, heap, rfl, h, fun _ _ => rfl, fun _ _ hmem => absurd hmem List.not_mem_nil⟩
  | cons type types ih =>
    obtain ⟨hnot, hnodup⟩ := List.nodup_cons.1 hnodup
    by_cases hunknown : type = .kt_NkeNotifyTypeUnknown
    · obtain ⟨started, queues', heap', hstart, h', hframe, hready⟩ :=
        ih hnodup (fun type' hmem => hsized type' (List.mem_cons_of_mem _ hmem)) h
      refine ⟨started, queues', heap', ?_, h', ?_, ?_⟩
      · rw [startTypes, if_pos hunknown, hstart]
      · exact fun type' hnot => hframe type' fun hmem => hnot (List.mem_cons_of_mem _ hmem)
      · intro hstarted type' hmem hne
        rcases List.mem_cons.1 hmem with rfl | hmem
        · exact absurd hunknown hne
        · exact hready hstarted type' hmem hne
    · have hhead := hsized type (List.mem_cons_self ..)
      obtain ⟨others, hheld, hupdate⟩ := exists_rest queues type
      rw [hheld, hhead.unallocated.held, add_zero] at h
      have hturn : NotifyQueue.Started (rest + others) ((queues type).start (o.lockAlloc type)
          (o.withCapacity type) (o.getMemoryDescriptor type) heap) :=
        NotifyQueue.start_spec hhead.unallocated hhead.size h
      rw [startTypes, if_neg hunknown]
      generalize (queues type).start (o.lockAlloc type) (o.withCapacity type) (o.getMemoryDescriptor type)
        heap = turn at hturn
      obtain ⟨went, queue, heap₁⟩ := turn
      have h₁ : Ledger heap₁ (rest + held (Function.update queues type queue)) := by
        rw [hupdate, ← add_assoc]
        exact hturn.ledger
      cases went with
      | false =>
        refine ⟨false, _, heap₁, rfl, h₁, ?_, fun hstarted => by cases hstarted⟩
        exact fun type' hnot => Function.update_of_ne (List.ne_of_not_mem_cons hnot) ..
      | true =>
        have hsized' : ∀ type' ∈ types, Sized (Function.update queues type queue type') := by
          intro type' hmem
          rw [Function.update_of_ne (ne_of_mem_of_not_mem hmem hnot)]
          exact hsized type' (List.mem_cons_of_mem _ hmem)
        obtain ⟨started, queues', heap', hstart, h', hframe, hready⟩ := ih hnodup hsized' h₁
        refine ⟨started, queues', heap', hstart, h', ?_, ?_⟩
        · intro type' hnot'
          rw [hframe type' fun hmem => hnot' (List.mem_cons_of_mem _ hmem)]
          exact Function.update_of_ne (List.ne_of_not_mem_cons hnot') ..
        · intro hstarted type' hmem hne
          rcases List.mem_cons.1 hmem with rfl | hmem
          · rw [hframe type' hnot, Function.update_self]
            exact hturn.ready rfl
          · exact hready hstarted type' hmem hne

theorem withTask_sized (type : NkeNotifyType) : Sized (withTask type) := by
  refine ⟨⟨rfl, rfl, rfl⟩, ?_⟩
  cases type with
  | kt_NkeNotifyTypeUnknown => exact ⟨19, by decide, by decide, rfl⟩
  | kt_NkeNotifyTypeSocketFilter => exact ⟨20, by decide, by decide, rfl⟩

theorem start_spec {o : StartOutcome} (hsized : ∀ type, Sized (queues type))
    (h : Ledger heap (rest + queues.held)) :
    ∃ started queues' heap', queues.start o heap = (started, queues', heap') ∧
      Ledger heap' (rest + queues'.held) ∧
      (started → ∀ type, type ≠ .kt_NkeNotifyTypeUnknown → (queues' type).Ready) := by
  rw [start]
  cases o.superStart with
  | false => exact ⟨false, queues, heap, rfl, h, fun hstarted => by cases hstarted⟩
  | true =>
    obtain ⟨started, queues', heap', hstart, h', -, hready⟩ :=
      startTypes_spec (o := o) NkeNotifyType.types (by decide) (fun type _ => hsized type) h
    exact ⟨started, queues', heap', hstart, h', fun hs type => hready hs type (by cases type <;> decide)⟩

end ClientQueues

/-- Whatever fails, a client that is not returned leaves nothing behind, and one that is returned has a lock, a
queue and its memory. -/
inductive NewUserClientEnd (rest : ℕ → ℕ) : NewUserClientReturn × Option ClientQueues × RefHeap → Prop
  | failed {result : NewUserClientReturn} {heap : RefHeap} : result ≠ .kIOReturnSuccess → Ledger heap rest →
      NewUserClientEnd rest (result, none, heap)
  | created {queues : ClientQueues} {heap : RefHeap} : Ledger heap (rest + queues.held) →
      (∀ type, type ≠ .kt_NkeNotifyTypeUnknown → (queues type).Ready) →
      NewUserClientEnd rest (.kIOReturnSuccess, some queues, heap)

theorem newUserClient_spec (o : NewUserClientOutcome) {heap : RefHeap} {rest : ℕ → ℕ} (h : Ledger heap rest) :
    ∃ r, newUserClient o heap = some r ∧ NewUserClientEnd rest r := by
  have hempty : ClientQueues.withTask.Unallocated :=
    ⟨fun type => (ClientQueues.withTask_sized type).unallocated⟩
  have htask : Ledger heap (rest + ClientQueues.withTask.held) := by
    rwa [hempty.held, add_zero]
  rw [newUserClient]
  cases o.cookie with
  | false => exact ⟨_, rfl, .failed (by decide) h⟩
  | true =>
    cases o.alloc with
    | false => exact ⟨_, rfl, .failed (by decide) h⟩
    | true =>
      by_cases hgave : !o.init ∨ !o.attach
      · obtain ⟨queues, heap', hfree, h', -⟩ := ClientQueues.freeAllocatedResources_spec htask
        refine ⟨(.kIOReturnNoResources, none, heap'), ?_, .failed (by decide) h'⟩
        simp only [Bool.not_true, Bool.false_eq_true, if_false, if_pos hgave, hfree]
        rfl
      · obtain ⟨started, queues, heap₁, hstart, h₁, hready⟩ :=
          ClientQueues.start_spec (o := o.start) ClientQueues.withTask_sized htask
        cases started with
        | false =>
          obtain ⟨queues', heap', hfree, h', -⟩ := ClientQueues.freeAllocatedResources_spec h₁
          refine ⟨(.kIOReturnNoResources, none, heap'), ?_, .failed (by decide) h'⟩
          simp only [Bool.not_true, Bool.false_eq_true, if_false, if_neg hgave, hstart, Bool.not_false, if_true,
            hfree]
          rfl
        | true =>
          refine ⟨(.kIOReturnSuccess, some queues, heap₁), ?_, .created h₁ (hready rfl)⟩
          simp only [Bool.not_true, Bool.false_eq_true, if_false, if_neg hgave, hstart]

end NkeFilter
