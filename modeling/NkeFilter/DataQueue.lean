import NkeFilter.Lib.Entries
import NkeFilter.Lib.Fifo

/-!
# The notification ring queue

`IODataQueueWrapper::enqueueWithBarrier` and `IODataQueueDequeue` over the shared memory: entries of any
size in a ring of `queueSize` bytes, each behind a word with its size. An entry that does not fit behind the
tail goes to the beginning; its size is stored at the old tail too when there is room for it, and that is how
the consumer knows. `Layout` covers all positions of head and tail.
-/

namespace NkeFilter
open Lib

inductive IOReturn where
  | kIOReturnSuccess
  | kIOReturnUnderrun
  | kIOReturnNoSpace
  | kIOReturnBadArgument
  deriving DecidableEq, Repr

def DATA_QUEUE_ENTRY_HEADER_SIZE : UInt32 := 4

/-- The shared header and the bytes from `queue` on. -/
structure IODataQueueMemory where
  queueSize : UInt32
  head : UInt32
  tail : UInt32
  queue : Memory

namespace IODataQueueMemory

/-- What an enqueue leaves: its result, whether it sent the notification that data is available, and the
queue. -/
structure EnqueueEnd where
  result : Bool
  notified : Bool
  dataQueue : IODataQueueMemory

/-- `enqueueWithBarrier`, with nobody moving the head meanwhile. -/
def enqueueWithBarrier (dataQueue : IODataQueueMemory) (data : List UInt8) : EnqueueEnd :=
  let head := dataQueue.head
  let tail := dataQueue.tail
  let dataSize := UInt32.ofNat data.length
  let entrySize := dataSize + DATA_QUEUE_ENTRY_HEADER_SIZE
  let append : IODataQueueMemory :=
    { dataQueue with
      queue := (dataQueue.queue.setWord tail.toNat dataSize).write (tail.toNat + 4) data
      tail := dataQueue.tail + entrySize }
  let notified := head = tail ∨ dataQueue.head = tail
  if tail ≥ head then
    if tail + entrySize ≤ dataQueue.queueSize then ⟨true, notified, append⟩
    else if head > entrySize then
      -- wrap around; the consumer looks for the size at the old tail if there is room for one
      let queue := dataQueue.queue.setWord 0 dataSize
      let queue :=
        if dataQueue.queueSize - tail ≥ DATA_QUEUE_ENTRY_HEADER_SIZE then
          queue.setWord tail.toNat dataSize
        else queue
      ⟨true, notified, { dataQueue with queue := queue.write 4 data, tail := entrySize }⟩
    else ⟨false, false, dataQueue⟩
  else if head - tail > entrySize then ⟨true, notified, append⟩
  else ⟨false, false, dataQueue⟩

/-- The entry `IODataQueueDequeue` finds and the head behind it; `none` when the queue is empty. -/
def nextEntry (dataQueue : IODataQueueMemory) : Option (Nat × UInt32) :=
  let head := dataQueue.head
  let queue := dataQueue.queue
  if head ≠ dataQueue.tail then
    if head + DATA_QUEUE_ENTRY_HEADER_SIZE > dataQueue.queueSize ∨
        head + queue.word head.toNat + DATA_QUEUE_ENTRY_HEADER_SIZE > dataQueue.queueSize then
      some (0, queue.word 0 + DATA_QUEUE_ENTRY_HEADER_SIZE)
    else some (head.toNat, head + queue.word head.toNat + DATA_QUEUE_ENTRY_HEADER_SIZE)
  else none

/-- What a dequeue leaves: its result, the bytes copied to `*data`, what `*dataSize` holds, and the queue. -/
structure DequeueEnd where
  retVal : IOReturn
  data : List UInt8
  dataSize : Option UInt32
  dataQueue : IODataQueueMemory

/-- `IODataQueueDequeue` of a queue; `data` is whether the pointer is not `NULL`, and `dataSize` what it
points to, if it is not. -/
def dequeue (dataQueue : IODataQueueMemory) (data : Bool) (dataSize : Option UInt32) : DequeueEnd :=
  match dataQueue.nextEntry with
  | none => ⟨.kIOReturnUnderrun, [], dataSize, dataQueue⟩
  | some (entry, newHead) =>
    if data then match dataSize with
      | some limit =>
        let size := dataQueue.queue.word entry
        if size ≤ limit then
          ⟨.kIOReturnSuccess, dataQueue.queue.read (entry + 4) size.toNat, some size,
            { dataQueue with head := newHead }⟩
        else ⟨.kIOReturnNoSpace, [], some size, dataQueue⟩
      | none => ⟨.kIOReturnBadArgument, [], none, dataQueue⟩
    else ⟨.kIOReturnSuccess, [], dataSize, { dataQueue with head := newHead }⟩

end IODataQueueMemory

open IODataQueueMemory

/-! ### The contents of the ring -/

/-- The items in a ring of `queueSize` bytes between `head` and `tail`. -/
inductive Layout (m : Memory) (queueSize : Nat) : (head tail : Nat) → List (List UInt8) → Prop
  | straight {head tail : Nat} {items : List (List UInt8)} : tail ≤ queueSize → Entries m head tail items →
      Layout m queueSize head tail items
  /-- up to the old tail `mid`, then from the beginning; the word at `mid` is that of the entry that did not
  fit -/
  | wrapped {head mid tail : Nat} {first rest : List (List UInt8)} {d : List UInt8} :
    tail < head → mid ≤ queueSize →
      Entries m head mid first → Entries m 0 tail (d :: rest) → queueSize < mid + entrySize d →
      (mid + 4 ≤ queueSize → m.word mid = UInt32.ofNat d.length) →
        Layout m queueSize head tail (first ++ d :: rest)

structure Holds (q : IODataQueueMemory) (items : List (List UInt8)) : Prop where
  size_lt : q.queueSize.toNat < 2 ^ 31
  layout : Layout q.queue q.queueSize.toNat q.head.toNat q.tail.toNat items

variable {q q' : IODataQueueMemory} {m m' : Memory} {data d : List UInt8} {items rest : List (List UInt8)}
  {queueSize head tail : Nat}

namespace Layout

theorem tail_le (h : Layout m queueSize head tail items) : tail ≤ queueSize := by
  cases h with
  | straight hle _ => exact hle
  | wrapped hlt hmid hfirst => exact (Nat.le_of_lt hlt).trans (hfirst.le.trans hmid)

theorem head_le (h : Layout m queueSize head tail items) : head ≤ queueSize := by
  cases h with
  | straight hle hitems => exact hitems.le.trans hle
  | wrapped _ hmid hfirst => exact hfirst.le.trans hmid

theorem head_eq_tail_iff (h : Layout m queueSize head tail items) : head = tail ↔ items = [] := by
  cases h with
  | straight _ hitems => exact hitems.eq_nil_iff
  | wrapped hlt => exact ⟨fun heq => absurd heq.symm (Nat.ne_of_lt hlt), fun heq => by simp at heq⟩

theorem append (h : Layout m queueSize head tail items) (hd : data.length < 2 ^ 32)
    (hroom : head ≤ tail ∧ tail + entrySize data ≤ queueSize ∨ tail < head ∧ tail + entrySize data < head) :
    Layout (m.writeEntry tail data) queueSize head (tail + entrySize data) (items ++ [data]) := by
  have hpos := entrySize_pos data
  cases h with
  | straight hle hitems =>
    have := hitems.le
    exact .straight (by omega) (hitems.writeEntry hd)
  | @wrapped mid _ first rest d hlt hmid hfirst hsecond hover hmark =>
    have := hfirst.le
    rw [List.append_assoc]
    refine .wrapped (by omega) hmid (hfirst.writeEntry_of_disjoint (by omega)) (hsecond.writeEntry hd) hover
      ?_
    intro h4
    rw [← hmark h4]
    exact Memory.word_congr fun p h₁ h₂ => writeEntry_apply (by omega)

theorem wrap (h : Layout m queueSize head tail items) (hle : head ≤ tail)
    (hover : queueSize < tail + entrySize data)
    (hroom : entrySize data < head) (hd : EntryAt m' 0 data)
    (hmark : tail + 4 ≤ queueSize → m'.word tail = UInt32.ofNat data.length)
    (hsame : ∀ p, head ≤ p → p < tail → m' p = m p) :
    Layout m' queueSize head (entrySize data) (items ++ [data]) := by
  cases h with
  | straight htail hitems =>
    refine .wrapped hroom htail (hitems.congr hsame) ⟨hd, ?_⟩ hover hmark
    exact Nat.zero_add _
  | wrapped hlt => omega

end Layout

/-! ### Enqueue -/

theorem toNat_entrySize (data : List UInt8) (h : entrySize data < 2 ^ 32) :
    (UInt32.ofNat data.length + DATA_QUEUE_ENTRY_HEADER_SIZE).toNat = entrySize data := by
  unfold entrySize at h ⊢
  rw [UInt32.toNat_add, UInt32.toNat_ofNat', Nat.mod_eq_of_lt (a := data.length) (by omega),
    show DATA_QUEUE_ENTRY_HEADER_SIZE.toNat = 4 from rfl, Nat.mod_eq_of_lt h]

/-- The memory after an entry was written at the beginning, its size also at the old tail if it has room. -/
def wrappedQueue (q : IODataQueueMemory) (data : List UInt8) : Memory :=
  let queue := q.queue.setWord 0 (UInt32.ofNat data.length)
  let queue :=
    if q.queueSize - q.tail ≥ DATA_QUEUE_ENTRY_HEADER_SIZE then
      queue.setWord q.tail.toNat (UInt32.ofNat data.length)
    else queue
  queue.write 4 data

/-- The ways through `enqueueWithBarrier`, for an entry of `entrySize` bytes. -/
inductive Enqueued (q : IODataQueueMemory) (data : List UInt8) (entrySize : UInt32) : EnqueueEnd → Prop
  | append {notified : Bool} :
      q.head ≤ q.tail ∧ q.tail + entrySize ≤ q.queueSize ∨ q.tail < q.head ∧ entrySize < q.head - q.tail →
      Enqueued q data entrySize
        ⟨true, notified, { q with queue := q.queue.writeEntry q.tail.toNat data, tail := q.tail + entrySize }⟩
  | wrap {notified : Bool} : q.head ≤ q.tail → q.queueSize < q.tail + entrySize → entrySize < q.head →
      Enqueued q data entrySize ⟨true, notified, { q with queue := wrappedQueue q data, tail := entrySize }⟩
  | full : q.head ≤ q.tail ∧ q.queueSize < q.tail + entrySize ∧ q.head ≤ entrySize ∨
      q.tail < q.head ∧ q.head - q.tail ≤ entrySize → Enqueued q data entrySize ⟨false, false, q⟩

theorem enqueue_spec (q : IODataQueueMemory) (data : List UInt8) :
    Enqueued q data (UInt32.ofNat data.length + DATA_QUEUE_ENTRY_HEADER_SIZE)
      (q.enqueueWithBarrier data) := by
  unfold enqueueWithBarrier
  simp only
  split
  · rename_i hle
    split
    · rename_i hfit
      exact .append (.inl ⟨hle, hfit⟩)
    · rename_i hfit
      split
      · rename_i hroom
        exact .wrap hle (UInt32.not_le.1 hfit) hroom
      · rename_i hroom
        exact .full (.inl ⟨hle, UInt32.not_le.1 hfit, UInt32.not_lt.1 hroom⟩)
  · rename_i hlt
    split
    · rename_i hroom
      exact .append (.inr ⟨UInt32.not_le.1 hlt, hroom⟩)
    · rename_i hroom
      exact .full (.inr ⟨UInt32.not_le.1 hlt, UInt32.not_lt.1 hroom⟩)

theorem enqueue_of_not_result (h : (q.enqueueWithBarrier data).result = false) :
    (q.enqueueWithBarrier data).dataQueue = q := by
  have hspec := enqueue_spec q data
  generalize q.enqueueWithBarrier data = r at h hspec
  cases hspec with
  | append => cases h
  | wrap => cases h
  | full => rfl

/-- Into an empty queue an entry of at most half the ring always goes, wherever head and tail are. -/
theorem enqueue_result_of_empty (hempty : q.head = q.tail) (hfit : 2 * entrySize data ≤ q.queueSize.toNat) :
    (q.enqueueWithBarrier data).result = true := by
  have hQ := q.queueSize.toNat_lt
  have hes := toNat_entrySize data (by omega)
  have hspec := enqueue_spec q data
  generalize q.enqueueWithBarrier data = r at hspec
  cases hspec with
  | append => rfl
  | wrap => rfl
  | full hfull =>
    rcases hfull with ⟨-, hover, hroom⟩ | ⟨hlt, -⟩
    · rw [UInt32.lt_iff_toNat_lt, UInt32.toNat_add, hes] at hover
      rw [UInt32.le_iff_toNat_le, hes, hempty] at hroom
      have htail := Nat.mod_le (q.tail.toNat + entrySize data) (2 ^ 32)
      omega
    · rw [hempty] at hlt
      exact absurd hlt (UInt32.lt_irrefl _)

theorem wrappedQueue_spec (hlt : data.length < 2 ^ 32) (htail : entrySize data ≤ q.tail.toNat)
    (hle : q.tail.toNat ≤ q.queueSize.toNat) :
    EntryAt (wrappedQueue q data) 0 data ∧
      (q.tail.toNat + 4 ≤ q.queueSize.toNat →
        (wrappedQueue q data).word q.tail.toNat = UInt32.ofNat data.length) ∧
      ∀ p, entrySize data ≤ p → p < q.tail.toNat → wrappedQueue q data p = q.queue p := by
  have hsub : q.queueSize - q.tail ≥ DATA_QUEUE_ENTRY_HEADER_SIZE ↔ q.tail.toNat + 4 ≤ q.queueSize.toNat := by
    rw [ge_iff_le, UInt32.le_iff_toNat_le, UInt32.toNat_sub_of_le _ _ (UInt32.le_iff_toNat_le.2 hle)]
    show 4 ≤ _ ↔ _
    omega
  unfold wrappedQueue
  unfold entrySize at *
  refine ⟨⟨?_, Memory.read_write_self, hlt⟩, ?_, ?_⟩
  · rw [Memory.word_write_of_disjoint (.inl (le_refl _))]
    split
    · rw [Memory.word_setWord_of_disjoint (by omega), Memory.word_setWord_self]
    · rw [Memory.word_setWord_self]
  · intro h4
    rw [Memory.word_write_of_disjoint (by omega), if_pos (hsub.2 h4), Memory.word_setWord_self]
  · intro p h₁ h₂
    rw [Memory.write_apply_of_outside (by omega)]
    have hzero : (q.queue.setWord 0 (UInt32.ofNat data.length)) p = q.queue p :=
      Memory.write_apply_of_outside (by rw [Memory.length_wordBytes]; omega)
    split
    · rw [Memory.setWord, Memory.write_apply_of_outside (.inl h₂), hzero]
    · exact hzero

theorem Holds.enqueue (hq : Holds q items) (hfit : entrySize data ≤ q.queueSize.toNat)
    (h : (q.enqueueWithBarrier data).result) :
    Holds (q.enqueueWithBarrier data).dataQueue (items ++ [data]) := by
  obtain ⟨hsize, hlayout⟩ := hq
  have hes := toNat_entrySize data (by omega)
  have hhead := hlayout.head_le
  have htail := hlayout.tail_le
  have hlen : data.length < 2 ^ 32 := by
    unfold entrySize at hfit
    omega
  have hadd : (q.tail + (UInt32.ofNat data.length + DATA_QUEUE_ENTRY_HEADER_SIZE)).toNat =
      q.tail.toNat + entrySize data := by
    rw [UInt32.toNat_add, hes, Nat.mod_eq_of_lt (by omega)]
  have hspec := enqueue_spec q data
  generalize q.enqueueWithBarrier data = r at h hspec
  cases hspec with
  | append hroom =>
    refine ⟨hsize, ?_⟩
    show Layout _ _ _ (UInt32.toNat _) _
    rw [hadd]
    refine hlayout.append hlen (hroom.imp ?_ ?_)
    · rintro ⟨hle, hroom⟩
      rw [UInt32.le_iff_toNat_le, hadd] at hroom
      exact ⟨UInt32.le_iff_toNat_le.1 hle, hroom⟩
    · rintro ⟨hlt, hroom⟩
      rw [UInt32.lt_iff_toNat_lt, hes, UInt32.toNat_sub_of_le _ _ (UInt32.le_of_lt hlt)] at hroom
      have hlt := UInt32.lt_iff_toNat_lt.1 hlt
      exact ⟨hlt, by omega⟩
  | wrap hle hover hroom =>
    rw [UInt32.lt_iff_toNat_lt, hadd] at hover
    rw [UInt32.lt_iff_toNat_lt, hes] at hroom
    have hle := UInt32.le_iff_toNat_le.1 hle
    obtain ⟨hat, hmark, hsame⟩ := wrappedQueue_spec (q := q) hlen (by omega) htail
    refine ⟨hsize, ?_⟩
    show Layout _ _ _ (UInt32.toNat _) _
    rw [hes]
    exact hlayout.wrap hle hover hroom hat hmark fun p h₁ h₂ => hsame p (by omega) h₂
  | full => cases h

/-! ### Dequeue -/

/-- An entry that is stored at the head, before the end of the ring. -/
theorem nextEntry_of_here (hne : q.head ≠ q.tail) (hsize : q.queueSize.toNat < 2 ^ 31)
    (hat : EntryAt q.queue q.head.toNat d) (hfit : q.head.toNat + entrySize d ≤ q.queueSize.toNat) :
    ∃ newHead, q.nextEntry = some (q.head.toNat, newHead) ∧ newHead.toNat = q.head.toNat + entrySize d := by
  unfold entrySize at hfit ⊢
  have hword := hat.toNat_size
  have hnext : (q.head + q.queue.word q.head.toNat + DATA_QUEUE_ENTRY_HEADER_SIZE).toNat =
      q.head.toNat + (d.length + 4) := by
    rw [UInt32.toNat_add, UInt32.toNat_add, hword, show DATA_QUEUE_ENTRY_HEADER_SIZE.toNat = 4 from rfl]
    omega
  have hheader : (q.head + DATA_QUEUE_ENTRY_HEADER_SIZE).toNat = q.head.toNat + 4 := by
    rw [UInt32.toNat_add, show DATA_QUEUE_ENTRY_HEADER_SIZE.toNat = 4 from rfl]
    omega
  refine ⟨_, ?_, hnext⟩
  unfold nextEntry
  rw [if_pos hne, if_neg]
  rw [not_or, gt_iff_lt, gt_iff_lt, UInt32.lt_iff_toNat_lt, UInt32.lt_iff_toNat_lt, hheader, hnext]
  omega

/-- An entry that did not fit behind the old tail, which the head has reached. -/
theorem nextEntry_of_wrapped (hne : q.head ≠ q.tail) (hsize : q.queueSize.toNat < 2 ^ 31)
    (hle : q.head.toNat ≤ q.queueSize.toNat) (hat : EntryAt q.queue 0 d)
    (hd : entrySize d ≤ q.queueSize.toNat)
    (hover : q.queueSize.toNat < q.head.toNat + entrySize d)
    (hmark : q.head.toNat + 4 ≤ q.queueSize.toNat → q.queue.word q.head.toNat = UInt32.ofNat d.length) :
    ∃ newHead, q.nextEntry = some (0, newHead) ∧ newHead.toNat = entrySize d := by
  unfold entrySize at hover hd ⊢
  have hnext : (q.queue.word 0 + DATA_QUEUE_ENTRY_HEADER_SIZE).toNat = d.length + 4 := by
    rw [UInt32.toNat_add, hat.toNat_size, show DATA_QUEUE_ENTRY_HEADER_SIZE.toNat = 4 from rfl]
    omega
  refine ⟨_, ?_, hnext⟩
  unfold nextEntry
  rw [if_pos hne, if_pos]
  rw [gt_iff_lt, gt_iff_lt, UInt32.lt_iff_toNat_lt, UInt32.lt_iff_toNat_lt, UInt32.toNat_add,
    UInt32.toNat_add, UInt32.toNat_add, show DATA_QUEUE_ENTRY_HEADER_SIZE.toNat = 4 from rfl]
  by_cases h4 : q.head.toNat + 4 ≤ q.queueSize.toNat
  · -- the size at the old tail says that the entry is not there
    right
    rw [hmark h4, UInt32.toNat_ofNat', Nat.mod_eq_of_lt (a := d.length) (by omega)]
    omega
  · left
    omega

theorem Holds.nextEntry (hq : Holds q (d :: rest)) : ∃ entry newHead, q.nextEntry = some (entry, newHead) ∧
    EntryAt q.queue entry d ∧ Holds { q with head := newHead } rest := by
  obtain ⟨hsize, hlayout⟩ := hq
  have hne : q.head ≠ q.tail := by
    intro heq
    have := hlayout.head_eq_tail_iff.1 (congrArg UInt32.toNat heq)
    cases this
  have htail := hlayout.tail_le
  have hhead := hlayout.head_le
  generalize hitems : d :: rest = items at hlayout
  cases hlayout with
  | straight hle hentries =>
    subst hitems
    obtain ⟨hat, hrest⟩ := hentries
    have := hrest.le
    obtain ⟨newHead, hnext, hnew⟩ := nextEntry_of_here hne hsize hat (by omega)
    refine ⟨_, newHead, hnext, hat, hsize, ?_⟩
    show Layout _ _ newHead.toNat _ _
    rw [hnew]
    exact .straight hle hrest
  | @wrapped mid _ first rest' d' hlt hmid hfirst hsecond hover hmark =>
    cases first with
    | cons d₁ first =>
      obtain ⟨rfl, rfl⟩ := List.cons.inj hitems
      obtain ⟨hat, hrest⟩ := hfirst
      have := hrest.le
      obtain ⟨newHead, hnext, hnew⟩ := nextEntry_of_here hne hsize hat (by omega)
      refine ⟨_, newHead, hnext, hat, hsize, ?_⟩
      show Layout _ _ newHead.toNat _ _
      rw [hnew]
      exact .wrapped (hlt.trans_le (Nat.le_add_right ..)) hmid hrest hsecond hover hmark
    | nil =>
      obtain ⟨rfl, rfl⟩ := List.cons.inj hitems
      obtain rfl : q.head.toNat = mid := hfirst
      obtain ⟨hat, hrest⟩ := hsecond
      have := hrest.le
      obtain ⟨newHead, hnext, hnew⟩ := nextEntry_of_wrapped hne hsize hhead hat (by omega) hover hmark
      refine ⟨_, newHead, hnext, hat, hsize, ?_⟩
      show Layout _ _ newHead.toNat _ _
      rw [hnew]
      exact .straight htail (by simpa using hrest)

theorem Holds.nextEntry_nil (hq : Holds q []) : q.nextEntry = none := by
  have heq : q.head = q.tail := UInt32.toNat_inj.1 (hq.layout.head_eq_tail_iff.2 rfl)
  unfold IODataQueueMemory.nextEntry
  rw [if_neg (by simp [heq])]

theorem dequeue_of_error {hasData : Bool} {dataSize : Option UInt32}
    (h : (q.dequeue hasData dataSize).retVal ≠ .kIOReturnSuccess) :
    (q.dequeue hasData dataSize).dataQueue = q := by
  unfold dequeue at h ⊢
  split
  · rfl
  · rename_i hnext
    rw [hnext] at h
    cases hasData with
    | false => exact absurd rfl h
    | true =>
      cases dataSize with
      | none => rfl
      | some limit =>
        simp only [if_true] at h ⊢
        split
        · rename_i hle
          rw [if_pos hle] at h
          exact absurd rfl h
        · rfl

/-- A dequeue of a queue that holds something returns its oldest item, or its size when the buffer is too
small. -/
theorem Holds.dequeue (hq : Holds q (d :: rest)) (limit : UInt32) :
    let r := q.dequeue true (some limit)
    r.dataSize = some (UInt32.ofNat d.length) ∧
      (d.length ≤ limit.toNat ∧ r.retVal = .kIOReturnSuccess ∧ r.data = d ∧ Holds r.dataQueue rest ∨
        limit.toNat < d.length ∧ r.retVal = .kIOReturnNoSpace ∧ r.data = [] ∧ r.dataQueue = q) := by
  obtain ⟨entry, newHead, hnext, hat, hholds⟩ := hq.nextEntry
  have hword := hat.toNat_size
  unfold IODataQueueMemory.dequeue
  simp only [hnext, if_true]
  by_cases hle : q.queue.word entry ≤ limit
  · rw [if_pos hle]
    rw [UInt32.le_iff_toNat_le, hword] at hle
    refine ⟨congrArg some hat.size, .inl ⟨hle, rfl, ?_, hholds⟩⟩
    show q.queue.read (entry + 4) (q.queue.word entry).toNat = d
    rw [hword]
    exact hat.data
  · rw [if_neg hle]
    rw [UInt32.le_iff_toNat_le, hword] at hle
    exact ⟨congrArg some hat.size, .inr ⟨Nat.not_le.1 hle, rfl, rfl, rfl⟩⟩

theorem Holds.dequeue_nil (hq : Holds q []) (limit : UInt32) :
    (q.dequeue true (some limit)).retVal = .kIOReturnUnderrun := by
  unfold IODataQueueMemory.dequeue
  rw [hq.nextEntry_nil]

/-! ### Any sequence of operations -/

inductive DataQueueLabel where
  | enqueue (data : List UInt8)
  | dequeue (limit : UInt32)
  deriving DecidableEq, Repr

inductive DataQueueEvent where
  | enqueued (data : List UInt8)
  | rejected (data : List UInt8)
  | dequeued (data : List UInt8)
  | failed (retVal : IOReturn)
  deriving DecidableEq, Repr

namespace DataQueueEvent

def putIn : DataQueueEvent → Option (List UInt8)
  | enqueued data => some data
  | _ => none

/-- The contents a successful dequeue returned. -/
def takenOut : DataQueueEvent → Option (List UInt8)
  | dequeued data => some data
  | _ => none

end DataQueueEvent

def dataQueueMachine : Machine IODataQueueMemory DataQueueLabel DataQueueEvent where
  step q
    | .enqueue data =>
      let r := q.enqueueWithBarrier data
      some (r.dataQueue, [if r.result then .enqueued data else .rejected data])
    | .dequeue limit =>
      let r := q.dequeue true (some limit)
      some (r.dataQueue, [if r.retVal = .kIOReturnSuccess then .dequeued r.data else .failed r.retVal])

/-- An entry of that size can be stored at all. -/
def Fits (q : IODataQueueMemory) : DataQueueLabel → Prop
  | .enqueue data => entrySize data ≤ q.queueSize.toNat
  | .dequeue _ => True

instance (q : IODataQueueMemory) : (a : DataQueueLabel) → Decidable (Fits q a)
  | .enqueue data => inferInstanceAs (Decidable (entrySize data ≤ q.queueSize.toNat))
  | .dequeue _ => isTrue trivial

theorem dataQueueMachine_isFifo :
    dataQueueMachine.IsFifo Fits Holds DataQueueEvent.putIn DataQueueEvent.takenOut := by
  intro q a q' e items hq ha hs
  cases a with
  | enqueue data =>
    obtain ⟨rfl, rfl⟩ := Prod.mk.inj (Option.some.inj hs)
    by_cases hr : (q.enqueueWithBarrier data).result
    · exact ⟨items ++ [data], hq.enqueue ha hr,
        by simp [hr, List.filterMap_cons, DataQueueEvent.putIn, DataQueueEvent.takenOut]⟩
    · refine ⟨items, ?_, by simp [hr, List.filterMap_cons, DataQueueEvent.putIn, DataQueueEvent.takenOut]⟩
      rw [enqueue_of_not_result (by simpa using hr)]
      exact hq
  | dequeue limit =>
    obtain ⟨rfl, rfl⟩ := Prod.mk.inj (Option.some.inj hs)
    cases items with
    | nil =>
      have hr := hq.dequeue_nil limit
      refine ⟨[], ?_, by simp [hr, List.filterMap_cons, DataQueueEvent.putIn, DataQueueEvent.takenOut]⟩
      rw [dequeue_of_error (by rw [hr]; decide)]
      exact hq
    | cons d rest =>
      obtain ⟨-, ⟨-, hr, hd, hq'⟩ | ⟨-, hr, -, hq'⟩⟩ := hq.dequeue limit
      · exact ⟨rest, hq',
          by simp [hr, hd, List.filterMap_cons, DataQueueEvent.putIn, DataQueueEvent.takenOut]⟩
      · refine ⟨d :: rest, ?_,
          by simp [hr, List.filterMap_cons, DataQueueEvent.putIn, DataQueueEvent.takenOut]⟩
        rw [hq']
        exact hq

/-- What the queue is after the operations with outcome `h`. -/
structure FifoEnd (q : IODataQueueMemory) (h : List DataQueueEvent) : Prop where
  /-- what was dequeued is what was enqueued, in order, and the rest is still to come -/
  inOrder : h.filterMap DataQueueEvent.takenOut <+: h.filterMap DataQueueEvent.putIn
  /-- underrun exactly when everything was dequeued -/
  underrun : ∀ limit, (q.dequeue true (some limit)).retVal = .kIOReturnUnderrun ↔
    h.filterMap DataQueueEvent.takenOut = h.filterMap DataQueueEvent.putIn
  /-- the oldest item still to come is returned, or its size when the buffer is too small -/
  next : ∀ d rest, h.filterMap DataQueueEvent.putIn = h.filterMap DataQueueEvent.takenOut ++ d :: rest →
    ∀ limit, let r := q.dequeue true (some limit)
      r.dataSize = some (UInt32.ofNat d.length) ∧
        (d.length ≤ limit.toNat ∧ r.retVal = .kIOReturnSuccess ∧ r.data = d ∨
          limit.toNat < d.length ∧ r.retVal = .kIOReturnNoSpace)
  enqueueFails : ∀ data, (q.enqueueWithBarrier data).result = false →
    (q.enqueueWithBarrier data).dataQueue = q
  dequeueFails : ∀ limit, (q.dequeue true (some limit)).retVal ≠ .kIOReturnSuccess →
    (q.dequeue true (some limit)).dataQueue = q
  /-- an entry of at most half the ring goes into an empty queue -/
  emptyAccepts : h.filterMap DataQueueEvent.takenOut = h.filterMap DataQueueEvent.putIn →
    ∀ data, 2 * entrySize data ≤ q.queueSize.toNat → (q.enqueueWithBarrier data).result = true

/-- From an empty queue of fewer than `2 ^ 31` bytes with head and tail at zero, whatever its memory holds,
every sequence of enqueues that can fit and of dequeues is that of a first-in first-out queue. -/
theorem dataQueue_fifo {q₀ : IODataQueueMemory} {as : List DataQueueLabel} {h : List DataQueueEvent}
    (hsize : q₀.queueSize.toNat < 2 ^ 31) (hhead : q₀.head = 0) (htail : q₀.tail = 0)
    (hC : dataQueueMachine.Along Fits q₀ as) (hr : dataQueueMachine.run q₀ as = some (q, h)) :
    FifoEnd q h := by
  have hstart : Holds q₀ [] := by
    refine ⟨hsize, ?_⟩
    rw [hhead, htail]
    exact .straight (Nat.zero_le _) rfl
  obtain ⟨items, hq, heq⟩ := dataQueueMachine_isFifo.run hstart hC hr
  rw [List.nil_append] at heq
  have hall : h.filterMap DataQueueEvent.takenOut = h.filterMap DataQueueEvent.putIn ↔ items = [] := by
    rw [heq]
    exact ⟨fun h => by simpa using h, fun h => by simp [h]⟩
  refine ⟨⟨items, heq.symm⟩, ?_, ?_, fun data => enqueue_of_not_result,
    fun limit => dequeue_of_error, ?_⟩
  · intro limit
    rw [hall]
    cases items with
    | nil => exact ⟨fun _ => rfl, fun _ => hq.dequeue_nil limit⟩
    | cons d rest =>
      obtain ⟨-, ⟨-, hr, -⟩ | ⟨-, hr, -⟩⟩ := hq.dequeue limit
      · simp [hr]
      · simp [hr]
  · intro d rest hnext limit
    obtain rfl := List.append_cancel_left (heq.symm.trans hnext)
    obtain ⟨hsize, hor⟩ := hq.dequeue limit
    exact ⟨hsize, hor.imp (fun ⟨hle, hr, hd, _⟩ => ⟨hle, hr, hd⟩) fun ⟨hlt, hr, _⟩ => ⟨hlt, hr⟩⟩
  · intro hdone data hfit
    obtain rfl := hall.1 hdone
    exact enqueue_result_of_empty (UInt32.toNat_inj.1 (hq.layout.head_eq_tail_iff.2 rfl)) hfit

/-- A ring of 16 bytes: the third entry only fits at the beginning, the fourth not at all. -/
def wrapAround : List DataQueueLabel :=
  [.enqueue [1, 2, 3, 4], .enqueue [5], .dequeue 8, .enqueue [6, 7, 8], .enqueue [9, 9, 9, 9], .dequeue 8,
    .dequeue 1, .dequeue 8, .dequeue 8]

theorem wrapAround_fifo :
    ∃ q h, dataQueueMachine.run ⟨16, 0, 0, fun _ => 255⟩ wrapAround = some (q, h) ∧
      h.filterMap DataQueueEvent.takenOut = [[1, 2, 3, 4], [5], [6, 7, 8]] ∧ FifoEnd q h := by
  obtain ⟨q, h, hr, hout⟩ : ∃ q h, dataQueueMachine.run ⟨16, 0, 0, fun _ => 255⟩ wrapAround = some (q, h) ∧
      h.filterMap DataQueueEvent.takenOut = [[1, 2, 3, 4], [5], [6, 7, 8]] := ⟨_, _, rfl, by decide⟩
  exact ⟨q, h, hr, hout, dataQueue_fifo (by decide) rfl rfl (by decide) hr⟩

end NkeFilter
