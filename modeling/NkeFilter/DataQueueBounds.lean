import NkeFilter.DataQueue

/-!
# The bounds of the notification ring

The memory of the ring is mapped into the client, header included, so that `head`, `tail` and `queueSize`
are any words when `enqueueWithBarrier` reads them. It tests for room with these words alone: an entry stays
inside the data area exactly when the tail it is stored at leaves room for it there (`EntryInside`).
-/

namespace NkeFilter
open Lib IODataQueueMemory

/-- Event, size, socket identity, flags, and the largest event data, that of a connected socket. -/
def sizeofNkeSocketFilterNotification : Nat := 4 + 4 + 16 + 4 + 60

/-- The size of the ring entry of a notification. -/
def notificationEntrySize : UInt32 :=
  UInt32.ofNat sizeofNkeSocketFilterNotification + DATA_QUEUE_ENTRY_HEADER_SIZE

/-- `enqueueWithBarrier` writes the byte at `p`: it changes what some data area holds there. -/
def Writes (q : IODataQueueMemory) (data : List UInt8) (p : Nat) : Prop :=
  ∃ queue : Memory, ({ q with queue }.enqueueWithBarrier data).dataQueue.queue p ≠ queue p

/-- The room tests send the entry behind the tail. -/
def Appends (q : IODataQueueMemory) (entrySize : UInt32) : Prop :=
  q.head ≤ q.tail ∧ q.tail + entrySize ≤ q.queueSize ∨ q.tail < q.head ∧ entrySize < q.head - q.tail

/-- The room tests send the entry to the beginning. -/
def Wraps (q : IODataQueueMemory) (entrySize : UInt32) : Prop :=
  q.head ≤ q.tail ∧ q.queueSize < q.tail + entrySize ∧ entrySize < q.head

/-- A notification that goes behind the tail has room there before `capacity`, and so has the size word at
the old tail when a notification goes to the beginning. -/
structure EntryInside (q : IODataQueueMemory) (capacity : Nat) : Prop where
  append : Appends q notificationEntrySize → q.tail.toNat + notificationEntrySize.toNat ≤ capacity
  mark : Wraps q notificationEntrySize → DATA_QUEUE_ENTRY_HEADER_SIZE ≤ q.queueSize - q.tail →
    q.tail.toNat + 4 ≤ capacity

variable {q : IODataQueueMemory} {data : List UInt8} {p capacity : Nat}

/-! ### What an entry overwrites -/

/-- A byte that comes out the same for every memory is written. -/
theorem exists_changed {f : Memory → Memory} (hf : ∀ m m' : Memory, f m p = f m' p) :
    ∃ m : Memory, f m p ≠ m p := by
  refine ⟨fun _ => f (fun _ => 0) p + 1, ?_⟩
  rw [hf _ fun _ => 0]
  intro heq
  have := congrArg (fun b : UInt8 => b - f (fun _ => 0) p) heq
  simp at this

theorem write_const {off : Nat} {bs : List UInt8} (h₁ : off ≤ p) (h₂ : p < off + bs.length)
    (m m' : Memory) : m.write off bs p = m'.write off bs p := by
  rw [Memory.write_apply_of_inside h₁ (by omega), Memory.write_apply_of_inside h₁ (by omega)]

theorem setWord_const {off : Nat} {w : UInt32} (h₁ : off ≤ p) (h₂ : p < off + 4) (m m' : Memory) :
    m.setWord off w p = m'.setWord off w p :=
  write_const h₁ (by simpa using h₂) m m'

theorem setWord_apply_of_outside {m : Memory} {off : Nat} {w : UInt32} (h : p < off ∨ off + 4 ≤ p) :
    m.setWord off w p = m p :=
  Memory.write_apply_of_outside (by simpa using h)

theorem writeEntry_const {off : Nat} (h₁ : off ≤ p) (h₂ : p < off + entrySize data) (m m' : Memory) :
    m.writeEntry off data p = m'.writeEntry off data p := by
  unfold entrySize at h₂
  unfold Memory.writeEntry
  by_cases hp : p < off + 4
  · rw [Memory.write_apply_of_outside (.inl hp), Memory.write_apply_of_outside (.inl hp)]
    exact setWord_const h₁ hp m m'
  · exact write_const (by omega) (by omega) _ _

/-- An entry at the beginning overwrites its own bytes, and the word at the old tail if that has room. -/
theorem wrappedQueue_const
    (hp : p < entrySize data ∨
      DATA_QUEUE_ENTRY_HEADER_SIZE ≤ q.queueSize - q.tail ∧ q.tail.toNat ≤ p ∧ p < q.tail.toNat + 4)
    (m m' : Memory) : wrappedQueue { q with queue := m } data p = wrappedQueue { q with queue := m' } data p := by
  unfold entrySize at hp
  unfold wrappedQueue
  dsimp only
  by_cases hpay : 4 ≤ p ∧ p < 4 + data.length
  · exact write_const hpay.1 hpay.2 _ _
  · rw [Memory.write_apply_of_outside (by omega), Memory.write_apply_of_outside (by omega)]
    by_cases hmark : q.queueSize - q.tail ≥ DATA_QUEUE_ENTRY_HEADER_SIZE
    · rw [if_pos hmark, if_pos hmark]
      by_cases htail : q.tail.toNat ≤ p ∧ p < q.tail.toNat + 4
      · exact setWord_const htail.1 htail.2 _ _
      · have hkeep : ∀ m : Memory, m.setWord q.tail.toNat (UInt32.ofNat data.length) p = m p :=
          fun m => setWord_apply_of_outside (by omega)
        rw [hkeep, hkeep]
        exact setWord_const (Nat.zero_le _) (by omega) m m'
    · rw [if_neg hmark, if_neg hmark]
      have hlt : p < 4 := by
        rcases hp with hp | ⟨h, -⟩
        · omega
        · exact absurd h hmark
      exact setWord_const (Nat.zero_le _) (by omega) m m'

theorem wrappedQueue_apply_of_outside (hp : entrySize data ≤ p)
    (hmark : DATA_QUEUE_ENTRY_HEADER_SIZE ≤ q.queueSize - q.tail → p < q.tail.toNat ∨ q.tail.toNat + 4 ≤ p) :
    wrappedQueue q data p = q.queue p := by
  unfold entrySize at hp
  unfold wrappedQueue
  rw [Memory.write_apply_of_outside (by omega)]
  have hzero : (q.queue.setWord 0 (UInt32.ofNat data.length)) p = q.queue p :=
    setWord_apply_of_outside (by omega)
  split
  · rename_i h
    rw [setWord_apply_of_outside (hmark h), hzero]
  · exact hzero

/-! ### What an enqueue writes -/

theorem notificationEntrySize_eq (hdata : data.length = sizeofNkeSocketFilterNotification) :
    UInt32.ofNat data.length + DATA_QUEUE_ENTRY_HEADER_SIZE = notificationEntrySize ∧
      entrySize data = notificationEntrySize.toNat := by
  unfold entrySize
  rw [hdata]
  exact ⟨rfl, rfl⟩

/-- Behind the tail all bytes of the entry are written. -/
theorem writes_of_appends (hdata : data.length = sizeofNkeSocketFilterNotification)
    (h : Appends q notificationEntrySize) (h₁ : q.tail.toNat ≤ p)
    (h₂ : p < q.tail.toNat + notificationEntrySize.toNat) : Writes q data p := by
  obtain ⟨hes, hsize⟩ := notificationEntrySize_eq hdata
  rw [← hsize] at h₂
  obtain ⟨m, hm⟩ := exists_changed (writeEntry_const h₁ h₂)
  refine ⟨m, ?_⟩
  have hspec := enqueue_spec { q with queue := m } data
  rw [hes] at hspec
  generalize enqueueWithBarrier { q with queue := m } data = r at hspec
  cases hspec with
  | append => exact hm
  | wrap hle hover _ =>
    rcases h with ⟨-, hfit⟩ | ⟨hlt, -⟩
    · exact absurd hfit (UInt32.not_le.2 hover)
    · exact absurd hlt (UInt32.not_lt.2 hle)
  | full hfull =>
    rcases h with ⟨hle, hfit⟩ | ⟨hlt, hroom⟩ <;> rcases hfull with ⟨hle', hover, -⟩ | ⟨hlt', hfull⟩
    · exact absurd hfit (UInt32.not_le.2 hover)
    · exact absurd hlt' (UInt32.not_lt.2 hle)
    · exact absurd hlt (UInt32.not_lt.2 hle')
    · exact absurd hroom (UInt32.not_lt.2 hfull)

/-- When the entry goes to the beginning, the word at the old tail is written if `queueSize` leaves room. -/
theorem writes_of_wraps (hdata : data.length = sizeofNkeSocketFilterNotification)
    (h : Wraps q notificationEntrySize) (hmark : DATA_QUEUE_ENTRY_HEADER_SIZE ≤ q.queueSize - q.tail)
    (h₁ : q.tail.toNat ≤ p) (h₂ : p < q.tail.toNat + 4) : Writes q data p := by
  obtain ⟨hes, -⟩ := notificationEntrySize_eq hdata
  obtain ⟨m, hm⟩ := exists_changed (@wrappedQueue_const q data p (.inr ⟨hmark, h₁, h₂⟩))
  refine ⟨m, ?_⟩
  obtain ⟨hle, hover, hroom⟩ := h
  have hspec := enqueue_spec { q with queue := m } data
  rw [hes] at hspec
  generalize enqueueWithBarrier { q with queue := m } data = r at hspec
  cases hspec with
  | append happ =>
    rcases happ with ⟨-, hfit⟩ | ⟨hlt, -⟩
    · exact absurd hfit (UInt32.not_le.2 hover)
    · exact absurd hlt (UInt32.not_lt.2 hle)
  | wrap => exact hm
  | full hfull =>
    rcases hfull with ⟨-, -, hfull⟩ | ⟨hlt, -⟩
    · exact absurd hroom (UInt32.not_lt.2 hfull)
    · exact absurd hlt (UInt32.not_lt.2 hle)

/-- Nothing else is written. -/
theorem Writes.inside (hdata : data.length = sizeofNkeSocketFilterNotification)
    (hC : notificationEntrySize.toNat ≤ capacity) (h : EntryInside q capacity) (hw : Writes q data p) :
    p < capacity := by
  obtain ⟨hes, hsize⟩ := notificationEntrySize_eq hdata
  obtain ⟨m, hm⟩ := hw
  by_contra hp
  refine hm ?_
  have hspec := enqueue_spec { q with queue := m } data
  rw [hes] at hspec
  generalize enqueueWithBarrier { q with queue := m } data = r at hspec
  cases hspec with
  | append happ =>
    have hroom := h.append happ
    rw [← hsize] at hroom
    exact writeEntry_apply (.inr (show q.tail.toNat + entrySize data ≤ p by omega))
  | wrap hle hover hroom =>
    refine wrappedQueue_apply_of_outside (by omega) ?_
    intro hmark
    have hroom := h.mark ⟨hle, hover, hroom⟩ hmark
    exact .inr (show q.tail.toNat + 4 ≤ p by omega)
  | full => rfl

/-- Whatever the client left in the header, the bytes an enqueue of a notification writes lie inside the data
area exactly when `EntryInside` holds. -/
theorem writes_inside_iff (hdata : data.length = sizeofNkeSocketFilterNotification)
    (hC : notificationEntrySize.toNat ≤ capacity) :
    (∀ p, Writes q data p → p < capacity) ↔ EntryInside q capacity := by
  have hpos : notificationEntrySize.toNat = 92 := rfl
  constructor
  · intro hall
    refine ⟨?_, ?_⟩
    · intro happ
      -- the last byte of the entry is written
      have := hall (q.tail.toNat + 91) (writes_of_appends hdata happ (by omega) (by omega))
      omega
    · intro hwrap hmark
      have := hall (q.tail.toNat + 3) (writes_of_wraps hdata hwrap hmark (by omega) (by omega))
      omega
  · intro h p hw
    exact hw.inside hdata hC h

/-- The ring of an honest client: the header says what the area is, and the tail is inside. -/
theorem honestHeader_inside :
    EntryInside ⟨1048576, 0, 1048484, fun _ => 0⟩ 1048576 ∧
      ∀ p, Writes ⟨1048576, 0, 1048484, fun _ => 0⟩ (List.replicate 88 7) p → p < 1048576 := by
  have h : EntryInside ⟨1048576, 0, 1048484, fun _ => 0⟩ 1048576 :=
    ⟨fun _ => by decide, fun h => absurd h (by unfold Wraps; decide)⟩
  exact ⟨h, (writes_inside_iff (by simp [sizeofNkeSocketFilterNotification]) (by decide)).2 h⟩

/-- With a tail close to `2 ^ 32` the sum that is tested wraps around to zero. -/
theorem wrappedTail_writes_outside :
    ¬ ∀ (q : IODataQueueMemory) (data : List UInt8) (capacity : Nat),
      data.length = sizeofNkeSocketFilterNotification → notificationEntrySize.toNat ≤ capacity →
        ∀ p, Writes q data p → p < capacity := by
  intro hall
  have hw : Writes ⟨1048576, 0, 4294967204, fun _ => 0⟩ (List.replicate 88 7) 4294967204 :=
    writes_of_appends (by simp [sizeofNkeSocketFilterNotification]) (by unfold Appends; decide)
      (by decide) (by decide)
  have := hall _ _ 1048576 (by simp [sizeofNkeSocketFilterNotification]) (by decide) _ hw
  omega

end NkeFilter
