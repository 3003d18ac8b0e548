import NkeFilter.DataBuffer

/-!
# Transfers to and from a buffer

What `write`, `copyDataMbuf` and `read` should move, and when they do. `write` and `read` compare the sum of
the offset and the size of the buffer with that size, so they fill the rest of the buffer at any other offset
than zero and pass its end at offset zero; `copyDataMbuf` cuts the length but always copies to the start.
-/

namespace NkeFilter
open Lib

/-- `m'` is `m` after `bytes` were moved to `offset`, and this many bytes were reported. -/
structure Transferred (m m' : Memory) (offset : Nat) (bytes : List UInt8) (reported : Nat) : Prop where
  reported : reported = bytes.length
  moved : m'.read offset bytes.length = bytes
  others : ∀ p, p < offset ∨ offset + bytes.length ≤ p → m' p = m p

/-- Of `n` bytes as many as fit behind `offset`. -/
def fitting (size offset n : Nat) : Nat := min n (size - offset)

namespace NkeDataBuffer

/-- In every buffer of the size `write` moves the bytes that fit, and it looks at no byte of the source after
the first `n`. -/
def WriteExact (size offset n : Nat) : Prop :=
  ∀ (b : NkeDataBuffer) (address : Memory), b.size = size →
    Transferred b.data (b.write offset n address).2.2.data offset (address.read 0 (fitting size offset n))
      (b.write offset n address).2.1 ∧
    ∀ address' : Memory, (∀ i < n, address' i = address i) → b.write offset n address' = b.write offset n address

/-- The same for `copyDataMbuf` and the bytes of a chain that has the `n` bytes asked for. -/
def CopyExact (size offset n : Nat) : Prop :=
  ∀ (b : NkeDataBuffer) (mbuf : MbufChain) (offsetInMbuf : Nat), b.size = size →
    offsetInMbuf + n ≤ mbuf.bytes.length →
    (b.copyDataMbuf offset n offsetInMbuf mbuf).1 = KERN_SUCCESS ∧
    Transferred b.data (b.copyDataMbuf offset n offsetInMbuf mbuf).2.2.data offset
      ((mbuf.bytes.drop offsetInMbuf).take (fitting size offset n))
      (b.copyDataMbuf offset n offsetInMbuf mbuf).2.1 ∧
    ∀ mbuf' : MbufChain, offsetInMbuf + n ≤ mbuf'.bytes.length →
      (mbuf'.bytes.drop offsetInMbuf).take n = (mbuf.bytes.drop offsetInMbuf).take n →
      b.copyDataMbuf offset n offsetInMbuf mbuf' = b.copyDataMbuf offset n offsetInMbuf mbuf

/-- `read` leaves at the address the bytes of the buffer that were asked for. -/
def ReadExact (size offset n : Nat) : Prop :=
  ∀ (b : NkeDataBuffer) (address : Memory), b.size = size →
    Transferred address (b.read offset n address).2.2 0 (b.data.read offset (fitting size offset n))
      (b.read offset n address).2.1

/-- What was written is read again. -/
def RoundTrip (size offset n : Nat) : Prop :=
  ∀ (b : NkeDataBuffer) (source address : Memory), b.size = size →
    Transferred address
      ((b.write offset n source).2.2.read offset (fitting size offset n) address).2.2 0
      (source.read 0 (fitting size offset n))
      ((b.write offset n source).2.2.read offset (fitting size offset n) address).2.1

/-- The length that `write` and `read` take is the one that fits: at offset zero the bytes fit, elsewhere they fill
the buffer. The sum wraps only for a buffer of at least half the address space. -/
def LengthFits (size offset n : Nat) : Prop :=
  if size < (offset + size) % 2 ^ 64 then size - offset ≤ n else n ≤ size - offset

/-- The start of the buffer is where the bytes belong, or there are none to move. -/
def StartFits (size offset n : Nat) : Prop := offset = 0 ∨ n = 0 ∨ offset = size ∧ offset + n < 2 ^ 64

instance LengthFits.instDecidable (size offset n : Nat) : Decidable (LengthFits size offset n) :=
  inferInstanceAs (Decidable (ite ..))

instance StartFits.instDecidable (size offset n : Nat) : Decidable (StartFits size offset n) :=
  inferInstanceAs (Decidable (_ ∨ _))

variable {b : NkeDataBuffer} {size offset n : Nat}

def zeros : Memory := fun _ => 0

theorem transferLength_eq_iff (hb : b.size = size) :
    b.transferLength offset n = fitting size offset n ↔ LengthFits size offset n := by
  subst hb
  unfold transferLength LengthFits fitting
  split <;> omega

theorem transferred_write {m : Memory} {bytes : List UInt8} {k : Nat} (hk : k = bytes.length) :
    Transferred m (m.write offset bytes) offset bytes k :=
  ⟨hk, Memory.read_write_self, fun _ hp => Memory.write_apply_of_outside hp⟩

theorem writeExact_iff : WriteExact size offset n ↔ LengthFits size offset n := by
  constructor
  · intro hexact
    have hr := (hexact ⟨size, zeros, 0⟩ zeros rfl).1.reported
    rw [Memory.length_read] at hr
    exact (transferLength_eq_iff rfl).1 hr
  · intro hfits b address hb
    have hk : b.transferLength offset n = fitting size offset n := (transferLength_eq_iff hb).2 hfits
    refine ⟨?_, ?_⟩
    · simp only [write, hk]
      exact transferred_write (Memory.length_read (m := address)).symm
    · intro address' hagree
      have hle : fitting size offset n ≤ n := Nat.min_le_left ..
      have hread : address'.read 0 (fitting size offset n) = address.read 0 (fitting size offset n) :=
        Memory.read_congr fun p _ hp => hagree p (by omega)
      simp only [write, hk, hread]

theorem readExact_iff : ReadExact size offset n ↔ LengthFits size offset n := by
  constructor
  · intro hexact
    have hr := (hexact ⟨size, zeros, 0⟩ zeros rfl).reported
    rw [Memory.length_read] at hr
    exact (transferLength_eq_iff rfl).1 hr
  · intro hfits b address hb
    have hk : b.transferLength offset n = fitting size offset n := (transferLength_eq_iff hb).2 hfits
    simp only [read, hk]
    exact transferred_write (Memory.length_read (m := b.data)).symm

/-- How much `copyDataMbuf` asks the chain for. -/
def copyLength (size offset n : Nat) : Nat := if size < (offset + n) % 2 ^ 64 then size - offset else n

theorem copyDataMbuf_eq (hb : b.size = size) (mbuf : MbufChain) (off : Nat) :
    b.copyDataMbuf offset n off mbuf =
      (if mbuf.bytes.length < off + copyLength size offset n then EINVAL else KERN_SUCCESS,
        copyLength size offset n,
        { b with data := b.data.write 0 ((mbuf.bytes.drop off).take (copyLength size offset n)) }) := by
  subst hb
  rfl

theorem copyLength_of_startFits (ho : offset ≤ size) (hn : n < 2 ^ 64) (hfits : StartFits size offset n) :
    copyLength size offset n = fitting size offset n := by
  unfold copyLength fitting
  rcases hfits with rfl | rfl | ⟨rfl, hlt⟩
  · rw [Nat.zero_add, Nat.mod_eq_of_lt hn]
    split <;> omega
  · split <;> omega
  · rw [Nat.mod_eq_of_lt hlt]
    split <;> omega

/-- Nothing fits anywhere but at the start. -/
theorem fitting_of_startFits (hfits : StartFits size offset n) :
    offset = 0 ∨ fitting size offset n = 0 := by
  unfold fitting
  rcases hfits with rfl | rfl | ⟨rfl, -⟩
  · exact .inl rfl
  · exact .inr (Nat.zero_min _)
  · exact .inr (by rw [Nat.sub_self, Nat.min_zero])

/-- A packet of `n` bytes. -/
def ones (n : Nat) : MbufChain := [⟨List.replicate n 1, some ⟨UInt64.ofNat n, none, []⟩, none⟩]

theorem ones_bytes (n : Nat) : (ones n).bytes = List.replicate n 1 := by
  simp [ones, MbufChain.bytes]

/-- Copied to the start, the last byte of a packet does not reach its place behind an offset. -/
theorem not_moved {k : Nat} (ho : 0 < offset) (hk : 0 < k) :
    (zeros.write 0 (List.replicate k 1)).read offset k ≠ List.replicate k 1 := by
  intro heq
  have hlast : zeros.write 0 (List.replicate k 1) (offset + (k - 1)) = 0 :=
    Memory.write_apply_of_outside (by simp; omega)
  have hget := congrArg (fun l => l[k - 1]?) heq
  simp only [Memory.read, List.getElem?_map, List.getElem?_range (Nat.sub_one_lt_of_lt hk), Option.map_some,
    hlast, List.getElem?_replicate, if_pos (Nat.sub_one_lt_of_lt hk)] at hget
  exact absurd (Option.some.inj hget) (by decide)

theorem copyExact_iff (ho : offset ≤ size) (hn : n < 2 ^ 64) :
    CopyExact size offset n ↔ StartFits size offset n := by
  constructor
  · intro hexact
    by_contra hfits
    obtain ⟨h0, hn0, hend⟩ : offset ≠ 0 ∧ n ≠ 0 ∧ ¬ (offset = size ∧ offset + n < 2 ^ 64) := by
      simpa only [StartFits, not_or] using hfits
    obtain ⟨-, ⟨hr, hm, -⟩, -⟩ := hexact ⟨size, zeros, 0⟩ (ones n) 0 rfl (by simp [ones_bytes])
    rw [copyDataMbuf_eq rfl] at hr hm
    simp only [ones_bytes, List.drop_zero, List.take_replicate, List.length_replicate] at hr hm
    have hle : fitting size offset n ≤ n := Nat.min_le_left ..
    rw [Nat.min_eq_left hle] at hr hm
    rw [hr, Nat.min_eq_left hle] at hm
    refine not_moved (by omega) ?_ hm
    -- at the end of the buffer the sum wraps, and then nothing is cut off
    unfold fitting copyLength at *
    split at hr <;> omega
  · intro hfits b mbuf off hb hlen
    have hk := copyLength_of_startFits ho hn hfits
    have hle : fitting size offset n ≤ n := Nat.min_le_left ..
    have hlength : ((mbuf.bytes.drop off).take (fitting size offset n)).length = fitting size offset n := by
      rw [List.length_take, List.length_drop]
      omega
    refine ⟨?_, ?_, ?_⟩
    · rw [copyDataMbuf_eq hb, hk]
      exact if_neg (by omega)
    · rw [copyDataMbuf_eq hb, hk]
      dsimp only
      rcases fitting_of_startFits hfits with rfl | hnone
      · exact transferred_write hlength.symm
      · rw [hnone, List.take_zero]
        exact ⟨rfl, rfl, fun _ _ => Memory.write_apply_of_outside (.inr (Nat.zero_le _))⟩
    · intro mbuf' hlen' hagree
      have hsame : (mbuf'.bytes.drop off).take (fitting size offset n) =
          (mbuf.bytes.drop off).take (fitting size offset n) := by
        have := congrArg (List.take (fitting size offset n)) hagree
        rwa [List.take_take, List.take_take, Nat.min_eq_left hle] at this
      rw [copyDataMbuf_eq hb, copyDataMbuf_eq hb, hk, hsame, if_neg (by omega), if_neg (by omega)]

/-- What `write` moved `read` moves back, if it takes the same length. -/
theorem roundTrip_iff : RoundTrip size offset n ↔ LengthFits size offset (fitting size offset n) := by
  have hfix : fitting size offset (fitting size offset n) = fitting size offset n := by
    unfold fitting
    omega
  constructor
  · intro htrip
    have hr := (htrip ⟨size, zeros, 0⟩ zeros zeros rfl).reported
    rw [Memory.length_read] at hr
    exact (transferLength_eq_iff (b := ⟨size, _, 0⟩) rfl).1 (hr.trans hfix.symm)
  · intro hfits b source address hb
    set k := fitting size offset n
    have hk : (b.write offset n source).2.2.transferLength offset k = k :=
      ((transferLength_eq_iff hb).2 hfits).trans hfix
    have hle : k ≤ b.transferLength offset n := by
      simp only [LengthFits, transferLength, hb, fitting, k] at hfits ⊢
      split at hfits <;> split <;> omega
    have hread : (b.write offset n source).2.2.data.read offset k = source.read 0 k := by
      have hk' : k ≤ (source.read 0 (b.transferLength offset n)).length := by rwa [Memory.length_read]
      calc (b.write offset n source).2.2.data.read offset k
          = (source.read 0 (b.transferLength offset n)).take k := Memory.read_write_take hk'
        _ = source.read 0 k := by rw [Memory.take_read, Nat.min_eq_left hle]
    simp only [read, hk, hread]
    exact transferred_write (Memory.length_read (m := source)).symm

/-- In buffers of less than half the address space the condition is about the offset and the length only. -/
theorem lengthFits_iff (hs : size < 2 ^ 63) (ho : offset ≤ size) :
    LengthFits size offset n ↔ if offset = 0 then n ≤ size else size - offset ≤ n := by
  unfold LengthFits
  rw [Nat.mod_eq_of_lt (by omega)]
  split <;> split <;> omega

/-- For every size, every offset inside and every length: when each of the three functions moves exactly the
bytes that fit, and when `read` gives back what `write` put there. -/
theorem transfers_exact_iff (ho : offset ≤ size) (hn : n < 2 ^ 64) :
    (WriteExact size offset n ↔ LengthFits size offset n) ∧
      (CopyExact size offset n ↔ StartFits size offset n) ∧
      (ReadExact size offset n ↔ LengthFits size offset n) ∧
      (RoundTrip size offset n ↔ LengthFits size offset (fitting size offset n)) :=
  ⟨writeExact_iff, copyExact_iff ho hn, readExact_iff, roundTrip_iff⟩

theorem transfers_exact_start : WriteExact 65536 0 1500 ∧ CopyExact 65536 0 1500 ∧ ReadExact 65536 0 1500 ∧
    RoundTrip 65536 0 1500 := by
  obtain ⟨hw, hc, hr, ht⟩ := @transfers_exact_iff 65536 0 1500 (by decide) (by decide)
  exact ⟨hw.2 (by decide), hc.2 (by decide), hr.2 (by decide), ht.2 (by decide)⟩

/-- One byte at offset one: `write` and `read` move 65535 bytes, `copyDataMbuf` hits the byte before; and
`write` passes the end when it starts at zero. -/
theorem transfers_inexact : ¬ WriteExact 65536 1 1 ∧ ¬ WriteExact 65536 0 65537 ∧ ¬ CopyExact 65536 1 1 ∧
    ¬ ReadExact 65536 1 1 ∧ ¬ RoundTrip 65536 1 1 := by
  refine ⟨?_, ?_, ?_, ?_, ?_⟩
  · exact fun h => absurd (writeExact_iff.1 h) (by decide)
  · exact fun h => absurd (writeExact_iff.1 h) (by decide)
  · exact fun h => absurd ((copyExact_iff (by decide) (by decide)).1 h) (by decide)
  · exact fun h => absurd (readExact_iff.1 h) (by decide)
  · exact fun h => absurd (roundTrip_iff.1 h) (by decide)

end NkeDataBuffer
end NkeFilter
