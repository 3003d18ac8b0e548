import NkeFilter.Mbuf

/-!
# Communication buffers

`NkeDataBuffer`: a block of kernel memory that is mapped in the client, with its index in the pool.
`size_t` sums wrap at 64 bits.
-/

namespace NkeFilter
open Lib

structure NkeDataBuffer where
  size : Nat
  data : Memory
  index : Nat

namespace NkeDataBuffer

/-- How much `write` and `read` move of `n` bytes: the `size` that is tested against the room is the size of
the buffer, not the length asked for. -/
def transferLength (b : NkeDataBuffer) (offset n : Nat) : Nat :=
  if b.size < (offset + b.size) % 2 ^ 64 then b.size - offset else n

/-- Copies from the memory at `address` into the buffer and reports how much. -/
def write (b : NkeDataBuffer) (offset bytesToWrite : Nat) (address : Memory) : Errno × Nat × NkeDataBuffer :=
  let bytesToWrite := b.transferLength offset bytesToWrite
  (KERN_SUCCESS, bytesToWrite, { b with data := b.data.write offset (address.read 0 bytesToWrite) })

/-- Copies mbuf data to the start of the buffer and reports how much. -/
def copyDataMbuf (b : NkeDataBuffer) (offsetInBuffer bytesToCopy offsetInMbuf : Nat)
    (mbuf : MbufChain) : Errno × Nat × NkeDataBuffer :=
  let bytesToCopy :=
    if b.size < (offsetInBuffer + bytesToCopy) % 2 ^ 64 then b.size - offsetInBuffer else bytesToCopy
  let (error, bytes) := mbuf.copydata offsetInMbuf bytesToCopy
  (error, bytesToCopy, { b with data := b.data.write 0 bytes })

/-- Copies from the buffer to the memory at `address`, reports how much and leaves that memory. -/
def read (b : NkeDataBuffer) (offset bytesToRead : Nat) (address : Memory) : Errno × Nat × Memory :=
  let bytesToRead := b.transferLength offset bytesToRead
  (KERN_SUCCESS, bytesToRead, address.write 0 (b.data.read offset bytesToRead))

variable {b : NkeDataBuffer} {n off : Nat} {mbuf : MbufChain}

/-- From the start of the buffer as many bytes are asked for as fit. -/
theorem copyDataMbuf_zero (b : NkeDataBuffer) (off : Nat) (mbuf : MbufChain) (hn : n < 2 ^ 64) :
    (b.copyDataMbuf 0 n off mbuf).2.1 = min n b.size ∧
      ((b.copyDataMbuf 0 n off mbuf).1 = KERN_SUCCESS ↔ off + min n b.size ≤ mbuf.bytes.length) := by
  have hk : (if b.size < (0 + n) % 2 ^ 64 then b.size - 0 else n) = min n b.size := by
    rw [Nat.zero_add, Nat.mod_eq_of_lt hn]
    split <;> omega
  refine ⟨hk, ?_⟩
  simp only [copyDataMbuf, hk, MbufChain.copydata]
  split
  · rename_i h
    exact ⟨fun h' => absurd h' (by decide), fun h' => absurd h (Nat.not_lt.2 h')⟩
  · exact ⟨fun _ => by omega, fun _ => rfl⟩

end NkeDataBuffer

end NkeFilter
