import NkeFilter.DataBuffer
import NkeFilter.Lib.Links

/-!
# The pool of communication buffers

The part of `NkeSocketFilter` that hands out communication buffers: the array of buffers, the list
of free indices threaded through `freeBuffers`, and the functions that take and return indices,
each run by one thread alone. The interleaved version is `FreeListMachine`.
-/

namespace NkeFilter
open Lib

/-- The number of entries of `freeBuffers` and of every array of buffer indices. -/
def kt_NkeSocketBuffersNumber : Nat := 40

/-- The end of the free list, the mark of a buffer in use and the terminator of an index array. -/
def UINT8_MAX : Nat := 255

/-- What stops the kernel instead of returning. -/
inductive Fault where
  | outOfBounds
  | nullDereference
  deriving DecidableEq, Repr

inductive BufferEvent where
  | granted (index : Nat)
  | pushed (index : Nat)
  deriving DecidableEq, Repr

/-- `freeBuffersHead` is 32 bits wide in the source for the compare-and-swap, but it is only ever
assigned values of `UInt8` variables, so reading it in `freeIndex` loses nothing. `history` is ghost:
newest first, read by no function. -/
structure NkeSocketFilter where
  dataBuffers : List NkeDataBuffer
  freeBuffers : Nat → Nat
  freeBuffersHead : Nat
  history : List BufferEvent

namespace NkeSocketFilter

/-- The creation loop of `withDefault` from index `i` on; `withSize i` is whether the `i`-th
`NkeDataBuffer::withSize` returned a buffer, and the loop stops at the first failure. -/
def createBuffers (withSize : Nat → Bool) : (remaining i : Nat) → NkeSocketFilter → NkeSocketFilter
  | 0, _, f => f
  | remaining + 1, i, f =>
    if withSize i then
      createBuffers withSize remaining (i + 1)
        { f with
          freeBuffers := Function.update f.freeBuffers i f.freeBuffersHead
          freeBuffersHead := i
          dataBuffers := f.dataBuffers ++ [⟨0x280000 / kt_NkeSocketBuffersNumber, fun _ => 0, i⟩] }
    else f

def withDefault (withSize : Nat → Bool) : NkeSocketFilter :=
  createBuffers withSize kt_NkeSocketBuffersNumber 0 ⟨[], fun _ => UINT8_MAX, UINT8_MAX, []⟩

/-- Takes the first free index and marks its entry as in use. With no other thread the first
compare-and-swap succeeds. -/
def acquireSocketDataBufferForIO (f : NkeSocketFilter) :
    Except Fault (Option NkeDataBuffer × NkeSocketFilter) :=
  let freeIndex := f.freeBuffersHead
  if freeIndex = UINT8_MAX then .ok (none, f)
  else if kt_NkeSocketBuffersNumber ≤ freeIndex then .error .outOfBounds
  else match f.dataBuffers[freeIndex]? with
    | none => .error .nullDereference
    | some dataBuffer =>
      .ok (some dataBuffer,
        { f with
          freeBuffersHead := f.freeBuffers freeIndex
          freeBuffers := Function.update f.freeBuffers freeIndex UINT8_MAX
          history := .granted freeIndex :: f.history })

/-- Puts an index back at the front of the free list, unless it is out of range or its entry does
not hold the in-use mark. -/
def releaseSocketDataBufferFromIO (f : NkeSocketFilter) (index : Nat) : NkeSocketFilter :=
  if kt_NkeSocketBuffersNumber ≤ index ∨ UINT8_MAX ≠ f.freeBuffers index then f
  else
    { f with
      freeBuffers := Function.update f.freeBuffers index f.freeBuffersHead
      freeBuffersHead := index
      history := .pushed index :: f.history }

/-- Releases the indices of an array up to the terminator. -/
def releaseDataBuffers (f : NkeSocketFilter) : (bufferIndices : List Nat) → NkeSocketFilter
  | [] => f
  | index :: rest =>
    if UINT8_MAX = index then f
    else releaseDataBuffers ( releaseSocketDataBufferFromIO f index) rest

def setBuffer (f : NkeSocketFilter) (b : NkeDataBuffer) : NkeSocketFilter :=
  { f with dataBuffers := f.dataBuffers.set b.index b }

/-- The copying loop at iteration `i`, with room for `slots` more indices in the array. -/
def copyLoop (mbuf : MbufChain) : (slots i residual offsetInMbuf : Nat) → NkeSocketFilter →
    (bufferIndices : List Nat) → Except Fault (Errno × Nat × List Nat × NkeSocketFilter)
  | slots, i, residual, offsetInMbuf, f, bufferIndices =>
    if residual = 0 then .ok (KERN_SUCCESS, i, bufferIndices, f)
    else match acquireSocketDataBufferForIO f with
      | .error e => .error e
      | .ok (none, f) => .ok (ENOMEM, i, bufferIndices, f)
      | .ok (some buffer, f) =>
        let (error, bytesCopied, buffer) := buffer.copyDataMbuf 0 residual offsetInMbuf mbuf
        let f := f.setBuffer buffer
        if error ≠ KERN_SUCCESS then
          .ok (error, i, bufferIndices, releaseSocketDataBufferFromIO f buffer.index)
        else match slots with
          | 0 => .error .outOfBounds
          | slots + 1 =>
            copyLoop mbuf slots (i + 1) (residual - bytesCopied) (offsetInMbuf + bytesCopied) f
              (bufferIndices.set i buffer.index)

/-- Copies a packet into freshly acquired buffers and lists them in `bufferIndices`. On failure the
acquired buffers are released, but `bufferIndices` keeps listing them. -/
def copyDataToBuffers (f : NkeSocketFilter) (mbuf : MbufChain) (bufferIndices : List Nat) :
    Except Fault (Errno × List Nat × NkeSocketFilter) :=
  let bufferIndices := bufferIndices.set 0 UINT8_MAX
  if mbuf = [] then .ok (KERN_SUCCESS, bufferIndices, f)
  else match copyLoop mbuf kt_NkeSocketBuffersNumber 0 mbuf.pkthdrLen 0 f bufferIndices with
    | .error e => .error e
    | .ok (error, i, bufferIndices, f) =>
      let bufferIndices :=
        if i < kt_NkeSocketBuffersNumber then bufferIndices.set i UINT8_MAX else bufferIndices
      if error ≠ KERN_SUCCESS then .ok (error, bufferIndices, releaseDataBuffers f bufferIndices)
      else .ok (error, bufferIndices, f)

end NkeSocketFilter

end NkeFilter
