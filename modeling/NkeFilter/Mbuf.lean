import NkeFilter.Lib.Memory

/-!
# Mbuf chains

What the filter sees of the kernel's packets. An `mbuf_t` is the list of the mbufs reached through
`mbuf_next`, so `NULL` is the empty list; a packet header, when the first mbuf has one
(`MBUF_PKTHDR`), carries the length of the whole packet, the receiving interface and the tags.
-/

namespace NkeFilter

/-- `errno_t`; zero is success, any other value may come from the kernel. -/
abbrev Errno := Int

def KERN_SUCCESS : Errno := 0
def ENOENT : Errno := 2
def ENOMEM : Errno := 12
def EINVAL : Errno := 22

/-- A tag: who attached it, its type, the size of its memory and the value stored there. -/
structure MbufTag where
  id : Nat
  type : Nat
  len : Nat
  value : Nat
  deriving DecidableEq, Repr

structure PktHdr where
  len : UInt64
  rcvif : Option Nat
  tags : List MbufTag
  deriving DecidableEq, Repr

structure Mbuf where
  data : List UInt8
  pkthdr : Option PktHdr
  nextpkt : Option Nat
  deriving DecidableEq, Repr

/-- `mbuf_t`: the chain starting at an mbuf; `[]` is `NULL`. -/
abbrev MbufChain := List Mbuf

namespace MbufChain

def bytes (m : MbufChain) : List UInt8 := m.flatMap Mbuf.data

/-- `mbuf_pkthdr_len`: the length the packet header states. -/
def pkthdrLen (m : MbufChain) : Nat := match m.head?.bind Mbuf.pkthdr with
  | some hdr => hdr.len.toNat
  | none => 0

/-- `mbuf_copydata`: copies what the chain has of the requested range and fails when that is less
than was asked for. -/
def copydata (m : MbufChain) (offset len : Nat) : Errno × List UInt8 :=
  (if m.bytes.length < offset + len then EINVAL else KERN_SUCCESS, (m.bytes.drop offset).take len)

theorem pkthdrLen_lt (m : MbufChain) : m.pkthdrLen < 2 ^ 64 := by
  unfold pkthdrLen
  split
  · exact UInt64.toNat_lt _
  · omega

end MbufChain

end NkeFilter
