import NkeFilter.Mbuf

/-!
# The tag that stops re-capture

`checkTag`, `setTag` and `prependMbufHdr`, with what the kernel's tag functions return as an argument, and
how `FltData` uses them. `setTag` stores the value only in the tag that its first allocation attached: a tag
it finds, and the tag of a header it had to prepend, keep what they hold.
-/

namespace NkeFilter

/-- `NKE_PACKETPROCFLAGS`, stored in 4 bytes. -/
inductive NKE_PACKETPROCFLAGS where
  | NKE_INBOUND_DONE
  | NKE_OUTBOUND_DONE
  deriving DecidableEq, Repr

def NKE_PACKETPROCFLAGS.toNat : NKE_PACKETPROCFLAGS → Nat
  | NKE_INBOUND_DONE => 1
  | NKE_OUTBOUND_DONE => 2

def sizeofPacketProcFlags : Nat := 4

def NKE_SOCKTAG_ID_TYPE : Nat := 1

namespace MbufChain

/-- `mbuf_flags (m) & MBUF_PKTHDR`. -/
def hasPktHdr (m : MbufChain) : Bool := (m.head?.bind Mbuf.pkthdr).isSome

/-- `mbuf_tag_find`: the tag of that id and type on the first mbuf. -/
def tagFind (m : MbufChain) (id type : Nat) : Option MbufTag :=
  (m.head?.bind Mbuf.pkthdr).bind fun hdr => hdr.tags.find? fun tag => tag.id == id && tag.type == type

/-- The chain with a tag attached to the packet header of its first mbuf. -/
def attachTag (m : MbufChain) (tag : MbufTag) : MbufChain := match m with
  | [] => []
  | mbuf :: rest =>
    { mbuf with pkthdr := mbuf.pkthdr.map fun hdr => { hdr with tags := tag :: hdr.tags } } :: rest

/-- `*tag_ref = value` for the tag that was attached last. -/
def storeTag (m : MbufChain) (value : Nat) : MbufChain := match m with
  | [] => []
  | mbuf :: rest =>
    let store : List MbufTag → List MbufTag
      | [] => []
      | tag :: tags => { tag with value := value } :: tags
    { mbuf with pkthdr := mbuf.pkthdr.map fun hdr => { hdr with tags := store hdr.tags } } :: rest

def totalbytes (m : MbufChain) : UInt64 := (m.map fun mbuf => UInt64.ofNat mbuf.data.length).sum

end MbufChain

/-- What `mbuf_tag_allocate` does with an mbuf that has a packet header: it fails with an error other than
zero, or attaches a tag with whatever the memory contains. -/
structure TagAllocation where
  error : Errno
  contents : Nat
  deriving DecidableEq, Repr

/-- What the kernel functions called by `setTag` return: the two allocations and `mbuf_gethdr`. -/
structure SetTagOutcome where
  first : TagAllocation
  gethdr : Errno
  second : TagAllocation
  deriving DecidableEq, Repr

open MbufChain

def mbufTagAllocate (m : MbufChain) (id type : Nat) (o : TagAllocation) : Errno × MbufChain :=
  if !m.hasPktHdr then (EINVAL, m)
  else if o.error ≠ KERN_SUCCESS then (o.error, m)
  else (KERN_SUCCESS, m.attachTag ⟨id, type, sizeofPacketProcFlags, o.contents⟩)

def checkTag (m : MbufChain) (moduleId tagType : Nat) (value : NKE_PACKETPROCFLAGS) : Bool :=
  match m.tagFind moduleId tagType with
  | some tag => tag.len == sizeofPacketProcFlags && tag.value == value.toNat
  | none => false

/-- `mbuf_pkthdr_setrcvif` of `NULL` on the old first mbuf only concerns a packet header. -/
def prependMbufHdr (data : MbufChain) (pktLen : UInt64) (gethdr : Errno) : Errno × MbufChain :=
  if gethdr ≠ KERN_SUCCESS then (gethdr, data)
  else
    let newHdr : Mbuf := ⟨[], some ⟨pktLen, none, []⟩, data.head?.bind Mbuf.nextpkt⟩
    let data := match data with
      | [] => []
      | mbuf :: rest => { mbuf with pkthdr := mbuf.pkthdr.map fun hdr => { hdr with rcvif := none } } :: rest
    (KERN_SUCCESS, newHdr :: data)

def setTag (data : MbufChain) (idTag tagType : Nat) (value : NKE_PACKETPROCFLAGS) (o : SetTagOutcome) :
    Errno × MbufChain :=
  if (data.tagFind idTag tagType).isSome then (KERN_SUCCESS, data)
  else
    let (error, data) := mbufTagAllocate data idTag tagType o.first
    if error = KERN_SUCCESS then (KERN_SUCCESS, data.storeTag value.toNat)
    else if error = EINVAL then
      if !data.hasPktHdr then
        let (error, data) := prependMbufHdr data data.totalbytes o.gethdr
        if error = KERN_SUCCESS then mbufTagAllocate data idTag tagType o.second else (error, data)
      else (error, data)
    else (error, data)

/-- What `FltData` makes of a packet before it captures it. -/
inductive TagVerdict where
  /-- it was seen before: returns 0 -/
  | bypassed
  | tagged (data : MbufChain)
  | failed (data : MbufChain)
  deriving DecidableEq, Repr

def fltDataTag (gidtag : Nat) (isInboundData : Bool) (data : MbufChain) (o : SetTagOutcome) : TagVerdict :=
  let value : NKE_PACKETPROCFLAGS := if isInboundData then .NKE_INBOUND_DONE else .NKE_OUTBOUND_DONE
  if checkTag data gidtag NKE_SOCKTAG_ID_TYPE value then .bypassed
  else
    let (error, data) := setTag data gidtag NKE_SOCKTAG_ID_TYPE value o
    if error = KERN_SUCCESS then .tagged data else .failed data

variable {data : MbufChain} {idTag tagType : Nat} {value : NKE_PACKETPROCFLAGS} {o : SetTagOutcome}
  {tag : MbufTag}

namespace MbufChain

end MbufChain

def newHdr (data : MbufChain) (tag : MbufTag) : Mbuf :=
  ⟨[], some ⟨data.totalbytes, none, [tag]⟩, data.head?.bind Mbuf.nextpkt⟩

end NkeFilter
