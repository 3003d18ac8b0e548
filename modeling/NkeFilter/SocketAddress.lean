import NkeFilter.Lib.Memory

/-!
# The addresses of a socket object

`setLocalAddress`, `setRemoteAddress` and the functions that read the addresses back, on the bytes of the
object and of the `sockaddr`. The copy is as long as the `sa_len` of the caller says; that the field is
long enough is an assertion only. The bytes go where they should exactly under `AddressSafe`
(`addressCaptured_iff`).
-/

namespace NkeFilter
open Lib

def AF_INET : UInt8 := 2
def AF_INET6 : UInt8 := 30

/-- `sizeof( NkeSocketObjectAddress )`, the size of its largest member `sockaddr_in6`. -/
def sizeofAddress : Nat := 28

/-- Where the fields are: `sa_family` is one byte, followed by the two addresses, which are aligned to four
bytes, and by the rest of the object. -/
structure ObjectLayout where
  sa_family : Nat
  size : Nat
  fits : sa_family + 4 + 2 * sizeofAddress ≤ size

namespace ObjectLayout

def localAddress (L : ObjectLayout) : Nat := L.sa_family + 4

def remoteAddress (L : ObjectLayout) : Nat := L.localAddress + sizeofAddress

end ObjectLayout

/-! ### The functions -/

section Union
variable (m : Memory) (address : Nat)

/-- All members of the union start with their length. -/
def sin_len : UInt8 := m address

def sin6_len : UInt8 := m address

/-- `port = ntohs( port )` on a little-endian machine; both ports have the offset 2. -/
def ntohsPort : Memory := m.write (address + 2) [m (address + 3), m (address + 2)]

end Union

/-- `bcopy` of the `sockaddr`, as many bytes as it says. -/
def copySockaddr (field : Nat) (m sockaddr : Memory) : Memory :=
  m.write field (sockaddr.read 0 (sockaddr 0).toNat)

def setAddress (field : Nat) (m sockaddr : Memory) : Memory :=
  if sockaddr 1 = AF_INET then ntohsPort (copySockaddr field m sockaddr) field
  else if sockaddr 1 = AF_INET6 then ntohsPort (copySockaddr field m sockaddr) field
  else m

/-- The bytes written to the `NkeSocketObjectAddress` of the caller, from its start on. -/
def getAddress (L : ObjectLayout) (field : Nat) (m : Memory) : List UInt8 :=
  let valid := if m L.sa_family = AF_INET then sin_len m field ≠ 0 else sin6_len m field ≠ 0
  if ¬ valid then List.replicate sizeofAddress 0
  else if m L.sa_family = AF_INET then m.read field (sin_len m field).toNat
  else m.read field (sin6_len m field).toNat

section Members
variable (L : ObjectLayout) (m : Memory)

def setLocalAddress (localAddress : Memory) : Memory := setAddress L.localAddress m localAddress

def setRemoteAddress (remoteAddress : Memory) : Memory := setAddress L.remoteAddress m remoteAddress

def getLocalAddress : List UInt8 := getAddress L L.localAddress m

def getRemoteAddress : List UInt8 := getAddress L L.remoteAddress m

end Members

/-! ### What they should do -/

def SupportedFamily (sockaddr : Memory) : Prop := sockaddr 1 = AF_INET ∨ sockaddr 1 = AF_INET6

/-- The byte of the stored address that is at `i` once the port is in host byte order. -/
def hostOrder (i : Nat) : Nat := if i = 2 then 3 else if i = 3 then 2 else i

/-- The capture changes no byte of the object outside the field; when the family is the one of the socket,
reading the address back writes no byte beyond the 28 and returns the stored bytes. -/
structure AddressCaptured (L : ObjectLayout) (set : Memory → Memory → Memory) (get : Memory → List UInt8)
    (field : Nat) (m sockaddr : Memory) : Prop where
  frame : ∀ p < L.size, p < field ∨ field + sizeofAddress ≤ p → set m sockaddr p = m p
  bounded : SupportedFamily sockaddr → sockaddr 1 = m L.sa_family →
    (get (set m sockaddr)).length ≤ sizeofAddress
  roundTrip : SupportedFamily sockaddr → sockaddr 1 = m L.sa_family → ∀ i < (sockaddr 0).toNat,
    (get (set m sockaddr))[i]? = some (copySockaddr field m sockaddr (field + hostOrder i))

/-- The bytes copied past the field are there already, and what is read back fits: the length given, or,
for an address without a length, the length that stays in the field. -/
def AddressSafe (L : ObjectLayout) (field : Nat) (m sockaddr : Memory) : Prop :=
  SupportedFamily sockaddr →
    (∀ i, sizeofAddress ≤ i → i < (sockaddr 0).toNat → field + i < L.size → sockaddr i = m (field + i)) ∧
      (sockaddr 1 = m L.sa_family → (sockaddr 0).toNat ≤ sizeofAddress ∧
        (sockaddr 0 = 0 → (m field).toNat ≤ sizeofAddress))

variable {L : ObjectLayout} {field p i : Nat} {m sockaddr : Memory}

theorem setAddress_supported (hs : SupportedFamily sockaddr) :
    setAddress field m sockaddr = ntohsPort (copySockaddr field m sockaddr) field := by
  unfold setAddress
  rcases hs with h | h
  · rw [if_pos h]
  · rw [if_pos h]
    split <;> rfl

theorem setAddress_unsupported (hs : ¬ SupportedFamily sockaddr) : setAddress field m sockaddr = m := by
  rw [SupportedFamily, not_or] at hs
  rw [setAddress, if_neg hs.1, if_neg hs.2]

/-- The two families and the two members of the union make no difference. -/
theorem getAddress_eq : getAddress L field m =
    if m field = 0 then List.replicate sizeofAddress 0 else m.read field (m field).toNat := by
  unfold getAddress sin_len sin6_len
  by_cases h0 : m field = 0
  · simp [h0]
  · simp [h0]

theorem copySockaddr_outside (hp : p < field ∨ field + (sockaddr 0).toNat ≤ p) :
    copySockaddr field m sockaddr p = m p :=
  Memory.write_apply_of_outside (by simpa using hp)

theorem copySockaddr_inside (hi : i < (sockaddr 0).toNat) :
    copySockaddr field m sockaddr (field + i) = sockaddr i := by
  rw [copySockaddr, Memory.write_apply_of_inside (by omega) (by simpa using hi)]
  simp [Memory.read]

theorem ntohsPort_outside (hp : p < field ∨ field + sizeofAddress ≤ p) : ntohsPort m field p = m p := by
  refine Memory.write_apply_of_outside ?_
  simp only [sizeofAddress] at hp
  simp only [List.length_cons, List.length_nil]
  omega

theorem ntohsPort_apply (i : Nat) : ntohsPort m field (field + i) = m (field + hostOrder i) := by
  unfold hostOrder ntohsPort
  by_cases h2 : i = 2
  · rw [if_pos h2, h2, Memory.write_apply_of_inside (by omega) (by simp)]
    simp
  · by_cases h3 : i = 3
    · rw [if_neg h2, if_pos h3, h3, Memory.write_apply_of_inside (by omega) (by simp)]
      simp
    · rw [if_neg h2, if_neg h3, Memory.write_apply_of_outside (by simp; omega)]

/-- What the capture leaves outside the field. -/
theorem frame_iff (hs : SupportedFamily sockaddr) :
    (∀ p < L.size, p < field ∨ field + sizeofAddress ≤ p → setAddress field m sockaddr p = m p) ↔
      ∀ i, sizeofAddress ≤ i → i < (sockaddr 0).toNat → field + i < L.size → sockaddr i = m (field + i) := by
  rw [setAddress_supported hs]
  constructor
  · intro hframe i hi hlen hsize
    have hp := hframe (field + i) hsize (.inr (Nat.add_le_add_left hi field))
    rwa [ntohsPort_outside (.inr (Nat.add_le_add_left hi field)), copySockaddr_inside hlen] at hp
  · intro hbytes p hp hout
    rw [ntohsPort_outside hout]
    rcases hout with hlt | hge
    · exact copySockaddr_outside (.inl hlt)
    · obtain ⟨i, rfl⟩ := Nat.exists_eq_add_of_le (Nat.le_of_add_right_le hge)
      by_cases hlen : i < (sockaddr 0).toNat
      · rw [copySockaddr_inside hlen]
        exact hbytes i (by omega) hlen hp
      · exact copySockaddr_outside (.inr (by omega))

/-- The length byte of the field after the capture. -/
theorem length_captured (hs : SupportedFamily sockaddr) :
    setAddress field m sockaddr field = if sockaddr 0 = 0 then m field else sockaddr 0 := by
  have hport : setAddress field m sockaddr field = copySockaddr field m sockaddr field := by
    rw [setAddress_supported hs]
    exact ntohsPort_apply 0
  rw [hport]
  split
  · rename_i h0
    exact copySockaddr_outside (.inr (by simp [h0]))
  · rename_i h0
    refine copySockaddr_inside (i := 0) (Nat.pos_of_ne_zero ?_)
    exact fun h => h0 (UInt8.toNat_inj.1 h)

theorem getAddress_length : (getAddress L field m).length ≤ sizeofAddress ↔ (m field).toNat ≤ sizeofAddress := by
  rw [getAddress_eq]
  split
  · rename_i h0
    simp [h0]
  · simp

theorem read_back (hs : SupportedFamily sockaddr) (hi : i < (sockaddr 0).toNat) :
    (getAddress L field (setAddress field m sockaddr))[i]? =
      some (copySockaddr field m sockaddr (field + hostOrder i)) := by
  have h0 : sockaddr 0 ≠ 0 := by
    intro h
    rw [h] at hi
    exact absurd hi (Nat.not_lt_zero i)
  rw [getAddress_eq, length_captured hs, if_neg h0, if_neg h0]
  simp only [Memory.read, List.getElem?_map, List.getElem?_range hi, Option.map_some]
  rw [setAddress_supported hs, ntohsPort_apply]

theorem addressCaptured_iff :
    AddressCaptured L (setAddress field) (getAddress L field) field m sockaddr ↔
      AddressSafe L field m sockaddr := by
  by_cases hs : SupportedFamily sockaddr
  · constructor
    · intro hc _
      refine ⟨(frame_iff hs).1 hc.frame, ?_⟩
      intro hfamily
      have hlen := getAddress_length.1 (hc.bounded hs hfamily)
      rw [length_captured hs] at hlen
      by_cases h0 : sockaddr 0 = 0
      · rw [if_pos h0] at hlen
        exact ⟨by simp [h0], fun _ => hlen⟩
      · rw [if_neg h0] at hlen
        exact ⟨hlen, fun h => absurd h h0⟩
    · intro hsafe
      obtain ⟨hframe, hmatching⟩ := hsafe hs
      refine ⟨(frame_iff hs).2 hframe, ?_, fun hs' _ i hi => read_back hs' hi⟩
      intro _ hfamily
      obtain ⟨hlen, hzero⟩ := hmatching hfamily
      rw [getAddress_length, length_captured hs]
      split
      · rename_i h0
        exact hzero h0
      · exact hlen
  · constructor
    · exact fun _ hs' => absurd hs' hs
    · intro _
      refine ⟨?_, fun hs' => absurd hs' hs, fun hs' => absurd hs' hs⟩
      intro p _ _
      rw [setAddress_unsupported hs]

/-- For every object and every `sockaddr`: the two captures do what they should exactly when the address is
safe for their field. -/
theorem addresses_captured_iff (L : ObjectLayout) (m sockaddr : Memory) :
    (AddressCaptured L (setLocalAddress L) (getLocalAddress L) L.localAddress m sockaddr ↔
        AddressSafe L L.localAddress m sockaddr) ∧
      (AddressCaptured L (setRemoteAddress L) (getRemoteAddress L) L.remoteAddress m sockaddr ↔
        AddressSafe L L.remoteAddress m sockaddr) :=
  ⟨addressCaptured_iff, addressCaptured_iff⟩

/-- An `AF_INET` address with the length 29, all other bytes 7. -/
def oversized : Memory := fun i => if i = 0 then 29 else if i = 1 then AF_INET else 7

/-- In a cleared object the last byte of the oversized address becomes the first of `remoteAddress`. -/
theorem oversized_overflows : ∃ L m, ¬ AddressCaptured L (setLocalAddress L) (getLocalAddress L)
    L.localAddress m oversized := by
  refine ⟨⟨0, 128, by decide⟩, fun _ => 0, fun hc => ?_⟩
  have hbyte := hc.frame 32 (by decide) (by decide)
  exact absurd hbyte (by decide)

end NkeFilter
