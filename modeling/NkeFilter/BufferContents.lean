import NkeFilter.BufferPoolSpec

/-!
# What the buffers hold

`copyDataToBuffers` for a packet whose header states its length, with buffers of one size: it succeeds
exactly when the free buffers are enough, and then the listed buffers hold the packet's bytes in order.
-/

namespace NkeFilter
namespace NkeSocketFilter
open Lib

/-- The buffers of `l`, one after the other. -/
def contents (f : NkeSocketFilter) (l : List Nat) : List UInt8 :=
  l.flatMap fun i => (f.dataBuffers[i]?.map fun b => b.data.read 0 b.size).getD []

/-- Between `f` and `f'` the buffers `taken` received `bytes`, and no other buffer changed. -/
structure Received (f f' : NkeSocketFilter) (taken : List Nat) (bytes : List UInt8) : Prop where
  contents : (f'.contents taken).take bytes.length = bytes
  others : ∀ i ∉ taken, f'.dataBuffers[i]? = f.dataBuffers[i]?

variable {f f' f'' : NkeSocketFilter} {free rest taken arr arr' : List Nat} {i j k n size : Nat}
  {bytes bytes' : List UInt8} {mbuf : MbufChain} {error : Errno}

theorem Received.refl (f : NkeSocketFilter) : Received f f [] [] := ⟨rfl, fun _ _ => rfl⟩

/-- A buffer is filled, or takes the end of the packet; then others take what is left. -/
theorem Received.cons {b : NkeDataBuffer} (hr : Received f f' taken bytes') (hj : j ∉ taken)
    (hb : f.dataBuffers[j]? = some b) (hbytes : (b.data.read 0 b.size).take bytes.length = bytes)
    (hlen : bytes.length ≤ b.size) (hfull : bytes' = [] ∨ bytes.length = b.size) :
    (f'.contents (j :: taken)).take (bytes ++ bytes').length = bytes ++ bytes' := by
  have hcons : f'.contents (j :: taken) = b.data.read 0 b.size ++ f'.contents taken := by
    simp only [NkeSocketFilter.contents, List.flatMap_cons, hr.others j hj, hb]
    rfl
  rw [hcons]
  rcases hfull with rfl | hfull
  · rw [List.append_nil, List.take_append_of_le_length (by simpa using hlen), hbytes]
  · have hread : (b.data.read 0 b.size) = bytes := by
      rw [← hbytes, hfull, List.take_of_length_le (by simp)]
    rw [hread, List.length_append, List.take_length_add_append, hr.contents]

/-- The number of buffers of `size` bytes that `n` bytes need, one buffer at a time. -/
theorem ceilDiv_step (hpos : 0 < size) (hn : n ≠ 0) : n ⌈/⌉ size = (n - min n size) ⌈/⌉ size + 1 := by
  rw [Nat.ceilDiv_eq_add_pred_div, Nat.ceilDiv_eq_add_pred_div, ← Nat.add_div_right _ hpos]
  rcases Nat.le_total n size with hle | hle
  · rw [Nat.min_eq_left hle, Nat.sub_self, Nat.zero_add]
    rw [Nat.div_eq_of_lt_le (k := 1) (by omega) (by omega)]
    rw [Nat.div_eq_of_lt_le (k := 1) (by omega) (by omega)]
  · rw [Nat.min_eq_right hle]
    congr 1
    omega

/-- Nothing is left to copy. -/
theorem copyLoop_received_stop (free : List Nat) {offset slots : Nat}
    (hr : copyLoop mbuf slots i 0 offset f arr = .ok (error, k, arr', f')) :
    (error = KERN_SUCCESS ↔ 0 ⌈/⌉ size ≤ free.length) ∧
      (error = KERN_SUCCESS → k = i + 0 ⌈/⌉ size ∧
        Received f f' (free.take (0 ⌈/⌉ size)) ((mbuf.bytes.drop offset).take 0)) := by
  unfold copyLoop at hr
  rw [if_pos rfl] at hr
  cases hr
  rw [zero_ceilDiv]
  exact ⟨⟨fun _ => Nat.zero_le _, fun _ => rfl⟩, fun _ => ⟨rfl, .refl f⟩⟩

/-- The pool has run dry. -/
theorem copyLoop_received_dry (hpos : 0 < size) {offset slots residual : Nat} (h : Pool f [])
    (hn : residual ≠ 0) (hr : copyLoop mbuf slots i residual offset f arr = .ok (error, k, arr', f')) :
    (error = KERN_SUCCESS ↔ residual ⌈/⌉ size ≤ 0) ∧ error ≠ KERN_SUCCESS := by
  unfold copyLoop at hr
  rw [if_neg hn, acquire_nil h] at hr
  cases hr
  have hne : ENOMEM ≠ KERN_SUCCESS := by decide
  refine ⟨⟨fun he => absurd he hne, fun hle => ?_⟩, hne⟩
  rw [ceilDiv_step hpos hn] at hle
  omega

theorem copyLoop_received (hpos : 0 < size) {slots residual offset : Nat} (h : Pool f free)
    (hsize : ∀ j ∈ free, f.sizeOf j = size) (hslots : free.length ≤ slots) (hres : residual < 2 ^ 64)
    (hoff : offset + residual ≤ mbuf.bytes.length)
    (hr : copyLoop mbuf slots i residual offset f arr = .ok (error, k, arr', f')) :
    (error = KERN_SUCCESS ↔ residual ⌈/⌉ size ≤ free.length) ∧
      (error = KERN_SUCCESS → k = i + residual ⌈/⌉ size ∧
        Received f f' (free.take (residual ⌈/⌉ size)) ((mbuf.bytes.drop offset).take residual)) := by
  induction slots generalizing f free i residual offset arr with
  | zero =>
    obtain rfl := List.length_eq_zero_iff.1 (Nat.le_zero.1 hslots)
    by_cases hn : residual = 0
    · subst hn
      exact copyLoop_received_stop [] hr
    · obtain ⟨hiff, hne⟩ := copyLoop_received_dry hpos h hn hr
      exact ⟨hiff, fun he => absurd he hne⟩
  | succ slots ih =>
    by_cases hn : residual = 0
    · subst hn
      exact copyLoop_received_stop free hr
    cases free with
    | nil =>
      obtain ⟨hiff, hne⟩ := copyLoop_received_dry hpos h hn hr
      exact ⟨hiff, fun he => absurd he hne⟩
    | cons j rest =>
      obtain ⟨b, f₁, hb, hbi, hacq, hpool₁, hgr₁, hbufs⟩ := acquire_cons h
      obtain ⟨hk, hok⟩ := NkeDataBuffer.copyDataMbuf_zero b offset mbuf hres
      have hbsize : b.size = size := by
        have := hsize j (List.mem_cons_self ..)
        simpa [sizeOf, hb] using this
      have hb₁ : f₁.dataBuffers[b.index]? = some b := by rw [hbufs, hbi]; exact hb
      obtain ⟨hpool₂, hgr₂⟩ := setBuffer_spec hpool₁ hb₁
        (show (b.copyDataMbuf 0 residual offset mbuf).2.2.index = b.index from rfl) rfl
      have hgr := hgr₁.trans hgr₂
      have hcopied : (b.copyDataMbuf 0 residual offset mbuf).1 = KERN_SUCCESS := hok.2 (by omega)
      have hdata : (b.copyDataMbuf 0 residual offset mbuf).2.2.data =
          b.data.write 0 ((mbuf.bytes.drop offset).take (min residual size)) := by
        rw [← hbsize, ← hk]
        rfl
      unfold copyLoop at hr
      rw [if_neg hn, hacq] at hr
      simp only [hcopied, hk, ne_eq, not_true_eq_false, if_false] at hr
      set b' := (b.copyDataMbuf 0 residual offset mbuf).2.2
      set f₂ := f₁.setBuffer b'
      rw [hbsize] at hr
      have hbs : b'.size = size := hbsize
      have hsize₂ : ∀ j ∈ rest, f₂.sizeOf j = size := by
        intro j hj
        rw [hgr.size j]
        exact hsize j (List.mem_cons_of_mem _ hj)
      obtain ⟨hiff, hreceived⟩ := ih hpool₂ hsize₂ (by simpa using hslots) (by omega) (by omega) hr
      rw [ceilDiv_step hpos hn]
      set m := min residual size
      refine ⟨?_, ?_⟩
      · rw [hiff, List.length_cons]
        omega
      · intro he
        obtain ⟨hcount, hrest⟩ := hreceived he
        refine ⟨by omega, ?_⟩
        rw [List.take_succ_cons]
        have hj : j ∉ rest.take ((residual - m) ⌈/⌉ size) :=
          fun hmem => (List.nodup_cons.1 h.nodup).1 (List.mem_of_mem_take hmem)
        have hb₂ : ∀ l, f₂.dataBuffers[l]? = if l = j then some b' else f.dataBuffers[l]? := by
          intro l
          have hidx : b'.index = j := hbi
          have hjlt : j < f.dataBuffers.length := h.backed j (List.mem_cons_self ..)
          simp only [f₂, setBuffer, hidx, hbufs, List.getElem?_set, hjlt, if_true, eq_comm (a := j)]
        have hlen : ((mbuf.bytes.drop offset).take m).length = m := by
          rw [List.length_take, List.length_drop]
          omega
        have hbytes : (b'.data.read 0 b'.size).take ((mbuf.bytes.drop offset).take m).length =
            (mbuf.bytes.drop offset).take m := by
          have hchunk : (b.data.write 0 ((mbuf.bytes.drop offset).take m)).read 0
              ((mbuf.bytes.drop offset).take m).length = (mbuf.bytes.drop offset).take m :=
            Memory.read_write_self
          rw [hlen] at hchunk ⊢
          rw [Memory.take_read, hbs, Nat.min_eq_left (Nat.min_le_right ..), hdata, hchunk]
        have hsplit : (mbuf.bytes.drop offset).take residual =
            (mbuf.bytes.drop offset).take m ++ (mbuf.bytes.drop (offset + m)).take (residual - m) := by
          rw [← List.drop_drop, ← List.take_add]
          congr 1
          omega
        rw [hsplit]
        refine ⟨hrest.cons hj ((hb₂ j).trans (if_pos rfl)) hbytes ?_ ?_, ?_⟩
        · rw [hlen, hbs]
          exact Nat.min_le_right ..
        · rw [hlen, hbs]
          rcases Nat.le_total residual size with hle | hle
          · have hnone : residual - m = 0 := by omega
            exact .inl (by rw [hnone, List.take_zero])
          · exact .inr (Nat.min_eq_right hle)
        · intro l hl
          rw [List.mem_cons, not_or] at hl
          rw [hrest.others l hl.2, hb₂, if_neg hl.1]

/-! ### The whole copy -/

/-- The size of every buffer `withDefault` creates. -/
def bufferSize : Nat := 0x280000 / kt_NkeSocketBuffersNumber

example : bufferSize = 65536 := rfl

/-- The packet with the bytes `bytes` is in the buffers that `bufferIndices` lists. -/
structure Copied (f f' : NkeSocketFilter) (free bufferIndices : List Nat) (bytes : List UInt8)
    (taken : List Nat) : Prop where
  count : taken.length = bytes.length ⌈/⌉ bufferSize
  distinct : taken.Nodup
  wasFree : ∀ i ∈ taken, i ∈ free
  entries : bufferIndices.length = kt_NkeSocketBuffersNumber
  indices : bufferIndices.take taken.length = taken
  terminator : taken.length < kt_NkeSocketBuffersNumber → bufferIndices[taken.length]? = some UINT8_MAX
  received : Received f f' taken bytes

theorem Copied.nothing (harr : arr.length = kt_NkeSocketBuffersNumber) :
    Copied f f free (arr.set 0 UINT8_MAX) [] [] := by
  refine ⟨(zero_ceilDiv _).symm, List.nodup_nil, ?_, by simpa using harr, rfl, ?_, .refl f⟩
  · exact fun i hi => absurd hi List.not_mem_nil
  · intro hlt
    exact List.getElem?_set_self (harr ▸ hlt)

/-- The terminator is written after the loop. -/
theorem Copied.of_loop (hcount : taken.length = bytes.length ⌈/⌉ bufferSize) (hnd : (taken ++ rest).Nodup)
    (hfree : ∀ i ∈ taken, i ∈ free) (hlen : arr.length = kt_NkeSocketBuffersNumber)
    (htake : arr.take taken.length = taken) (hr : Received f f' taken bytes) :
    Copied f f' free
      (if 0 + taken.length < kt_NkeSocketBuffersNumber then arr.set (0 + taken.length) UINT8_MAX else arr)
      bytes taken := by
  rw [Nat.zero_add]
  refine ⟨hcount, hnd.of_append_left, hfree, ?_, ?_, ?_, hr⟩
  · split
    · rw [List.length_set, hlen]
    · exact hlen
  · split
    · rw [List.take_set_of_le (Nat.le_refl _), htake]
    · exact htake
  · intro hlt
    rw [if_pos hlt]
    exact List.getElem?_set_self (hlen ▸ hlt)

theorem copyDataToBuffers_of_loop (hm : mbuf ≠ [])
    (hr : copyLoop mbuf kt_NkeSocketBuffersNumber 0 mbuf.pkthdrLen 0 f (arr.set 0 UINT8_MAX) =
      .ok (error, k, arr', f')) :
    ∃ f'', copyDataToBuffers f mbuf arr =
        .ok (error, if k < kt_NkeSocketBuffersNumber then arr'.set k UINT8_MAX else arr', f'') ∧
      (error = KERN_SUCCESS → f'' = f') := by
  simp only [copyDataToBuffers, if_neg hm, hr]
  by_cases he : error = KERN_SUCCESS
  · exact ⟨f', by rw [if_neg (not_not.2 he)], fun _ => rfl⟩
  · exact ⟨_, by rw [if_pos he], fun h => absurd h he⟩

/-- A copy that fails has put back all it took. -/
theorem CopyEnd.freeAgain (hend : CopyEnd mbuf f free (.ok (error, arr', f')))
    (he : error ≠ KERN_SUCCESS) : ∃ free', Pool f' free' ∧ free'.Perm free := by
  cases hend with
  | copied => exact absurd rfl he
  | exhausted _ _ hp => exact ⟨_, hp, List.reverse_perm _⟩
  | copyFailed hf _ _ hp => exact ⟨_, hp, hf ▸ (List.reverse_perm _).append_right _⟩

/-- For every pool with `free.length` free buffers and every packet with a correct packet header: the copy
succeeds exactly when the free buffers are enough. Then they hold the packet; otherwise the same buffers
are free again. -/
theorem copyDataToBuffers_exact (h : Pool f free) (hsize : ∀ i ∈ free, f.sizeOf i = bufferSize)
    (hpkthdr : mbuf.pkthdrLen = mbuf.bytes.length) (harr : arr.length = kt_NkeSocketBuffersNumber) :
    ∃ error arr' f', copyDataToBuffers f mbuf arr = .ok (error, arr', f') ∧
      (error = KERN_SUCCESS ↔ mbuf.bytes.length ⌈/⌉ bufferSize ≤ free.length) ∧
      (error = KERN_SUCCESS → ∃ taken, Copied f f' free arr' mbuf.bytes taken) ∧
      (error ≠ KERN_SUCCESS → ∃ free', Pool f' free' ∧ free'.Perm free) := by
  by_cases hm : mbuf = []
  · subst hm
    refine ⟨KERN_SUCCESS, arr.set 0 UINT8_MAX, f, rfl, ?_, fun _ => ⟨[], .nothing harr⟩, fun he => absurd rfl he⟩
    exact ⟨fun _ => (zero_ceilDiv _).le.trans (Nat.zero_le _), fun _ => rfl⟩
  · have hpos : 0 < bufferSize := by decide
    have hfree : free.length ≤ kt_NkeSocketBuffersNumber := by
      simpa using Pool.length_le (l := []) h (by simpa using h.nodup) (by simp)
    have hlen : (arr.set 0 UINT8_MAX).length = kt_NkeSocketBuffersNumber := by simpa using harr
    have hend := copyDataToBuffers_spec mbuf h harr
    have hloop := @copyLoop_spec f free (arr.set 0 UINT8_MAX) 0 mbuf _ _ 0 h hfree
      (by rw [hlen, Nat.zero_add]) mbuf.pkthdrLen_lt (Nat.zero_le _)
    cases hr : copyLoop mbuf kt_NkeSocketBuffersNumber 0 mbuf.pkthdrLen 0 f (arr.set 0 UINT8_MAX) with
    | error e =>
      rw [hr] at hloop
      cases hloop
    | ok r =>
      obtain ⟨error, k, arr', f'⟩ := r
      obtain ⟨f'', hcopy, hf''⟩ := copyDataToBuffers_of_loop hm hr
      obtain ⟨hiff, hreceived⟩ := copyLoop_received hpos h hsize hfree mbuf.pkthdrLen_lt
        (by rw [hpkthdr, Nat.zero_add]) hr
      rw [hpkthdr] at hiff hreceived
      refine ⟨error, _, f'', hcopy, hiff, ?_, ?_⟩
      · intro he
        obtain ⟨hk, hrec⟩ := hreceived he
        rw [hr] at hloop
        rw [hf'' he]
        cases hloop with
        | @done taken rest _ _ hf _ _ hl ht =>
          have hcount : taken.length = mbuf.bytes.length ⌈/⌉ bufferSize := by omega
          rw [← hcount, hf, List.take_left, List.drop_zero, List.take_length] at hrec
          refine ⟨taken, Copied.of_loop hcount (hf ▸ h.nodup) (fun i hi => hf ▸ List.mem_append_left _ hi)
            (hl.trans hlen) ?_ hrec⟩
          simpa using ht
        | exhausted => exact absurd he (by decide)
        | copyFailed _ _ _ _ _ _ _ hne => exact absurd he hne
      · exact CopyEnd.freeAgain (hcopy ▸ hend)

/-- A packet of three bytes in two mbufs. -/
def threeBytes : MbufChain := [⟨[1, 2], some ⟨3, none, []⟩, none⟩, ⟨[3], none, none⟩]

theorem threeBytes_copied : ∃ arr' f' taken,
    copyDataToBuffers (withDefault (· < 2)) threeBytes (List.replicate kt_NkeSocketBuffersNumber 0) =
      .ok (KERN_SUCCESS, arr', f') ∧
    Copied (withDefault (· < 2)) f' (List.range (withDefault (· < 2)).dataBuffers.length).reverse arr' [1, 2, 3]
      taken := by
  obtain ⟨error, arr', f', hcopy, hiff, hcopied, -⟩ := copyDataToBuffers_exact (withDefault_pool (· < 2))
    (by decide) (rfl : threeBytes.pkthdrLen = threeBytes.bytes.length)
    (List.length_replicate (n := kt_NkeSocketBuffersNumber) (a := 0))
  obtain rfl := hiff.2 (by decide)
  obtain ⟨taken, htaken⟩ := hcopied rfl
  exact ⟨arr', f', taken, hcopy, htaken⟩

end NkeSocketFilter
end NkeFilter
