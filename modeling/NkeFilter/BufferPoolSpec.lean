import NkeFilter.BufferPool

/-!
# What the pool functions do

`Pool f free`: the free list of `f` is `free` and every index on it has a buffer. One lemma for each
function says what it does to the list, to the entries off the list and to the history; the loop of
`copyDataToBuffers` ends in one of three ways (`CopyLoopEnd`), and which one is decided by the sizes
of the free buffers and the length of the packet.
-/

namespace NkeFilter
namespace NkeSocketFilter
open Lib

/-- The free list of `f` is `free`, and the buffers of the array are where their index says. -/
structure Pool (f : NkeSocketFilter) (free : List Nat) : Prop where
  count_le : f.dataBuffers.length ≤ kt_NkeSocketBuffersNumber
  index_eq : ∀ i (b : NkeDataBuffer), f.dataBuffers[i]? = some b → b.index = i
  links : Links f.freeBuffers UINT8_MAX f.freeBuffersHead free
  backed : ∀ i ∈ free, i < f.dataBuffers.length

def sizeOf (f : NkeSocketFilter) (i : Nat) : Nat := (f.dataBuffers[i]?.map NkeDataBuffer.size).getD 0

def room (f : NkeSocketFilter) (l : List Nat) : Nat := (l.map f.sizeOf).sum

/-- The indices an array lists: those before the terminator. -/
def listed (bufferIndices : List Nat) : List Nat := bufferIndices.takeWhile (· ≠ UINT8_MAX)

/-- `f'` is `f` after `taken` was taken off its free list, in that order. -/
structure Granted (f f' : NkeSocketFilter) (taken : List Nat) : Prop where
  inUse : ∀ i ∈ taken, f'.freeBuffers i = UINT8_MAX
  other : ∀ i, i ∉ taken → f'.freeBuffers i = f.freeBuffers i
  history : f'.history = (taken.map BufferEvent.granted).reverse ++ f.history
  length : f'.dataBuffers.length = f.dataBuffers.length
  size : ∀ i, f'.sizeOf i = f.sizeOf i

/-- `f'` is `f` after `given` was pushed on its free list, in that order. -/
structure Pushed (f f' : NkeSocketFilter) (given : List Nat) : Prop where
  other : ∀ i, i ∉ given → f'.freeBuffers i = f.freeBuffers i
  history : f'.history = (given.map BufferEvent.pushed).reverse ++ f.history
  buffers : f'.dataBuffers = f.dataBuffers

variable {f f' f'' : NkeSocketFilter} {free rest l l' taken arr : List Nat} {i j n : Nat}

namespace Pool

theorem nodup (h : Pool f free) : free.Nodup := h.links.nodup

theorem lt_number (h : Pool f free) (hi : i < f.dataBuffers.length) : i < kt_NkeSocketBuffersNumber :=
  Nat.lt_of_lt_of_le hi h.count_le

theorem ne_max (h : Pool f free) (hi : i < f.dataBuffers.length) : i ≠ UINT8_MAX := by
  have := h.lt_number hi
  simp only [kt_NkeSocketBuffersNumber] at this
  simp only [UINT8_MAX]
  omega

/-- Taken and free indices together are at most as many as an index array has entries. -/
theorem length_le (h : Pool f free) (hnd : (l ++ free).Nodup) (hl : ∀ i ∈ l, i < f.dataBuffers.length) :
    l.length + free.length ≤ kt_NkeSocketBuffersNumber := by
  have hsub : l ++ free ⊆ List.range f.dataBuffers.length := by
    intro i hi
    rcases List.mem_append.1 hi with hi | hi
    · exact List.mem_range.2 (hl i hi)
    · exact List.mem_range.2 (h.backed i hi)
  have := (hnd.subperm hsub).length_le
  simp only [List.length_append, List.length_range] at this
  have := h.count_le
  omega

end Pool

/-! ### Taking and returning one index -/

theorem acquire_nil (h : Pool f []) : acquireSocketDataBufferForIO f = .ok (none, f) := by
  simp [ acquireSocketDataBufferForIO, Links.nil_iff.1 h.links]

theorem acquire_cons (h : Pool f (i :: rest)) :
    ∃ b f', f.dataBuffers[i]? = some b ∧ b.index = i ∧
      acquireSocketDataBufferForIO f = .ok (some b, f') ∧ Pool f' rest ∧ Granted f f' [i] ∧
      f'.dataBuffers = f.dataBuffers := by
  obtain ⟨hhead, hne, hrest⟩ := h.links
  have hi : i < f.dataBuffers.length := h.backed i (List.mem_cons_self ..)
  have hlt := h.lt_number hi
  have hget : f.dataBuffers[i]? = some f.dataBuffers[i] := List.getElem?_eq_getElem hi
  refine ⟨f.dataBuffers[i],
    { f with
      freeBuffersHead := f.freeBuffers i
      freeBuffers := Function.update f.freeBuffers i UINT8_MAX
      history := .granted i :: f.history }, hget, h.index_eq i _ hget, ?_, ?_, ?_, rfl⟩
  · simp [ acquireSocketDataBufferForIO, hhead, hne, Nat.not_le.2 hlt, hget]
  · exact ⟨h.count_le, h.index_eq, h.links.pop, fun j hj => h.backed j (List.mem_cons_of_mem _ hj)⟩
  · refine ⟨?_, ?_, rfl, rfl, fun _ => rfl⟩
    · intro j hj
      obtain rfl := List.mem_singleton.1 hj
      exact Function.update_self ..
    · intro j hj
      exact Function.update_of_ne (by simpa using hj) ..

/-- An index that is off the list and carries the in-use mark goes to the front. -/
theorem release_ok (h : Pool f free) (hi : i < f.dataBuffers.length) (hfree : i ∉ free)
    (hmark : f.freeBuffers i = UINT8_MAX) :
    Pool ( releaseSocketDataBufferFromIO f i) (i :: free) ∧
      Pushed f ( releaseSocketDataBufferFromIO f i) [i] := by
  have heq : releaseSocketDataBufferFromIO f i =
      { f with
        freeBuffers := Function.update f.freeBuffers i f.freeBuffersHead
        freeBuffersHead := i
        history := .pushed i :: f.history } := by
    simp [ releaseSocketDataBufferFromIO, Nat.not_le.2 (h.lt_number hi), hmark]
  rw [heq]
  refine ⟨⟨h.count_le, h.index_eq, h.links.push hfree (h.ne_max hi), ?_⟩, ?_, rfl, rfl⟩
  · intro j hj
    rcases List.mem_cons.1 hj with rfl | hj
    · exact hi
    · exact h.backed j hj
  · intro j hj
    exact Function.update_of_ne (by simpa using hj) ..

theorem release_ignored (hmark : f.freeBuffers i ≠ UINT8_MAX) : releaseSocketDataBufferFromIO f i = f := by
  simp [ releaseSocketDataBufferFromIO, hmark.symm]

/-- An index on the list is taken for one in use exactly when it is the last of the list. -/
theorem freeBuffers_eq_max_iff (h : Pool f free) (hi : i ∈ free) :
    f.freeBuffers i = UINT8_MAX ↔ free.getLast? = some i :=
  h.links.next_eq_stop_iff hi

/-! ### The start -/

/-- After `i` of the buffers were created the free list counts down from `i - 1`. -/
theorem createBuffers_pool (withSize : Nat → Bool) (n i : Nat) {f : NkeSocketFilter}
    (hn : n + i ≤ kt_NkeSocketBuffersNumber) (h : Pool f (List.range i).reverse)
    (hlen : f.dataBuffers.length = i) :
    Pool (createBuffers withSize n i f)
      (List.range (createBuffers withSize n i f).dataBuffers.length).reverse := by
  induction n generalizing i f with
  | zero => exact hlen ▸ h
  | succ n ih =>
    unfold createBuffers
    split
    · refine ih (i + 1) (by omega) ⟨by simp [hlen]; omega, ?_, ?_, ?_⟩ (by simp [hlen])
      · intro j b hj
        rcases Nat.lt_trichotomy j i with hlt | rfl | hgt
        · rw [List.getElem?_append_left (by omega)] at hj
          exact h.index_eq j b hj
        · rw [List.getElem?_append_right (by omega), hlen, Nat.sub_self] at hj
          obtain rfl := Option.some.inj hj
          rfl
        · rw [List.getElem?_eq_none (by simp [hlen]; omega)] at hj
          cases hj
      · rw [List.range_succ, List.reverse_append]
        refine h.links.push (by simp) ?_
        simp only [kt_NkeSocketBuffersNumber] at hn
        simp only [UINT8_MAX]
        omega
      · intro j hj
        simp only [List.mem_reverse, List.mem_range] at hj
        simp [hlen]
        omega
    · exact hlen ▸ h

theorem withDefault_pool (withSize : Nat → Bool) :
    Pool (withDefault withSize) (List.range (withDefault withSize).dataBuffers.length).reverse :=
  createBuffers_pool withSize kt_NkeSocketBuffersNumber 0 (Nat.le_refl _)
    ⟨by simp, by simp, rfl, by simp⟩ rfl

/-! ### Relations between pools -/

theorem Granted.refl (f : NkeSocketFilter) : Granted f f [] := ⟨by simp, by simp, rfl, rfl, fun _ => rfl⟩

theorem Granted.trans (h : Granted f f' l) (h' : Granted f' f'' l') : Granted f f'' (l ++ l') where
  inUse i hi := by
    by_cases hi' : i ∈ l'
    · exact h'.inUse i hi'
    · rw [h'.other i hi']
      exact h.inUse i ((List.mem_append.1 hi).resolve_right hi')
  other i hi := by
    rw [List.mem_append, not_or] at hi
    rw [h'.other i hi.2, h.other i hi.1]
  history := by rw [h'.history, h.history]; simp
  length := h'.length.trans h.length
  size i := (h'.size i).trans (h.size i)

theorem Granted.room_eq (h : Granted f f' l) (l' : List Nat) : f'.room l' = f.room l' := by
  unfold room
  congr 1
  exact List.map_congr_left fun i _ => h.size i

theorem Pushed.refl (f : NkeSocketFilter) : Pushed f f [] := ⟨by simp, rfl, rfl⟩

theorem Pushed.trans (h : Pushed f f' l) (h' : Pushed f' f'' l') : Pushed f f'' (l ++ l') where
  other i hi := by
    rw [List.mem_append, not_or] at hi
    rw [h'.other i hi.2, h.other i hi.1]
  history := by rw [h'.history, h.history]; simp
  buffers := h'.buffers.trans h.buffers

theorem setBuffer_sizeOf {b b' : NkeDataBuffer} (hb : f.dataBuffers[b.index]? = some b)
    (hi : b'.index = b.index) (hs : b'.size = b.size) (j : Nat) : (f.setBuffer b').sizeOf j = f.sizeOf j := by
  unfold sizeOf setBuffer
  simp only [hi, List.getElem?_set]
  split
  · rename_i hj
    obtain ⟨hlt, hget⟩ := List.getElem?_eq_some_iff.1 hb
    subst hj
    simp [hlt, hget, hs]
  · rfl

theorem setBuffer_spec {b b' : NkeDataBuffer} (h : Pool f free) (hb : f.dataBuffers[b.index]? = some b)
    (hi : b'.index = b.index) (hs : b'.size = b.size) :
    Pool (f.setBuffer b') free ∧ Granted f (f.setBuffer b') [] := by
  refine ⟨⟨by simpa [setBuffer] using h.count_le, ?_, h.links, by simpa [setBuffer] using h.backed⟩,
    by simp, fun _ _ => rfl, rfl, by simp [setBuffer], setBuffer_sizeOf hb hi hs⟩
  intro j c hc
  simp only [setBuffer, hi, List.getElem?_set] at hc
  split at hc
  · rename_i hj
    split at hc
    · obtain rfl := Option.some.inj hc
      exact hi.trans hj
    · cases hc
  · exact h.index_eq j c hc

/-! ### Index arrays -/

theorem releaseDataBuffers_eq :
    releaseDataBuffers f arr = (listed arr).foldl (fun f i => releaseSocketDataBufferFromIO f i) f := by
  induction arr generalizing f with
  | nil => rfl
  | cons i arr ih =>
    unfold releaseDataBuffers listed
    by_cases hi : i = UINT8_MAX
    · simp [hi]
    · rw [if_neg (Ne.symm hi), ih, List.takeWhile_cons_of_pos (by simpa using hi)]
      rfl

theorem listed_of_terminated (hl : ∀ i ∈ l, i ≠ UINT8_MAX) : listed (l ++ UINT8_MAX :: rest) = l := by
  rw [listed, List.takeWhile_append_of_pos (by simpa using hl)]
  simp

theorem listed_of_full (hl : ∀ i ∈ l, i ≠ UINT8_MAX) : listed l = l := by
  rw [listed, List.takeWhile_eq_self_iff]
  simpa using hl

theorem listed_set_terminator (htake : arr.take n = l) (hl : ∀ i ∈ l, i ≠ UINT8_MAX) (hn : n ≤ arr.length) :
    listed (if n < arr.length then arr.set n UINT8_MAX else arr) = l := by
  split
  · rename_i hlt
    rw [List.set_eq_take_append_cons_drop, if_pos hlt, htake]
    exact listed_of_terminated hl
  · rw [List.take_of_length_le (by omega)] at htake
    rw [htake]
    exact listed_of_full hl

/-- Indices in use that are released one after the other all reach the list, the last one first. -/
theorem releaseAll_spec (h : Pool f free) (hnd : (l ++ free).Nodup) (hl : ∀ i ∈ l, i < f.dataBuffers.length)
    (hmark : ∀ i ∈ l, f.freeBuffers i = UINT8_MAX) :
    Pool (l.foldl (fun f i => releaseSocketDataBufferFromIO f i) f) (l.reverse ++ free) ∧
      Pushed f (l.foldl (fun f i => releaseSocketDataBufferFromIO f i) f) l := by
  induction l generalizing f free with
  | nil => exact ⟨h, .refl f⟩
  | cons i l ih =>
    have hi : i ∉ l ++ free := (List.nodup_cons.1 hnd).1
    rw [List.mem_append, not_or] at hi
    obtain ⟨hpool, hpush⟩ := release_ok h (hl i (by simp)) hi.2 (hmark i (by simp))
    have hnd' : (l ++ i :: free).Nodup := by
      rw [List.nodup_middle]
      exact hnd
    obtain ⟨hpool', hpush'⟩ := ih hpool hnd' (fun j hj => hpush.buffers ▸ hl j (by simp [hj]))
      fun j hj => by
        rw [hpush.other j (by simp; exact fun h => hi.1 (h ▸ hj))]
        exact hmark j (by simp [hj])
    exact ⟨by simpa using hpool', hpush.trans hpush'⟩

theorem releaseAll_ignored (hmark : ∀ i ∈ l, f.freeBuffers i ≠ UINT8_MAX) :
    l.foldl (fun f i => releaseSocketDataBufferFromIO f i) f = f := by
  induction l with
  | nil => rfl
  | cons i l ih =>
    rw [List.foldl_cons, release_ignored (hmark i (by simp))]
    exact ih fun j hj => hmark j (by simp [hj])

/-! ### The copying loop -/

/-- How the copying loop can end, started with the free list `free`, `residual` bytes still to copy
from `offset` on and the next index going to entry `i` of the array. -/
inductive CopyLoopEnd (mbuf : MbufChain) (f : NkeSocketFilter) (free : List Nat) (i residual offset : Nat)
    (arr : List Nat) : Except Fault (Errno × Nat × List Nat × NkeSocketFilter) → Prop
  | done {taken rest arr' f'} : free = taken ++ rest → Granted f f' taken → Pool f' rest →
      arr'.length = arr.length → arr'.take (i + taken.length) = arr.take i ++ taken →
      residual ≤ f.room free →
      CopyLoopEnd mbuf f free i residual offset arr (.ok (KERN_SUCCESS, i + taken.length, arr', f'))
  | exhausted {arr' f'} : Granted f f' free → Pool f' [] →
      arr'.length = arr.length → arr'.take (i + free.length) = arr.take i ++ free →
      f.room free < residual → offset + f.room free ≤ mbuf.bytes.length →
      CopyLoopEnd mbuf f free i residual offset arr (.ok (ENOMEM, i + free.length, arr', f'))
  /-- `mbuf_copydata` failed for the buffer `j`, which was put back. -/
  | copyFailed {taken j rest arr' f' f'' error} : free = taken ++ j :: rest →
      Granted f f' (taken ++ [j]) → Pushed f' f'' [j] → Pool f'' (j :: rest) →
      arr'.length = arr.length → arr'.take (i + taken.length) = arr.take i ++ taken →
      mbuf.bytes.length < offset + f.room free → error ≠ KERN_SUCCESS →
      CopyLoopEnd mbuf f free i residual offset arr (.ok (error, i + taken.length, arr', f''))

theorem take_succ_set {x : Nat} (hi : i < arr.length) : (arr.set i x).take (i + 1) = arr.take i ++ [x] := by
  rw [List.set_eq_take_append_cons_drop, if_pos hi]
  have hlen : (arr.take i).length = i := by simp; omega
  rw [List.take_append, hlen, List.take_of_length_le (by omega)]
  simp

theorem CopyLoopEnd.stop {mbuf : MbufChain} {residual offset : Nat} (h : Pool f free) (hr : residual = 0) :
    CopyLoopEnd mbuf f free i residual offset arr (.ok (KERN_SUCCESS, i, arr, f)) := by
  have hnone : arr.take (i + ([] : List Nat).length) = arr.take i ++ [] := by simp
  exact .done rfl (.refl f) h rfl hnone (by omega)

theorem copyLoop_spec (mbuf : MbufChain) {slots residual offset : Nat} (h : Pool f free)
    (hslots : free.length ≤ slots) (hroom : i + slots = arr.length) (hres : residual < 2 ^ 64)
    (hoff : offset ≤ mbuf.bytes.length) :
    CopyLoopEnd mbuf f free i residual offset arr (copyLoop mbuf slots i residual offset f arr) := by
  induction slots generalizing f free i residual offset arr with
  | zero =>
    obtain rfl := List.length_eq_zero_iff.1 (Nat.le_zero.1 hslots)
    unfold copyLoop
    by_cases hr : residual = 0
    · rw [if_pos hr]
      exact .stop h hr
    · simp only [hr, if_false, acquire_nil h]
      exact .exhausted (.refl f) h rfl (by simp) (by simp [room]; omega) (by simpa [room] using hoff)
  | succ slots ih =>
    unfold copyLoop
    by_cases hr : residual = 0
    · rw [if_pos hr]
      exact .stop h hr
    simp only [hr, if_false]
    cases free with
    | nil =>
      rw [acquire_nil h]
      exact .exhausted (.refl f) h rfl (by simp) (by simp [room]; omega) (by simpa [room] using hoff)
    | cons j rest =>
      obtain ⟨b, f₁, hb, hbi, hacq, hpool₁, hgr₁, hbufs⟩ := acquire_cons h
      obtain ⟨hk, hok⟩ := NkeDataBuffer.copyDataMbuf_zero b offset mbuf hres
      have hb₁ : f₁.dataBuffers[b.index]? = some b := by rw [hbufs, hbi]; exact hb
      obtain ⟨hpool₂, hgr₂⟩ := setBuffer_spec hpool₁ hb₁
        (show (b.copyDataMbuf 0 residual offset mbuf).2.2.index = b.index from rfl) rfl
      have hgr := hgr₁.trans hgr₂
      have hsize : f.room (j :: rest) = b.size + f.room rest := by simp [room, sizeOf, hb]
      rw [hacq]
      simp only
      set b' := (b.copyDataMbuf 0 residual offset mbuf).2.2
      set f₂ := f₁.setBuffer b'
      have hroom₂ : f₂.room rest = f.room rest := hgr.room_eq rest
      have hbi' : b'.index = j := hbi
      rw [hbi', hk]
      by_cases herr : (b.copyDataMbuf 0 residual offset mbuf).1 = KERN_SUCCESS
      · -- the buffer was filled: the rest of the loop works on the rest of the list
        rw [if_neg (not_not.2 herr)]
        have hle := hok.1 herr
        have hrec := @ih f₂ rest (arr.set i j) (i + 1) (residual - min residual b.size)
          (offset + min residual b.size)
          hpool₂ (by simpa using hslots) (by simp; omega) (by omega) hle
        have hi : i < arr.length := by omega
        have htake : ∀ {arr' : List Nat} {l : List Nat},
            arr'.take (i + 1 + l.length) = (arr.set i j).take (i + 1) ++ l →
            arr'.take (i + (j :: l).length) = arr.take i ++ j :: l := by
          intro arr' l hl
          rw [List.length_cons, Nat.add_comm l.length 1, ← Nat.add_assoc, hl, take_succ_set hi]
          simp
        have hlen : ∀ l : List Nat, i + 1 + l.length = i + (j :: l).length := by
          intro l; simp only [List.length_cons]; omega
        generalize copyLoop mbuf slots (i + 1) (residual - min residual b.size)
          (offset + min residual b.size) f₂ (arr.set i j) = r at hrec
        cases hrec with
        | @done taken rest' arr' f' hfree hg hp hl ht hres' =>
          rw [hlen]
          refine .done (show _ = (j :: taken) ++ rest' by rw [hfree]; rfl) (hgr.trans hg) hp
            (by simpa using hl) (htake ht) ?_
          omega
        | @exhausted arr' f' hg hp hl ht h₁ h₂ =>
          rw [hlen]
          exact .exhausted (hgr.trans hg) hp (by simpa using hl) (htake ht) (by omega) (by omega)
        | @copyFailed taken k rest' arr' f' f'' error hfree hg hpush hp hl ht h₁ herr' =>
          rw [hlen]
          exact .copyFailed (by rw [hfree]; rfl) (hgr.trans hg) hpush hp (by simpa using hl) (htake ht)
            (by omega) herr'
      · -- the buffer goes back to the front of the list
        rw [if_pos herr]
        have hj : j ∉ rest := (List.nodup_cons.1 h.nodup).1
        obtain ⟨hpool₃, hpush⟩ := release_ok hpool₂ (hgr.length ▸ h.backed j (by simp)) hj
          (hgr.inUse j (by simp))
        have hshort : ¬ offset + min residual b.size ≤ mbuf.bytes.length := fun hle => herr (hok.2 hle)
        exact .copyFailed (show j :: rest = [] ++ j :: rest from rfl) hgr hpush hpool₃ rfl (by simp)
          (by omega) herr

/-- How `copyDataToBuffers` can end. In the last two cases it has released all it took, but the array
still lists the indices. -/
inductive CopyEnd (mbuf : MbufChain) (f : NkeSocketFilter) (free : List Nat) :
    Except Fault (Errno × List Nat × NkeSocketFilter) → Prop
  | copied {taken rest arr' f'} : free = taken ++ rest → Granted f f' taken → Pool f' rest →
      listed arr' = taken → mbuf.pkthdrLen ≤ f.room free →
      CopyEnd mbuf f free (.ok (KERN_SUCCESS, arr', f'))
  | exhausted {arr' f' f''} : Granted f f' free → Pushed f' f'' free → Pool f'' free.reverse →
      listed arr' = free → f.room free < mbuf.pkthdrLen → f.room free ≤ mbuf.bytes.length →
      CopyEnd mbuf f free (.ok (ENOMEM, arr', f''))
  | copyFailed {taken j rest arr' f' f'' error} : free = taken ++ j :: rest →
      Granted f f' (taken ++ [j]) → Pushed f' f'' (j :: taken) → Pool f'' (taken.reverse ++ j :: rest) →
      listed arr' = taken → mbuf.bytes.length < f.room free → error ≠ KERN_SUCCESS →
      CopyEnd mbuf f free (.ok (error, arr', f''))

theorem copyDataToBuffers_spec (mbuf : MbufChain) (h : Pool f free)
    (harr : arr.length = kt_NkeSocketBuffersNumber) :
    CopyEnd mbuf f free (copyDataToBuffers f mbuf arr) := by
  have hne : ∀ {l : List Nat}, (∀ k ∈ l, k ∈ free) → ∀ k ∈ l, k ≠ UINT8_MAX :=
    fun hl k hk => h.ne_max (h.backed k (hl k hk))
  unfold copyDataToBuffers
  by_cases hm : mbuf = []
  · subst hm
    refine .copied (show free = [] ++ free from rfl) (.refl f) h ?_ (by simp [MbufChain.pkthdrLen])
    cases arr with
    | nil => simp [kt_NkeSocketBuffersNumber] at harr
    | cons x arr => simp [listed, UINT8_MAX]
  simp only [hm, if_false]
  have hlen : (arr.set 0 UINT8_MAX).length = kt_NkeSocketBuffersNumber := by simpa using harr
  have hfree : free.length ≤ kt_NkeSocketBuffersNumber := by
    simpa using Pool.length_le (l := []) h (by simpa using h.nodup) (by simp)
  have hrec := @copyLoop_spec f free (arr.set 0 UINT8_MAX) 0 mbuf _ _ 0 h hfree
    (by rw [hlen, Nat.zero_add]) mbuf.pkthdrLen_lt (Nat.zero_le _)
  generalize copyLoop mbuf kt_NkeSocketBuffersNumber 0 mbuf.pkthdrLen 0 f (arr.set 0 UINT8_MAX) = r at hrec
  cases hrec with
  | @done taken rest arr' f' hf hg hp hl ht hres =>
    simp only [Nat.zero_add, List.take_zero, List.nil_append] at ht ⊢
    rw [if_neg (by simp)]
    refine .copied hf hg hp ?_ hres
    rw [← hl.trans hlen]
    refine listed_set_terminator ht (hne fun k hk => hf ▸ List.mem_append_left _ hk) ?_
    rw [hl, hlen]
    exact Nat.le_trans (by rw [hf]; simp) hfree
  | @exhausted arr' f' hg hp hl ht h₁ h₂ =>
    simp only [Nat.zero_add, List.take_zero, List.nil_append] at ht h₂ ⊢
    rw [if_pos (by decide), releaseDataBuffers_eq]
    have hlist := listed_set_terminator ht (hne fun k hk => hk) (by rw [hl, hlen]; exact hfree)
    rw [hl, hlen] at hlist
    rw [hlist]
    obtain ⟨hp', hpush⟩ := releaseAll_spec hp (by simpa using h.nodup)
      (fun k hk => hg.length ▸ h.backed k hk) hg.inUse
    exact .exhausted hg hpush (by simpa using hp') hlist h₁ h₂
  | @copyFailed taken j rest arr' f' f'' error hf hg hpush hp hl ht h₁ herr =>
    simp only [Nat.zero_add, List.take_zero, List.nil_append] at ht h₁ ⊢
    rw [if_pos herr, releaseDataBuffers_eq]
    have hmem : ∀ k ∈ taken, k ∈ free := fun k hk => hf ▸ List.mem_append_left _ hk
    have hlist := listed_set_terminator ht (hne hmem)
      (by rw [hl, hlen]; exact Nat.le_trans (by rw [hf]; simp) hfree)
    rw [hl, hlen] at hlist
    rw [hlist]
    have hnd : (taken ++ j :: rest).Nodup := hf ▸ h.nodup
    have hj : ∀ k ∈ taken, k ≠ j := by
      rintro k hk rfl
      exact (List.disjoint_of_nodup_append hnd) hk (by simp)
    obtain ⟨hp', hpush'⟩ := releaseAll_spec hp hnd
      (fun k hk => by rw [hpush.buffers, hg.length]; exact h.backed k (hmem k hk)) fun k hk => by
        rw [hpush.other k (by simpa using hj k hk)]
        exact hg.inUse k (by simp [hk])
    exact .copyFailed hf hg (hpush.trans hpush') hp' hlist h₁ herr

end NkeSocketFilter
end NkeFilter
