import NkeFilter.SocketObject
import NkeFilter.BufferPoolSpec

/-!
# One call of `FltData`

`FltData` from the capture of a packet to the start of `DeliverWaitingNotifications`, in the phases
another thread can see (`FltDataCall`), and the whole call run alone against the pool
(`fltDataCaptured`). The buffers of such a call are accounted for exactly when the pool does not run dry
after the first buffer was taken: then `copyDataToBuffers` has already released what the array still
lists, and `FltData` releases it again.
-/

namespace NkeFilter
open Lib NkeSocketFilter

/-- The variables of `FltData` once the packet is captured. -/
structure FltDataCall where
  pendingPkt : PendingPktQueueItem
  notification : NkeSocketFilterNotification
  error : Errno
  sendNotification : Bool
  releaseBuffers : Bool
  wait : Bool
  deriving DecidableEq, Repr

namespace FltDataCall

def captured (so : NkeSocketObject) (pendingPkt : PendingPktQueueItem) : FltDataCall where
  pendingPkt := pendingPkt
  notification := so.initSocketNotification pendingPkt
  error := KERN_SUCCESS
  sendNotification := true
  releaseBuffers := false
  wait := false

def copied (c : FltDataCall) (error : Errno) (buffers : List Nat) : FltDataCall :=
  let c := { c with notification := { c.notification with buffers }, error }
  if error ≠ KERN_SUCCESS then { c with sendNotification := false, releaseBuffers := true } else c

/-- The copying of the packet; without data nothing is copied. -/
def copy (c : FltDataCall) (f : NkeSocketFilter) : Except Fault (Errno × List Nat × NkeSocketFilter) :=
  if c.pendingPkt.data = [] then .ok (c.error, c.notification.buffers, f)
  else f.copyDataToBuffers c.pendingPkt.data c.notification.buffers

/-- After `getUserClient` and `socketFilterNotification`; `none`: there is no client. -/
def sent (c : FltDataCall) (client : Option Errno) : FltDataCall :=
  let error := client.getD ENOENT
  { c with error, releaseBuffers := c.releaseBuffers || error != KERN_SUCCESS }

end FltDataCall

/-- The region of `FltData` under `rwLock`: the packet goes to the end of the queue and is postponed when
its data was not copied or when a packet before it waits. The increment of `packetsWaitingForReporting`
returns the old value. -/
def NkeSocketObject.queuePkt (so : NkeSocketObject) (c : FltDataCall) :
    NkeSocketObject × FltDataCall × List SocketEvent :=
  let pkt := c.pendingPkt
  if c.error ≠ KERN_SUCCESS ∨ so.packetsWaitingForReporting ≠ 0 then
    let inbound := pkt.dataInbound
    let pkt := { pkt with needToBeReported := true, waitEntry := if inbound then none else some pkt.id }
    let enlist := so.packetsWaitingForReporting = 0 ∧ !so.insertedInSocketsListToReport
    ({ so with
        pendingQueue := so.pendingQueue ++ [pkt]
        packetsWaitingForReporting := so.packetsWaitingForReporting + 1
        insertedInSocketsListToReport := so.insertedInSocketsListToReport || decide enlist },
      { c with pendingPkt := pkt, sendNotification := false, releaseBuffers := true, wait := !inbound },
      [.queued pkt.id] ++ (if inbound ∧ so.lockCount ≠ 0 then [.setRcvBuf 1] else []) ++
        if enlist then [.enlisted] else [])
  else ({ so with pendingQueue := so.pendingQueue ++ [pkt] }, c, [.queued pkt.id])

/-- The state when `DeliverWaitingNotifications` is about to start, with the notification the client got. -/
structure FltDataEnd where
  filter : NkeSocketFilter
  object : NkeSocketObject
  call : FltDataCall
  enqueued : Option NkeSocketFilterNotification

/-- `FltData` from the region under `rwLock` on; `client` is what `socketFilterNotification` returns, or
`none` without a client. -/
def fltDataFinish (f : NkeSocketFilter) (so : NkeSocketObject) (c : FltDataCall) (client : Option Errno) :
    FltDataEnd :=
  let (so, c, _) := so.queuePkt c
  let send := c.sendNotification
  let c := if send then c.sent client else c
  let enqueued := if send ∧ c.error = KERN_SUCCESS then some c.notification else none
  let f := if c.releaseBuffers then f.releaseDataBuffers c.notification.buffers else f
  ⟨f, so, c, enqueued⟩

/-- `FltData` run alone from the capture of `pkt` on. -/
def fltDataCaptured (f : NkeSocketFilter) (so : NkeSocketObject) (pkt : PendingPktQueueItem)
    (client : Option Errno) : Except Fault FltDataEnd :=
  let c := FltDataCall.captured so pkt
  match c.copy f with
  | .error e => .error e
  | .ok (error, buffers, f) => .ok (fltDataFinish f so (c.copied error buffers) client)

/-- The free list holds each free index once and every other index belongs to exactly one of the
notifications in `owned`. -/
structure WellFormed (f : NkeSocketFilter) (free : List Nat) (owned : List (List Nat)) : Prop where
  count_le : f.dataBuffers.length ≤ kt_NkeSocketBuffersNumber
  index_eq : ∀ i (b : NkeDataBuffer), f.dataBuffers[i]? = some b → b.index = i
  links : Links f.freeBuffers UINT8_MAX f.freeBuffersHead free
  shared : (free ++ owned.flatten).Perm (List.range f.dataBuffers.length)

def handedOver (enqueued : Option NkeSocketFilterNotification) : List (List Nat) :=
  (enqueued.map fun n => listed n.buffers).toList

/-- What the call did to the buffers, between the pool `f` before and the end `r`: every index it acquired
is in the enqueued notification and off the free list, or was pushed back once, not both; it pushed no
other index; the pool is well formed again. -/
def Accounted (f : NkeSocketFilter) (owned : List (List Nat)) : Except Fault FltDataEnd → Prop
  | .error _ => False
  | .ok r => ∃ done free, r.filter.history = done ++ f.history ∧
      (∀ i, .granted i ∈ done →
        Xor (i ∈ (handedOver r.enqueued).flatten ∧ i ∉ free) (done.count (.pushed i) = 1)) ∧
      (∀ i, .pushed i ∈ done → .granted i ∈ done) ∧
      WellFormed r.filter free (owned ++ handedOver r.enqueued)

/-- The pool has room for the packet, or nothing is free. The last case needs a packet header that states
more bytes than the chain has. -/
def PoolSuffices (f : NkeSocketFilter) (free : List Nat) (mbuf : MbufChain) : Prop :=
  free = [] ∨ mbuf.pkthdrLen ≤ f.room free ∨ mbuf.bytes.length < f.room free

variable {f f' f'' : NkeSocketFilter} {so : NkeSocketObject} {pkt : PendingPktQueueItem}
  {client : Option Errno} {free taken rest : List Nat} {owned : List (List Nat)}

theorem WellFormed.pool (h : WellFormed f free owned) : Pool f free :=
  ⟨h.count_le, h.index_eq, h.links, fun _ hi =>
    List.mem_range.1 (h.shared.mem_iff.1 (List.mem_append_left _ hi))⟩

theorem WellFormed.of_pool {free' : List Nat} {owned' : List (List Nat)} (h : WellFormed f free owned)
    (hp : Pool f' free') (hlen : f'.dataBuffers.length = f.dataBuffers.length)
    (hperm : (free' ++ owned'.flatten).Perm (free ++ owned.flatten)) : WellFormed f' free' owned' :=
  ⟨hp.count_le, hp.index_eq, hp.links, hlen ▸ hperm.trans h.shared⟩

/-! ### The end of the call -/

/-- Either the client got the notification and nothing was released, or the array was released; after a
failed copy only the second. -/
theorem finish_cases (f : NkeSocketFilter) (so : NkeSocketObject) (pkt : PendingPktQueueItem)
    (client : Option Errno)
    (error : Errno) (buffers : List Nat) :
    let r := fltDataFinish f so ((FltDataCall.captured so pkt).copied error buffers) client
    (error = KERN_SUCCESS ∧ (∃ n, r.enqueued = some n ∧ n.buffers = buffers) ∧ r.filter = f) ∨
      (r.enqueued = none ∧ r.filter = f.releaseDataBuffers buffers) := by
  by_cases he : error = KERN_SUCCESS
  · by_cases hw : so.packetsWaitingForReporting = 0
    · by_cases hc : client.getD ENOENT = KERN_SUCCESS
      · left
        simp [fltDataFinish, NkeSocketObject.queuePkt, FltDataCall.copied, FltDataCall.sent,
          FltDataCall.captured, he, hw, hc]
      · right
        simp [fltDataFinish, NkeSocketObject.queuePkt, FltDataCall.copied, FltDataCall.sent,
          FltDataCall.captured, he, hw, hc]
    · right
      simp [fltDataFinish, NkeSocketObject.queuePkt, FltDataCall.copied, FltDataCall.captured, he, hw]
  · right
    simp [fltDataFinish, NkeSocketObject.queuePkt, FltDataCall.copied, FltDataCall.captured, he]

/-- The history of a call that took `granted` and then pushed `pushed`. -/
def traffic (granted pushed : List Nat) : List BufferEvent :=
  (pushed.map BufferEvent.pushed).reverse ++ (granted.map BufferEvent.granted).reverse

section Traffic
variable {l l' : List Nat} {i : Nat}

@[simp] theorem granted_mem_traffic : .granted i ∈ traffic l l' ↔ i ∈ l := by simp [traffic]

@[simp] theorem pushed_mem_traffic : .pushed i ∈ traffic l l' ↔ i ∈ l' := by simp [traffic]

@[simp] theorem count_pushed_traffic : (traffic l l').count (.pushed i) = l'.count i := by
  have hinj : Function.Injective BufferEvent.pushed := fun _ _ h => BufferEvent.pushed.inj h
  have hnone : (l.map BufferEvent.granted).reverse.count (.pushed i) = 0 :=
    List.count_eq_zero.2 (by simp)
  rw [traffic, List.count_append, hnone, List.count_reverse, List.count_map_of_injective _ _ hinj]
  rfl

end Traffic

theorem accounted_of_handedOver {r : FltDataEnd} {n : NkeSocketFilterNotification}
    (h : WellFormed f free owned) (hfree : free = taken ++ rest) (hp : Pool r.filter rest)
    (hlen : r.filter.dataBuffers.length = f.dataBuffers.length)
    (hhist : r.filter.history = traffic taken [] ++ f.history) (hn : r.enqueued = some n)
    (hlist : listed n.buffers = taken) : Accounted f owned (.ok r) := by
  have hnd : (taken ++ rest).Nodup := hfree ▸ h.pool.nodup
  have hover : handedOver r.enqueued = [taken] := by simp [handedOver, hn, hlist]
  refine ⟨_, rest, hhist, ?_, fun i hi => by simp at hi, ?_⟩
  · intro i hi
    have hi : i ∈ taken := granted_mem_traffic.1 hi
    refine .inl ⟨⟨by simpa [hover] using hi, ?_⟩, by simp⟩
    exact fun hr => List.disjoint_of_nodup_append hnd hi hr
  · refine h.of_pool hp hlen ?_
    rw [hover, hfree, List.flatten_append, List.flatten_singleton]
    calc (rest ++ (owned.flatten ++ taken)).Perm (rest ++ (taken ++ owned.flatten)) :=
          List.Perm.append_left _ List.perm_append_comm
      _ = (rest ++ taken) ++ owned.flatten := (List.append_assoc ..).symm
      List.Perm _ ((taken ++ rest) ++ owned.flatten) := List.perm_append_comm.append_right _

theorem accounted_of_putBack {r : FltDataEnd} {free' given : List Nat} (h : WellFormed f free owned)
    (hnd : taken.Nodup) (hgiven : given.Perm taken) (hp : Pool r.filter free')
    (hlen : r.filter.dataBuffers.length = f.dataBuffers.length)
    (hhist : r.filter.history = traffic taken given ++ f.history) (hn : r.enqueued = none)
    (hperm : free'.Perm free) : Accounted f owned (.ok r) := by
  have hover : handedOver r.enqueued = [] := by simp [handedOver, hn]
  refine ⟨_, free', hhist, ?_, ?_, ?_⟩
  · intro i hi
    have hi : i ∈ taken := granted_mem_traffic.1 hi
    refine .inr ⟨?_, by simp [hover]⟩
    rw [count_pushed_traffic, hgiven.count_eq, List.count_eq_one_of_mem hnd hi]
  · intro i hi
    exact granted_mem_traffic.2 (hgiven.mem_iff.1 (pushed_mem_traffic.1 hi))
  · refine h.of_pool hp hlen ?_
    rw [hover, List.append_nil]
    exact hperm.append_right _

/-- The first index of a list that was returned in order is the last of the free list, so its entry holds
`UINT8_MAX` and releasing it once more pushes it again. -/
theorem release_twice {i : Nat} (hp : Pool f (i :: rest).reverse) :
    ((i :: rest).foldl (fun f j => releaseSocketDataBufferFromIO f j) f).history =
      .pushed i :: f.history := by
  have hmark : f.freeBuffers i = UINT8_MAX :=
    (freeBuffers_eq_max_iff hp (by simp)).2 (by simp)
  have hlt : i < kt_NkeSocketBuffersNumber := hp.lt_number (hp.backed i (by simp))
  have hrest : ∀ j ∈ rest, ( releaseSocketDataBufferFromIO f i).freeBuffers j ≠ UINT8_MAX := by
    intro j hj hmax
    have hji : j ≠ i := by
      rintro rfl
      exact (List.nodup_cons.1 (List.nodup_reverse.1 hp.nodup)).1 hj
    have hsame : ( releaseSocketDataBufferFromIO f i).freeBuffers j = f.freeBuffers j := by
      simp [ releaseSocketDataBufferFromIO, Nat.not_le.2 hlt, hmark, Function.update_of_ne hji]
    have hlast := (freeBuffers_eq_max_iff hp (by simp [hj])).1 (hsame.symm.trans hmax)
    exact hji (by simpa using hlast.symm)
  rw [List.foldl_cons, releaseAll_ignored hrest]
  simp [ releaseSocketDataBufferFromIO, Nat.not_le.2 hlt, hmark]

/-- When the pool ran dry after a buffer was taken, that buffer is pushed twice. -/
theorem not_accounted_of_exhausted {r : FltDataEnd} {arr : List Nat} {i : Nat}
    (hg : Granted f f' (i :: rest)) (hpush : Pushed f' f'' (i :: rest)) (hp : Pool f'' (i :: rest).reverse)
    (hlist : listed arr = i :: rest) (hn : r.enqueued = none)
    (hr : r.filter = f''.releaseDataBuffers arr) : ¬ Accounted f owned (.ok r) := by
  rintro ⟨done, free', hhist, heach, -, -⟩
  have hdone : done = .pushed i :: traffic (i :: rest) (i :: rest) := by
    refine List.append_cancel_right (hhist.symm.trans ?_)
    rw [hr, releaseDataBuffers_eq, hlist, release_twice hp, hpush.history, hg.history, traffic]
    simp
  have htwice : done.count (.pushed i) ≠ 1 := by
    have : 1 ≤ (i :: rest).count i := List.count_pos_iff.2 (by simp)
    rw [hdone, List.count_cons_self, count_pushed_traffic]
    omega
  rcases heach i (by rw [hdone]; simp) with h | h
  · simp [handedOver, hn] at h
  · exact htwice h.1

theorem copy_end (so : NkeSocketObject) (pkt : PendingPktQueueItem) (h : Pool f free) :
    CopyEnd pkt.data f free ((FltDataCall.captured so pkt).copy f) := by
  unfold FltDataCall.copy
  split
  · rename_i hd
    rw [show pkt.data = [] from hd]
    exact .copied (show free = [] ++ free from rfl) (.refl f) h rfl (Nat.zero_le _)
  · exact copyDataToBuffers_spec _ h (by simp [FltDataCall.captured, NkeSocketObject.initSocketNotification])

theorem accounted_of_poolSuffices (h : WellFormed f free owned) (hs : PoolSuffices f free pkt.data) :
    Accounted f owned (fltDataCaptured f so pkt client) := by
  have hend := copy_end so pkt h.pool
  unfold fltDataCaptured
  simp only
  generalize (FltDataCall.captured so pkt).copy f = copy at hend
  cases hend with
  | @copied taken rest arr f' hfree hg hp hlist hroom =>
    have hnd : (taken ++ rest).Nodup := hfree ▸ h.pool.nodup
    rcases finish_cases f' so pkt client KERN_SUCCESS arr with
      ⟨-, ⟨n, hn, hbuf⟩, hr⟩ | ⟨hn, hr⟩
    · exact accounted_of_handedOver h hfree (by rw [hr]; exact hp) (by rw [hr]; exact hg.length)
        (by rw [hr]; exact hg.history) hn (hbuf ▸ hlist)
    · -- a postponed or failed notification: the buffers go back one after the other
      obtain ⟨hp', hpush⟩ := releaseAll_spec hp hnd
        (fun k hk => hg.length ▸ h.pool.backed k (hfree ▸ List.mem_append_left _ hk)) hg.inUse
      rw [releaseDataBuffers_eq, hlist] at hr
      refine accounted_of_putBack h (List.Nodup.of_append_left hnd) (.refl taken) (hr ▸ hp') ?_ ?_ hn ?_
      · rw [hr, hpush.buffers, hg.length]
      · rw [hr, hpush.history, hg.history, traffic, List.append_assoc]
      · rw [hfree]
        exact (List.reverse_perm taken).append_right rest
  | @exhausted arr f' f'' hg hpush hp hlist hshort hlong =>
    rcases finish_cases f'' so pkt client ENOMEM arr with
      ⟨herr, -⟩ | ⟨hn, hr⟩
    · exact absurd herr (by decide)
    rcases hs with rfl | hroom | hbytes
    · rw [releaseDataBuffers_eq, hlist] at hr
      refine accounted_of_putBack h List.nodup_nil (List.Perm.refl []) (hr ▸ hp) ?_ ?_ hn
        (.refl _)
      · rw [hr]
        exact (congrArg List.length hpush.buffers).trans hg.length
      · rw [hr]
        exact hpush.history.trans hg.history
    · omega
    · omega
  | @copyFailed taken j rest arr f' f'' error hfree hg hpush hp hlist hshort herr =>
    rcases finish_cases f'' so pkt client error arr with
      ⟨hok, -⟩ | ⟨hn, hr⟩
    · exact absurd hok herr
    -- none of the listed indices is the last of the free list, so the second release is ignored
    have hback : f''.releaseDataBuffers arr = f'' := by
      rw [releaseDataBuffers_eq, hlist]
      refine releaseAll_ignored ?_
      intro k hk hmax
      have hlast := (freeBuffers_eq_max_iff hp (by simp [hk])).1 hmax
      rw [List.getLast?_append_cons] at hlast
      have hk' : k ∈ j :: rest := List.mem_of_getLast? hlast
      exact List.disjoint_of_nodup_append (hfree ▸ h.pool.nodup) hk hk'
    rw [hback] at hr
    have hnd : (taken ++ [j] ++ rest).Nodup := by
      rw [List.append_assoc]
      exact hfree ▸ h.pool.nodup
    refine accounted_of_putBack h (List.Nodup.of_append_left hnd)
      (show (j :: taken).Perm (taken ++ [j]) from @List.perm_append_comm _ [j] taken) (hr ▸ hp) ?_ ?_ hn ?_
    · rw [hr, hpush.buffers, hg.length]
    · rw [hr, hpush.history, hg.history, traffic, List.append_assoc]
    · rw [hfree]
      exact (List.reverse_perm taken).append_right _

theorem poolSuffices_of_accounted (h : WellFormed f free owned)
    (hacc : Accounted f owned (fltDataCaptured f so pkt client)) : PoolSuffices f free pkt.data := by
  have hend := copy_end so pkt h.pool
  unfold fltDataCaptured at hacc
  simp only at hacc
  generalize (FltDataCall.captured so pkt).copy f = copy at hend hacc
  cases hend with
  | copied _ _ _ _ hroom => exact .inr (.inl hroom)
  | copyFailed _ _ _ _ _ hshort _ => exact .inr (.inr hshort)
  | @exhausted arr f' f'' hg hpush hp hlist hshort hlong =>
    cases free with
    | nil => exact .inl rfl
    | cons i rest =>
      rcases finish_cases f'' so pkt client ENOMEM arr with
        ⟨herr, -⟩ | ⟨hn, hr⟩
      · exact absurd herr (by decide)
      · exact absurd hacc (not_accounted_of_exhausted hg hpush hp hlist hn hr)

/-- One call of `FltData` alone accounts for its buffers exactly when the pool suffices for the packet,
whatever waits in the queue and whatever the client answers. -/
theorem fltDataCaptured_accounted_iff (h : WellFormed f free owned) :
    Accounted f owned (fltDataCaptured f so pkt client) ↔ PoolSuffices f free pkt.data :=
  ⟨poolSuffices_of_accounted h, accounted_of_poolSuffices h⟩

def plainPkt (n : Nat) : PendingPktQueueItem :=
  (NkeSocketObject.withSocket ⟨1, 1⟩ 65536).newPkt 0
    [⟨List.replicate n 0, some ⟨UInt64.ofNat n, none, []⟩, none⟩] [] 0 false 0

theorem plainPkt_bytes (n : Nat) : (plainPkt n).data.bytes.length = n := by
  simp [plainPkt, NkeSocketObject.newPkt, MbufChain.bytes]

theorem plainPkt_pkthdrLen {n : Nat} (hn : n < 2 ^ 64) : (plainPkt n).data.pkthdrLen = n := by
  simpa [plainPkt, NkeSocketObject.newPkt, MbufChain.pkthdrLen] using hn

theorem wellFormed_single : WellFormed (withDefault (· < 1)) [0] [] := by
  refine ⟨by decide, ?_, ⟨rfl, by decide, rfl⟩, .refl _⟩
  intro i b hb
  cases i with
  | zero => obtain rfl := Option.some.inj hb; rfl
  | succ i => cases hb

theorem single_accounted : Accounted (withDefault (· < 1)) []
    (fltDataCaptured (withDefault (· < 1)) (.withSocket ⟨1, 1⟩ 65536) (plainPkt 1) (some KERN_SUCCESS)) :=
  (fltDataCaptured_accounted_iff wellFormed_single).2 (.inr (.inl (by decide)))

/-- With one free buffer and a packet one byte too long the buffer is pushed twice. -/
theorem single_pushed_twice : ¬ ∀ f free owned so pkt client, WellFormed f free owned →
    Accounted f owned (fltDataCaptured f so pkt client) := by
  intro hall
  have hroom : (withDefault (· < 1)).room [0] = 65536 := by decide
  obtain ⟨n, hn⟩ : ∃ n, n = 65537 := ⟨_, rfl⟩
  have hacc := hall _ _ _ (.withSocket ⟨1, 1⟩ 65536) (plainPkt n) none wellFormed_single
  rcases poolSuffices_of_accounted wellFormed_single hacc with h | h | h
  · cases h
  · rw [plainPkt_pkthdrLen (by omega), hroom] at h
    omega
  · rw [plainPkt_bytes, hroom] at h
    omega

end NkeFilter
