import NkeFilter.Service

/-!
# Who has which buffer

A pool whose buffers are shared between the free list and a list of owners (`Pooled`), and what the driver
does to it: a copy takes buffers for a new owner and fills them, a release gives an owner's buffers back;
neither touches the bytes in the buffers of another owner. From that, what one pass of
`DeliverWaitingNotifications` over a queue does to the pool and the ring (`serveLoop_spec`).
-/

namespace NkeFilter
open Lib NkeSocketObject

namespace NkeSocketFilter

/-- The free indices and the owned ones are all there are, each once; the owned are marked as in use. -/
structure Pooled (f : NkeSocketFilter) (free owned : List Nat) : Prop where
  pool : Pool f free
  shared : (free ++ owned).Perm (List.range f.dataBuffers.length)
  marked : ∀ i ∈ owned, f.freeBuffers i = UINT8_MAX
  sized : ∀ i < f.dataBuffers.length, f.sizeOf i = bufferSize

/-- The buffers `l` are as they were. -/
def Untouched (f f' : NkeSocketFilter) (l : List Nat) : Prop :=
  ∀ i ∈ l, f'.dataBuffers[i]? = f.dataBuffers[i]?

variable {f f' f'' : NkeSocketFilter} {free rest owned owned' l l' arr arr' : List Nat} {mbuf : MbufChain}
  {error : Errno} {i k slots residual offset : Nat}

theorem Untouched.refl (f : NkeSocketFilter) (l : List Nat) : Untouched f f l := fun _ _ => rfl

theorem Untouched.trans (h : Untouched f f' l) (h' : Untouched f' f'' l) : Untouched f f'' l :=
  fun i hi => (h' i hi).trans (h i hi)

theorem Untouched.mono (h : Untouched f f' l) (hsub : l' ⊆ l) : Untouched f f' l' := fun i hi => h i (hsub hi)

theorem Untouched.contents_eq (h : Untouched f f' l) : f'.contents l = f.contents l :=
  List.flatMap_congr fun i hi => by rw [h i hi]

theorem Pooled.perm (h : Pooled f free owned) (hp : owned'.Perm owned) : Pooled f free owned' :=
  ⟨h.pool, (hp.append_left free).trans h.shared, fun i hi => h.marked i (hp.mem_iff.1 hi), h.sized⟩

theorem Pooled.nodup (h : Pooled f free owned) : (free ++ owned).Nodup :=
  h.shared.nodup_iff.2 List.nodup_range

theorem Pooled.not_free (h : Pooled f free owned) (hi : i ∈ owned) : i ∉ free :=
  fun hf => List.disjoint_of_nodup_append h.nodup hf hi

theorem Pooled.lt (h : Pooled f free owned) (hi : i ∈ owned) : i < f.dataBuffers.length :=
  List.mem_range.1 (h.shared.mem_iff.1 (List.mem_append_right _ hi))

/-- An owned index is not the terminator of an array and fits in a byte of it. -/
theorem Pooled.lt_max (h : Pooled f free owned) (hi : i ∈ owned) : i < UINT8_MAX := by
  have := h.pool.lt_number (h.lt hi)
  simp only [kt_NkeSocketBuffersNumber] at this
  simp only [UINT8_MAX]
  omega

theorem withDefault_sized (withSize : Nat → Bool) (n i : Nat) {f : NkeSocketFilter}
    (h : ∀ b ∈ f.dataBuffers, b.size = bufferSize) :
    ∀ b ∈ (createBuffers withSize n i f).dataBuffers, b.size = bufferSize := by
  induction n generalizing i f with
  | zero => exact h
  | succ n ih =>
    unfold createBuffers
    split
    · refine ih (i + 1) ?_
      intro b hb
      rcases List.mem_append.1 hb with hb | hb
      · exact h b hb
      · obtain rfl := List.mem_singleton.1 hb
        rfl
    · exact h

/-- At the start all are free. -/
theorem pooled_withDefault (withSize : Nat → Bool) :
    Pooled (withDefault withSize) (List.range (withDefault withSize).dataBuffers.length).reverse [] := by
  refine ⟨withDefault_pool withSize, ?_, fun i hi => (by cases hi), ?_⟩
  · rw [List.append_nil]
    exact List.reverse_perm _
  · intro i hi
    have hsize := withDefault_sized withSize kt_NkeSocketBuffersNumber 0
      (f := ⟨[], fun _ => UINT8_MAX, UINT8_MAX, []⟩) (by simp)
    have hb := hsize _ (List.getElem_mem hi)
    simpa [sizeOf, List.getElem?_eq_getElem hi] using hb

/-! ### Release -/

theorem dataBuffers_release (f : NkeSocketFilter) (i : Nat) :
    ( releaseSocketDataBufferFromIO f i).dataBuffers = f.dataBuffers := by
  unfold releaseSocketDataBufferFromIO
  split <;> rfl

theorem dataBuffers_releaseDataBuffers (f : NkeSocketFilter) (arr : List Nat) :
    (f.releaseDataBuffers arr).dataBuffers = f.dataBuffers := by
  induction arr generalizing f with
  | nil => rfl
  | cons i arr ih =>
    unfold releaseDataBuffers
    split
    · rfl
    · rw [ih, dataBuffers_release]

theorem untouched_release (f : NkeSocketFilter) (arr l : List Nat) :
    Untouched f (f.releaseDataBuffers arr) l :=
  fun i _ => congrArg (·[i]?) (dataBuffers_releaseDataBuffers f arr)

/-- An owner gives back what its array lists. -/
theorem Pooled.release (h : Pooled f free (listed arr ++ owned)) :
    Pooled (f.releaseDataBuffers arr) ((listed arr).reverse ++ free) owned := by
  have hnd : (listed arr ++ free).Nodup := by
    have hall := h.nodup
    rw [← List.append_assoc] at hall
    exact List.perm_append_comm.nodup_iff.1 hall.of_append_left
  obtain ⟨hpool, hpush⟩ := releaseAll_spec h.pool hnd
    (fun i hi => h.lt (List.mem_append_left _ hi)) fun i hi => h.marked i (List.mem_append_left _ hi)
  rw [← releaseDataBuffers_eq] at hpool hpush
  refine ⟨hpool, ?_, ?_, ?_⟩
  · rw [hpush.buffers]
    refine List.Perm.trans ?_ h.shared
    calc ((listed arr).reverse ++ free ++ owned).Perm (listed arr ++ free ++ owned) :=
          ((List.reverse_perm _).append_right _).append_right _
      List.Perm _ (free ++ listed arr ++ owned) := List.perm_append_comm.append_right _
      _ = free ++ (listed arr ++ owned) := List.append_assoc ..
  · intro i hi
    have hnot : i ∉ listed arr := by
      intro hmem
      have hall := h.nodup.of_append_right
      exact List.disjoint_of_nodup_append hall hmem hi
    rw [hpush.other i hnot]
    exact h.marked i (List.mem_append_right _ hi)
  · intro i hi
    rw [sizeOf, hpush.buffers]
    rw [hpush.buffers] at hi
    exact h.sized i hi

/-- What was taken from the free list and given back leaves the owners alone. -/
theorem Pooled.putBack {free' taken given : List Nat} (h : Pooled f free owned) (hg : Granted f f' taken)
    (hp : Pushed f' f'' given) (hpool : Pool f'' free') (htaken : ∀ i ∈ taken, i ∈ free)
    (hgiven : ∀ i ∈ given, i ∈ free) (hperm : free'.Perm free) : Pooled f'' free' owned := by
  have hlen : f''.dataBuffers.length = f.dataBuffers.length := by rw [hp.buffers, hg.length]
  refine ⟨hpool, ?_, ?_, ?_⟩
  · rw [hlen]
    exact (hperm.append_right _).trans h.shared
  · intro i hi
    have hnot := h.not_free hi
    rw [hp.other i fun hmem => hnot (hgiven i hmem), hg.other i fun hmem => hnot (htaken i hmem)]
    exact h.marked i hi
  · intro i hi
    rw [sizeOf, hp.buffers, ← sizeOf, hg.size]
    exact h.sized i (hlen ▸ hi)

/-! ### Copy -/

theorem setBuffer_others {b : NkeDataBuffer} {j l : Nat} (hi : b.index = j)
    (hb : f'.dataBuffers = f.dataBuffers) (hl : l ≠ j) :
    (f'.setBuffer b).dataBuffers[l]? = f.dataBuffers[l]? := by
  rw [setBuffer, hi, hb, List.getElem?_set_ne (Ne.symm hl)]

/-- A copy writes to buffers that were free. -/
theorem copyLoop_others (h : Pool f free)
    (hr : copyLoop mbuf slots i residual offset f arr = .ok (error, k, arr', f')) :
    arr'.length = arr.length ∧ ∀ j ∉ free, f'.dataBuffers[j]? = f.dataBuffers[j]? := by
  induction slots generalizing f free i residual offset arr with
  | zero =>
    unfold copyLoop at hr
    split at hr
    · cases hr
      exact ⟨rfl, fun _ _ => rfl⟩
    · cases free with
      | nil =>
        rw [acquire_nil h] at hr
        cases hr
        exact ⟨rfl, fun _ _ => rfl⟩
      | cons j rest =>
        obtain ⟨b, f₁, -, hbi, hacq, -, -, hbufs⟩ := acquire_cons h
        rw [hacq] at hr
        simp only at hr
        split at hr
        · cases hr
          refine ⟨rfl, fun l hl => ?_⟩
          rw [dataBuffers_release]
          exact setBuffer_others hbi hbufs (List.ne_of_not_mem_cons hl)
        · cases hr
  | succ slots ih =>
    unfold copyLoop at hr
    split at hr
    · cases hr
      exact ⟨rfl, fun _ _ => rfl⟩
    · cases free with
      | nil =>
        rw [acquire_nil h] at hr
        cases hr
        exact ⟨rfl, fun _ _ => rfl⟩
      | cons j rest =>
        obtain ⟨b, f₁, hb, hbi, hacq, hpool₁, -, hbufs⟩ := acquire_cons h
        rw [hacq] at hr
        simp only at hr
        split at hr
        · cases hr
          refine ⟨rfl, fun l hl => ?_⟩
          rw [dataBuffers_release]
          exact setBuffer_others hbi hbufs (List.ne_of_not_mem_cons hl)
        · have hb₁ : f₁.dataBuffers[b.index]? = some b := by
            rw [hbufs, hbi]
            exact hb
          obtain ⟨hpool₂, -⟩ := setBuffer_spec hpool₁ hb₁
            (show (b.copyDataMbuf 0 residual offset mbuf).2.2.index = b.index from rfl) rfl
          obtain ⟨hlen, hothers⟩ := ih hpool₂ hr
          refine ⟨by simpa using hlen, fun l hl => ?_⟩
          rw [List.mem_cons, not_or] at hl
          exact (hothers l hl.2).trans (setBuffer_others hbi hbufs hl.1)

theorem copyDataToBuffers_others (h : Pool f free)
    (hr : copyDataToBuffers f mbuf arr = .ok (error, arr', f')) :
    arr'.length = arr.length ∧ ∀ j ∉ free, f'.dataBuffers[j]? = f.dataBuffers[j]? := by
  unfold copyDataToBuffers at hr
  simp only at hr
  split at hr
  · cases hr
    exact ⟨List.length_set .., fun _ _ => rfl⟩
  · split at hr
    · cases hr
    · rename_i error' k arr₁ f₁ hloop
      obtain ⟨hlen, hothers⟩ := copyLoop_others h hloop
      have hlen' : (if k < kt_NkeSocketBuffersNumber then arr₁.set k UINT8_MAX else arr₁).length =
          arr.length := by
        rw [List.length_set] at hlen
        split
        · rw [List.length_set, hlen]
        · exact hlen
      split at hr
      · cases hr
        refine ⟨hlen', fun j hj => ?_⟩
        rw [dataBuffers_releaseDataBuffers]
        exact hothers j hj
      · cases hr
        exact ⟨hlen', hothers⟩

/-- The buffers the array lists hold the bytes. -/
def Filled (f : NkeSocketFilter) (arr : List Nat) (bytes : List UInt8) : Prop :=
  (f.contents (listed arr)).take bytes.length = bytes

/-- What a copy leaves for the owners: a new one with the packet in its buffers, or all as it was. -/
inductive CopyResult (f : NkeSocketFilter) (free owned : List Nat) (mbuf : MbufChain) :
    Errno → List Nat → NkeSocketFilter → Prop
  | filled {arr f' free'} : Pooled f' free' (listed arr ++ owned) → arr.length = kt_NkeSocketBuffersNumber →
      Filled f' arr mbuf.bytes → mbuf.bytes.length < 2 ^ 32 → Untouched f f' owned →
      CopyResult f free owned mbuf KERN_SUCCESS arr f'
  | failed {error arr f' free'} : error ≠ KERN_SUCCESS → Pooled f' free' owned → Untouched f f' owned →
      free.length < mbuf.bytes.length ⌈/⌉ bufferSize → (free = [] → listed arr = []) →
      CopyResult f free owned mbuf error arr f'

theorem Granted.sized (hg : Granted f f' l) (h : Pooled f free owned) :
    ∀ i < f'.dataBuffers.length, f'.sizeOf i = bufferSize := by
  intro i hi
  rw [hg.size]
  exact h.sized i (hg.length ▸ hi)

/-- As many buffers as there are hold less than `2 ^ 32` bytes. -/
theorem length_lt_of_ceilDiv {bytes : List UInt8} (hle : bytes.length ⌈/⌉ bufferSize ≤ kt_NkeSocketBuffersNumber) :
    bytes.length < 2 ^ 32 := by
  have hpos : 0 < bufferSize := by decide
  have hceil : bytes.length ≤ bufferSize * (bytes.length ⌈/⌉ bufferSize) := le_smul_ceilDiv hpos
  have hmul := Nat.mul_le_mul_left bufferSize hle
  simp only [bufferSize, kt_NkeSocketBuffersNumber] at hceil hmul
  omega

/-- The copy took `taken` for a new owner. -/
theorem Pooled.fill {taken : List Nat} (h : Pooled f free owned) (hfree : free = taken ++ rest)
    (hg : Granted f f' taken) (hpool : Pool f' rest) (hlist : listed arr = taken)
    (harr : arr.length = kt_NkeSocketBuffersNumber)
    (hcontents : (f'.contents taken).take mbuf.bytes.length = mbuf.bytes) (hshort : mbuf.bytes.length < 2 ^ 32)
    (hun : Untouched f f' owned) : CopyResult f free owned mbuf KERN_SUCCESS arr f' := by
  subst hlist
  have hnd : (listed arr ++ (rest ++ owned)).Nodup := by
    rw [← List.append_assoc, ← hfree]
    exact h.nodup
  have hpooled : f'.Pooled rest (listed arr ++ owned) := by
    refine ⟨hpool, ?_, ?_, hg.sized h⟩
    · rw [hg.length]
      refine List.Perm.trans ?_ h.shared
      rw [hfree, ← List.append_assoc]
      exact List.perm_append_comm.append_right _
    · intro i hi
      rcases List.mem_append.1 hi with hi | hi
      · exact hg.inUse i hi
      · have hnot : i ∉ listed arr := fun hmem =>
          List.disjoint_of_nodup_append hnd hmem (List.mem_append_right _ hi)
        rw [hg.other i hnot]
        exact h.marked i hi
  exact .filled hpooled harr hcontents hshort hun

theorem Pooled.copy (arr : List Nat) (h : Pooled f free owned) (hm : mbuf ≠ []) (hpkthdr : mbuf.pkthdrLen = mbuf.bytes.length)
    (harr : arr.length = kt_NkeSocketBuffersNumber) :
    ∃ error arr' f', copyDataToBuffers f mbuf arr = .ok (error, arr', f') ∧
      CopyResult f free owned mbuf error arr' f' := by
  have hsize : ∀ i ∈ free, f.sizeOf i = bufferSize := fun i hi => h.sized i (h.pool.backed i hi)
  have hfree : free.length ≤ kt_NkeSocketBuffersNumber := by
    simpa using Pool.length_le (l := []) h.pool (by simpa using h.pool.nodup) (by simp)
  have hlen : (arr.set 0 UINT8_MAX).length = kt_NkeSocketBuffersNumber := by simpa using harr
  have hend := copyDataToBuffers_spec mbuf h.pool harr
  have hloop := @copyLoop_spec f free (arr.set 0 UINT8_MAX) 0 mbuf _ _ 0 h.pool hfree
    (by rw [hlen, Nat.zero_add]) mbuf.pkthdrLen_lt (Nat.zero_le _)
  cases hr : copyLoop mbuf kt_NkeSocketBuffersNumber 0 mbuf.pkthdrLen 0 f (arr.set 0 UINT8_MAX) with
  | error e =>
    rw [hr] at hloop
    cases hloop
  | ok r =>
    obtain ⟨error, k, arr₁, f₁⟩ := r
    obtain ⟨f', hcopy, hf'⟩ := copyDataToBuffers_of_loop hm hr
    obtain ⟨hiff, hreceived⟩ := copyLoop_received (by decide) h.pool hsize hfree mbuf.pkthdrLen_lt
      (by rw [hpkthdr, Nat.zero_add]) hr
    obtain ⟨hlen', hothers⟩ := copyDataToBuffers_others h.pool hcopy
    have huntouched : Untouched f f' owned := fun i hi => hothers i (h.not_free hi)
    rw [hpkthdr] at hiff hreceived
    refine ⟨error, _, f', hcopy, ?_⟩
    by_cases he : error = KERN_SUCCESS
    · obtain ⟨hk, hrec⟩ := hreceived he
      obtain rfl := hf' he
      subst he
      rw [hr] at hloop
      cases hloop with
      | @done taken rest _ _ hsplit hg hpool hl ht =>
        have hcount : taken.length = mbuf.bytes.length ⌈/⌉ bufferSize := by omega
        rw [← hcount, hsplit, List.take_left, List.drop_zero, List.take_length] at hrec
        have hsub : ∀ i ∈ taken, i ∈ free := fun i hi => hsplit ▸ List.mem_append_left _ hi
        have hend : arr₁.take (0 + taken.length) = taken := by simpa using ht
        have hlist := listed_set_terminator hend
          (fun i hi => h.pool.ne_max (h.pool.backed i (hsub i hi))) (by
            have := congrArg List.length hsplit
            rw [List.length_append] at this
            omega)
        rw [hl, hlen] at hlist
        exact h.fill hsplit hg hpool hlist (hlen'.trans harr) hrec.contents
          (length_lt_of_ceilDiv ((hiff.1 rfl).trans hfree)) huntouched
      | copyFailed _ _ _ _ _ _ _ hne => exact absurd rfl hne
    · have hshort : free.length < mbuf.bytes.length ⌈/⌉ bufferSize := by
        have := mt hiff.2 he
        omega
      rw [hcopy] at hend
      generalize (if k < kt_NkeSocketBuffersNumber then arr₁.set k UINT8_MAX else arr₁) = arr' at hend
      cases hend with
      | copied => exact absurd rfl he
      | @exhausted _ f₂ _ hg hpush hpool hlist =>
        have hpooled := h.putBack hg hpush hpool (fun i hi => hi) (fun i hi => hi) (List.reverse_perm free)
        refine .failed he hpooled huntouched hshort ?_
        rintro rfl
        exact hlist
      | @copyFailed taken j rest _ f₂ _ _ hsplit hg hpush hpool hlist _ hne =>
        have hsub : ∀ i ∈ taken ++ [j], i ∈ free := by
          intro i hi
          rw [hsplit]
          simp only [List.mem_append, List.mem_cons, List.not_mem_nil, or_false] at hi ⊢
          tauto
        have hgiven : ∀ i ∈ j :: taken, i ∈ free := fun i hi => hsub i (by simpa [or_comm] using hi)
        have hpooled := h.putBack hg hpush hpool hsub hgiven (by
          rw [hsplit]
          exact (List.reverse_perm _).append_right _)
        refine .failed he hpooled huntouched hshort ?_
        rintro rfl
        simp at hsplit

end NkeSocketFilter

/-! ### One delivery -/

/-- The notification of an event, with the number of its packet. -/
def SocketEvent.notifiedOf : SocketEvent → Option (Nat × NkeSocketFilterNotification)
  | .notified id n => some (id, n)
  | _ => none

def sentOf (events : List SocketEvent) : List (Nat × NkeSocketFilterNotification) :=
  events.filterMap SocketEvent.notifiedOf

/-- The notification is that of the packet, and its buffers hold the packet. -/
structure NotificationOf (f : NkeSocketFilter) (so : NkeSocketObject) (pkt : PendingPktQueueItem)
    (n : NkeSocketFilterNotification) : Prop where
  event : n = { so.initSocketNotification pkt with buffers := n.buffers }
  entries : n.buffers.length = kt_NkeSocketBuffersNumber
  filled : f.Filled n.buffers pkt.data.bytes
  short : pkt.data.bytes.length < 2 ^ 32

/-- The kernel states the length of the packet in its header. -/
def PendingPktQueueItem.Regular (pkt : PendingPktQueueItem) : Prop :=
  pkt.data ≠ [] ∧ pkt.data.pkthdrLen = pkt.data.bytes.length

namespace Service
open UserToKernel NkeSocketFilter

/-- Either the client gets the notification, or the ring is as before and there is an error. -/
theorem notify_spec {q q' : IODataQueueMemory} {ns : List UserToKernel.NkeSocketFilterNotification}
    {client : ClientState} {n : UserToKernel.NkeSocketFilterNotification} {result : Option Errno} (hq : Notified q ns)
    (hsize : 92 ≤ q.queueSize.toNat) (hn : notify q client n = (result, q')) :
    q'.queueSize = q.queueSize ∧
      (result = some KERN_SUCCESS ∧ Notified q' (ns ++ [n]) ∨
        result.getD ENOENT ≠ KERN_SUCCESS ∧ Notified q' ns) := by
  cases client with
  | missing =>
    obtain ⟨rfl, rfl⟩ := Prod.mk.inj hn
    exact ⟨rfl, .inr ⟨by decide, hq⟩⟩
  | noPort =>
    obtain ⟨rfl, rfl⟩ := Prod.mk.inj hn
    exact ⟨rfl, .inr ⟨by decide, hq⟩⟩
  | listening =>
    obtain ⟨rfl, rfl⟩ := Prod.mk.inj hn
    refine ⟨queueSize_enqueue .., ?_⟩
    cases hr : (q.enqueueWithBarrier (notificationLayout.store n)).result with
    | true => exact .inl ⟨rfl, hq.enqueue hsize _ hr⟩
    | false =>
      rw [enqueue_of_not_result (by simpa using hr)]
      exact .inr ⟨by decide, hq⟩

theorem outcomes_zero (o : ReportOutcome) (os : List ReportOutcome) : outcomes (o :: os) 0 = o := rfl

theorem outcomes_succ (o : ReportOutcome) (os : List ReportOutcome) :
    (fun i => outcomes (o :: os) (i + 1)) = outcomes os := rfl

/-- What a delivery did to the pool and the ring: the client got what the events say, each with its packet in
the buffers, and the array that is still to be released is an owner of its own. -/
structure Served (so : NkeSocketObject) (queue : List PendingPktQueueItem) (owned : List Nat)
    (ns : List UserToKernel.NkeSocketFilterNotification) (f : NkeSocketFilter) (q : IODataQueueMemory)
    (f' : NkeSocketFilter) (q' : IODataQueueMemory) (l' : DeliverLocals) (events : List SocketEvent) : Prop where
  owners : ∃ free', f'.Pooled free' (listed l'.released ++
    ((sentOf events).flatMap fun p => listed p.2.buffers) ++ owned)
  untouched : Untouched f f' owned
  ring : Notified q' (ns ++ (sentOf events).map fun p => ofData p.2)
  size : q'.queueSize = q.queueSize
  announced : ∀ p ∈ sentOf events, ∃ pkt ∈ queue, pkt.id = p.1 ∧ NotificationOf f' so pkt p.2

variable {so so₁ : NkeSocketObject} {pkt : PendingPktQueueItem} {queue rest : List PendingPktQueueItem}
  {owned free : List Nat} {ns : List UserToKernel.NkeSocketFilterNotification}
  {f f' : NkeSocketFilter} {q q' : IODataQueueMemory} {l l' : DeliverLocals} {events : List SocketEvent}
  {client : Nat → ClientState} {now : Nat → UInt64}

/-- The loop goes on behind a packet that the client got. -/
theorem Served.cons {f₁ : NkeSocketFilter} {q₁ : IODataQueueMemory} {n : NkeSocketFilterNotification}
    {done : List SocketEvent} (h : Served so rest (listed n.buffers ++ owned) (ns ++ [ofData n]) f₁ q₁ f' q' l' events)
    (hun : Untouched f f₁ owned) (hsize : q₁.queueSize = q.queueSize) (hann : NotificationOf f₁ so pkt n)
    (hdone : sentOf done = []) :
    Served so (pkt :: rest) owned ns f q f' q' l'
      ([.copied pkt.id n.buffers, .notified pkt.id n] ++ done ++ events) := by
  have hsent : sentOf ([.copied pkt.id n.buffers, .notified pkt.id n] ++ done ++ events) =
      (pkt.id, n) :: sentOf events := by
    rw [sentOf, List.filterMap_append, List.filterMap_append]
    rw [sentOf] at hdone
    rw [hdone]
    rfl
  obtain ⟨free', howners⟩ := h.owners
  refine ⟨⟨free', howners.perm ?_⟩, ?_, ?_, h.size.trans hsize, ?_⟩
  · rw [hsent, List.flatMap_cons]
    calc (listed l'.released ++ (listed n.buffers ++ (sentOf events).flatMap fun p => listed p.2.buffers) ++
            owned).Perm
          (listed l'.released ++ (((sentOf events).flatMap fun p => listed p.2.buffers) ++ listed n.buffers) ++
            owned) := (List.perm_append_comm.append_left _).append_right _
      _ = listed l'.released ++ ((sentOf events).flatMap fun p => listed p.2.buffers) ++
            (listed n.buffers ++ owned) := by simp only [List.append_assoc]
  · exact hun.trans (h.untouched.mono (List.subset_append_right ..))
  · rw [hsent, List.map_cons]
    simpa using h.ring
  · rw [hsent]
    intro p hp
    rcases List.mem_cons.1 hp with rfl | hp
    · refine ⟨pkt, List.mem_cons_self .., rfl, hann.event, hann.entries, ?_, hann.short⟩
      have hkept := (h.untouched.mono (List.subset_append_left ..)).contents_eq
      rw [Filled, hkept]
      exact hann.filled
    · obtain ⟨pkt', hmem, hid, ha⟩ := h.announced p hp
      exact ⟨pkt', List.mem_cons_of_mem _ hmem, hid, ha⟩

theorem sentOf_copied (id : Nat) (buffers : List Nat) : sentOf [.copied id buffers] = [] := rfl

theorem sentOf_reported (so : NkeSocketObject) (pkt : PendingPktQueueItem) :
    sentOf (so.reported pkt).2.2 = [] := by
  refine List.filterMap_eq_nil_iff.2 ?_
  intro x hx
  simp only [reported, List.mem_append] at hx
  rcases hx with hx | hx
  · obtain ⟨w, rfl⟩ := satisfyWait_wakes _ x hx
    rfl
  · split at hx
    · obtain rfl := List.mem_singleton.1 hx
      rfl
    · cases hx

/-- As long as no deadline passes the delivery does not fault and serves the packets as it reports them. -/
theorem serveLoop_spec (so₁ : NkeSocketObject) (l : DeliverLocals) (client : Nat → ClientState)
    (now : Nat → UInt64) (hpool : f.Pooled free owned) (hq : Notified q ns) (hsize : 92 ≤ q.queueSize.toNat)
    (hreg : ∀ pkt ∈ queue, pkt.needToBeReported → pkt.Regular)
    (hexp : ∀ pkt ∈ queue, pkt.needToBeReported → ∀ i, (pkt.isDeadlineTimerExpired (now i)).1 = false)
    (hid : so₁.socketId = so.socketId) (hdisc : so₁.disconnected = so.disconnected)
    (hl : l.releaseBuffers = false) :
    ∃ os f' q', serveLoop so client now queue KERN_SUCCESS f q = .ok (os, f', q') ∧
      (l.error = KERN_SUCCESS → Served so queue owned ns f q f' q'
        (deliverLoop (outcomes os) queue so₁ l).2.2.1 (deliverLoop (outcomes os) queue so₁ l).2.2.2) := by
  induction queue generalizing f q free owned ns so₁ l client now with
  | nil =>
    refine ⟨[], f, q, rfl, fun _ => ⟨⟨free, ?_⟩, .refl f owned, ?_, rfl, by simp [deliverLoop, sentOf]⟩⟩
    · simpa [deliverLoop, sentOf, DeliverLocals.released, hl, listed] using hpool
    · simpa [deliverLoop, sentOf] using hq
  | cons pkt rest ih =>
    have hreg' := fun pkt' hp => hreg pkt' (List.mem_cons_of_mem pkt hp)
    have hexp' := fun pkt' hp hn i => hexp pkt' (List.mem_cons_of_mem pkt hp) hn (i + 1)
    unfold serveLoop
    by_cases hneed : pkt.needToBeReported
    · obtain ⟨hdata, hhdr⟩ := hreg pkt (List.mem_cons_self ..) hneed
      have hlate := hexp pkt (List.mem_cons_self ..) hneed 0
      obtain ⟨error, buffers, f₁, hcopy, hresult⟩ := hpool.copy _ hdata hhdr
        (show (so.initSocketNotification pkt).buffers.length = kt_NkeSocketBuffersNumber by
          simp [NkeSocketObject.initSocketNotification])
      simp only [hneed, Bool.not_true, Bool.false_eq_true, if_false, if_neg hdata, serve, hcopy]
      cases hresult with
      | @failed _ _ _ free' herr hpool₁ hun _ hnone =>
        rw [if_pos herr]
        simp only [ReportOutcome.error, hlate, ne_eq, herr, not_false_eq_true, Bool.not_false,
          and_self, if_true]
        refine ⟨_, f₁, q, rfl, fun _ => ?_⟩
        have hstop : deliverLoop (outcomes [⟨error, buffers, KERN_SUCCESS, now 0⟩]) (pkt :: rest) so₁ l =
            (pkt :: rest, so₁, { l with
              notification := some { so₁.initSocketNotification pkt with buffers }
              error := error
              reinsertInList := true }, []) := by
          simp [deliverLoop, hneed, outcomes_zero, report, hdata, herr, hlate, isDeadlineTimerExpired_not hlate]
        rw [hstop]
        refine ⟨⟨free', ?_⟩, hun, by simpa [sentOf] using hq, rfl, by simp [sentOf]⟩
        simpa [sentOf, DeliverLocals.released, hl, listed] using hpool₁
      | @filled _ _ free' hpool₁ hentries hfilled hshort hun =>
        obtain ⟨n, hn⟩ : ∃ n, n = { so.initSocketNotification pkt with buffers } := ⟨_, rfl⟩
        have hn₁ : { so₁.initSocketNotification pkt with buffers } = n := by
          rw [hn, NkeSocketObject.initSocketNotification, NkeSocketObject.initSocketNotification, hid, hdisc]
        have hbuf : n.buffers = buffers := congrArg (·.buffers) hn
        have hann : NotificationOf f₁ so pkt n := ⟨by rw [hbuf]; exact hn, hbuf ▸ hentries, hbuf ▸ hfilled, hshort⟩
        simp only [ne_eq, not_true_eq_false, if_false, ← hn]
        rcases hnotify : notify q (client 0) (ofData n) with ⟨result, q₁⟩
        obtain ⟨hsame, ⟨rfl, hq₁⟩ | ⟨hrefused, hq₁⟩⟩ := notify_spec hq hsize hnotify
        · -- the client gets the notification and the loop goes on
          simp only [ReportOutcome.error, ne_eq, not_true_eq_false, if_false, Option.getD_some, false_and]
          obtain ⟨os, f', q', hserve, hserved⟩ := ih (so₁.reported pkt).2.1
            { l with notification := some n, error := KERN_SUCCESS } (fun i => client (i + 1))
            (fun i => now (i + 1)) hpool₁ hq₁ (by rw [hsame]; exact hsize) hreg' hexp' hid hdisc hl
          rw [hserve]
          refine ⟨_, f', q', rfl, fun _ => ?_⟩
          set r := deliverLoop (outcomes os) rest (so₁.reported pkt).2.1
            { l with notification := some n, error := KERN_SUCCESS }
          have hgoes : deliverLoop (outcomes (⟨KERN_SUCCESS, buffers, KERN_SUCCESS, now 0⟩ :: os)) (pkt :: rest)
              so₁ l = ((so₁.reported pkt).1 :: r.1, r.2.1, r.2.2.1,
                [.copied pkt.id buffers, .notified pkt.id n] ++ (so₁.reported pkt).2.2 ++ r.2.2.2) := by
            simp only [r, deliverLoop, hneed, outcomes_zero, outcomes_succ, report, hdata, hn₁, ne_eq,
              not_true_eq_false, Bool.not_true, Bool.false_eq_true, if_false, false_and]
          rw [hgoes]
          have hserved := hserved rfl
          rw [← hbuf] at hserved ⊢
          exact hserved.cons hun hsame hann (sentOf_reported _ _)
        · -- the notification is refused: the loop ends and leaves the array
          simp only [ReportOutcome.error, ne_eq, not_true_eq_false, if_false, hrefused, not_false_eq_true, hlate,
            Bool.not_false, and_self, if_true]
          refine ⟨_, f₁, q₁, rfl, fun _ => ?_⟩
          have hstop : deliverLoop (outcomes [⟨KERN_SUCCESS, buffers, result.getD ENOENT, now 0⟩]) (pkt :: rest)
              so₁ l = (pkt :: rest, so₁, ⟨some n, result.getD ENOENT, true, true⟩, [.copied pkt.id buffers]) := by
            simp [deliverLoop, hneed, outcomes_zero, report, hdata, hrefused, hlate, hn₁,
              isDeadlineTimerExpired_not hlate]
          rw [hstop]
          refine ⟨⟨free', ?_⟩, hun, by simpa [sentOf_copied] using hq₁, hsame, by simp [sentOf_copied]⟩
          simpa [sentOf_copied, DeliverLocals.released, hbuf] using hpool₁
    · obtain ⟨os, f', q', hserve, hserved⟩ := ih so₁ l (fun i => client (i + 1))
        (fun i => now (i + 1)) hpool hq hsize hreg' hexp' hid hdisc hl
      have hskip : (!pkt.needToBeReported) = true := by simpa using hneed
      rw [if_pos hskip, hserve]
      refine ⟨idleOutcome (now 0) :: os, f', q', rfl, fun hok => ?_⟩
      have hserved := hserved hok
      unfold deliverLoop
      rw [if_pos hskip]
      refine ⟨hserved.owners, hserved.untouched, hserved.ring, hserved.size, ?_⟩
      intro p hp
      obtain ⟨pkt', hmem, hid', ha⟩ := hserved.announced p hp
      exact ⟨pkt', List.mem_cons_of_mem _ hmem, hid', ha⟩

end Service
end NkeFilter
