import NkeFilter.BufferOwnership

/-!
# What the client is shown

What a notification says about a packet and what the client reads in its buffers (`Shown`), and that the
packets in the queue of a socket and in its calls of `FltData` are the ones that were captured (`Carries`).
-/

namespace NkeFilter
open Lib NkeSocketObject NkeSocketFilter

/-- The call whose notification is not sent yet. -/
def CallPhase.unsent : CallPhase → Option FltDataCall
  | .captured c | .copied c | .queued c => some c
  | _ => none

namespace Service
open UserToKernel

/-! ### What a notification says -/

/-- The client is told the direction, the socket, the index and the length of the packet. -/
structure Tells (socketId : NkeSocketID) (id : Nat) (mbufData : MbufChain) (isInboundData : Bool)
    (n : UserToKernel.NkeSocketFilterNotification) : Prop where
  event : n.event = (eventOf
    (if isInboundData then .NkeSocketFilterEventDataIn else .NkeSocketFilterEventDataOut)).value
  socketId : n.socketId = socketId
  dataIndex : n.inputoutput.dataIndex = UInt32.ofNat id
  dataSize : n.inputoutput.dataSize = UInt32.ofNat mbufData.bytes.length

/-- The notification is about a captured packet, and that is what the client sees. -/
def Shown (socketIds : Nat → NkeSocketID) (h : List ServiceEvent) (f : NkeSocketFilter)
    (n : UserToKernel.NkeSocketFilterNotification) : Prop :=
  ∃ object id mbufData isInboundData, .captured object id mbufData isInboundData ∈ h ∧
    Tells (socketIds object) id mbufData isInboundData n ∧ n.visible f = mbufData.bytes

variable {socketIds : Nat → NkeSocketID} {sizes : Nat → Nat} {h : List ServiceEvent} {f f' : NkeSocketFilter}
  {n : UserToKernel.NkeSocketFilterNotification} {socketId : NkeSocketID} {id object : Nat}
  {mbufData : MbufChain} {isInboundData : Bool}

theorem Tells.of_init {so : NkeSocketObject} {pkt : PendingPktQueueItem} (hso : so.socketId = socketId)
    (hi : pkt.dataIndex = UInt32.ofNat id) (hpkthdr : pkt.data.pkthdrLen = pkt.data.bytes.length)
    (buffers : List Nat) : Tells socketId id pkt.data pkt.dataInbound
      (ofData { so.initSocketNotification pkt with buffers }) := by
  constructor
  · rfl
  · exact hso
  · rw [inputoutput_ofData]
    exact hi
  · rw [inputoutput_ofData]
    exact congrArg UInt32.ofNat hpkthdr

/-- The indices do not matter. -/
theorem Tells.withBuffers {n : NkeSocketFilterNotification}
    (ht : Tells socketId id mbufData isInboundData (ofData n)) (buffers : List Nat) :
    Tells socketId id mbufData isInboundData (ofData { n with buffers }) := by
  have hi := ht.dataIndex
  have hs := ht.dataSize
  rw [inputoutput_ofData] at hi hs
  exact ⟨ht.event, ht.socketId, by rw [inputoutput_ofData]; exact hi, by rw [inputoutput_ofData]; exact hs⟩

theorem listed_mod {l : List Nat} (hl : ∀ i ∈ listed l, i < UINT8_MAX) :
    listed (l.map (· % 256)) = listed l := by
  induction l with
  | nil => rfl
  | cons i l ih =>
    rw [List.map_cons]
    by_cases hi : i = UINT8_MAX
    · subst hi
      rfl
    · have hcons : listed (i :: l) = i :: listed l := List.takeWhile_cons_of_pos (by simpa using hi)
      rw [hcons] at hl ⊢
      have hlt : i < UINT8_MAX := hl i (List.mem_cons_self ..)
      have hsame : i % 256 = i := by
        simp only [UINT8_MAX] at hlt
        omega
      rw [hsame, ← ih fun j hj => hl j (List.mem_cons_of_mem _ hj)]
      exact List.takeWhile_cons_of_pos (by simpa using hi)

theorem isData_ofData (n : NkeSocketFilterNotification) : (ofData n).isData := by
  unfold UserToKernel.NkeSocketFilterNotification.isData ofData
  cases n.event with
  | NkeSocketFilterEventDataIn => rfl
  | NkeSocketFilterEventDataOut => rfl

/-- `FltNotify` tells of no packet. -/
theorem isData_init (so : NkeSocketObject) (data : SocketNotification) : (data.init so).isData = false := by
  cases data <;> rfl

/-- As bytes the indices are what they were. -/
theorem indices_ofData {n : NkeSocketFilterNotification} (hlen : n.buffers.length = kt_NkeSocketBuffersNumber)
    (hl : ∀ i ∈ listed n.buffers, i < UINT8_MAX) : (ofData n).indices = listed n.buffers := by
  have hbytes : bufferIndices (ofData n).inputoutput.buffers = n.buffers.map (· % 256) := by
    rw [inputoutput_ofData]
    refine List.ext_getElem (by simp [bufferIndices, hlen]) ?_
    intro i h₁ h₂
    have hi : i < n.buffers.length := by simpa using h₂
    simp [bufferIndices, ioData, List.getElem?_eq_getElem hi]
  rw [UserToKernel.NkeSocketFilterNotification.indices, if_pos (isData_ofData n), hbytes]
  exact listed_mod hl

theorem visible_of_filled {n : NkeSocketFilterNotification} (hind : (ofData n).indices = listed n.buffers)
    (hsize : (ofData n).inputoutput.dataSize = UInt32.ofNat mbufData.bytes.length)
    (hshort : mbufData.bytes.length < 2 ^ 32) (hfilled : f.Filled n.buffers mbufData.bytes) :
    (ofData n).visible f = mbufData.bytes := by
  rw [UserToKernel.NkeSocketFilterNotification.visible, hind, hsize, UInt32.toNat_ofNat', Nat.mod_eq_of_lt hshort]
  exact hfilled

theorem Shown.untouched (hs : Shown socketIds h f n) (hu : Untouched f f' n.indices) :
    Shown socketIds h f' n := by
  obtain ⟨object, id, mbufData, isInboundData, hc, ht, hv⟩ := hs
  refine ⟨object, id, mbufData, isInboundData, hc, ht, ?_⟩
  rw [UserToKernel.NkeSocketFilterNotification.visible, hu.contents_eq]
  exact hv

theorem Shown.mono {h' : List ServiceEvent} (hs : Shown socketIds h f n) (hsub : h ⊆ h') :
    Shown socketIds h' f n := by
  obtain ⟨object, id, mbufData, isInboundData, hc, ht, hv⟩ := hs
  exact ⟨object, id, mbufData, isInboundData, hsub hc, ht, hv⟩

/-! ### The packets of a socket -/

/-- A call of `FltData` before its notification: the packet is the captured one, and the buffers are released
unless the notification is sent. -/
structure CallOk (D : Nat → MbufChain → Bool → Prop) (socketId : NkeSocketID) (id : Nat) (c : FltDataCall) :
    Prop where
  pkt : c.pendingPkt.id = id
  data : D id c.pendingPkt.data c.pendingPkt.dataInbound
  regular : c.pendingPkt.Regular
  tells : Tells socketId id c.pendingPkt.data c.pendingPkt.dataInbound (ofData c.notification)
  release : c.releaseBuffers = !c.sendNotification
  sends : c.sendNotification → c.error = KERN_SUCCESS

/-- The packets of the queue, of the calls and those taken to be injected are those that were captured. -/
structure Carries (D : Nat → MbufChain → Bool → Prop) (socketId : NkeSocketID) (s : SocketState) : Prop where
  queue : ∀ pkt ∈ s.so.pendingQueue, D pkt.id pkt.data pkt.dataInbound ∧ pkt.Regular
  calls : ∀ id c, (s.calls id).unsent = some c → CallOk D socketId id c
  fresh : ∀ id c, s.calls id = .captured c → ∃ so pkt, c = FltDataCall.captured so pkt
  toInject : ∀ i, s.injection = some i → ∀ pkt ∈ i.packetsToInject, D pkt.id pkt.data pkt.dataInbound

section Carries
variable {D D' : Nat → MbufChain → Bool → Prop} {s s' : SocketState} {a : SocketLabel} {e : List SocketEvent}
  {c : FltDataCall}

theorem CallOk.mono (hc : CallOk D socketId id c) (hD : ∀ id data inbound, D id data inbound → D' id data inbound) :
    CallOk D' socketId id c :=
  { hc with data := hD _ _ _ hc.data }

theorem Carries.mono (hC : Carries D socketId s)
    (hD : ∀ id data inbound, D id data inbound → D' id data inbound) : Carries D' socketId s :=
  ⟨fun pkt hp => ⟨hD _ _ _ (hC.queue pkt hp).1, (hC.queue pkt hp).2⟩, fun id c hc => (hC.calls id c hc).mono hD,
    hC.fresh, fun i hi pkt hp => hD _ _ _ (hC.toInject i hi pkt hp)⟩

theorem Carries.requeue (hC : Carries D socketId s) (hcalls : s'.calls = s.calls)
    (hi : ∀ i', s'.injection = some i' → ∃ i, s.injection = some i ∧ i'.packetsToInject ⊆ i.packetsToInject)
    (hq : ∀ pkt' ∈ s'.so.pendingQueue, ∃ pkt ∈ s.so.pendingQueue, pkt'.id = pkt.id ∧ pkt'.data = pkt.data ∧
      pkt'.dataInbound = pkt.dataInbound) : Carries D socketId s' := by
  refine ⟨?_, hcalls ▸ hC.calls, hcalls ▸ hC.fresh, ?_⟩
  · intro pkt' hp
    obtain ⟨pkt, hp, hid, hd, hin⟩ := hq pkt' hp
    rw [PendingPktQueueItem.Regular, hid, hd, hin]
    exact hC.queue pkt hp
  · intro i' hi' pkt hp
    obtain ⟨i, hi, hsub⟩ := hi i' hi'
    exact hC.toInject i hi pkt (hsub hp)

theorem Carries.sublist (hC : Carries D socketId s) (hcalls : s'.calls = s.calls)
    (hi : ∀ i', s'.injection = some i' → ∃ i, s.injection = some i ∧ i'.packetsToInject ⊆ i.packetsToInject)
    (hq : s'.so.pendingQueue ⊆ s.so.pendingQueue) : Carries D socketId s' :=
  hC.requeue hcalls hi fun pkt hp => ⟨pkt, hq hp, rfl, rfl, rfl⟩

theorem Carries.setCall {phase : CallPhase} (hC : Carries D socketId s)
    (hphase : ∀ c, phase.unsent = some c → CallOk D socketId id c)
    (hfresh : ∀ c, phase = .captured c → ∃ so pkt, c = FltDataCall.captured so pkt) :
    Carries D socketId (s.setCall id phase) := by
  refine ⟨hC.queue, ?_, ?_, hC.toInject⟩
  · intro id' c hc
    rcases s.setCall_inv id phase id' with ⟨rfl, hp⟩ | ⟨-, hp⟩
    · exact hphase c (hp ▸ hc)
    · exact hC.calls id' c (hp ▸ hc)
  · intro id' c hc
    rcases s.setCall_inv id phase id' with ⟨-, hp⟩ | ⟨-, hp⟩
    · exact hfresh c (hp ▸ hc)
    · exact hC.fresh id' c (hp ▸ hc)

/-- What the region of `FltData` under `rwLock` leaves of the call. -/
theorem queuePkt_keeps (so : NkeSocketObject) (c : FltDataCall) :
    ∃ pkt wait, (so.queuePkt c).1.pendingQueue = so.pendingQueue ++ [pkt] ∧ pkt.id = c.pendingPkt.id ∧
      pkt.data = c.pendingPkt.data ∧ pkt.dataInbound = c.pendingPkt.dataInbound ∧
      ((so.queuePkt c).2.1 = c ∧ pkt = c.pendingPkt ∨ (so.queuePkt c).2.1 =
        { c with pendingPkt := pkt, sendNotification := false, releaseBuffers := true, wait }) := by
  by_cases hp : c.error ≠ KERN_SUCCESS ∨ so.packetsWaitingForReporting ≠ 0
  · rw [queuePkt, if_pos hp]
    exact ⟨_, _, rfl, rfl, rfl, rfl, .inr rfl⟩
  · rw [queuePkt, if_neg hp]
    exact ⟨c.pendingPkt, c.wait, rfl, rfl, rfl, rfl, .inl ⟨rfl, rfl⟩⟩

theorem CallOk.copied {so : NkeSocketObject} {pkt : PendingPktQueueItem}
    (hc : CallOk D socketId id (.captured so pkt)) (error : Errno) (buffers : List Nat) :
    CallOk D socketId id ((FltDataCall.captured so pkt).copied error buffers) := by
  have ht := hc.tells.withBuffers buffers
  unfold FltDataCall.copied
  split
  · exact ⟨hc.pkt, hc.data, hc.regular, ht, rfl, by simp⟩
  · rename_i herr
    exact ⟨hc.pkt, hc.data, hc.regular, ht, rfl, fun _ => not_ne_iff.1 herr⟩

theorem Carries.step (hC : Carries D socketId s) (hQ : QueueShape s) (hid : s.so.socketId = socketId)
    (hD : ∀ id data inbound, D id data inbound → D' id data inbound)
    (hnew : ∀ mbufData mbufControl flags isInboundData now,
      a = .capture mbufData mbufControl flags isInboundData true now → mbufData ≠ [] →
        D' s.captures mbufData isInboundData ∧ mbufData.pkthdrLen = mbufData.bytes.length)
    (hs : socketMachine.step s a = some (s', e)) : Carries D' socketId s' := by
  have hC' := hC.mono hD
  have hsame : ∀ i, s.injection = some i →
      ∃ i', s.injection = some i' ∧ i.packetsToInject ⊆ i'.packetsToInject := fun i hi => ⟨i, hi, fun _ h => h⟩
  cases SocketState.step_inv hs with
  | quiet hso => exact hC'.sublist rfl hsame (by rw [hso.queue]; exact fun _ h => h)
  | @capture _ so pkt hpid _ hdata _ _ hq _ _ hso =>
    obtain ⟨mbufData, mbufControl, flags, isInboundData, now, ha, hpkt⟩ := SocketState.capturedPkt_eq hs
    have hpd : pkt.data = mbufData := by rw [hpkt]; rfl
    have hpi : pkt.dataInbound = isInboundData := by rw [hpkt]; rfl
    have hindex : pkt.dataIndex = UInt32.ofNat s.captures := by
      rw [hpkt]
      exact hQ.nextIndex
    obtain ⟨hD', hhdr⟩ := hnew mbufData mbufControl flags isInboundData now ha (hpd ▸ hdata)
    rw [← hpd] at hhdr
    have hstay : Carries D' socketId { s with so, captures := s.captures + 1 } :=
      hC'.sublist rfl hsame (by rw [hq]; exact fun _ h => h)
    show Carries D' socketId (SocketState.setCall { s with so, captures := s.captures + 1 } s.captures _)
    refine hstay.setCall ?_ ?_
    · intro c hc
      obtain rfl := Option.some.inj hc
      refine ⟨hpid, ?_, ⟨hdata, hhdr⟩, ?_, rfl, fun _ => rfl⟩
      · show D' s.captures pkt.data pkt.dataInbound
        rw [hpd, hpi]
        exact hD'
      · exact Tells.of_init (hso.trans hid) hindex hhdr _
    · intro c hc
      exact ⟨so, pkt, (CallPhase.captured.inj hc).symm⟩
  | @copy id error buffers c hc =>
    have hok := hC'.calls id c (by rw [hc]; rfl)
    obtain ⟨so, pkt, rfl⟩ := hC.fresh id c hc
    refine hC'.setCall ?_ (by simp)
    intro c' hc'
    rw [if_neg hok.regular.1] at hc'
    obtain rfl := Option.some.inj hc'
    exact hok.copied error buffers
  | @queue id c so c' _ hc _ =>
    have hok := hC'.calls id c (by rw [hc]; rfl)
    have heq := SocketState.queue_eq hc hs
    obtain ⟨pkt, wait, hqueue, hpid, hpd, hpi, hcall⟩ := queuePkt_keeps s.so c
    rw [heq] at hqueue hcall
    have hcalls : Carries D' socketId (s.setCall id (.queued c')) := by
      refine hC'.setCall ?_ (by simp)
      intro c₁ hc₁
      obtain rfl := Option.some.inj hc₁
      rcases hcall with ⟨rfl, -⟩ | rfl
      · exact hok
      · refine ⟨hpid.trans hok.pkt, ?_, ?_, ?_, rfl, by simp⟩
        · rw [hpd, hpi]
          exact hok.data
        · rw [PendingPktQueueItem.Regular, hpd]
          exact hok.regular
        · rw [hpd, hpi]
          exact hok.tells
    refine ⟨?_, hcalls.calls, hcalls.fresh, hcalls.toInject⟩
    intro pkt' hp
    rcases List.mem_append.1 (hqueue ▸ hp : pkt' ∈ s.so.pendingQueue ++ [pkt]) with hp | hp
    · exact hC'.queue pkt' hp
    · obtain rfl := List.mem_singleton.1 hp
      rw [PendingPktQueueItem.Regular, hpid, hpd, hpi, hok.pkt]
      exact ⟨hok.data, hok.regular⟩
  | send => exact hC'.setCall (fun c hc => by cases hc) (by simp)
  | noSend => exact hC'.setCall (fun c hc => by cases hc) (by simp)
  | finish => exact hC'.setCall (fun c hc => by cases hc) (by simp)
  | deliver hd =>
    refine hC'.requeue rfl hsame ?_
    intro pkt' hp
    obtain ⟨pkt, hp, hdel⟩ := exists_partner hd.pkts hp
    refine ⟨pkt, hp, hdel.id, ?_⟩
    cases hdel <;> exact ⟨rfl, rfl⟩
  | @property property queue reached hp =>
    refine hC'.requeue rfl hsame ?_
    intro pkt' hp'
    obtain ⟨pkt, hmem, rfl | hset⟩ := hp.mem hp'
    · exact ⟨_, hmem, rfl, rfl, rfl⟩
    · obtain ⟨_, _, heq⟩ := setProperty_eq pkt property
      obtain rfl := hset.trans heq
      exact ⟨pkt, hmem, rfl, rfl, rfl⟩
  | collect _ hc =>
    obtain ⟨⟨seen, hseen, hrest, htaken, -⟩, -⟩ := hc
    have hold : ∀ pkt' ∈ seen, D' pkt'.id pkt'.data pkt'.dataInbound ∧ pkt'.Regular := by
      intro pkt' hp
      obtain ⟨pkt, hmem, b, rfl, -⟩ := exists_partner hseen hp
      exact hC'.queue pkt hmem
    refine ⟨fun pkt hp => hold pkt (hrest.subset hp), hC'.calls, hC'.fresh, ?_⟩
    intro i hi pkt hp
    obtain rfl := Option.some.inj hi
    exact (hold pkt (htaken.subset hp)).1
  | inject hi =>
    refine hC'.sublist rfl (fun i hi' => ⟨_, hi, ?_⟩) fun _ h => h
    obtain rfl := Option.some.inj hi'
    exact fun _ h => List.mem_cons_of_mem _ h
  | freeMbufs hi =>
    refine hC'.sublist rfl (fun i hi' => ⟨_, hi, ?_⟩) fun _ h => h
    obtain rfl := Option.some.inj hi'
    exact fun _ h => h
  | account hi hso =>
    refine hC'.sublist rfl (fun i hi' => ⟨_, hi, ?_⟩) (by rw [hso.queue]; exact fun _ h => h)
    obtain rfl := Option.some.inj hi'
    exact fun _ h => h
  | unlock => exact hC'.sublist rfl (fun i hi => by cases hi) fun _ h => h
  | purge _ _ hq => exact hC'.sublist rfl hsame (by rw [hq]; exact fun _ h => List.mem_of_mem_filter h)

end Carries

end Service
end NkeFilter
