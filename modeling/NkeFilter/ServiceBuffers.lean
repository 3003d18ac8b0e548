import NkeFilter.ServicePackets

/-!
# The buffers of the whole driver

Over any run of the driver with a client that gives back what it was given: every communication buffer is
free or has one owner, which is a call of `FltData`, a thread about to release it, a notification in the ring
or one the client has; no copy faults; and what the client sees in the buffers of a notification is the packet
the notification is about, for as long as it has it.
-/

namespace NkeFilter
open Lib NkeSocketObject NkeSocketFilter

namespace CallPhase

/-- Does the call have its buffers? -/
def holds : CallPhase → Bool
  | .copied _ | .queued _ => true
  | _ => false

def loaded : CallPhase → Option FltDataCall
  | .copied c | .queued c => some c
  | _ => none

def array : CallPhase → List Nat
  | .copied c | .queued c => listed c.notification.buffers
  | _ => []

end CallPhase

namespace Service
open UserToKernel

/-! ### The owners -/

/-- Both phases have the same buffers, and what will be sent is the same. -/
structure SameBuffers (phase phase' : CallPhase) : Prop where
  holds : phase'.holds = phase.holds
  array : phase'.array = phase.array
  loaded : ∀ c, phase'.loaded = some c → c.sendNotification → phase.loaded = some c

theorem SameBuffers.refl (phase : CallPhase) : SameBuffers phase phase := ⟨rfl, rfl, fun _ h _ => h⟩

/-- The call that captured packet `p.2` of socket `p.1`. -/
def ServiceState.call (s : ServiceState) (p : Nat × Nat) : CallPhase := (s.objects p.1).calls p.2

/-- The calls that have buffers. -/
structure InFlight (s : ServiceState) (calls : List (Nat × Nat)) : Prop where
  nodup : calls.Nodup
  mem_iff : ∀ p, p ∈ calls ↔ (s.call p).holds

def owners (s : ServiceState) (calls : List (Nat × Nat)) (ns : List UserToKernel.NkeSocketFilterNotification) :
    List Nat :=
  calls.flatMap (fun p => (s.call p).array) ++ s.toRelease.flatMap listed ++ ns.flatMap (·.indices) ++
    s.received.flatMap (·.indices)

variable {s s' : ServiceState} {calls : List (Nat × Nat)} {p : Nat × Nat} {object id : Nat} {phase : CallPhase}
  {o : SocketState} {ns : List UserToKernel.NkeSocketFilterNotification}

/-- The calls that have no buffers do not matter. -/
theorem InFlight.congr (s' : ServiceState) (hI : InFlight s calls) (hcall : ∀ p, SameBuffers (s.call p) (s'.call p)) :
    InFlight s' calls ∧ calls.flatMap (fun p => (s'.call p).array) = calls.flatMap fun p => (s.call p).array :=
  ⟨⟨hI.nodup, fun p => by rw [hI.mem_iff, (hcall p).holds]⟩, List.flatMap_congr fun p _ => (hcall p).array⟩

theorem call_setObject (s : ServiceState) (object id : Nat) (phase : CallPhase) (p : Nat × Nat) :
    (s.setObject object ((s.objects object).setCall id phase)).call p =
      if p = (object, id) then phase else s.call p := by
  obtain ⟨object', id'⟩ := p
  by_cases ho : object' = object
  · subst ho
    rw [ServiceState.call, objects_setObject_self]
    by_cases hi : id' = id
    · subst hi
      rw [if_pos rfl]
      exact SocketState.setCall_self
    · rw [if_neg (by simpa using hi)]
      exact SocketState.setCall_of_ne hi
  · rw [ServiceState.call, objects_setObject_of_ne ho, if_neg (by simp [ho])]
    rfl

/-- A call takes buffers. -/
theorem InFlight.enter (hI : InFlight s calls) (hcall : ∀ p', s'.call p' = if p' = p then phase else s.call p')
    (hout : (s.call p).holds = false) (hin : phase.holds) :
    InFlight s' (p :: calls) ∧ (p :: calls).flatMap (fun p => (s'.call p).array) =
      phase.array ++ calls.flatMap fun p => (s.call p).array := by
  have hnot : p ∉ calls := by
    rw [hI.mem_iff, hout]
    exact Bool.false_ne_true
  have hother : ∀ p' ∈ calls, s'.call p' = s.call p' := by
    intro p' hp
    rw [hcall, if_neg]
    rintro rfl
    exact hnot hp
  refine ⟨⟨List.nodup_cons.2 ⟨hnot, hI.nodup⟩, ?_⟩, ?_⟩
  · intro p'
    rw [hcall, List.mem_cons, hI.mem_iff]
    split
    · rename_i heq
      simp [heq, hin]
    · rename_i hne
      simp [hne]
  · rw [List.flatMap_cons, hcall, if_pos rfl]
    exact congrArg _ (List.flatMap_congr fun p' hp => by rw [hother p' hp])

/-- A call gives its buffers away. -/
theorem InFlight.leave (hI : InFlight s calls) (hcall : ∀ p', s'.call p' = if p' = p then phase else s.call p')
    (hin : (s.call p).holds) (hout : phase.holds = false) :
    InFlight s' (calls.erase p) ∧ (calls.flatMap fun p => (s.call p).array).Perm
      ((s.call p).array ++ (calls.erase p).flatMap fun p => (s'.call p).array) := by
  have hmem : p ∈ calls := (hI.mem_iff p).2 hin
  have hother : ∀ p' ∈ calls.erase p, s'.call p' = s.call p' := by
    intro p' hp
    rw [hcall, if_neg (hI.nodup.mem_erase_iff.1 hp).1]
  refine ⟨⟨hI.nodup.erase p, ?_⟩, ?_⟩
  · intro p'
    rw [hI.nodup.mem_erase_iff, hI.mem_iff, hcall]
    split
    · rename_i heq
      simp [heq, hout]
    · rename_i hne
      simp [hne]
  · have hsame : ((calls.erase p).flatMap fun p => (s'.call p).array) =
        (calls.erase p).flatMap fun p => (s.call p).array :=
      List.flatMap_congr fun p' hp => by rw [hother p' hp]
    rw [hsame]
    exact (List.perm_cons_erase hmem).flatMap_right _

/-- A step of a socket that needs no buffers leaves the calls that have some. -/
theorem holds_of_alone {s s' : SocketState} {a : SocketLabel} {e h : List SocketEvent} (ha : alone a)
    (hC : Custody s h) (hs : socketMachine.step s a = some (s', e)) (id : Nat) :
    SameBuffers (s.calls id) (s'.calls id) := by
  have hset : ∀ id' phase, SameBuffers (s.calls id') phase →
      SameBuffers (s.calls id) ((s.setCall id' phase).calls id) := by
    intro id' phase hsame
    rcases s.setCall_inv id' phase id with ⟨rfl, hp⟩ | ⟨-, hp⟩
    · rw [hp]
      exact hsame
    · rw [hp]
      exact .refl _
  cases SocketState.step_inv hs with
  | capture => exact hset _ _ ⟨by rw [hC.fresh _ (le_refl _)]; rfl, by rw [hC.fresh _ (le_refl _)]; rfl,
    fun c hc => by cases hc⟩
  | @queue id c _ c' _ hc _ =>
    refine hset _ _ ?_
    obtain ⟨pkt, wait, -, -, -, -, hcall⟩ := queuePkt_keeps s.so c
    rw [SocketState.queue_eq hc hs] at hcall
    rw [hc]
    rcases hcall with ⟨heq, -⟩ | heq
    · rw [show c' = c from heq]
      exact ⟨rfl, rfl, fun _ h _ => h⟩
    · rw [show c' = _ from heq]
      refine ⟨rfl, rfl, ?_⟩
      intro c₁ hc₁ hsend
      obtain rfl := Option.some.inj hc₁
      cases hsend
  | finish hc => exact hset _ _ ⟨by rw [hc]; rfl, by rw [hc]; rfl, fun c hc => by cases hc⟩
  | copy => cases ha
  | send => cases ha
  | noSend => cases ha
  | _ => exact .refl _

/-! ### The condition -/

/-- The pool has the buffers the packet needs, or none. In between `FltData` releases twice what it took. -/
def PoolHolds (f : NkeSocketFilter) (mbufData : MbufChain) : Prop :=
  ∀ free, Pool f free → free = [] ∨ mbufData.bytes.length ⌈/⌉ bufferSize ≤ free.length

/-- The client gives back the buffers of the notification, and decides about packets it is told of. -/
structure Honest (s : ServiceState) (n : UserToKernel.NkeSocketFilterNotification)
    (response : UserToKernel.NkeSocketFilterServiceResponse) : Prop where
  isData : n.isData
  buffers : response.buffersToRelease = n.inputoutput.buffers
  properties : ∀ property ∈ response.properties, ∃ n' ∈ s.received, n'.isData ∧
    property.socketId = n'.socketId ∧ property.dataIndex = n'.inputoutput.dataIndex

theorem properties_response (n : UserToKernel.NkeSocketFilterNotification) : n.response.properties =
    [⟨.NkeSocketDataPropertyTypePermission, n.inputoutput.dataIndex, n.socketId, 1⟩] := rfl

/-- `NkeSocketHandler`, which answers what is about a packet only, is an honest client. -/
theorem honest_response {n : UserToKernel.NkeSocketFilterNotification} (hn : n ∈ s.received) (hdata : n.isData) :
    Honest s n n.response := by
  constructor
  · exact hdata
  · rfl
  · intro property hp
    rw [properties_response] at hp
    obtain rfl := List.mem_singleton.1 hp
    exact ⟨n, hn, hdata, rfl, rfl⟩

/-- Packet headers are right, the pool does not run dry in the middle of a copy of `FltData`, no deadline
passes in a delivery, and the client is honest. -/
def Regular (s : ServiceState) : ServiceLabel → Prop
  | .socket _ (.capture mbufData _ _ _ _ _) => mbufData.pkthdrLen = mbufData.bytes.length
  | .copy object id => ∀ c, (s.objects object).calls id = .captured c → PoolHolds s.filter c.pendingPkt.data
  | .deliver object _ now => ∀ pkt ∈ (s.objects object).so.pendingQueue, pkt.needToBeReported →
    ∀ i, (pkt.isDeadlineTimerExpired (now i)).1 = false
  | .respond i response => ∀ n, s.received[i]? = some n → Honest s n response
  | _ => True

/-! ### The invariant -/

/-- What will be sent is in its buffers. -/
def Loaded (f : NkeSocketFilter) (c : FltDataCall) : Prop :=
  c.sendNotification → c.notification.buffers.length = kt_NkeSocketBuffersNumber ∧
    f.Filled c.notification.buffers c.pendingPkt.data.bytes ∧ c.pendingPkt.data.bytes.length < 2 ^ 32

/-- The pool is shared among the owners, the ring holds `ns`, and everything that is told can be seen. -/
structure Owned (socketIds : Nat → NkeSocketID) (h : List ServiceEvent) (s : ServiceState)
    (calls : List (Nat × Nat)) (ns : List UserToKernel.NkeSocketFilterNotification) (free : List Nat) : Prop where
  inFlight : InFlight s calls
  ring : Notified s.dataQueue ns
  pooled : s.filter.Pooled free (owners s calls ns)
  loaded : ∀ p c, (s.call p).loaded = some c → Loaded s.filter c
  shown : ∀ n ∈ ns ++ s.received, n.isData → Shown socketIds h s.filter n

structure Buffers (socketIds : Nat → NkeSocketID) (sizes : Nat → Nat) (s : ServiceState)
    (h : List ServiceEvent) : Prop where
  runs : ∀ object, socketMachine.RunAlong Addressed (.start (socketIds object) (sizes object)) (s.objects object)
    (h.filterMap (ServiceEvent.ofSocket object))
  carries : ∀ object, Carries (fun id mbufData isInboundData =>
    .captured object id mbufData isInboundData ∈ h) (socketIds object) (s.objects object)
  size : 92 ≤ s.dataQueue.queueSize.toNat
  owned : ∃ calls ns free, Owned socketIds h s calls ns free

variable {socketIds : Nat → NkeSocketID} {sizes : Nat → Nat} {h e : List ServiceEvent} {a : ServiceLabel}
  {free : List Nat} {f : NkeSocketFilter}

theorem Buffers.custody (hB : Buffers socketIds sizes s h) (object : Nat) :
    Custody (s.objects object) (h.filterMap (ServiceEvent.ofSocket object)) :=
  let ⟨_, hr, _⟩ := hB.runs object
  custody_of_run hr

theorem Buffers.shape (hB : Buffers socketIds sizes s h) (object : Nat) : QueueShape (s.objects object) :=
  let ⟨_, hr, _⟩ := hB.runs object
  queueShape_of_run hr

theorem Buffers.suffix (hB : Buffers socketIds sizes s h) (hcap : (s.objects object).captures < 2 ^ 32) :
    ReportSuffix (s.objects object).so.pendingQueue :=
  let ⟨as, hr, _⟩ := hB.runs object
  reportSuffix_of_captures ⟨as, _, hr⟩ hcap

theorem Buffers.socketId_eq (hB : Buffers socketIds sizes s h) (object : Nat) :
    (s.objects object).so.socketId = socketIds object := by
  obtain ⟨as, hr, -⟩ := hB.runs object
  exact Machine.run_induction (fun s _ => s.so.socketId = socketIds object) [] rfl
    (fun _ _ _ _ _ hid _ hs => (socketId_of_step hs).trans hid) Machine.along_true hr

/-- The packets of the sockets after a step of one. -/
theorem Buffers.carry {label : SocketLabel} {e' : List SocketEvent} (hB : Buffers socketIds sizes s h)
    (hnew : ∀ mbufData mbufControl flags isInboundData now,
      label = .capture mbufData mbufControl flags isInboundData true now → mbufData ≠ [] →
        .captured object (s.objects object).captures mbufData isInboundData ∈ h ++ e ∧
          mbufData.pkthdrLen = mbufData.bytes.length)
    (hs : socketMachine.step (s.objects object) label = some (o, e')) (object' : Nat) :
    Carries (fun id mbufData isInboundData => .captured object' id mbufData isInboundData ∈ h ++ e)
      (socketIds object') (Function.update s.objects object o object') := by
  by_cases heq : object' = object
  · subst heq
    rw [Function.update_self]
    exact (hB.carries object').step (hB.shape object') (hB.socketId_eq object')
      (fun _ _ _ hm => List.mem_append_left _ hm) hnew hs
  · rw [Function.update_of_ne heq]
    exact (hB.carries object').mono fun _ _ _ hm => List.mem_append_left _ hm

/-! ### What a step keeps -/

section Steps
variable {D : Nat → MbufChain → Bool → Prop} {c : FltDataCall} {e' : List SocketEvent}

theorem array_of_loaded (hc : phase.loaded = some c) :
    phase.holds ∧ phase.array = listed c.notification.buffers := by
  cases phase with
  | copied | queued =>
    obtain rfl := Option.some.inj hc
    exact ⟨rfl, rfl⟩
  | _ => cases hc

/-- The bytes of the owners are kept. -/
theorem Owned.keep (hO : Owned socketIds h s calls ns free) (hu : Untouched s.filter f (owners s calls ns)) :
    (∀ p c, (s.call p).loaded = some c → Loaded f c) ∧
      ∀ n ∈ ns ++ s.received, n.isData → Shown socketIds h f n := by
  constructor
  · intro p c hc hsend
    obtain ⟨hlen, hfilled, hshort⟩ := hO.loaded p c hc hsend
    obtain ⟨hholds, harr⟩ := array_of_loaded hc
    have hmem := (hO.inFlight.mem_iff p).2 hholds
    have hsub : listed c.notification.buffers ⊆ owners s calls ns := by
      intro i hi
      rw [← harr] at hi
      simp only [owners, List.mem_append, List.mem_flatMap]
      exact .inl (.inl (.inl ⟨p, hmem, hi⟩))
    refine ⟨hlen, ?_, hshort⟩
    rw [Filled, (hu.mono hsub).contents_eq]
    exact hfilled
  · intro n hn hdata
    refine (hO.shown n hn hdata).untouched (hu.mono ?_)
    intro i hi
    simp only [owners, List.mem_append, List.mem_flatMap]
    rcases List.mem_append.1 hn with hn | hn
    · exact .inl (.inr ⟨n, hn, hi⟩)
    · exact .inr ⟨n, hn, hi⟩

theorem Owned.same (hO : Owned socketIds h s calls ns free) (hf : s'.filter = s.filter)
    (hq : s'.dataQueue = s.dataQueue) (ht : s'.toRelease = s.toRelease) (hr : s'.received = s.received)
    (hcall : ∀ p, SameBuffers (s.call p) (s'.call p)) : Owned socketIds (h ++ e) s' calls ns free := by
  obtain ⟨hI, hflat⟩ := hO.inFlight.congr _ hcall
  have howners : owners s' calls ns = owners s calls ns := by rw [owners, hflat, ht, hr, owners]
  refine ⟨hI, hq ▸ hO.ring, by rw [hf, howners]; exact hO.pooled, ?_, ?_⟩
  · intro p c hc hsend
    rw [hf]
    exact hO.loaded p c ((hcall p).loaded c hc hsend) hsend
  · rw [hr, hf]
    exact fun n hn hdata => (hO.shown n hn hdata).mono (List.subset_append_left ..)

/-- A copy of `FltData`. -/
theorem Owned.copy {error : Errno} {buffers : List Nat} (hO : Owned socketIds h s calls ns free)
    (hc : (s.objects object).calls id = .captured c) (hok : CallOk D (socketIds object) id c)
    (hfresh : ∃ so pkt, c = FltDataCall.captured so pkt) (hpool : PoolHolds s.filter c.pendingPkt.data)
    (hcopy : c.copy s.filter = .ok (error, buffers, f)) :
    ∃ free', Owned socketIds (h ++ e) ({ s with filter := f }.setObject object
      ((s.objects object).setCall id (.copied (c.copied error buffers)))) ((object, id) :: calls) ns free' := by
  obtain ⟨so, pkt, rfl⟩ := hfresh
  obtain ⟨hdata, hpkthdr⟩ := hok.regular
  have hcall := call_setObject { s with filter := f } object id
    (.copied ((FltDataCall.captured so pkt).copied error buffers))
  obtain ⟨hI, hflat⟩ := hO.inFlight.enter (p := (object, id)) hcall (by rw [ServiceState.call, hc]; rfl) rfl
  have harr : (CallPhase.copied ((FltDataCall.captured so pkt).copied error buffers)).array = listed buffers := by
    unfold FltDataCall.copied
    simp only
    split <;> rfl
  rw [harr] at hflat
  obtain ⟨error', buffers', f', hcopy', hresult⟩ := hO.pooled.copy
    (FltDataCall.captured so pkt).notification.buffers hdata hpkthdr
    (by simp [FltDataCall.captured, NkeSocketObject.initSocketNotification])
  rw [FltDataCall.copy, if_neg hdata, hcopy'] at hcopy
  obtain ⟨rfl, rfl, rfl⟩ : error' = error ∧ buffers' = buffers ∧ f' = f := by simpa using hcopy
  have hothers : ∀ p c, (CallPhase.loaded (if p = (object, id) then
      .copied ((FltDataCall.captured so pkt).copied error' buffers') else s.call p)) = some c →
      Untouched s.filter f' (owners s calls ns) →
      (p = (object, id) → Loaded f' ((FltDataCall.captured so pkt).copied error' buffers')) → Loaded f' c := by
    intro p c hc hu hself
    split at hc
    · rename_i heq
      obtain rfl := Option.some.inj hc
      exact hself heq
    · exact (hO.keep hu).1 p c hc
  cases hresult with
  | @filled _ _ free' hpool₁ hlen hfilled hshort hu =>
    refine ⟨free', hI, hO.ring, hpool₁.perm ?_, ?_, ?_⟩
    · rw [owners, hflat, owners]
      simp only [List.append_assoc]
      exact .refl _
    · intro p c hc
      rw [hcall] at hc
      exact hothers p c hc hu fun _ _ => ⟨hlen, hfilled, hshort⟩
    · exact fun n hn hdata => ((hO.keep hu).2 n hn hdata).mono (List.subset_append_left ..)
  | @failed _ _ _ free' herr hpool₁ hu hshort hnone =>
    have hnil : listed buffers' = [] := by
      refine hnone ((hpool free hO.pooled.pool).resolve_right ?_)
      have hdata' : (FltDataCall.captured so pkt).pendingPkt.data = pkt.data := rfl
      rw [hdata']
      exact Nat.not_le.2 hshort
    refine ⟨free', hI, hO.ring, ?_, ?_, ?_⟩
    · rw [owners, hflat, hnil, List.nil_append]
      exact hpool₁
    · intro p c hc
      rw [hcall] at hc
      refine hothers p c hc hu fun _ hsend => ?_
      simp [FltDataCall.copied, herr] at hsend
    · exact fun n hn hdata => ((hO.keep hu).2 n hn hdata).mono (List.subset_append_left ..)

/-- A call hands its buffers over, to the client or to be released. -/
theorem Owned.leave {ns' : List UserToKernel.NkeSocketFilterNotification} (hO : Owned socketIds h s calls ns free)
    (hcall : ∀ p', s'.call p' = if p' = p then phase else s.call p') (hin : (s.call p).holds)
    (hout : phase.holds = false) (hnone : phase.loaded = none) (hf : s'.filter = s.filter)
    (hr : s'.received = s.received) (hring : Notified s'.dataQueue ns')
    (hperm : (s'.toRelease.flatMap listed ++ ns'.flatMap (·.indices)).Perm
      ((s.call p).array ++ (s.toRelease.flatMap listed ++ ns.flatMap (·.indices))))
    (hshown : ∀ n ∈ ns', n ∈ ns ∨ (n.isData → Shown socketIds h s.filter n)) :
    Owned socketIds (h ++ e) s' (calls.erase p) ns' free := by
  obtain ⟨hI, hflat⟩ := hO.inFlight.leave hcall hin hout
  refine ⟨hI, hring, ?_, ?_, ?_⟩
  · rw [hf]
    refine hO.pooled.perm (List.perm_iff_count.2 fun i => ?_)
    have h₁ := hflat.count_eq i
    have h₂ := hperm.count_eq i
    simp only [owners, List.count_append, hr] at h₁ h₂ ⊢
    omega
  · intro p' c hc
    rw [hcall] at hc
    rw [hf]
    split at hc
    · rw [hnone] at hc
      cases hc
    · exact hO.loaded p' c hc
  · rw [hr, hf]
    intro n hn hdata
    refine Shown.mono ?_ (List.subset_append_left h e)
    rcases List.mem_append.1 hn with hn | hn
    · rcases hshown n hn with hn | hs
      · exact hO.shown n (List.mem_append_left _ hn) hdata
      · exact hs hdata
    · exact hO.shown n (List.mem_append_right _ hn) hdata

theorem flatMap_toRelease (c : FltDataCall) : c.toRelease.flatMap listed =
    if c.releaseBuffers then listed c.notification.buffers else [] := by
  unfold FltDataCall.toRelease
  split <;> simp

/-- A call without a notification to send. -/
theorem Owned.noSend (hO : Owned socketIds h s calls ns free) (hc : (s.objects object).calls id = .queued c)
    (hok : CallOk D (socketIds object) id c) (hsend : c.sendNotification = false) :
    Owned socketIds (h ++ e) ({ s with toRelease := s.toRelease ++ c.toRelease }.setObject object
      ((s.objects object).setCall id (.sent c))) (calls.erase (object, id)) ns free := by
  have hphase : s.call (object, id) = .queued c := hc
  refine hO.leave (call_setObject { s with toRelease := s.toRelease ++ c.toRelease } object id (.sent c))
    (by rw [hphase]; rfl) rfl rfl rfl rfl hO.ring ?_ fun n hn => .inl hn
  show ((s.toRelease ++ c.toRelease).flatMap listed ++ ns.flatMap (·.indices)).Perm _
  rw [hphase, List.flatMap_append, flatMap_toRelease, hok.release, hsend]
  simp only [Bool.not_false, if_true, CallPhase.array, ← List.append_assoc]
  exact List.perm_append_comm.append_right _

/-- The notification of a call, which the client gets or which is refused. -/
theorem Owned.send {result : Option Errno} {q : IODataQueueMemory} {client : ClientState}
    (hO : Owned socketIds h s calls ns free) (hsize : 92 ≤ s.dataQueue.queueSize.toNat)
    (hc : (s.objects object).calls id = .queued c)
    (hok : CallOk (fun id mbufData isInboundData => .captured object id mbufData isInboundData ∈ h)
      (socketIds object) id c)
    (hsend : c.sendNotification) (hn : notify s.dataQueue client (ofData c.notification) = (result, q)) :
    ∃ ns', Owned socketIds (h ++ e) ({ s with
        dataQueue := q, toRelease := s.toRelease ++ (c.sent result).toRelease }.setObject object
      ((s.objects object).setCall id (.sent (c.sent result)))) (calls.erase (object, id)) ns' free := by
  have hphase : s.call (object, id) = .queued c := hc
  have hin : (s.call (object, id)).holds := by rw [hphase]; rfl
  have hcall := call_setObject { s with
    dataQueue := q, toRelease := s.toRelease ++ (c.sent result).toRelease } object id (.sent (c.sent result))
  have hrel : c.releaseBuffers = false := by rw [hok.release, hsend]; rfl
  obtain ⟨-, ⟨rfl, hring⟩ | ⟨hrefused, hring⟩⟩ := notify_spec hO.ring hsize hn
  · have hnone : (c.sent (some KERN_SUCCESS)).toRelease = [] := by
      simp [FltDataCall.toRelease, FltDataCall.sent, hrel]
    obtain ⟨hlen, hfilled, hshort⟩ := hO.loaded (object, id) c (by rw [hphase]; rfl) hsend
    have hind : (ofData c.notification).indices = listed c.notification.buffers := by
      refine indices_ofData hlen fun i hi => hO.pooled.lt_max ?_
      simp only [owners, List.mem_append, List.mem_flatMap]
      exact .inl (.inl (.inl ⟨_, (hO.inFlight.mem_iff _).2 hin, by rw [hphase]; exact hi⟩))
    refine ⟨ns ++ [ofData c.notification], hO.leave hcall hin rfl rfl rfl rfl hring ?_ ?_⟩
    · show ((s.toRelease ++ (c.sent (some KERN_SUCCESS)).toRelease).flatMap listed ++ _).Perm _
      rw [hphase, hnone, List.append_nil, List.flatMap_append, List.flatMap_singleton, hind, ← List.append_assoc]
      exact List.perm_append_comm
    · intro n hn
      rcases List.mem_append.1 hn with hn | hn
      · exact .inl hn
      · obtain rfl := List.mem_singleton.1 hn
        exact .inr fun _ => ⟨object, id, _, _, hok.data, hok.tells,
          visible_of_filled hind hok.tells.dataSize hshort hfilled⟩
  · have hrelease : (c.sent result).toRelease.flatMap listed = listed c.notification.buffers := by
      rw [flatMap_toRelease, FltDataCall.sent]
      simp [hrefused]
    refine ⟨ns, hO.leave hcall hin rfl rfl rfl rfl hring ?_ fun n hn => .inl hn⟩
    show ((s.toRelease ++ (c.sent result).toRelease).flatMap listed ++ _).Perm _
    rw [hphase, List.flatMap_append, hrelease]
    simp only [CallPhase.array, ← List.append_assoc]
    exact List.perm_append_comm.append_right _

theorem flatMap_released (l : DeliverLocals) :
    (if l.releaseBuffers then [l.released] else []).flatMap listed = listed l.released := by
  unfold DeliverLocals.released
  split <;> simp [listed]

/-- The notifications of a delivery. -/
theorem Owned.deliver {os : List ReportOutcome} {q : IODataQueueMemory} {client : Nat → ClientState}
    {now : Nat → UInt64} (hO : Owned socketIds h s calls ns free) (hsize : 92 ≤ s.dataQueue.queueSize.toNat)
    (hC : Carries (fun id mbufData isInboundData => .captured object id mbufData isInboundData ∈ h)
      (socketIds object) (s.objects object)) (hQ : QueueShape (s.objects object))
    (hid : (s.objects object).so.socketId = socketIds object)
    (hexp : ∀ pkt ∈ (s.objects object).so.pendingQueue, pkt.needToBeReported →
      ∀ i, (pkt.isDeadlineTimerExpired (now i)).1 = false)
    (hserve : serveLoop (s.objects object).so client now (s.objects object).so.pendingQueue KERN_SUCCESS s.filter
      s.dataQueue = .ok (os, f, q))
    (hs : socketMachine.step (s.objects object) (.deliver (outcomes os)) = some (o, e')) :
    q.queueSize = s.dataQueue.queueSize ∧ ∃ ns' free', Owned socketIds (h ++ e) ({ s with
        filter := f
        dataQueue := q
        toRelease := s.toRelease ++ if ((s.objects object).so.deliverQueue (outcomes os)).2.1.releaseBuffers
          then [((s.objects object).so.deliverQueue (outcomes os)).2.1.released] else [] }.setObject object o)
      calls ns' free' := by
  obtain ⟨os', f', q', hserve', hserved⟩ := serveLoop_spec (s.objects object).so
    ⟨none, KERN_SUCCESS, false, false⟩ client now hO.pooled hO.ring hsize
    (fun pkt hp _ => (hC.queue pkt hp).2) hexp rfl rfl rfl
  rw [hserve] at hserve'
  obtain ⟨rfl, rfl, rfl⟩ : os = os' ∧ f = f' ∧ q = q' := by simpa using hserve'
  have hcalls : o.calls = (s.objects object).calls := by
    obtain ⟨rfl, -⟩ := Prod.mk.inj (Option.some.inj hs)
    rfl
  obtain ⟨⟨free', howners⟩, hu, hring, hsame, hann⟩ := hserved rfl
  set sent := sentOf (deliverLoop (outcomes os) (s.objects object).so.pendingQueue (s.objects object).so
    ⟨none, KERN_SUCCESS, false, false⟩).2.2.2
  set l := ((s.objects object).so.deliverQueue (outcomes os)).2.1
  have howners : f.Pooled free' (listed l.released ++ (sent.flatMap fun p => listed p.2.buffers) ++
    owners s calls ns) := howners
  have hcall : ∀ p, SameBuffers (s.call p) (ServiceState.call ({ s with
      filter := f
      dataQueue := q
      toRelease := s.toRelease ++ if l.releaseBuffers then [l.released] else [] }.setObject object o) p) := by
    rintro ⟨object', id'⟩
    by_cases heq : object' = object
    · subst heq
      rw [ServiceState.call, ServiceState.call, objects_setObject_self, hcalls]
      exact .refl _
    · rw [ServiceState.call, ServiceState.call, objects_setObject_of_ne heq]
      exact .refl _
  have hind : ∀ p ∈ sent, (ofData p.2).indices = listed p.2.buffers := by
    intro p hp
    obtain ⟨pkt, -, -, ha⟩ := hann p hp
    refine indices_ofData ha.entries fun i hi => howners.lt_max ?_
    simp only [List.mem_append, List.mem_flatMap]
    exact .inl (.inr ⟨p, hp, hi⟩)
  obtain ⟨hI, hflat⟩ := hO.inFlight.congr _ hcall
  refine ⟨hsame, ns ++ sent.map fun p => ofData p.2, free', hI, hring, howners.perm ?_, ?_, ?_⟩
  · have hsent : (sent.map fun p => ofData p.2).flatMap (·.indices) =
        sent.flatMap fun p => listed p.2.buffers := by
      rw [List.flatMap_map]
      exact List.flatMap_congr hind
    refine List.perm_iff_count.2 fun i => ?_
    rw [owners, hflat]
    show ((_ ++ (s.toRelease ++ _).flatMap listed ++ _ ++ s.received.flatMap _).count i) = _
    rw [List.flatMap_append, List.flatMap_append, hsent, flatMap_released, owners]
    simp only [List.count_append]
    omega
  · intro p c hc hsend
    exact (hO.keep hu).1 p c ((hcall p).loaded c hc hsend) hsend
  · intro n hn hdata
    refine Shown.mono ?_ (List.subset_append_left h e)
    have hn : n ∈ ns ++ (sent.map fun p => ofData p.2) ++ s.received := hn
    rcases List.mem_append.1 hn with hn | hn
    · rcases List.mem_append.1 hn with hn | hn
      · exact (hO.keep hu).2 n (List.mem_append_left _ hn) hdata
      · obtain ⟨p, hp, rfl⟩ := List.mem_map.1 hn
        obtain ⟨pkt, hmem, -, hevent, -, hfilled, hshort⟩ := hann p hp
        obtain ⟨hcaptured, -, hpkthdr⟩ := hC.queue pkt hmem
        have htells : Tells (socketIds object) pkt.id pkt.data pkt.dataInbound (ofData p.2) := by
          rw [hevent]
          exact Tells.of_init hid (hQ.dataIndex pkt hmem) hpkthdr _
        exact ⟨object, pkt.id, pkt.data, pkt.dataInbound, hcaptured, htells,
          visible_of_filled (hind p hp) htells.dataSize hshort hfilled⟩
    · exact (hO.keep hu).2 n (List.mem_append_right _ hn) hdata

/-- A thread releases the array it has. -/
theorem Owned.release {thread : Nat} {buffers : List Nat} (hO : Owned socketIds h s calls ns free)
    (ht : s.toRelease[thread]? = some buffers) :
    ∃ free', Owned socketIds (h ++ e) { s with
      filter := s.filter.releaseDataBuffers buffers, toRelease := s.toRelease.eraseIdx thread } calls ns free' := by
  obtain ⟨hlt, hget⟩ := List.getElem?_eq_some_iff.1 ht
  have hperm : s.toRelease.Perm (buffers :: s.toRelease.eraseIdx thread) :=
    hget ▸ (List.getElem_cons_eraseIdx_perm hlt).symm
  obtain ⟨hI, hflat⟩ := hO.inFlight.congr { s with
    filter := s.filter.releaseDataBuffers buffers, toRelease := s.toRelease.eraseIdx thread } fun p => .refl _
  have hall : (listed buffers ++ owners { s with
      filter := s.filter.releaseDataBuffers buffers, toRelease := s.toRelease.eraseIdx thread } calls ns).Perm
      (owners s calls ns) := by
    refine List.perm_iff_count.2 fun i => ?_
    have hcount := (hperm.flatMap_right listed).count_eq i
    rw [List.flatMap_cons, List.count_append] at hcount
    simp only [owners, hflat, List.count_append] at hcount ⊢
    omega
  have hu := hO.keep (untouched_release s.filter buffers _)
  exact ⟨_, hI, hO.ring, (hO.pooled.perm hall).release, hu.1, fun n hn hdata =>
    (hu.2 n hn hdata).mono (List.subset_append_left ..)⟩

/-- An honest client gives the buffers of a notification back. -/
theorem Owned.respond {i : Nat} {n : UserToKernel.NkeSocketFilterNotification}
    {response : UserToKernel.NkeSocketFilterServiceResponse} (hO : Owned socketIds h s calls ns free)
    (hn : s.received[i]? = some n) (hdata : n.isData)
    (hhonest : response.buffersToRelease = n.inputoutput.buffers) :
    ∃ free', Owned socketIds (h ++ e) { s with
      filter := s.filter.releaseDataBuffers (bufferIndices response.buffersToRelease)
      received := s.received.eraseIdx i
      responses := s.responses ++ [response.properties] } calls ns free' := by
  obtain ⟨hlt, hget⟩ := List.getElem?_eq_some_iff.1 hn
  have hperm : s.received.Perm (n :: s.received.eraseIdx i) :=
    hget ▸ (List.getElem_cons_eraseIdx_perm hlt).symm
  rw [hhonest]
  obtain ⟨hI, hflat⟩ := hO.inFlight.congr { s with
    filter := s.filter.releaseDataBuffers (bufferIndices n.inputoutput.buffers)
    received := s.received.eraseIdx i
    responses := s.responses ++ [response.properties] } fun p => .refl _
  have hall : (listed (bufferIndices n.inputoutput.buffers) ++ owners { s with
      filter := s.filter.releaseDataBuffers (bufferIndices n.inputoutput.buffers)
      received := s.received.eraseIdx i
      responses := s.responses ++ [response.properties] } calls ns).Perm (owners s calls ns) := by
    refine List.perm_iff_count.2 fun j => ?_
    have hcount := (hperm.flatMap_right (·.indices)).count_eq j
    rw [List.flatMap_cons, List.count_append, UserToKernel.NkeSocketFilterNotification.indices,
      if_pos hdata] at hcount
    simp only [owners, hflat, List.count_append] at hcount ⊢
    omega
  have hu := hO.keep (untouched_release s.filter (bufferIndices n.inputoutput.buffers) _)
  refine ⟨_, hI, hO.ring, (hO.pooled.perm hall).release, hu.1, fun n' hn' hdata' => ?_⟩
  refine (hu.2 n' ?_ hdata').mono (List.subset_append_left ..)
  rcases List.mem_append.1 hn' with hn' | hn'
  · exact List.mem_append_left _ hn'
  · exact List.mem_append_right _ (List.mem_of_mem_eraseIdx hn')

theorem Owned.receive {n : UserToKernel.NkeSocketFilterNotification} {q : IODataQueueMemory} {retVal : IOReturn}
    {notification : Memory} (hO : Owned socketIds h s calls ns free)
    (hr : receive s.dataQueue notification = (retVal, n, q)) :
    q.queueSize = s.dataQueue.queueSize ∧
      (retVal = .kIOReturnSuccess ∧ (n.isData → Shown socketIds h s.filter n) ∧
          (∃ ns', Owned socketIds (h ++ e) { s with dataQueue := q, received := s.received ++ [n] } calls ns' free) ∨
        retVal ≠ .kIOReturnSuccess ∧ Owned socketIds (h ++ e) { s with dataQueue := q } calls ns free) := by
  have hsame := queueSize_receive s.dataQueue notification
  rw [hr] at hsame
  refine ⟨hsame, ?_⟩
  cases ns with
  | nil =>
    obtain ⟨hret, hq⟩ := hO.ring.receive_nil notification
    rw [hr] at hret hq
    obtain rfl : q = s.dataQueue := hq
    refine .inr ⟨by rw [show retVal = _ from hret]; decide, hO.same rfl rfl rfl rfl fun p => .refl _⟩
  | cons n' ns =>
    obtain ⟨q', hr', hring⟩ := hO.ring.receive_cons notification
    obtain ⟨rfl, rfl, rfl⟩ : retVal = .kIOReturnSuccess ∧ n = n' ∧ q = q' := by simpa [hr] using hr'
    have hshown : n.isData → Shown socketIds h s.filter n := hO.shown n (by simp)
    refine .inl ⟨rfl, hshown, ns, ?_⟩
    obtain ⟨hI, hflat⟩ := hO.inFlight.congr { s with dataQueue := q, received := s.received ++ [n] }
      fun p => .refl _
    refine ⟨hI, hring, hO.pooled.perm (List.perm_iff_count.2 fun i => ?_), hO.loaded, ?_⟩
    · rw [owners, hflat, owners]
      simp only [List.flatMap_append, List.flatMap_cons, List.flatMap_nil, List.count_append, List.count_nil]
      omega
    · intro n' hn' hdata'
      refine (hO.shown n' ?_ hdata').mono (List.subset_append_left ..)
      simp only [List.mem_append, List.mem_cons, List.not_mem_nil, or_false] at hn' ⊢
      tauto

/-- A notification of `FltNotify` takes no buffers. -/
theorem Owned.event {disconnected : Bool} {data : SocketNotification} {client : ClientState}
    {result : Option Errno} {q : IODataQueueMemory} (hO : Owned socketIds h s calls ns free)
    (hsize : 92 ≤ s.dataQueue.queueSize.toNat)
    (hn : notify s.dataQueue client (data.init { (s.objects object).so with disconnected }) = (result, q)) :
    ∃ ns', Owned socketIds (h ++ e) { s with dataQueue := q } calls ns' free := by
  obtain ⟨hI, hflat⟩ := hO.inFlight.congr { s with dataQueue := q } fun p => .refl _
  have hmono : ∀ n ∈ ns ++ s.received, n.isData → Shown socketIds (h ++ e) s.filter n := fun n hn hdata =>
    (hO.shown n hn hdata).mono (List.subset_append_left ..)
  have hnot := isData_init { (s.objects object).so with disconnected } data
  obtain ⟨-, ⟨-, hring⟩ | ⟨-, hring⟩⟩ := notify_spec hO.ring hsize hn
  · refine ⟨_, hI, hring, hO.pooled.perm (List.perm_iff_count.2 fun i => ?_), hO.loaded, ?_⟩
    · rw [owners, hflat, owners, List.flatMap_append, List.flatMap_singleton,
        UserToKernel.NkeSocketFilterNotification.indices, hnot]
      simp
    · intro n hn hdata
      simp only [List.mem_append, List.mem_singleton] at hn
      rcases hn with (hn | rfl) | hn
      · exact hmono n (List.mem_append_left _ hn) hdata
      · rw [hnot] at hdata
        cases hdata
      · exact hmono n (List.mem_append_right _ hn) hdata
  · exact ⟨ns, hI, hring, hO.pooled, hO.loaded, hmono⟩

theorem Buffers.step (hB : Buffers socketIds sizes s h) (ha : Regular s a)
    (hs : serviceMachine.step s a = some (s', e)) : Buffers socketIds sizes s' (h ++ e) := by
  have hruns := fun object => (ServiceState.objects_step hs).runAlong (hB.runs object)
  have hstay : ∀ object, Carries (fun id mbufData isInboundData =>
      .captured object id mbufData isInboundData ∈ h ++ e) (socketIds object) (s.objects object) :=
    fun object => (hB.carries object).mono fun _ _ _ hm => List.mem_append_left _ hm
  obtain ⟨calls, ns, free, hO⟩ := hB.owned
  cases ServiceState.step_inv hs with
  | @socket object label o e' halone hstep =>
    refine ⟨hruns, hB.carry ?_ hstep, hB.size, calls, ns, free, hO.same rfl rfl rfl rfl ?_⟩
    · rintro mbufData mbufControl flags isInboundData now rfl -
      exact ⟨List.mem_append_right _ (List.mem_append_left _ (List.mem_singleton.2 rfl)), ha⟩
    · rintro ⟨object', id⟩
      by_cases heq : object' = object
      · subst heq
        rw [ServiceState.call, ServiceState.call, objects_setObject_self]
        exact holds_of_alone halone (hB.custody object') hstep id
      · rw [ServiceState.call, ServiceState.call, objects_setObject_of_ne heq]
        exact .refl _
  | @copy object id c error buffers f o e' hc hcopy hstep =>
    have hok := (hB.carries object).calls id c (by rw [hc]; rfl)
    obtain ⟨free', hO'⟩ := hO.copy (e := e'.map (.socket object)) hc hok ((hB.carries object).fresh id c hc)
      (ha c hc) hcopy
    have ho : o = (s.objects object).setCall id (.copied (c.copied error buffers)) := by
      simp only [socketMachine, SocketState.step, hc, if_neg hok.regular.1] at hstep
      exact (Prod.mk.inj (Option.some.inj hstep)).1.symm
    subst ho
    exact ⟨hruns, hB.carry (fun _ _ _ _ _ heq => by cases heq) hstep, hB.size, _, ns, free', hO'⟩
  | @send object id client c result q o e' hc hsend hn hstep =>
    have hok := (hB.carries object).calls id c (by rw [hc]; rfl)
    obtain ⟨ns', hO'⟩ := hO.send (e := e'.map (.socket object)) hB.size hc hok hsend hn
    have ho : o = (s.objects object).setCall id (.sent (c.sent result)) := by
      simp only [socketMachine, SocketState.step, hc, hsend, if_true] at hstep
      exact (Prod.mk.inj (Option.some.inj hstep)).1.symm
    obtain ⟨hsize, -⟩ := notify_spec hO.ring hB.size hn
    subst ho
    refine ⟨hruns, hB.carry (fun _ _ _ _ _ heq => by cases heq) hstep, ?_, _, ns', free, hO'⟩
    show 92 ≤ q.queueSize.toNat
    rw [hsize]
    exact hB.size
  | @noSend object id client c o e' hc hsend hstep =>
    have hok := (hB.carries object).calls id c (by rw [hc]; rfl)
    have ho : o = (s.objects object).setCall id (.sent c) := by
      simp only [socketMachine, SocketState.step, hc, hsend, Bool.false_eq_true, if_false] at hstep
      exact (Prod.mk.inj (Option.some.inj hstep)).1.symm
    subst ho
    exact ⟨hruns, hB.carry (fun _ _ _ _ _ heq => by cases heq) hstep, hB.size, _, ns, free,
      hO.noSend hc hok hsend⟩
  | @deliver object client now os f q l o e' hserve hl hstep =>
    obtain ⟨hsize, ns', free', hO'⟩ := hO.deliver (e := e'.map (.socket object)) hB.size (hB.carries object)
      (hB.shape object) (hB.socketId_eq object) ha hserve hstep
    refine ⟨hruns, hB.carry (fun _ _ _ _ _ heq => by cases heq) hstep, ?_, calls, ns', free', ?_⟩
    · show 92 ≤ q.queueSize.toNat
      rw [hsize]
      exact hB.size
    · rw [← hl]
      exact hO'
  | event hn =>
    obtain ⟨ns', hO'⟩ := hO.event (e := []) hB.size hn
    obtain ⟨hsize, -⟩ := notify_spec hO.ring hB.size hn
    refine ⟨hruns, hstay, ?_, calls, ns', free, hO'⟩
    rw [hsize]
    exact hB.size
  | release ht =>
    obtain ⟨free', hO'⟩ := hO.release ht
    exact ⟨hruns, hstay, hB.size, calls, ns, free', hO'⟩
  | @receive notification n q hr =>
    obtain ⟨hsize, ⟨-, -, ns', hO'⟩ | ⟨hne, -⟩⟩ := hO.receive hr
    · refine ⟨hruns, hstay, ?_, calls, ns', free, hO'⟩
      show 92 ≤ q.queueSize.toNat
      rw [hsize]
      exact hB.size
    · exact absurd rfl hne
  | @underrun notification retVal n q hr hret =>
    obtain ⟨hsize, ⟨hok, -⟩ | ⟨-, hO'⟩⟩ := hO.receive hr
    · exact absurd hok hret
    · refine ⟨hruns, hstay, ?_, calls, ns, free, hO'⟩
      show 92 ≤ q.queueSize.toNat
      rw [hsize]
      exact hB.size
  | respond hn =>
    obtain ⟨free', hO'⟩ := hO.respond hn (ha _ hn).isData (ha _ hn).buffers
    exact ⟨hruns, hstay, hB.size, calls, ns, free', hO'⟩
  | @property thread object property rest o e' hthread hid hstep =>
    refine ⟨hruns, hB.carry (fun _ _ _ _ _ heq => by cases heq) hstep, hB.size, calls, ns, free,
      hO.same rfl rfl rfl rfl ?_⟩
    have hcalls : o.calls = (s.objects object).calls := by
      obtain ⟨rfl, -⟩ := Prod.mk.inj (Option.some.inj hstep)
      rfl
    rintro ⟨object', id⟩
    by_cases heq : object' = object
    · subst heq
      rw [ServiceState.call, ServiceState.call, objects_setObject_self, hcalls]
      exact .refl _
    · rw [ServiceState.call, ServiceState.call, objects_setObject_of_ne heq]
      exact .refl _
  | skip => exact ⟨hruns, hstay, hB.size, calls, ns, free, hO.same rfl rfl rfl rfl fun p => .refl _⟩

end Steps

/-! ### The result -/

theorem notified_unique {q : IODataQueueMemory} {ns : List UserToKernel.NkeSocketFilterNotification}
    (hq : Notified q ns) (hq' : Notified q []) : ns = [] := by
  cases ns with
  | nil => rfl
  | cons n ns =>
    obtain ⟨q', hr, -⟩ := hq.receive_cons fun _ => 0
    have hnil := (hq'.receive_nil fun _ => 0).1
    rw [hr] at hnil
    cases hnil

/-- Where the buffers are: each is free or has one owner, so when nobody has any all are free. No copy
faults, and the client sees what it is told of. -/
structure Conserved (socketIds : Nat → NkeSocketID) (s : ServiceState) (h : List ServiceEvent) : Prop where
  once : ∃ calls ns free, InFlight s calls ∧ Notified s.dataQueue ns ∧
    Links s.filter.freeBuffers UINT8_MAX s.filter.freeBuffersHead free ∧
    (free ++ owners s calls ns).Perm (List.range s.filter.dataBuffers.length)
  quiet : (∀ p, (s.call p).holds = false) → s.toRelease = [] → Notified s.dataQueue [] → s.received = [] →
    ∃ free, Links s.filter.freeBuffers UINT8_MAX s.filter.freeBuffersHead free ∧
      free.Perm (List.range s.filter.dataBuffers.length)
  copies : ∀ object id c, (s.objects object).calls id = .captured c → ∃ r, c.copy s.filter = .ok r
  deliveries : ∀ object client now, Regular s (.deliver object client now) →
    ∃ r, serveLoop (s.objects object).so client now (s.objects object).so.pendingQueue KERN_SUCCESS s.filter
      s.dataQueue = .ok r
  shown : ∀ n ∈ s.received, n.isData → Shown socketIds h s.filter n

theorem Buffers.conserved (hB : Buffers socketIds sizes s h) : Conserved socketIds s h := by
  obtain ⟨calls, ns, free, hO⟩ := hB.owned
  constructor
  · exact ⟨calls, ns, free, hO.inFlight, hO.ring, hO.pooled.pool.links, hO.pooled.shared⟩
  · intro hcalls hrelease hring hreceived
    have hnone : calls = [] := by
      refine List.eq_nil_iff_forall_not_mem.2 fun p hp => ?_
      have := (hO.inFlight.mem_iff p).1 hp
      rw [hcalls p] at this
      cases this
    obtain rfl := notified_unique hO.ring hring
    have hshared := hO.pooled.shared
    rw [owners, hnone, hrelease, hreceived] at hshared
    exact ⟨free, hO.pooled.pool.links, by simpa using hshared⟩
  · intro object id c hc
    have hok := (hB.carries object).calls id c (by rw [hc]; rfl)
    obtain ⟨so, pkt, rfl⟩ := (hB.carries object).fresh id c hc
    obtain ⟨error, arr, f', hcopy, -⟩ := hO.pooled.copy
      (FltDataCall.captured so pkt).notification.buffers hok.regular.1 hok.regular.2
      (by simp [FltDataCall.captured, NkeSocketObject.initSocketNotification])
    exact ⟨_, by rw [FltDataCall.copy, if_neg hok.regular.1]; exact hcopy⟩
  · intro object client now hexp
    obtain ⟨os, f', q', hserve, -⟩ := serveLoop_spec (s.objects object).so
      ⟨none, KERN_SUCCESS, false, false⟩ client now hO.pooled hO.ring hB.size
      (fun pkt hp _ => ((hB.carries object).queue pkt hp).2) hexp rfl rfl rfl
    exact ⟨_, hserve⟩
  · exact fun n hn => hO.shown n (List.mem_append_right _ hn)

section Result
variable {withSize : Nat → Bool} {queueSize : UInt32} {queue : Memory} {as : List ServiceLabel}

theorem buffers_start (hsize : 92 ≤ queueSize.toNat) (hlt : queueSize.toNat < 2 ^ 31) :
    Buffers socketIds sizes (.start withSize queueSize queue socketIds sizes) [] := by
  refine ⟨fun _ => .refl, fun object => ⟨?_, ?_, ?_, ?_⟩, hsize, [], [], _, ⟨List.nodup_nil, fun p => ?_⟩,
    ⟨hlt, .straight (Nat.zero_le _) rfl⟩, pooled_withDefault withSize, ?_, ?_⟩
  · exact fun pkt hp => by cases hp
  · exact fun id c hc => by cases hc
  · exact fun id c hc => by cases hc
  · exact fun i hi => by cases hi
  · exact iff_of_false List.not_mem_nil Bool.false_ne_true
  · exact fun p c hc => by cases hc
  · exact fun n hn => by cases hn

theorem buffers_of_run (hsize : 92 ≤ queueSize.toNat) (hlt : queueSize.toNat < 2 ^ 31)
    (hC : serviceMachine.Along Regular (.start withSize queueSize queue socketIds sizes) as)
    (hr : serviceMachine.run (.start withSize queueSize queue socketIds sizes) as = some (s, h)) :
    Buffers socketIds sizes s h :=
  Machine.run_induction (Buffers socketIds sizes) [] (buffers_start hsize hlt)
    (fun _ _ _ _ _ hB ha hs => hB.step ha hs) hC hr

/-- However the threads of the sockets and the client take turns, whichever copies and notifications fail. -/
theorem buffers_conserved (hsize : 92 ≤ queueSize.toNat) (hlt : queueSize.toNat < 2 ^ 31)
    (hC : serviceMachine.Along Regular (.start withSize queueSize queue socketIds sizes) as)
    (hr : serviceMachine.run (.start withSize queueSize queue socketIds sizes) as = some (s, h)) :
    Conserved socketIds s h :=
  (buffers_of_run hsize hlt hC hr).conserved

/-- A packet of one byte is captured and the client is told. -/
def oneNotified : List ServiceLabel :=
  [.socket 0 (.capture [⟨[7], some ⟨1, none, []⟩, none⟩] [] 0 true true 0), .copy 0 0, .socket 0 (.queue 0),
    .send 0 0 .listening]

/-- `NkeSocketHandler` takes the notification and answers. -/
def oneAnswered (n : UserToKernel.NkeSocketFilterNotification) : List ServiceLabel :=
  oneNotified ++ [.receive fun _ => 3, .respond 0 n.response]

def oneSocket : ServiceState :=
  .start (· < 1) 184 (fun _ => 255) (fun object => ⟨0, UInt64.ofNat object⟩) fun _ => 0

def oneNotifiedState : ServiceState := ((serviceMachine.run oneSocket oneNotified).get rfl).1

theorem oneNotified_regular : serviceMachine.Along Regular oneSocket oneNotified := by
  refine ⟨rfl, fun s e hs => ⟨?_, fun _ _ _ => ⟨trivial, fun _ _ _ => ⟨trivial, fun _ _ _ => trivial⟩⟩⟩⟩
  obtain rfl := congrArg Prod.fst (Option.some.inj hs)
  intro c hc free _
  obtain rfl := CallPhase.captured.inj hc
  exact (Nat.eq_zero_or_pos free.length).imp List.eq_nil_of_length_eq_zero fun h => h

/-- The ring holds the notification then. -/
theorem notified_oneNotified : ∃ h n, serviceMachine.run oneSocket oneNotified = some (oneNotifiedState, h) ∧
    n.socketId = ⟨0, 0⟩ ∧ n.dataIndex = 0 ∧ Notified oneNotifiedState.dataQueue [ofData n] := by
  obtain ⟨h, n, hr, hq, hid, hi⟩ : ∃ h n,
      serviceMachine.run oneSocket oneNotified = some (oneNotifiedState, h) ∧
      oneNotifiedState.dataQueue =
        (oneSocket.dataQueue.enqueueWithBarrier (notificationLayout.store (ofData n))).dataQueue ∧
      n.socketId = ⟨0, 0⟩ ∧ n.dataIndex = 0 := ⟨_, _, rfl, rfl, rfl, rfl⟩
  have hring : Notified oneSocket.dataQueue [] := ⟨by decide, .straight (Nat.zero_le _) rfl⟩
  have hring' := hring.enqueue (by decide) (ofData n) (hring.result_of_nil (by decide) _)
  rw [← hq] at hring'
  exact ⟨h, n, hr, hid, hi, hring'⟩

/-- The state then, but for what the client does not change. -/
structure OneAnswered (n : UserToKernel.NkeSocketFilterNotification) (s : ServiceState) : Prop where
  regular : serviceMachine.Along Regular oneSocket (oneAnswered n)
  taken : ∀ s h, serviceMachine.run oneSocket (oneNotified ++ [.receive fun _ => 3]) = some (s, h) →
    s.received = [n]
  objects : s.objects = oneNotifiedState.objects
  responses : s.responses = [[⟨.NkeSocketDataPropertyTypePermission, 0, ⟨0, 0⟩, 1⟩]]
  ring : Notified s.dataQueue []
  received : s.received = []

theorem run_oneAnswered : ∃ n s h, serviceMachine.run oneSocket (oneAnswered n) = some (s, h) ∧
    OneAnswered n s := by
  obtain ⟨h₁, n, hr₁, hid, hi, hring₁⟩ := notified_oneNotified
  obtain ⟨q, hreceive, hring₂⟩ := hring₁.receive_cons fun _ => 3
  obtain ⟨e₂, hs₂⟩ : ∃ e, serviceMachine.step oneNotifiedState (.receive fun _ => 3) =
      some ({ oneNotifiedState with dataQueue := q, received := [ofData n] }, e) := by
    simp only [serviceMachine, ServiceState.step, hreceive, if_true]
    exact ⟨_, rfl⟩
  obtain ⟨s₃, e₃, hs₃, hobjects, hresponses, hring₃, hreceived⟩ : ∃ s e, serviceMachine.step
      { oneNotifiedState with dataQueue := q, received := [ofData n] } (.respond 0 (ofData n).response) =
        some (s, e) ∧
      s.objects = oneNotifiedState.objects ∧ s.responses = oneNotifiedState.responses ++
        [(ofData n).response.properties] ∧ s.dataQueue = q ∧ s.received = [] := ⟨_, _, rfl, rfl, rfl, rfl, rfl⟩
  have hr := Machine.run_append.2 ⟨_, _, _, hr₁,
    Machine.run_cons.2 ⟨_, _, _, hs₂, Machine.run_single hs₃, rfl⟩, rfl⟩
  refine ⟨ofData n, s₃, _, hr, oneNotified_regular.append fun s h hr' => ?_, fun s h hr' => ?_, hobjects, ?_,
    hring₃ ▸ hring₂, hreceived⟩
  · obtain ⟨rfl, -⟩ := Prod.mk.inj (Option.some.inj (hr₁.symm.trans hr'))
    refine ⟨trivial, fun s e hs => ⟨fun n' hn' => ?_, fun _ _ _ => trivial⟩⟩
    obtain ⟨rfl, -⟩ := Prod.mk.inj (Option.some.inj (hs₂.symm.trans hs))
    obtain rfl := Option.some.inj hn'
    exact honest_response (List.mem_singleton.2 rfl) (isData_ofData n)
  · have hr₂ := Machine.run_append.2 ⟨_, _, _, hr₁, Machine.run_single hs₂, rfl⟩
    obtain ⟨rfl, -⟩ := Prod.mk.inj (Option.some.inj (hr₂.symm.trans hr'))
    rfl
  · rw [hresponses, properties_response, inputoutput_ofData]
    simp only [ioData, ofData, hid, hi]
    rfl

theorem oneAnswered_conserved : ∃ n s h, serviceMachine.run oneSocket (oneAnswered n) = some (s, h) ∧
    Conserved (fun object => ⟨0, UInt64.ofNat object⟩) s h := by
  obtain ⟨n, s, h, hr, hanswered⟩ := run_oneAnswered
  exact ⟨n, s, h, hr, buffers_conserved (by decide) (by decide) hanswered.regular hr⟩

end Result

end Service
end NkeFilter
