import NkeFilter.SocketMachine

/-!
# The disposition of swallowed packets

Over any run of the machine of one socket: the mbufs of a packet that `FltData` swallowed are in the
pending queue, in the hands of the thread that reinjects, or disposed of, in exactly one of the three.
The invariant counts, for each packet, where its mbufs and its queue entry are (`Custody`).
-/

namespace NkeFilter
open Lib NkeSocketObject

/-! ### What the observations say about a packet -/

namespace SocketEvent

def injects (id : Nat) : SocketEvent → Bool
  | .injected id' _ _ => id' == id
  | _ => false

/-- The injection consumed the mbufs: outbound always, inbound when it succeeds. -/
def consumes (id : Nat) : SocketEvent → Bool
  | .injected id' dataInbound error => id' == id && (!dataInbound || error == KERN_SUCCESS)
  | _ => false

end SocketEvent

/-- How often the mbufs of the packet were consumed by an injection or freed. -/
def disposals (h : List SocketEvent) (id : Nat) : Nat :=
    h.countP (SocketEvent.consumes id) + h.count (.freedMbufs id)

/-- How often the packet entered the pending queue. -/
def insertions (h : List SocketEvent) (id : Nat) : Nat := h.count (.queued id)

section Counts
variable {h h' : List SocketEvent} {id : Nat}

@[simp] theorem disposals_append : disposals (h ++ h') id = disposals h id + disposals h' id := by
  simp only [disposals, List.countP_append, List.count_append]
  omega

@[simp] theorem insertions_append : insertions (h ++ h') id = insertions h id + insertions h' id :=
  List.count_append

@[simp] theorem disposals_nil : disposals [] id = 0 := rfl

@[simp] theorem insertions_nil : insertions [] id = 0 := rfl

theorem insertions_pos : 0 < insertions h id ↔ .queued id ∈ h := List.count_pos_iff

/-- Events that concern neither insertions nor dispositions. -/
def Silent (e : List SocketEvent) : Prop := ∀ id, disposals e id = 0 ∧ insertions e id = 0 ∧
  e.countP (SocketEvent.injects id) = 0 ∧ e.count (.freedEntry id) = 0

theorem silent_of_forall {e : List SocketEvent} (he : ∀ x ∈ e, ∀ id, x.injects id = false ∧
    x.consumes id = false ∧ x ≠ .freedMbufs id ∧ x ≠ .queued id ∧ x ≠ .freedEntry id) : Silent e := by
  intro id
  refine ⟨?_, ?_, ?_, ?_⟩
  · have hc : e.countP (SocketEvent.consumes id) = 0 :=
      List.countP_eq_zero.2 fun x hx => by simp [(he x hx id).2.1]
    have hf : e.count (.freedMbufs id) = 0 := List.count_eq_zero.2 fun hm => (he _ hm id).2.2.1 rfl
    rw [disposals, hc, hf]
  · exact List.count_eq_zero.2 fun hm => (he _ hm id).2.2.2.1 rfl
  · exact List.countP_eq_zero.2 fun x hx => by simp [(he x hx id).1]
  · exact List.count_eq_zero.2 fun hm => (he _ hm id).2.2.2.2 rfl

theorem silent_reports {e : List SocketEvent} (he : ∀ x ∈ e, x.isReport) : Silent e := by
  refine silent_of_forall ?_
  intro x hx id
  have hreport := he x hx
  cases x with
  | setRcvBuf | wakeup | copied | notified => simp [SocketEvent.injects, SocketEvent.consumes]
  | _ => simp [SocketEvent.isReport] at hreport

theorem silent_taken (taken : List PendingPktQueueItem) : Silent (taken.map fun pkt => .taken pkt.id) := by
  refine silent_of_forall ?_
  intro x hx id
  obtain ⟨pkt, -, rfl⟩ := List.mem_map.1 hx
  simp [SocketEvent.injects, SocketEvent.consumes]

end Counts

/-! ### Where a packet is -/

namespace SocketState

def inQueue (s : SocketState) (id : Nat) : Nat := (pktIds s.so.pendingQueue).count id

def inPacketsToInject (s : SocketState) (id : Nat) : Nat :=
  (s.injection.map fun i => (pktIds i.packetsToInject).count id).getD 0

/-- Is it out of `packetsToInject` with its mbufs still to be freed? -/
def unfreed (s : SocketState) (id : Nat) : Nat := match s.injection with
  | some ⟨_, some (.toFree pkt)⟩ => if pkt.id = id then 1 else 0
  | _ => 0

/-- Is it out of `packetsToInject` with its entry still to be freed? -/
def unaccounted (s : SocketState) (id : Nat) : Nat := match s.injection with
  | some ⟨_, some (.toFree pkt)⟩ | some ⟨_, some (.toAccount pkt)⟩ => if pkt.id = id then 1 else 0
  | _ => 0

end SocketState

def CallPhase.published : CallPhase → Bool
  | .queued _ | .sent _ | .returned => true
  | _ => false

/-- Where the packets are: with the call that captured them, or counted once for their mbufs and once for
their entry. -/
structure Custody (s : SocketState) (h : List SocketEvent) : Prop where
  fresh : ∀ id, s.captures ≤ id → s.calls id = .idle
  captured : ∀ id c, s.calls id = .captured c ∨ s.calls id = .copied c → c.pendingPkt.id = id
  inserted : ∀ id, insertions h id = if (s.calls id).published then 1 else 0
  mbufs : ∀ id, s.inQueue id + s.inPacketsToInject id + s.unfreed id + disposals h id = insertions h id
  entry : ∀ id, s.inQueue id + s.inPacketsToInject id + s.unaccounted id + h.count (.freedEntry id) =
    insertions h id
  once : ∀ id, s.inQueue id + s.inPacketsToInject id + h.countP (SocketEvent.injects id) ≤ insertions h id
  swallowed : ∀ id, .swallowed id ∈ h → s.calls id = .returned

variable {s s' : SocketState} {a : SocketLabel} {h e : List SocketEvent} {id : Nat}

theorem custody_start {socketId : NkeSocketID} {size : Nat} :
    Custody (SocketState.start socketId size) [] := by
  refine ⟨fun _ _ => rfl, ?_, fun _ => rfl, fun _ => rfl, fun _ => rfl, fun _ => le_refl _,
    fun _ hm => by cases hm⟩
  intro id c hc
  rcases hc with hc | hc <;> cases hc

/-! ### What a step keeps -/

/-- A step of an `FltData` call outside the lock: the packets stay where they are. -/
theorem Custody.call {phase : CallPhase} (hC : Custody s h) (he : Silent e)
    (hphase : ∀ c, phase = .captured c ∨ phase = .copied c → c.pendingPkt.id = id)
    (hpub : phase.published = (s.calls id).published) (hnew : phase = .idle ∨ id < s.captures)
    (hsw : ∀ id', .swallowed id' ∈ e → id' = id) (hret : s.calls id = .returned → phase = .returned)
    (hdone : .swallowed id ∈ e → phase = .returned) : Custody (s.setCall id phase) (h ++ e) := by
  have hcall : ∀ id', (s.setCall id phase).calls id' = if id' = id then phase else s.calls id' :=
    fun id' => Function.update_apply ..
  have hstays : ∀ id', s.calls id' = .returned → (s.setCall id phase).calls id' = .returned := by
    intro id' hr
    rw [hcall]
    split
    · rename_i heq
      exact hret (heq ▸ hr)
    · exact hr
  refine ⟨?_, ?_, ?_, ?_, ?_, ?_, ?_⟩
  · intro id' hle
    rw [hcall]
    split
    · rename_i heq
      rcases hnew with rfl | hlt
      · rfl
      · exact absurd (heq ▸ hle) (Nat.not_le.2 hlt)
    · exact hC.fresh id' hle
  · intro id' c hc
    rw [hcall] at hc
    split at hc
    · rename_i heq
      rw [heq]
      exact hphase c hc
    · exact hC.captured id' c hc
  · intro id'
    have hsame : ((s.setCall id phase).calls id').published = (s.calls id').published := by
      rw [hcall]
      split
      · rename_i heq
        rw [heq, hpub]
      · rfl
    rw [insertions_append, (he id').2.1, hsame]
    exact hC.inserted id'
  · intro id'
    rw [insertions_append, (he id').2.1, disposals_append, (he id').1]
    exact hC.mbufs id'
  · intro id'
    rw [insertions_append, (he id').2.1, List.count_append, (he id').2.2.2]
    exact hC.entry id'
  · intro id'
    rw [insertions_append, (he id').2.1, List.countP_append, (he id').2.2.1]
    exact hC.once id'
  · intro id' hm
    rcases List.mem_append.1 hm with hm | hm
    · exact hstays id' (hC.swallowed id' hm)
    · obtain rfl := hsw id' hm
      rw [hcall, if_pos rfl]
      exact hdone hm

/-- A step of another function: no call moves, and each packet keeps its place or goes to the next. -/
theorem Custody.move (hC : Custody s h) (hcalls : s'.calls = s.calls) (hcap : s.captures ≤ s'.captures)
    (hins : ∀ id, insertions e id = 0) (hsw : ∀ id, .swallowed id ∉ e)
    (hm : ∀ id, s'.inQueue id + s'.inPacketsToInject id + s'.unfreed id + disposals e id =
      s.inQueue id + s.inPacketsToInject id + s.unfreed id)
    (hent : ∀ id, s'.inQueue id + s'.inPacketsToInject id + s'.unaccounted id + e.count (.freedEntry id) =
      s.inQueue id + s.inPacketsToInject id + s.unaccounted id)
    (honce : ∀ id, s'.inQueue id + s'.inPacketsToInject id + e.countP (SocketEvent.injects id) ≤
      s.inQueue id + s.inPacketsToInject id) : Custody s' (h ++ e) := by
  refine ⟨?_, ?_, ?_, ?_, ?_, ?_, ?_⟩
  · rw [hcalls]
    exact fun id hle => hC.fresh id (hcap.trans hle)
  · rw [hcalls]
    exact hC.captured
  · intro id
    rw [insertions_append, hins, hcalls]
    exact hC.inserted id
  · intro id
    have := hC.mbufs id
    have := hm id
    rw [insertions_append, hins, disposals_append]
    omega
  · intro id
    have := hC.entry id
    have := hent id
    rw [insertions_append, hins, List.count_append]
    omega
  · intro id
    have := hC.once id
    have := honce id
    rw [insertions_append, hins, List.countP_append]
    omega
  · intro id hmem
    rw [hcalls]
    exact hC.swallowed id ((List.mem_append.1 hmem).resolve_right (hsw id))

theorem Custody.stay (hC : Custody s h) (hcalls : s'.calls = s.calls) (hcap : s.captures ≤ s'.captures)
    (hq : pktIds s'.so.pendingQueue = pktIds s.so.pendingQueue) (hi : s'.injection = s.injection)
    (he : Silent e) (hsw : ∀ id, .swallowed id ∉ e) : Custody s' (h ++ e) := by
  refine hC.move hcalls hcap (fun id => (he id).2.1) hsw ?_ ?_ ?_
  · intro id
    simp only [SocketState.inQueue, SocketState.inPacketsToInject, SocketState.unfreed, hq, hi, (he id).1]
    rfl
  · intro id
    simp only [SocketState.inQueue, SocketState.inPacketsToInject, SocketState.unaccounted, hq, hi,
      (he id).2.2.2]
    rfl
  · intro id
    simp only [SocketState.inQueue, SocketState.inPacketsToInject, hq, hi, (he id).2.2.1]
    exact le_refl _

section Moves
variable {queue rest taken purged : List PendingPktQueueItem} {so : NkeSocketObject}
  {pkt : PendingPktQueueItem}
  {freeMbufs : Bool} {uninitialised result : Errno}

theorem pktIds_delivered (hd : List.Forall₂ (Delivered e) queue rest) : pktIds rest = pktIds queue := by
  induction hd with
  | nil => rfl
  | cons hpkt _ ih => exact congrArg₂ List.cons hpkt.id ih

theorem pktIds_latched {seen : List PendingPktQueueItem} (hl : List.Forall₂ Latched queue seen) :
    pktIds seen = pktIds queue := by
  induction hl with
  | nil => rfl
  | cons hpkt _ ih =>
    obtain ⟨b, rfl, -⟩ := hpkt
    exact congrArg (List.cons _) ih

theorem pktIds_property {property : NkeSocketDataProperty} {reached : Option PendingPktQueueItem}
    (hp : PropertyEnd property queue (rest, reached)) : pktIds rest = pktIds queue := by
  cases hp with
  | none => rfl
  | applied => simp [pktIds]

theorem count_collected (hc : CollectEnd queue (rest, taken)) (id : Nat) :
    (pktIds rest).count id + (pktIds taken).count id = (pktIds queue).count id := by
  obtain ⟨⟨seen, hseen, -, -, hperm⟩, -⟩ := hc
  have hcount := (hperm.map (·.id)).count_eq id
  rw [List.map_append, List.count_append] at hcount
  rw [← pktIds_latched hseen]
  exact (Nat.add_comm ..).trans hcount

theorem count_filtered (p : PendingPktQueueItem → Bool) (queue : List PendingPktQueueItem) (id : Nat) :
    (pktIds (queue.filter fun pkt => !p pkt)).count id + (pktIds (queue.filter p)).count id =
      (pktIds queue).count id := by
  have hperm := (List.filter_append_perm p queue).map (·.id)
  rw [pktIds, pktIds, pktIds, ← hperm.count_eq id, List.map_append, List.count_append]
  exact Nat.add_comm ..

/-- A purge frees the mbufs and the entry of each packet once and does nothing else to it. -/
theorem purge_counts (purged : List PendingPktQueueItem) (id : Nat) :
    disposals (purged.flatMap purgeEvents) id = (pktIds purged).count id ∧
      insertions (purged.flatMap purgeEvents) id = 0 ∧
      (purged.flatMap purgeEvents).countP (SocketEvent.injects id) = 0 ∧
      (purged.flatMap purgeEvents).count (.freedEntry id) = (pktIds purged).count id := by
  induction purged with
  | nil => exact ⟨rfl, rfl, rfl, rfl⟩
  | cons pkt rest ih =>
    obtain ⟨hd, hi, hj, he⟩ := ih
    obtain ⟨wd, wi, wj, we⟩ := silent_reports (satisfyWait_reports pkt) id
    rw [List.flatMap_cons, purgeEvents]
    refine ⟨?_, ?_, ?_, ?_⟩
    · rw [disposals_append, disposals_append, wd, hd]
      simp [disposals, pktIds, List.count_cons, SocketEvent.consumes, Nat.add_comm]
    · rw [insertions_append, insertions_append, wi, hi]
      simp [insertions]
    · rw [List.countP_append, List.countP_append, wj, hj]
      simp [SocketEvent.injects]
    · rw [List.count_append, List.count_append, we, he]
      simp [pktIds, List.count_cons, Nat.add_comm]

/-- After the injection of a packet either its mbufs were consumed or they are to be freed, whatever the
error variable held. -/
theorem inject_counts (hi : so.inject pkt uninitialised result = (freeMbufs, e)) (id : Nat) :
    disposals e id + (if freeMbufs ∧ pkt.id = id then 1 else 0) = (if pkt.id = id then 1 else 0) ∧
      insertions e id = 0 ∧ e.countP (SocketEvent.injects id) ≤ (if pkt.id = id then 1 else 0) ∧
      e.count (.freedEntry id) = 0 := by
  unfold inject at hi
  obtain ⟨rfl, rfl⟩ := Prod.mk.inj hi
  by_cases hskip : so.f_sock_evt_disconnecting || !pkt.allowData
  · simp [hskip, disposals, insertions]
  · by_cases hid : pkt.id = id
    · cases hin : pkt.dataInbound <;> by_cases hok : result = KERN_SUCCESS <;>
        simp [hskip, disposals, insertions, SocketEvent.injects, SocketEvent.consumes, hid, hok]
    · simp [hskip, disposals, insertions, SocketEvent.injects, SocketEvent.consumes, hid]

theorem queue_counts {so' : NkeSocketObject} {c c' : FltDataCall} (hq : QueueEnd so c (so', c', e))
    (id : Nat) :
    (pktIds so'.pendingQueue).count id =
        (pktIds so.pendingQueue).count id + (if c.pendingPkt.id = id then 1 else 0) ∧
      disposals e id = 0 ∧ insertions e id = (if c.pendingPkt.id = id then 1 else 0) ∧
      e.countP (SocketEvent.injects id) = 0 ∧ e.count (.freedEntry id) = 0 ∧ .swallowed id ∉ e := by
  have hcons : ∀ events, Silent events → .swallowed id ∉ events →
      disposals (.queued c.pendingPkt.id :: events) id = 0 ∧
        insertions (.queued c.pendingPkt.id :: events) id = (if c.pendingPkt.id = id then 1 else 0) ∧
        (SocketEvent.queued c.pendingPkt.id :: events).countP (SocketEvent.injects id) = 0 ∧
        (SocketEvent.queued c.pendingPkt.id :: events).count (.freedEntry id) = 0 ∧
        .swallowed id ∉ (SocketEvent.queued c.pendingPkt.id :: events) := by
    intro events hs hsw
    obtain ⟨hd, hi, hj, he⟩ := hs id
    rw [show SocketEvent.queued c.pendingPkt.id :: events = [.queued c.pendingPkt.id] ++ events from rfl]
    refine ⟨?_, ?_, ?_, ?_, by simpa using hsw⟩
    · rw [disposals_append, hd]
      simp [disposals, SocketEvent.consumes]
    · rw [insertions_append, hi]
      simp [insertions, List.count_singleton]
    · rw [List.countP_append, hj]
      simp [SocketEvent.injects]
    · rw [List.count_append, he]
      simp
  cases hq with
  | posted =>
    refine ⟨?_, hcons [] (fun _ => ⟨rfl, rfl, rfl, rfl⟩) (by simp)⟩
    simp [pktIds, List.count_singleton]
  | postponed _ hid _ _ _ _ _ hqueue _ _ _ hevents =>
    refine ⟨?_, hcons _ (silent_of_forall ?_) ?_⟩
    · rw [hqueue]
      simp [pktIds, List.count_singleton, hid]
    · intro x hx id
      rcases hevents x hx with rfl | rfl <;> simp [SocketEvent.injects, SocketEvent.consumes]
    · intro hm
      rcases hevents _ hm with h | h <;> cases h

end Moves

theorem Custody.queuePkt {so : NkeSocketObject} {c c' : FltDataCall} (hC : Custody s h)
    (hc : s.calls id = .copied c) (hq : QueueEnd s.so c (so, c', e)) :
    Custody { s.setCall id (.queued c') with so } (h ++ e) := by
  have hid : c.pendingPkt.id = id := hC.captured id c (.inr hc)
  have hcounts := queue_counts hq
  rw [hid] at hcounts
  have hcall : ∀ id', Function.update s.calls id (.queued c') id' =
      if id' = id then .queued c' else s.calls id' :=
    fun id' => Function.update_apply ..
  refine ⟨?_, ?_, ?_, ?_, ?_, ?_, ?_⟩
  · intro id' hle
    have hne : id' ≠ id := by
      rintro rfl
      rw [hC.fresh id' hle] at hc
      cases hc
    exact (Function.update_of_ne hne ..).trans (hC.fresh id' hle)
  · intro id' c₁ hc₁
    rcases s.setCall_inv id (.queued c') id' with ⟨-, hp⟩ | ⟨-, hp⟩
    · rcases hc₁ with hc₁ | hc₁ <;> cases hp.symm.trans hc₁
    · exact hC.captured id' c₁ (hc₁.imp hp.symm.trans hp.symm.trans)
  · intro id'
    rw [insertions_append, (hcounts id').2.2.1, hC.inserted id']
    by_cases hne : id = id'
    · subst hne
      simp [SocketState.setCall, hc, CallPhase.published]
    · simp [SocketState.setCall, Function.update_of_ne (Ne.symm hne), hne]
  · intro id'
    have := hC.mbufs id'
    obtain ⟨hin, hd, hi, -⟩ := hcounts id'
    simp only [SocketState.inQueue, SocketState.inPacketsToInject, SocketState.unfreed, SocketState.setCall,
      disposals_append, insertions_append] at this ⊢
    omega
  · intro id'
    have := hC.entry id'
    obtain ⟨hin, hd, hi, -, he, -⟩ := hcounts id'
    simp only [SocketState.inQueue, SocketState.inPacketsToInject, SocketState.unaccounted,
      SocketState.setCall,
      List.count_append, insertions_append] at this ⊢
    omega
  · intro id'
    have := hC.once id'
    obtain ⟨hin, hd, hi, hj, -⟩ := hcounts id'
    simp only [SocketState.inQueue, SocketState.inPacketsToInject, SocketState.setCall,
      List.countP_append, insertions_append] at this ⊢
    omega
  · intro id' hm
    have hm := (List.mem_append.1 hm).resolve_right (hcounts id').2.2.2.2.2
    have hne : id' ≠ id := by
      rintro rfl
      rw [hC.swallowed id' hm] at hc
      cases hc
    exact (Function.update_of_ne hne ..).trans (hC.swallowed id' hm)

theorem Custody.lt_captures (hC : Custody s h) (hc : s.calls id ≠ .idle) : id < s.captures := by
  by_contra hle
  exact hc (hC.fresh id (Nat.not_lt.1 hle))

theorem Custody.capture {so : NkeSocketObject} {pkt : PendingPktQueueItem} (hC : Custody s h)
    (hid : pkt.id = s.captures) (hq : so.pendingQueue = s.so.pendingQueue) :
    Custody { s.setCall s.captures (.captured (.captured so pkt)) with so, captures := s.captures + 1 }
      (h ++ []) := by
  have hnext : Custody { s with so, captures := s.captures + 1 } (h ++ []) :=
    hC.stay rfl (Nat.le_succ _) (congrArg pktIds hq) rfl (silent_reports (by simp)) (by simp)
  have hidle : s.calls s.captures = .idle := hC.fresh _ (le_refl _)
  rw [← List.append_nil (h ++ [])]
  show Custody (SocketState.setCall { s with so, captures := s.captures + 1 } s.captures _) _
  refine hnext.call (silent_reports (by simp)) ?_ ?_ (.inr (Nat.lt_succ_self _))
    (by simp) ?_ (by simp)
  · intro c hc
    rcases hc with hc | hc <;> cases hc
    exact hid
  · exact (congrArg CallPhase.published hidle).symm
  · intro hr
    exact absurd (hidle.symm.trans hr) (by simp)

theorem Custody.collect {rest taken : List PendingPktQueueItem} (hC : Custody s h) (hnone : s.injection = none)
    (hc : CollectEnd s.so.pendingQueue (rest, taken)) :
    Custody { s with
      so := s.so.withQueue rest s.so.packetsWaitingForReporting
      injection := some ⟨taken, none⟩ } (h ++ taken.map fun pkt => .taken pkt.id) := by
  refine hC.move rfl (le_refl _) (fun id => (silent_taken _ id).2.1) (by simp) ?_ ?_ ?_
  · intro id
    have := count_collected hc id
    simp [SocketState.inQueue, SocketState.inPacketsToInject, SocketState.unfreed, hnone,
      (silent_taken _ id).1, NkeSocketObject.withQueue, this]
  · intro id
    have := count_collected hc id
    simp [SocketState.inQueue, SocketState.inPacketsToInject, SocketState.unaccounted, hnone,
      (silent_taken _ id).2.2.2, NkeSocketObject.withQueue, this]
  · intro id
    have := count_collected hc id
    simp [SocketState.inQueue, SocketState.inPacketsToInject, hnone, (silent_taken _ id).2.2.1,
      NkeSocketObject.withQueue, this]

theorem Custody.inject {uninitialised result : Errno} {pkt : PendingPktQueueItem}
    {rest : List PendingPktQueueItem} {freeMbufs : Bool} (hC : Custody s h)
    (hinj : s.injection = some ⟨pkt :: rest, none⟩)
    (hi : s.so.inject pkt uninitialised result = (freeMbufs, e)) :
    Custody { s with injection := some ⟨rest, some (if freeMbufs then .toFree pkt else .toAccount pkt)⟩ }
      (h ++ e) := by
  have hcounts := inject_counts hi
  have hno : ∀ id, .swallowed id ∉ e := by
    obtain ⟨-, rfl⟩ := Prod.mk.inj hi
    intro id hm
    split at hm <;> simp at hm
  have hcons : ∀ id, (pktIds (pkt :: rest)).count id = (pktIds rest).count id +
    if pkt.id = id then 1 else 0 :=
    fun id => by simp [pktIds, List.count_cons]
  refine hC.move rfl (le_refl _) (fun id => (hcounts id).2.1) hno ?_ ?_ ?_
  · intro id
    obtain ⟨hd, -⟩ := hcounts id
    cases freeMbufs <;>
      simp [SocketState.inQueue, SocketState.inPacketsToInject, SocketState.unfreed, hinj,
        hcons] at hd ⊢ <;>
      omega
  · intro id
    obtain ⟨-, -, -, he⟩ := hcounts id
    cases freeMbufs <;>
      simp [SocketState.inQueue, SocketState.inPacketsToInject, SocketState.unaccounted, hinj, hcons,
        he] <;>
      omega
  · intro id
    obtain ⟨-, -, hj, -⟩ := hcounts id
    simp only [SocketState.inQueue, SocketState.inPacketsToInject, hinj, Option.map_some,
      Option.getD_some, hcons]
    omega

theorem Custody.purge {purgeType : NkeSocketDataDirectionType} {so : NkeSocketObject}
    {purged : List PendingPktQueueItem} (hC : Custody s h) (hnone : s.injection = none)
    (hpurged : purged = s.so.pendingQueue.filter fun pkt => purgeType.covers pkt.dataInbound)
    (hq : so.pendingQueue = s.so.pendingQueue.filter fun pkt => !purgeType.covers pkt.dataInbound) :
    Custody { s with so, waitSatisfied := s.woken (purged.flatMap purgeEvents) }
      (h ++ purged.flatMap purgeEvents) := by
  have hcount := count_filtered (fun pkt => purgeType.covers pkt.dataInbound) s.so.pendingQueue
  rw [← hq, ← hpurged] at hcount
  have hpurge := purge_counts purged
  refine hC.move rfl (le_refl _) (fun id => (hpurge id).2.1) ?_ ?_ ?_ ?_
  · intro id hm
    rcases purgeEvents_inv hm with ⟨w, h⟩ | ⟨pkt, -, h | h⟩
    all_goals cases h
  · intro id
    have := hcount id
    obtain ⟨hd, -⟩ := hpurge id
    simp only [SocketState.inQueue, SocketState.inPacketsToInject, SocketState.unfreed, hnone]
    simp
    omega
  · intro id
    have := hcount id
    obtain ⟨-, -, -, he⟩ := hpurge id
    simp only [SocketState.inQueue, SocketState.inPacketsToInject, SocketState.unaccounted, hnone]
    simp
    omega
  · intro id
    have := hcount id
    obtain ⟨-, -, hj, -⟩ := hpurge id
    simp only [SocketState.inQueue, SocketState.inPacketsToInject, hnone]
    simp
    omega

theorem Custody.step (hC : Custody s h) (hs : socketMachine.step s a = some (s', e)) :
    Custody s' (h ++ e) := by
  cases SocketState.step_inv hs with
  | quiet hsame =>
    exact hC.stay rfl (le_refl _) (congrArg pktIds hsame.queue) rfl (silent_reports (by simp)) (by simp)
  | capture hid _ _ _ _ hq => exact hC.capture hid hq
  | @copy id error buffers c hc =>
    refine hC.call (silent_reports (by simp)) ?_ ?_ (.inr (hC.lt_captures (by simp [hc])))
      (by simp) (by simp [hc]) (by simp)
    · intro c' hc'
      rcases hc' with hc' | hc' <;> cases hc'
      have := hC.captured id c (.inl hc)
      split
      · exact this
      · unfold FltDataCall.copied
        split <;> exact this
    · rw [hc]
      rfl
  | queue hc hq => exact hC.queuePkt hc hq
  | @send id client c hc =>
    have hevents : ∀ x ∈
      (if (c.sent client).error = KERN_SUCCESS then [SocketEvent.notified id c.notification]
        else []), x.isReport := by
      split <;> simp [SocketEvent.isReport]
    refine hC.call (silent_reports hevents) (by simp) ?_ (.inr (hC.lt_captures (by simp [hc])))
      (fun id' hm => by cases hevents _ hm) (by simp [hc]) (fun hm => by cases hevents _ hm)
    rw [hc]
    rfl
  | @noSend id client c hc =>
    refine hC.call (silent_reports (by simp)) (by simp) ?_ (.inr (hC.lt_captures (by simp [hc]))) (by simp)
      (by simp [hc]) (by simp)
    rw [hc]
    rfl
  | @finish id c hc =>
    refine hC.call (silent_of_forall ?_) (by simp) ?_ (.inr (hC.lt_captures (by simp [hc])))
      (by simp) (by simp) (by simp)
    · intro x hx id
      obtain rfl := List.mem_singleton.1 hx
      simp [SocketEvent.injects, SocketEvent.consumes]
    · rw [hc]
      rfl
  | deliver hd =>
    exact hC.stay rfl (le_refl _) (pktIds_delivered hd.pkts) rfl (silent_reports hd.reports)
      fun id hm => by cases hd.reports _ hm
  | property hp =>
    refine hC.stay rfl (le_refl _) (pktIds_property hp) rfl (silent_of_forall ?_) (by simp)
    intro x hx id
    obtain rfl := List.mem_singleton.1 hx
    simp [SocketEvent.injects, SocketEvent.consumes]
  | collect hnone hc => exact hC.collect hnone hc
  | inject hinj hi => exact hC.inject hinj hi
  | @freeMbufs pkt rest hinj =>
    refine hC.move rfl (le_refl _) (by simp [insertions]) (by simp) ?_ ?_ ?_
    · intro id
      simp [SocketState.inQueue, SocketState.inPacketsToInject, SocketState.unfreed, hinj, disposals,
        List.count_singleton, SocketEvent.consumes]
    · intro id
      simp [SocketState.inQueue, SocketState.inPacketsToInject, SocketState.unaccounted, hinj]
    · intro id
      simp [SocketState.inQueue, SocketState.inPacketsToInject, hinj, SocketEvent.injects]
  | @account pkt rest so hinj hsame =>
    refine hC.move rfl (le_refl _) (by simp [insertions]) (by simp) ?_ ?_ ?_
    · intro id
      simp [SocketState.inQueue, SocketState.inPacketsToInject, SocketState.unfreed, hinj, disposals,
        SocketEvent.consumes, hsame.queue]
    · intro id
      simp [SocketState.inQueue, SocketState.inPacketsToInject, SocketState.unaccounted, hinj, hsame.queue,
        List.count_singleton]
    · intro id
      simp [SocketState.inQueue, SocketState.inPacketsToInject, hinj, hsame.queue, SocketEvent.injects]
  | unlock hinj =>
    refine hC.move rfl (le_refl _) (by simp) (by simp) ?_ ?_ ?_
    · intro id
      simp [SocketState.inQueue, SocketState.inPacketsToInject, SocketState.unfreed, hinj, pktIds]
    · intro id
      simp [SocketState.inQueue, SocketState.inPacketsToInject, SocketState.unaccounted, hinj, pktIds]
    · intro id
      simp [SocketState.inQueue, SocketState.inPacketsToInject, hinj, pktIds]
  | purge hnone hpurged hq => exact hC.purge hnone hpurged hq

theorem custody_of_run {socketId : NkeSocketID} {size : Nat} {as : List SocketLabel}
    (hr : socketMachine.run (SocketState.start socketId size) as = some (s, h)) : Custody s h :=
  Machine.run_induction Custody [] custody_start (fun _ _ _ _ _ hC _ hs => hC.step hs) Machine.along_true hr

/-! ### The result -/

/-- Where the mbufs of a published packet are, and what became of them. With the thread that reinjects are
the packets of `packetsToInject` and the one it took out of it and has still to free. -/
structure DisposedOnce (s : SocketState) (h : List SocketEvent) (id : Nat) : Prop where
  /-- in the queue, with the thread that reinjects, or disposed of -/
  place : s.inQueue id + (s.inPacketsToInject id + s.unfreed id) + disposals h id = 1
  /-- the injection function is called at most once -/
  injectedOnce : h.countP (SocketEvent.injects id) ≤ 1
  /-- the entry is freed at most once, and then the mbufs are gone -/
  freedOnce : h.count (.freedEntry id) ≤ 1
  notLeaked : .freedEntry id ∈ h → disposals h id = 1

theorem Custody.disposedOnce (hC : Custody s h) (hq : .queued id ∈ h) : DisposedOnce s h id := by
  have hins : insertions h id = 1 := by
    have := insertions_pos.2 hq
    rw [hC.inserted id] at this ⊢
    split at this
    · rename_i hp
      rw [if_pos hp]
    · omega
  have hm := hC.mbufs id
  have he := hC.entry id
  have ho := hC.once id
  refine ⟨by omega, by omega, by omega, ?_⟩
  intro hf
  have hpos : 0 < h.count (.freedEntry id) := List.count_pos_iff.2 hf
  -- a packet whose entry is gone is not the one whose mbufs are still to be freed
  have hle : s.unfreed id ≤ s.unaccounted id := by
    unfold SocketState.unfreed SocketState.unaccounted
    rcases s.injection with _ | ⟨_, _ | _ | _⟩ <;> simp
  omega

/-- After every run: a swallowed packet was published, and every published packet is in exactly one place
and disposed of once. -/
theorem swallowed_disposedOnce {socketId : NkeSocketID} {size : Nat} {as : List SocketLabel}
    (hr : socketMachine.run (SocketState.start socketId size) as = some (s, h)) :
    (.swallowed id ∈ h → .queued id ∈ h) ∧ (.queued id ∈ h → DisposedOnce s h id) := by
  have hC := custody_of_run hr
  refine ⟨fun hsw => insertions_pos.1 ?_, hC.disposedOnce⟩
  rw [hC.inserted id, hC.swallowed id hsw]
  exact Nat.one_pos

/-- One inbound packet of one byte, allowed by the client; its injection fails. -/
def failedInjection : List SocketLabel :=
  [.capture [⟨[7], some ⟨1, none, []⟩, none⟩] [] 0 true true 0, .copy 0 KERN_SUCCESS [0], .queue 0,
    .send 0 (some KERN_SUCCESS), .finish 0,
    .property ⟨.NkeSocketDataPropertyTypePermission, 0, ⟨1, 1⟩, 1⟩, .collect .NkeSocketDataAll (fun _ => 0),
    .inject 0 55, .freeMbufs, .account]

theorem failedInjection_disposedOnce :
    ∃ s h, socketMachine.run (SocketState.start ⟨1, 1⟩ 65536) failedInjection = some (s, h) ∧
      .swallowed 0 ∈ h ∧ .freedMbufs 0 ∈ h ∧ DisposedOnce s h 0 := by
  obtain ⟨s, h, hr, hsw, hfreed⟩ : ∃ s h, socketMachine.run (SocketState.start ⟨1, 1⟩ 65536) failedInjection =
      some (s, h) ∧ .swallowed 0 ∈ h ∧ .freedMbufs 0 ∈ h := ⟨_, _, rfl, by decide, by decide⟩
  obtain ⟨hqueued, hdisposed⟩ := swallowed_disposedOnce hr
  exact ⟨s, h, hr, hsw, hfreed, hdisposed (hqueued hsw)⟩

end NkeFilter
