import NkeFilter.Disposition

/-!
# What the client was told

Over any run of the machine of one socket whose direct notifications arrive: every packet of the pending
queue that is not marked as waiting for its report, and whose deadline was not found expired, has been
reported to the client, or its `FltData` call is about to do it. A direct notification that fails leaves
its packet unmarked and unreported.
-/

namespace NkeFilter
open Lib NkeSocketObject

/-- The packet was reported under its index, or its call is about to report it. -/
def Told (s : SocketState) (h : List SocketEvent) (pkt : PendingPktQueueItem) : Prop :=
  (∃ n, .notified pkt.id n ∈ h ∧ n.dataIndex = pkt.dataIndex) ∨
    ∃ c, s.calls pkt.id = .queued c ∧ c.sendNotification ∧ c.notification.dataIndex = pkt.dataIndex

structure CallReady (c : FltDataCall) : Prop where
  data : c.pendingPkt.data ≠ []
  dataIndex : c.notification.dataIndex = c.pendingPkt.dataIndex
  send : c.error = KERN_SUCCESS → c.sendNotification

/-- Every packet of the queue that is neither marked nor found expired is told; the rest keeps it so. -/
structure Reporting (s : SocketState) (h : List SocketEvent) : Prop where
  data : ∀ pkt ∈ s.so.pendingQueue, pkt.data ≠ []
  captured : ∀ id c, s.calls id = .captured c → c.error = KERN_SUCCESS
  ready : ∀ id c, s.calls id = .captured c ∨ s.calls id = .copied c → CallReady c
  told : ∀ pkt ∈ s.so.pendingQueue, pkt.needToBeReported = false → pkt.deadlineTimerExpired = false →
    Told s h pkt

/-- A notification `FltData` sends itself arrives, or its packet is no longer in the queue. -/
def NotificationArrives (s : SocketState) : SocketLabel → Prop
  | .send id client => client = some KERN_SUCCESS ∨ id ∉ pktIds s.so.pendingQueue ∨
      ∀ c, s.calls id = .queued c → c.sendNotification = false
  | _ => True

def AtRest (s : SocketState) : Prop := ∀ id, s.calls id = .idle ∨ s.calls id = .returned

variable {s s' : SocketState} {a : SocketLabel} {h e : List SocketEvent} {pkt pkt' : PendingPktQueueItem}
  {id : Nat}

theorem Told.mono (ht : Told s h pkt) (hcalls : s'.calls = s.calls) (hid : pkt'.id = pkt.id)
    (hi : pkt'.dataIndex = pkt.dataIndex) : Told s' (h ++ e) pkt' := by
  unfold Told
  rw [hid, hi, hcalls]
  exact ht.imp (fun ⟨n, hn, hni⟩ => ⟨n, List.mem_append_left _ hn, hni⟩) fun h => h

theorem reporting_start {socketId : NkeSocketID} {size : Nat} :
    Reporting (SocketState.start socketId size) [] := by
  refine ⟨fun _ h => (by cases h), fun id c hc => (by cases hc), ?_, fun _ h => (by cases h)⟩
  intro id c hc
  rcases hc with hc | hc <;> cases hc

theorem Reporting.requeue (hR : Reporting s h) (hcalls : s'.calls = s.calls)
    (hq : ∀ pkt' ∈ s'.so.pendingQueue, ∃ pkt ∈ s.so.pendingQueue, pkt'.id = pkt.id ∧
      pkt'.dataIndex = pkt.dataIndex ∧ pkt'.data = pkt.data ∧
      (pkt'.needToBeReported = false → pkt'.deadlineTimerExpired = false →
        (pkt.needToBeReported = false ∧ pkt.deadlineTimerExpired = false) ∨ Told s' (h ++ e) pkt')) :
    Reporting s' (h ++ e) := by
  refine ⟨?_, hcalls ▸ hR.captured, hcalls ▸ hR.ready, ?_⟩
  · intro pkt' hp
    obtain ⟨pkt, hp, -, -, hd, -⟩ := hq pkt' hp
    exact hd ▸ hR.data pkt hp
  · intro pkt' hp hn hl
    obtain ⟨pkt, hp, hid, hi, -, hor⟩ := hq pkt' hp
    rcases hor hn hl with ⟨hn, hl⟩ | ht
    · exact (hR.told pkt hp hn hl).mono hcalls hid hi
    · exact ht

theorem Reporting.sublist (hR : Reporting s h) (hcalls : s'.calls = s.calls)
    (hq : s'.so.pendingQueue ⊆ s.so.pendingQueue) : Reporting s' (h ++ e) :=
  hR.requeue hcalls fun pkt hp => ⟨pkt, hq hp, rfl, rfl, rfl, fun hn hl => .inl ⟨hn, hl⟩⟩

/-- A step of the call of `id` outside the lock. The packet it may have been about to report is told. -/
theorem Reporting.call {phase : CallPhase} (hR : Reporting s h)
    (hcaptured : ∀ c, phase = .captured c → c.error = KERN_SUCCESS)
    (hready : ∀ c, phase = .captured c ∨ phase = .copied c → CallReady c)
    (hsent : ∀ c, s.calls id = .queued c → c.sendNotification → id ∈ pktIds s.so.pendingQueue →
      .notified id c.notification ∈ e) : Reporting (s.setCall id phase) (h ++ e) := by
  refine ⟨hR.data, ?_, ?_, ?_⟩
  · intro id' c hc
    rcases s.setCall_inv id phase id' with ⟨-, hp⟩ | ⟨-, hp⟩
    · exact hcaptured c (hp ▸ hc)
    · exact hR.captured id' c (hp ▸ hc)
  · intro id' c hc
    rcases s.setCall_inv id phase id' with ⟨-, hp⟩ | ⟨-, hp⟩
    · exact hready c (hp ▸ hc)
    · exact hR.ready id' c (hp ▸ hc)
  · intro pkt hp hn hl
    rcases hR.told pkt hp hn hl with ⟨n, hn, hi⟩ | ⟨c, hc, hsend, hi⟩
    · exact .inl ⟨n, List.mem_append_left _ hn, hi⟩
    · by_cases hid : pkt.id = id
      · refine .inl ⟨c.notification, List.mem_append_right _ ?_, hi⟩
        rw [hid] at hc ⊢
        exact hsent c hc hsend (List.mem_map.2 ⟨pkt, hp, hid⟩)
      · exact .inr ⟨c, (Function.update_of_ne hid ..).trans hc, hsend, hi⟩

theorem Reporting.queuePkt {so : NkeSocketObject} {c c' : FltDataCall} (hR : Reporting s h)
    (hc : s.calls id = .copied c) (hid : c.pendingPkt.id = id) (hq : QueueEnd s.so c (so, c', e)) :
    Reporting { s.setCall id (.queued c') with so } (h ++ e) := by
  have hready := hR.ready id c (.inr hc)
  have hcalls : Reporting (s.setCall id (.queued c')) (h ++ e) := hR.call (by simp) (by simp) (by simp [hc])
  have hlast : ∀ pkt, so.pendingQueue = s.so.pendingQueue ++ [pkt] → pkt.data = c.pendingPkt.data →
      (pkt.needToBeReported = false → Told { s.setCall id (.queued c') with so } (h ++ e) pkt) →
      Reporting { s.setCall id (.queued c') with so } (h ++ e) := by
    intro pkt hqueue hdata htold
    refine ⟨?_, hcalls.captured, hcalls.ready, ?_⟩
    · intro pkt' hp
      rcases List.mem_append.1 (hqueue ▸ hp : pkt' ∈ s.so.pendingQueue ++ [pkt]) with hp | hp
      · exact hR.data pkt' hp
      · obtain rfl := List.mem_singleton.1 hp
        exact hdata ▸ hready.data
    · intro pkt' hp hn hl
      rcases List.mem_append.1 (hqueue ▸ hp : pkt' ∈ s.so.pendingQueue ++ [pkt]) with hp | hp
      · exact hcalls.told pkt' hp hn hl
      · obtain rfl := List.mem_singleton.1 hp
        exact htold hn
  cases hq with
  | posted hok =>
    refine hlast c.pendingPkt rfl rfl fun _ => .inr ⟨c, ?_, hready.send hok, hready.dataIndex⟩
    rw [hid]
    exact Function.update_self ..
  | postponed _ _ _ hdata _ hneed _ hqueue =>
    exact hlast c'.pendingPkt hqueue hdata fun hn => absurd hneed (by simp [hn])

theorem Delivered.told {events : List SocketEvent} (hd : Delivered events pkt pkt') (hdata : pkt.data ≠ []) :
    pkt'.id = pkt.id ∧ pkt'.dataIndex = pkt.dataIndex ∧ pkt'.data = pkt.data ∧
      (pkt'.needToBeReported = false → pkt'.deadlineTimerExpired = false →
        (pkt.needToBeReported = false ∧ pkt.deadlineTimerExpired = false) ∨
          ∃ n, .notified pkt.id n ∈ events ∧ n.dataIndex = pkt.dataIndex) := by
  cases hd with
  | same => exact ⟨rfl, rfl, rfl, fun hn hl => .inl ⟨hn, hl⟩⟩
  | reported _ hmem hi => exact ⟨rfl, rfl, rfl, fun _ _ => .inr ⟨_, hmem, hi⟩⟩
  | expired => exact ⟨rfl, rfl, rfl, fun _ hl => by cases hl⟩
  | noData _ hd => exact absurd hd hdata

theorem Reporting.step (hR : Reporting s h) (hC : Custody s h) (ha : NotificationArrives s a)
    (hs : socketMachine.step s a = some (s', e)) : Reporting s' (h ++ e) := by
  cases SocketState.step_inv hs with
  | quiet hsame => exact hR.sublist rfl (by rw [hsame.queue]; exact fun _ h => h)
  | @capture _ so pkt _ _ hdata _ _ hq =>
    have hnext : Reporting { s with so, captures := s.captures + 1 } (h ++ []) :=
      hR.sublist rfl (by rw [hq]; exact fun _ h => h)
    rw [← List.append_nil (h ++ [])]
    show Reporting (SocketState.setCall { s with so, captures := s.captures + 1 } s.captures _) _
    refine hnext.call ?_ ?_ ?_
    · intro c hc
      cases hc
      rfl
    · intro c hc
      rcases hc with hc | hc <;> cases hc
      exact ⟨hdata, rfl, fun _ => rfl⟩
    · intro c hc
      rw [hC.fresh _ (le_refl _)] at hc
      cases hc
  | @copy id error buffers c hc =>
    have hready := hR.ready id c (.inl hc)
    refine hR.call (by simp) ?_ (by simp [hc])
    intro c' hc'
    rcases hc' with hc' | hc' <;> cases hc'
    rw [if_neg hready.data]
    unfold FltDataCall.copied
    split
    · rename_i herr
      exact ⟨hready.data, hready.dataIndex, fun hok => absurd hok herr⟩
    · exact ⟨hready.data, hready.dataIndex, fun _ => hready.send (hR.captured id c hc)⟩
  | @queue id c so c' _ hc hq => exact hR.queuePkt hc (hC.captured id c (.inr hc)) hq
  | @send id client c hc hsend =>
    refine hR.call (by simp) (by simp) ?_
    intro c' hc' _ hmem
    obtain rfl := CallPhase.queued.inj (hc.symm.trans hc')
    rcases ha with rfl | hout | hquiet
    · simp [FltDataCall.sent]
    · exact absurd hmem hout
    · rw [hquiet c hc] at hsend
      cases hsend
  | @noSend id client c hc hsend =>
    refine hR.call (by simp) (by simp) ?_
    intro c' hc' hsend' _
    obtain rfl := CallPhase.queued.inj (hc.symm.trans hc')
    rw [hsend] at hsend'
    cases hsend'
  | @finish id c hc => exact hR.call (by simp) (by simp) (by simp [hc])
  | deliver hd =>
    refine hR.requeue rfl ?_
    intro pkt' hp
    obtain ⟨pkt, hp, hdel⟩ := exists_partner hd.pkts hp
    obtain ⟨hid, hi, hdata, htold⟩ := hdel.told (hR.data pkt hp)
    refine ⟨pkt, hp, hid, hi, hdata, fun hn hl => (htold hn hl).imp id ?_⟩
    rintro ⟨n, hmem, hni⟩
    exact .inl ⟨n, List.mem_append_right _ (hid ▸ hmem), hni.trans hi.symm⟩
  | @property property queue reached hp =>
    refine hR.requeue rfl ?_
    intro pkt' hp'
    obtain ⟨pkt, hmem, rfl | hset⟩ := hp.mem hp'
    · exact ⟨_, hmem, rfl, rfl, rfl, fun hn hl => .inl ⟨hn, hl⟩⟩
    · obtain ⟨_, _, heq⟩ := setProperty_eq pkt property
      obtain rfl := hset.trans heq
      exact ⟨pkt, hmem, rfl, rfl, rfl, fun hn hl => .inl ⟨hn, hl⟩⟩
  | @collect injectType clock rest taken _ hc =>
    obtain ⟨⟨seen, hseen, hrest, -⟩, -⟩ := hc
    refine hR.requeue rfl ?_
    intro pkt' hp
    obtain ⟨pkt, hmem, b, rfl, hlatch⟩ := exists_partner hseen (hrest.subset hp)
    refine ⟨pkt, hmem, rfl, rfl, rfl, fun hn hl => .inl ⟨hn, ?_⟩⟩
    by_contra hne
    have := hlatch (by simpa using hne)
    simp_all
  | inject => exact hR.sublist rfl fun _ h => h
  | freeMbufs => exact hR.sublist rfl fun _ h => h
  | account _ hsame => exact hR.sublist rfl (by rw [hsame.queue]; exact fun _ h => h)
  | unlock => exact hR.sublist rfl fun _ h => h
  | purge _ _ hq => exact hR.sublist rfl (by rw [hq]; exact fun _ h => List.mem_of_mem_filter h)

theorem reporting_of_run {socketId : NkeSocketID} {size : Nat} {as : List SocketLabel}
    (hC : socketMachine.Along NotificationArrives (SocketState.start socketId size) as)
    (hr : socketMachine.run (SocketState.start socketId size) as = some (s, h)) : Reporting s h :=
  (Machine.run_induction (fun s h => Custody s h ∧ Reporting s h) [] ⟨custody_start, reporting_start⟩
    (fun _ _ _ _ _ hI ha hs => ⟨hI.1.step hs, hI.2.step hI.1 ha hs⟩) hC hr).2

/-- The packets of the queue that are neither marked nor found expired were reported under their index. -/
def NoneUnreported (s : SocketState) (h : List SocketEvent) : Prop :=
  ∀ pkt ∈ s.so.pendingQueue, pkt.needToBeReported = false → pkt.deadlineTimerExpired = false →
    ∃ n, .notified pkt.id n ∈ h ∧ n.dataIndex = pkt.dataIndex

/-- In a run whose direct notifications arrive no packet is left unreported when no call of `FltData` is in
progress. -/
theorem noneUnreported_of_arrives {socketId : NkeSocketID} {size : Nat} {as : List SocketLabel}
    (hC : socketMachine.Along NotificationArrives (SocketState.start socketId size) as)
    (hr : socketMachine.run (SocketState.start socketId size) as = some (s, h)) (hrest : AtRest s) :
    NoneUnreported s h := by
  intro pkt hp hn hl
  rcases (reporting_of_run hC hr).told pkt hp hn hl with ht | ⟨c, hc, -⟩
  · exact ht
  · rcases hrest pkt.id with hi | hi
    · rw [hi] at hc
      cases hc
    · rw [hi] at hc
      cases hc

/-- One inbound packet of one byte, whose notification gets `client` for an answer. -/
def reportOnce (client : Option Errno) : List SocketLabel :=
  [.capture [⟨[7], some ⟨1, none, []⟩, none⟩] [] 0 true true 0, .copy 0 KERN_SUCCESS [0], .queue 0,
    .send 0 client, .finish 0]

theorem Custody.atRest_one (hC : Custody s h) (hone : s.captures = 1) (hret : s.calls 0 = .returned) :
    AtRest s := by
  intro id
  rcases Nat.eq_zero_or_pos id with rfl | hpos
  · exact .inr hret
  · exact .inl (hC.fresh id (hone ▸ hpos))

theorem reportOnce_arrives :
    socketMachine.Along NotificationArrives (SocketState.start ⟨1, 1⟩ 65536)
      (reportOnce (some KERN_SUCCESS)) := by
  refine Machine.along_of_forall ?_
  intro a ha s
  simp only [reportOnce, List.mem_cons, List.not_mem_nil, or_false] at ha
  rcases ha with rfl | rfl | rfl | rfl | rfl
  · trivial
  · trivial
  · trivial
  · exact .inl rfl
  · trivial

theorem reportOnce_noneUnreported :
    ∃ s h, socketMachine.run (SocketState.start ⟨1, 1⟩ 65536) (reportOnce (some KERN_SUCCESS)) = some (s, h) ∧
      s.so.pendingQueue.length = 1 ∧ NoneUnreported s h := by
  obtain ⟨s, h, hr, hone, hret, hlen⟩ : ∃ s h, socketMachine.run (SocketState.start ⟨1, 1⟩ 65536)
      (reportOnce (some KERN_SUCCESS)) = some (s, h) ∧ s.captures = 1 ∧ s.calls 0 = .returned ∧
        s.so.pendingQueue.length = 1 := ⟨_, _, rfl, rfl, rfl, rfl⟩
  exact ⟨s, h, hr, hlen,
    noneUnreported_of_arrives reportOnce_arrives hr ((custody_of_run hr).atRest_one hone hret)⟩

/-- Without a client the packet stays in the queue, neither marked nor reported. -/
theorem reportOnce_unreported :
    ¬ ∀ as s h, socketMachine.run (SocketState.start ⟨1, 1⟩ 65536) as = some (s, h) →
    AtRest s → NoneUnreported s h := by
  intro hall
  obtain ⟨s, h, hr, hone, hret, hh, pkt, hp, hn, hl⟩ :
    ∃ s h, socketMachine.run (SocketState.start ⟨1, 1⟩ 65536)
      (reportOnce none) = some (s, h) ∧ s.captures = 1 ∧ s.calls 0 = .returned ∧
        h = [.queued 0, .swallowed 0] ∧
        ∃ pkt ∈ s.so.pendingQueue, pkt.needToBeReported = false ∧ pkt.deadlineTimerExpired = false :=
    ⟨_, _, rfl, rfl, rfl, rfl, _, List.mem_singleton.2 rfl, rfl, rfl⟩
  obtain ⟨n, hmem, -⟩ := hall _ s h hr ((custody_of_run hr).atRest_one hone hret) pkt hp hn hl
  simp [hh] at hmem

end NkeFilter
