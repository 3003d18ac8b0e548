import NkeFilter.Reinjection
import NkeFilter.Reported
import NkeFilter.ServiceTransparency
import NkeFilter.ServiceUnanswered

/-!
# No packet is forgotten

A packet that is in a pending queue, was reported and is not decided about is on somebody's mind: its call of
`FltData` is about to send the notification, the notification is in the ring or with the client, or a thread
has the answer left to process (`Awaited`). So once all that is done one call of `reinjectDeferredData` empties the
queue, whatever the injections return (`nothing_stuck`).
-/

namespace NkeFilter
open Lib NkeSocketObject

/-- It was reported, no answer arrived, and its deadline was not found expired. -/
structure Undecided (pkt : PendingPktQueueItem) : Prop where
  reported : pkt.needToBeReported = false
  unanswered : pkt.responseReceived = false
  inTime : pkt.deadlineTimerExpired = false

variable {t t' : SocketState} {label : SocketLabel} {g events : List SocketEvent}
  {pkt pkt' : PendingPktQueueItem} {queue rest : List PendingPktQueueItem} {c : FltDataCall} {id : Nat}

/-! ### The queue of one socket -/

/-- A property decides about the packet it names. -/
theorem PropertyEnd.decides {property : NkeSocketDataProperty} {reached : Option PendingPktQueueItem}
    (hp : PropertyEnd property queue (rest, reached)) (htype : property.type = .NkeSocketDataPropertyTypePermission)
    (hsuffix : ReportSuffix queue) (hnd : (pktIds queue).Nodup)
    (hindex : ∀ pkt pkt', pkt ∈ queue → pkt' ∈ queue → pkt.id ≠ pkt'.id → pkt.dataIndex ≠ pkt'.dataIndex)
    (hmem : pkt' ∈ rest) (hi : pkt'.dataIndex = property.dataIndex) : ¬ Undecided pkt' := by
  intro hu
  cases hp with
  | none hnone => exact hnone hsuffix pkt' hmem hu.reported hi
  | @applied pre post pkt _ hpkt =>
    have hother : pkt' ∈ pre ++ post → False := by
      intro hp
      have hin : pkt' ∈ pre ++ pkt :: post := by
        simp only [List.mem_append, List.mem_cons] at hp ⊢
        tauto
      rw [pktIds, List.map_append, List.map_cons, List.nodup_middle, ← List.map_append] at hnd
      have hne : pkt'.id ≠ pkt.id := by
        intro heq
        exact (List.nodup_cons.1 hnd).1 (heq ▸ List.mem_map_of_mem hp)
      exact hindex pkt' pkt hin (by simp) hne (hi.trans hpkt.symm)
    rcases List.mem_append.1 hmem with hp | hp
    · exact hother (List.mem_append_left _ hp)
    · rcases List.mem_cons.1 hp with rfl | hp
      · have := hu.unanswered
        simp [setProperty, htype] at this
      · exact hother (List.mem_append_right _ hp)

theorem decided_of_property {property : NkeSocketDataProperty} (hC : Custody t g) (hQ : QueueShape t)
    (hsuffix : ReportSuffix t.so.pendingQueue) (hlt : t.captures < 2 ^ 32) (hs : socketMachine.step t (.property property) = some (t', events))
    (htype : property.type = .NkeSocketDataPropertyTypePermission) (hp : pkt' ∈ t'.so.pendingQueue)
    (hi : pkt'.dataIndex = property.dataIndex) : ¬ Undecided pkt' := by
  obtain ⟨rfl, -⟩ := Prod.mk.inj (Option.some.inj hs)
  have hend : PropertyEnd property t.so.pendingQueue (propertyLoop property t.so.pendingQueue) :=
    propertyLoop_spec property
  exact PropertyEnd.decides hend htype hsuffix hC.nodup (hQ.index_ne hC hlt) hp hi

/-- A packet that is undecided was so before, or it was reported just now. -/
theorem undecided_inv (hR : Reporting t g) (hC : Custody t g)
    (hs : socketMachine.step t label = some (t', events)) (hp : pkt' ∈ t'.so.pendingQueue)
    (hu : Undecided pkt') :
    (∃ pkt ∈ t.so.pendingQueue, Undecided pkt ∧ pkt'.id = pkt.id ∧ pkt'.dataIndex = pkt.dataIndex) ∨
      (∃ c, t'.calls pkt'.id = .queued c ∧ c.sendNotification) ∨
      ∃ outcome n, label = .deliver outcome ∧ .notified pkt'.id n ∈ events := by
  have hkept : pkt' ∈ t.so.pendingQueue → ∃ pkt ∈ t.so.pendingQueue,
      Undecided pkt ∧ pkt'.id = pkt.id ∧ pkt'.dataIndex = pkt.dataIndex :=
    fun hp => ⟨pkt', hp, hu, rfl, rfl⟩
  cases SocketState.step_inv hs with
  | quiet hso => exact .inl (hkept (hso.queue ▸ hp))
  | capture _ _ _ _ _ hq => exact .inl (hkept (hq ▸ hp))
  | @queue id c so c' _ hc hq =>
    have hready := hR.ready id c (.inr hc)
    have hid := hC.captured id c (.inr hc)
    cases hq with
    | posted hok =>
      rcases List.mem_append.1 hp with hp | hp
      · exact .inl (hkept hp)
      · obtain rfl := List.mem_singleton.1 hp
        refine .inr (.inl ⟨c, ?_, hready.send hok⟩)
        rw [hid]
        exact Function.update_self ..
    | postponed _ _ _ _ _ hneed _ hqueue =>
      rcases List.mem_append.1 (hqueue ▸ hp : pkt' ∈ t.so.pendingQueue ++ [c'.pendingPkt]) with hp | hp
      · exact .inl (hkept hp)
      · obtain rfl := List.mem_singleton.1 hp
        exact absurd hneed (by simp [hu.reported])
  | @deliver outcome _ _ _ _ hd =>
    obtain ⟨pkt, hmem, hdel⟩ := exists_partner hd.pkts hp
    cases hdel with
    | same => exact .inl ⟨_, hmem, hu, rfl, rfl⟩
    | reported _ hn _ => exact .inr (.inr ⟨outcome, _, rfl, hn⟩)
    | expired => exact absurd hu.inTime (by simp)
    | noData _ hd => exact absurd hd (hR.data pkt hmem)
  | @property property _ _ hend =>
    refine .inl ?_
    obtain ⟨pkt, hmem, rfl | hset⟩ := hend.mem hp
    · exact hkept hmem
    · unfold setProperty at hset
      split at hset
      · subst hset
        exact absurd hu.unanswered (by simp)
      · exact hkept (hset ▸ hmem)
  | collect _ hc =>
    obtain ⟨⟨seen, hseen, hrest, -⟩, -⟩ := hc
    obtain ⟨pkt, hmem, b, rfl, hlatch⟩ := exists_partner hseen (hrest.subset hp)
    refine .inl ⟨pkt, hmem, ⟨hu.reported, hu.unanswered, ?_⟩, rfl, rfl⟩
    by_contra hne
    exact absurd (hlatch (by simpa using hne)) (by simp [show b = false from hu.inTime])
  | account _ hso => exact .inl (hkept (hso.queue ▸ hp))
  | purge _ _ hq => exact .inl (hkept (List.mem_of_mem_filter (hq ▸ hp)))
  | _ => exact .inl (hkept hp)

/-- Until it sends its notification a call has it to send. -/
theorem queued_of_step (hC : Custody t g) (hs : socketMachine.step t label = some (t', events))
    (hc : t.calls id = .queued c) (hl : ∀ client, label ≠ .send id client) : t'.calls id = .queued c := by
  have hset : ∀ {id' phase}, t.calls id' ≠ .queued c → (t.setCall id' phase).calls id = .queued c := by
    intro id' phase hne
    rw [SocketState.setCall_of_ne, hc]
    rintro rfl
    exact hne hc
  cases SocketState.step_inv hs with
  | capture => exact hset (by rw [hC.fresh _ (le_refl _)]; simp)
  | copy hc' => exact hset (by rw [hc']; simp)
  | queue hc' => exact hset (by rw [hc']; simp)
  | finish hc' => exact hset (by rw [hc']; simp)
  | @send id' client =>
    rw [SocketState.setCall_of_ne, hc]
    rintro rfl
    exact hl client rfl
  | @noSend id' client =>
    rw [SocketState.setCall_of_ne, hc]
    rintro rfl
    exact hl client rfl
  | _ => exact hc

/-! ### Emptying the queue -/

/-- Everything was reported and is decided or too late, so all is taken. -/
theorem collectLoop_all (clock : Nat → UInt64) (hqueue : ∀ pkt ∈ queue, pkt.needToBeReported = false ∧
      (pkt.responseReceived ∨ pkt.deadlineTimerExpired)) :
    ∃ taken, collectLoop .NkeSocketDataAll clock queue = ([], taken) ∧ List.Forall₂ Latched queue taken := by
  induction queue generalizing clock with
  | nil => exact ⟨[], rfl, .nil⟩
  | cons pkt rest ih =>
    obtain ⟨taken, hrest, hlatched⟩ := ih (fun i => clock (i + 1)) fun pkt' hp => hqueue pkt' (List.mem_cons_of_mem _ hp)
    obtain ⟨hneed, hready⟩ := hqueue pkt (List.mem_cons_self ..)
    refine ⟨(pkt.isDeadlineTimerExpired (clock 0)).2 :: taken, ?_, .cons (latched_isDeadlineTimerExpired ..) hlatched⟩
    have hgo : (!(pkt.isDeadlineTimerExpired (clock 0)).1 &&
        !(pkt.isDeadlineTimerExpired (clock 0)).2.responseReceived) = false := by
      rw [isDeadlineTimerExpired_snd]
      rcases hready with hresponse | hlatch
      · simp [hresponse]
      · simp [isDeadlineTimerExpired_of_latched hlatch]
    rw [collectLoop]
    simp only [NkeSocketDataDirectionType.covers, hneed, hgo, hrest, Bool.not_true, Bool.false_eq_true, if_false]

/-- The latch does not matter for what becomes of a packet. -/
theorem mapIdx_disposal (disconnecting : Nat → Bool) (result : Nat → Errno) {taken : List PendingPktQueueItem}
    (hl : List.Forall₂ Latched queue taken) :
    (taken.mapIdx fun i pkt => disposal (disconnecting i) (result i) pkt) =
      queue.mapIdx fun i pkt => disposal (disconnecting i) (result i) pkt := by
  induction hl generalizing disconnecting result with
  | nil => rfl
  | cons hfirst _ ih =>
    obtain ⟨_, rfl, -⟩ := hfirst
    rw [List.mapIdx_cons, List.mapIdx_cons, ih]
    rfl

theorem map_taken (hl : List.Forall₂ Latched queue rest) :
    rest.map (fun pkt => SocketEvent.taken pkt.id) = queue.map fun pkt => .taken pkt.id := by
  have hids := congrArg (List.map SocketEvent.taken) (pktIds_latched hl)
  rwa [pktIds, pktIds, List.map_map, List.map_map] at hids

/-- What one call of `reinjectDeferredData` does to such a queue. -/
theorem reinjectDeferredDataNoting_all (so : NkeSocketObject) (clock : Nat → UInt64) (outcome : Nat → InjectOutcome)
    (hqueue : ∀ pkt ∈ so.pendingQueue, pkt.needToBeReported = false ∧
      (pkt.responseReceived ∨ pkt.deadlineTimerExpired)) :
    (so.reinjectDeferredDataNoting .NkeSocketDataAll clock outcome).1.pendingQueue = [] ∧
      (so.reinjectDeferredDataNoting .NkeSocketDataAll clock outcome).2 =
        so.pendingQueue.map (fun pkt => .taken pkt.id) ++
          (so.pendingQueue.mapIdx fun i pkt =>
            disposal (disconnectingAt so outcome i) (outcome i).result pkt).flatten := by
  obtain ⟨taken, hloop, hlatched⟩ := collectLoop_all clock hqueue
  have hcollect : so.collect .NkeSocketDataAll clock = ({ so with pendingQueue := [] }, taken) := by
    rw [NkeSocketObject.collect, hloop]
  refine ⟨?_, ?_⟩
  · simp only [reinjectDeferredDataNoting, hcollect, injectLoopNoting_queue]
  · simp only [reinjectDeferredDataNoting, hcollect, injectLoopNoting_events]
    rw [map_taken hlatched, mapIdx_disposal _ _ hlatched]
    rfl

namespace Service
open UserToKernel

/-- What leads to a decision about the packet: its notification has yet to be sent, or to be answered, or the
answer to be processed. -/
inductive Awaited (s : ServiceState) (object : Nat) (pkt : PendingPktQueueItem) : Prop
  | toSend {c : FltDataCall} : (s.objects object).calls pkt.id = .queued c → c.sendNotification → Awaited s object pkt
  | toAnswer {n : UserToKernel.NkeSocketFilterNotification} : Unanswered s n → n.isData →
      n.socketId = (s.objects object).so.socketId → n.inputoutput.dataIndex = pkt.dataIndex → Awaited s object pkt
  | toProcess {rest : List NkeSocketDataProperty} {property : NkeSocketDataProperty} : rest ∈ s.responses → property ∈ rest →
      Names (s.objects object).so.socketId pkt.dataIndex property → Awaited s object pkt

/-- What looking up the socket of a property gives, as far as it matters: only a socket with packets. -/
def Finds (s : ServiceState) (property : NkeSocketDataProperty) (found : Option Nat) : Prop :=
  ∀ object, 0 < (s.objects object).captures → property.socketId = (s.objects object).so.socketId →
    found = some object

/-- The notifications of `FltData` are accepted, the client decides about each packet it answers for, and the
sockets of its properties are found. -/
def Attentive (s : ServiceState) : ServiceLabel → Prop
  | .send object id client => ∀ c, (s.objects object).calls id = .queued c → c.sendNotification →
    (notify s.dataQueue client (ofData c.notification)).1 = some KERN_SUCCESS
  | .respond i response => ∀ n, s.received[i]? = some n → n.isData →
    ∃ property ∈ response.properties, Names n.socketId n.inputoutput.dataIndex property
  | .property thread object => ∀ property rest, s.responses[thread]? = some (property :: rest) →
    Finds s property (some object)
  | .skip thread => ∀ property rest, s.responses[thread]? = some (property :: rest) → Finds s property none
  | _ => True

/-- All undecided packets are awaited. -/
def NoneForgotten (s : ServiceState) : Prop :=
  ∀ object, ∀ pkt ∈ (s.objects object).so.pendingQueue, Undecided pkt → Awaited s object pkt

variable {s s' : ServiceState} {a : ServiceLabel} {h e : List ServiceEvent} {object : Nat}
  {socketIds : Nat → NkeSocketID} {sizes : Nat → Nat}

/-- `NkeSocketHandler` decides. -/
theorem response_decides (n : UserToKernel.NkeSocketFilterNotification) :
    ∃ property ∈ n.response.properties, Names n.socketId n.inputoutput.dataIndex property := by
  rw [properties_response]
  exact ⟨_, List.mem_singleton.2 rfl, rfl, rfl, rfl⟩

/-! ### One step -/

/-- Properties that are left stay so until they are processed or skipped. -/
theorem mem_responses_step {rest : List NkeSocketDataProperty} {property : NkeSocketDataProperty}
    (hs : serviceMachine.step s a = some (s', e)) (hrest : rest ∈ s.responses) (hp : property ∈ rest) :
    (∃ rest ∈ s'.responses, property ∈ rest) ∨ ∃ thread rest, s.responses[thread]? = some (property :: rest) ∧
      ((∃ object, a = .property thread object) ∨ a = .skip thread) := by
  have htake : ∀ {thread first left}, s.responses[thread]? = some (first :: left) →
      s'.responses = s.responses.set thread left →
      (∃ rest ∈ s'.responses, property ∈ rest) ∨ property = first := by
    intro thread first left hthread heq
    obtain ⟨j, hj⟩ := List.mem_iff_getElem?.1 hrest
    rw [heq]
    by_cases hne : thread = j
    · subst hne
      obtain rfl := Option.some.inj (hj.symm.trans hthread)
      rcases List.mem_cons.1 hp with rfl | hp
      · exact .inr rfl
      · obtain ⟨hlt, -⟩ := List.getElem?_eq_some_iff.1 hthread
        exact .inl ⟨left, List.mem_iff_getElem?.2 ⟨thread, List.getElem?_set_self hlt⟩, hp⟩
    · exact .inl ⟨rest, List.mem_iff_getElem?.2 ⟨j, (List.getElem?_set_ne hne).trans hj⟩, hp⟩
  cases ServiceState.step_inv hs with
  | @property thread object first left _ _ hthread =>
    refine (htake hthread rfl).imp_right ?_
    rintro rfl
    exact ⟨thread, left, hthread, .inl ⟨object, rfl⟩⟩
  | @skip thread first left hthread =>
    refine (htake hthread rfl).imp_right ?_
    rintro rfl
    exact ⟨thread, left, hthread, .inr rfl⟩
  | respond => exact .inl ⟨rest, List.mem_append_left _ hrest, hp⟩
  | _ => exact .inl ⟨rest, hrest, hp⟩

theorem socketId_step (hs : serviceMachine.step s a = some (s', e)) (object : Nat) :
    (s'.objects object).so.socketId = (s.objects object).so.socketId := by
  rcases object_inv hs object with ⟨hsame, -⟩ | ⟨label, hstep, -⟩
  · rw [hsame]
  · exact socketId_of_step hstep

/-- The call sends its notification, or has it still to send. -/
theorem Awaited.of_queued (hB : Buffers socketIds sizes s h) (hc : (s.objects object).calls pkt.id = .queued c)
    (hsend : c.sendNotification) (hindex : pkt.dataIndex = UInt32.ofNat pkt.id) (ha : Attentive s a)
    (hs : serviceMachine.step s a = some (s', e)) : Awaited s' object pkt := by
  have hid := socketId_step hs object
  by_cases hnow : ∃ client, a = .send object pkt.id client
  · obtain ⟨client, rfl⟩ := hnow
    obtain ⟨calls, ns, free, hO⟩ := hB.owned
    have htells := ((hB.carries object).calls pkt.id c (by rw [hc]; rfl)).tells
    have hok := ha c hc hsend
    cases ServiceState.step_inv hs with
    | @send _ _ _ c' result q o e' hc' _ hn _ =>
      obtain rfl := CallPhase.queued.inj (hc.symm.trans hc')
      rw [hn] at hok
      obtain ⟨-, ⟨-, hring⟩ | ⟨hrefused, -⟩⟩ := notify_spec hO.ring hB.size hn
      · refine .toAnswer (n := ofData c.notification) ⟨_, hring, by simp⟩ (isData_ofData _) ?_ ?_
        · rw [hid, hB.socketId_eq, htells.socketId]
        · rw [hindex, htells.dataIndex]
      · rw [show result = some KERN_SUCCESS from hok] at hrefused
        exact absurd rfl hrefused
    | noSend hc' hno =>
      obtain rfl := CallPhase.queued.inj (hc.symm.trans hc')
      rw [hsend] at hno
      cases hno
  · refine .toSend (c := c) ?_ hsend
    rcases object_inv hs object with ⟨hsame, -⟩ | ⟨label, hstep, hruns⟩
    · rw [hsame]
      exact hc
    · refine queued_of_step (hB.custody object) hstep hc ?_
      rintro client rfl
      cases hruns with
      | socket halone => cases halone
      | send => exact hnow ⟨_, rfl⟩

theorem responded_inv {n : UserToKernel.NkeSocketFilterNotification}
    {response : UserToKernel.NkeSocketFilterServiceResponse} (hs : serviceMachine.step s a = some (s', e))
    (hn : .responded n response ∈ e) : ∃ i, a = .respond i response ∧ s.received[i]? = some n ∧
      s'.responses = s.responses ++ [response.properties] := by
  have hmap : ∀ {object} {events : List SocketEvent},
      .responded n response ∉ events.map (ServiceEvent.socket object) := by simp
  cases ServiceState.step_inv hs with
  | @respond i _ _ hi =>
    obtain ⟨rfl, rfl⟩ := ServiceEvent.responded.inj (List.mem_singleton.1 hn)
    exact ⟨i, rfl, hi, rfl⟩
  | socket =>
    rcases List.mem_append.1 hn with hn | hn
    · unfold capturedBy at hn
      split at hn
      · cases List.mem_singleton.1 hn
      · cases hn
    · exact absurd hn hmap
  | receive => cases List.mem_singleton.1 hn
  | event => cases hn
  | release => cases hn
  | underrun => cases hn
  | skip => cases hn
  | _ => exact absurd hn hmap

/-- The wait goes on, unless a property that names the packet is processed. -/
theorem Awaited.step (hW : Awaited s object pkt) (hB : Buffers socketIds sizes s h)
    (hindex : pkt.dataIndex = UInt32.ofNat pkt.id) (hpos : 0 < (s.objects object).captures) (ha : Attentive s a)
    (hs : serviceMachine.step s a = some (s', e)) : Awaited s' object pkt ∨
      ∃ thread property rest, a = .property thread object ∧ s.responses[thread]? = some (property :: rest) ∧
        Names (s.objects object).so.socketId pkt.dataIndex property := by
  have hid := socketId_step hs object
  cases hW with
  | toSend hc hsend => exact .inl (.of_queued hB hc hsend hindex ha hs)
  | @toAnswer n hn hdata hsocket hi =>
    by_cases hanswered : ∃ response, .responded n response ∈ e
    · obtain ⟨response, hresponded⟩ := hanswered
      obtain ⟨i, rfl, hi', heq⟩ := responded_inv hs hresponded
      obtain ⟨property, hp, hnames⟩ := ha n hi' hdata
      rw [hsocket, hi] at hnames
      refine .inl (.toProcess (heq ▸ List.mem_append_right _ (List.mem_singleton.2 rfl)) hp ?_)
      rwa [hid]
    · obtain ⟨calls, ns, free, hO⟩ := hB.owned
      exact .inl (.toAnswer (hn.step hB.size hs fun response hr => hanswered ⟨response, hr⟩) hdata
        (hsocket.trans hid.symm) hi)
  | @toProcess _ property hrest hp hnames =>
    rcases mem_responses_step hs hrest hp with ⟨rest, hrest, hp⟩ | ⟨thread, rest, hthread, ⟨object', rfl⟩ | rfl⟩
    · refine .inl (.toProcess hrest hp ?_)
      rwa [hid]
    · obtain rfl := Option.some.inj (ha property rest hthread object hpos hnames.socketId)
      exact .inr ⟨thread, property, rest, rfl, hthread, hnames⟩
    · cases ha property rest hthread object hpos hnames.socketId

/-- What a delivery told the client is in the ring. -/
theorem notified_of_deliver {client : Nat → ClientState} {now : Nat → UInt64} {n : NkeSocketFilterNotification}
    (hB : Buffers socketIds sizes s h) (ha : Regular s (.deliver object client now))
    (hs : serviceMachine.step s (.deliver object client now) = some (s', e))
    (hn : .notified id n ∈ e.filterMap (ServiceEvent.ofSocket object)) :
    Unanswered s' (ofData n) ∧ n.socketId = socketIds object ∧ n.dataIndex = UInt32.ofNat id := by
  obtain ⟨calls, ns, free, hO⟩ := hB.owned
  cases ServiceState.step_inv hs with
  | @deliver _ _ _ os f q l o e' hserve _ hstep =>
    rw [ofSocket_map, if_pos rfl] at hn
    obtain ⟨os', f', q', hserve', hserved⟩ := serveLoop_spec (s.objects object).so
      ⟨none, KERN_SUCCESS, false, false⟩ client now hO.pooled hO.ring hB.size
      (fun pkt hp _ => ((hB.carries object).queue pkt hp).2) ha rfl rfl rfl
    obtain ⟨rfl, -, rfl⟩ : os' = os ∧ f' = f ∧ q' = q := by simpa [hserve] using hserve'.symm
    obtain ⟨-, -, hring, -, hannounced⟩ := hserved rfl
    obtain ⟨-, rfl⟩ := Prod.mk.inj (Option.some.inj hstep)
    have hsent : (id, n) ∈ sentOf ((s.objects object).so.deliverQueue (outcomes os')).2.2 :=
      List.mem_filterMap.2 ⟨_, hn, rfl⟩
    obtain ⟨pkt, hmem, hpid, hof⟩ := hannounced _ hsent
    refine ⟨⟨_, hring, List.mem_append_left _ (List.mem_append_right _ (List.mem_map.2 ⟨_, hsent, rfl⟩))⟩, ?_, ?_⟩
    · exact (congrArg NkeSocketFilterNotification.socketId hof.event).trans (hB.socketId_eq object)
    · have hindex := (hB.shape object).dataIndex pkt hmem
      rw [hpid] at hindex
      exact (congrArg NkeSocketFilterNotification.dataIndex hof.event).trans hindex

/-- Processing a property decides about the packet it names. -/
theorem decided_of_processed {thread : Nat} {property : NkeSocketDataProperty} {rest : List NkeSocketDataProperty}
    {socketId : NkeSocketID} (hB : Buffers socketIds sizes s h) (hlt : (s.objects object).captures < 2 ^ 32)
    (hs : serviceMachine.step s (.property thread object) = some (s', e))
    (hthread : s.responses[thread]? = some (property :: rest))
    (hnames : Names socketId pkt'.dataIndex property) (hp : pkt' ∈ (s'.objects object).so.pendingQueue) :
    ¬ Undecided pkt' := by
  cases ServiceState.step_inv hs with
  | property hthread' _ hstep =>
    obtain ⟨rfl, -⟩ := List.cons.inj (Option.some.inj (hthread.symm.trans hthread'))
    rw [objects_setObject_self] at hp
    exact decided_of_property (hB.custody object) (hB.shape object) (hB.suffix hlt) hlt hstep hnames.type hp hnames.dataIndex.symm

theorem NoneForgotten.step (hN : NoneForgotten s) (hB : Buffers socketIds sizes s h)
    (hR : ∀ object, Reporting (s.objects object) (h.filterMap (ServiceEvent.ofSocket object)))
    (hlt : ∀ object, (s.objects object).captures < 2 ^ 32) (hreg : Regular s a) (ha : Attentive s a)
    (hs : serviceMachine.step s a = some (s', e)) : NoneForgotten s' := by
  have hB' := hB.step hreg hs
  intro object pkt' hp' hu'
  have hid := socketId_step hs object
  have hindex' := (hB'.shape object).dataIndex pkt' hp'
  -- a packet that was undecided before
  have hbefore : ∀ pkt ∈ (s.objects object).so.pendingQueue, Undecided pkt → pkt'.id = pkt.id →
      pkt'.dataIndex = pkt.dataIndex → Awaited s' object pkt' := by
    intro pkt hp hu hpid hi
    have hpos := Nat.zero_lt_of_lt ((hB.custody object).queued_mem hp).2
    have hW : Awaited s object pkt' := by
      cases hN object pkt hp hu with
      | toSend hc hsend => exact .toSend (hpid ▸ hc) hsend
      | toAnswer hn hdata hsocket hdi => exact .toAnswer hn hdata hsocket (hdi.trans hi.symm)
      | toProcess hrest hmem hnames => exact .toProcess hrest hmem (hi ▸ hnames)
    rcases hW.step hB hindex' hpos ha hs with hW | ⟨thread, property, rest, rfl, hthread, hnames⟩
    · exact hW
    · exact absurd hu' (decided_of_processed hB (hlt object) hs hthread hnames hp')
  rcases object_inv hs object with ⟨hsame, -⟩ | ⟨label, hstep, hruns⟩
  · exact hbefore pkt' (hsame ▸ hp') hu' rfl rfl
  · rcases undecided_inv (hR object) (hB.custody object) hstep hp' hu' with
      ⟨pkt, hp, hu, hpid, hi⟩ | ⟨c, hc, hsend⟩ | ⟨outcome, n, rfl, hn⟩
    · exact hbefore pkt hp hu hpid hi
    · exact .toSend hc hsend
    · cases hruns with
      | socket halone => cases halone
      | deliver =>
        obtain ⟨hun, hsocket, hi⟩ := notified_of_deliver hB hreg hs hn
        refine .toAnswer hun (isData_ofData n) ?_ ?_
        · rw [hid, hB.socketId_eq]
          exact hsocket
        · rw [inputoutput_ofData, hindex']
          exact hi

/-! ### The result -/

section Result
variable {withSize : Nat → Bool} {queueSize : UInt32} {queue : Memory} {as : List ServiceLabel}

theorem reporting_step {object : Nat} (hB : Buffers socketIds sizes s h)
    (hR : Reporting (s.objects object) (h.filterMap (ServiceEvent.ofSocket object))) (ha : Attentive s a)
    (hs : serviceMachine.step s a = some (s', e)) :
    Reporting (s'.objects object) ((h ++ e).filterMap (ServiceEvent.ofSocket object)) := by
  rw [List.filterMap_append]
  rcases object_inv hs object with ⟨hsame, hnone, -⟩ | ⟨label, hstep, hruns⟩
  · rw [hsame, hnone, List.append_nil]
    exact hR
  · refine hR.step (hB.custody object) ?_ hstep
    cases hruns with
    | socket halone =>
      cases label with
      | send => cases halone
      | _ => trivial
    | @send id client result hresult =>
      by_cases hquiet : ∀ c, (s.objects object).calls id = .queued c → c.sendNotification = false
      · exact .inr (.inr hquiet)
      · simp only [not_forall] at hquiet
        obtain ⟨c, hc, hsend⟩ := hquiet
        exact .inl ((hresult c hc (by simpa using hsend)).trans (ha c hc (by simpa using hsend)))
    | _ => trivial

theorem noneForgotten_of_run (hsize : 92 ≤ queueSize.toNat) (hlt : queueSize.toNat < 2 ^ 31)
    (hC : serviceMachine.Along (fun s a => Regular s a ∧ Attentive s a)
      (.start withSize queueSize queue socketIds sizes) as)
    (hr : serviceMachine.run (.start withSize queueSize queue socketIds sizes) as = some (s, h))
    (hcap : ∀ object, (s.objects object).captures < 2 ^ 32) :
    Buffers socketIds sizes s h ∧ NoneForgotten s := by
  have hend := Machine.run_induction (fun s h => Buffers socketIds sizes s h ∧
      (∀ object, Reporting (s.objects object) (h.filterMap (ServiceEvent.ofSocket object))) ∧
      ((∀ object, (s.objects object).captures < 2 ^ 32) → NoneForgotten s)) []
    ⟨buffers_start hsize hlt, fun _ => reporting_start, fun _ _ _ hp => (by cases hp)⟩ ?_ hC hr
  · exact ⟨hend.1, hend.2.2 hcap⟩
  · rintro s h a s' e ⟨hB, hR, hN⟩ ⟨hreg, ha⟩ hs
    refine ⟨hB.step hreg hs, fun object => reporting_step hB (hR object) ha hs, fun hcap => ?_⟩
    have hcap' := fun object => (captures_le hs object).trans_lt (hcap object)
    exact (hN hcap').step hB hR hcap' hreg ha hs

/-- Nothing is under way for the packets of the socket any more. -/
structure Settled (s : ServiceState) (object : Nat) : Prop where
  reported : ∀ pkt ∈ (s.objects object).so.pendingQueue, pkt.needToBeReported = false
  sent : ∀ id c, (s.objects object).calls id = .queued c → c.sendNotification = false
  answered : ∀ n, Unanswered s n → n.isData → n.socketId ≠ (s.objects object).so.socketId
  processed : ∀ rest ∈ s.responses, ∀ property ∈ rest, property.socketId ≠ (s.objects object).so.socketId

/-- A settled socket has only packets that were answered or are too late. -/
theorem Settled.decided (hS : Settled s object) (hN : NoneForgotten s) :
    ∀ pkt ∈ (s.objects object).so.pendingQueue, pkt.needToBeReported = false ∧
      (pkt.responseReceived ∨ pkt.deadlineTimerExpired) := by
  intro pkt hp
  refine ⟨hS.reported pkt hp, ?_⟩
  by_contra hn
  rw [not_or, Bool.not_eq_true, Bool.not_eq_true] at hn
  cases hN object pkt hp ⟨hS.reported pkt hp, hn.1, hn.2⟩ with
  | toSend hc hsend =>
    rw [hS.sent _ _ hc] at hsend
    cases hsend
  | toAnswer hn hdata hsocket => exact hS.answered _ hn hdata hsocket
  | toProcess hrest hp hnames => exact hS.processed _ hrest _ hp hnames.socketId

/-- A socket may move by itself. -/
theorem run_alone {labels : List SocketLabel} {t : SocketState} {g : List SocketEvent}
    (halone : ∀ label ∈ labels, alone label) (hr : socketMachine.run (s.objects object) labels = some (t, g)) :
    ∃ h', serviceMachine.run s (labels.map (.socket object)) = some (s.setObject object t, h') ∧
      h'.filterMap (ServiceEvent.ofSocket object) = g := by
  induction labels generalizing s g with
  | nil =>
    obtain ⟨rfl, rfl⟩ := Prod.mk.inj (Option.some.inj hr)
    refine ⟨[], ?_, rfl⟩
    rw [ServiceState.setObject, Function.update_eq_self]
    rfl
  | cons label labels ih =>
    obtain ⟨t₁, g₁, g₂, hstep, hr₁, rfl⟩ := Machine.run_cons.1 hr
    have hnext : socketMachine.run ((s.setObject object t₁).objects object) labels = some (t, g₂) := by
      rw [objects_setObject_self]
      exact hr₁
    obtain ⟨h', hr', hg⟩ := ih (fun label hl => halone label (List.mem_cons_of_mem _ hl)) hnext
    have hs : serviceMachine.step s (.socket object label) = some (s.setObject object t₁,
        capturedBy object (s.objects object).captures label ++ g₁.map (.socket object)) := by
      simp [serviceMachine, ServiceState.step, halone label (List.mem_cons_self ..), ServiceState.onSocket, hstep]
    have hlast : (s.setObject object t₁).setObject object t = s.setObject object t := by
      rw [ServiceState.setObject, ServiceState.setObject, ServiceState.setObject, Function.update_idem]
    rw [hlast] at hr'
    refine ⟨_, Machine.run_cons.2 ⟨_, _, _, hs, hr', rfl⟩, ?_⟩
    · rw [List.filterMap_append, List.filterMap_append, ofSocket_capturedBy, ofSocket_map, if_pos rfl, hg,
        List.nil_append]

theorem alone_of_reinjects {label : SocketLabel} (hl : label.reinjects) : alone label := by
  cases label with
  | copy | send | deliver | property => cases hl
  | _ => rfl

/-- One call of `reinjectDeferredData( NkeSocketDataAll )`, at any time, with any results of the injections
and also when `sock_evt_disconnecting` arrives meanwhile: the queue is empty, everything in it was taken and
disposed of packet by packet in the order of the queue, and the driver can make the call from here. -/
def Drains (s : ServiceState) (object : Nat) : Prop :=
  ∀ (clock : Nat → UInt64) (outcome : Nat → InjectOutcome), ∃ (so : NkeSocketObject) (events : List SocketEvent),
    (s.objects object).so.reinjectDeferredDataNoting .NkeSocketDataAll clock outcome = (so, events) ∧
    so.pendingQueue = [] ∧
    events = (s.objects object).so.pendingQueue.map (fun pkt => .taken pkt.id) ++
      ((s.objects object).so.pendingQueue.mapIdx fun i pkt =>
        disposal (disconnectingAt (s.objects object).so outcome i) (outcome i).result pkt).flatten ∧
    ∃ (labels : List SocketLabel) (h' : List ServiceEvent), (∀ label ∈ labels, label.reinjects) ∧
      serviceMachine.run s (labels.map (.socket object)) =
        some (s.setObject object { s.objects object with so }, h') ∧
      h'.filterMap (ServiceEvent.ofSocket object) = events

/-- No packet is forgotten, so once nothing is under way for a socket one reinjection empties its queue. -/
theorem nothing_stuck (hsize : 92 ≤ queueSize.toNat) (hlt : queueSize.toNat < 2 ^ 31)
    (hC : serviceMachine.Along (fun s a => Regular s a ∧ Attentive s a)
      (.start withSize queueSize queue socketIds sizes) as)
    (hr : serviceMachine.run (.start withSize queueSize queue socketIds sizes) as = some (s, h))
    (hcap : ∀ object, (s.objects object).captures < 2 ^ 32) :
    NoneForgotten s ∧ ∀ object, Settled s object → (s.objects object).injection = none → Drains s object := by
  obtain ⟨-, hN⟩ := noneForgotten_of_run hsize hlt hC hr hcap
  refine ⟨hN, fun object hS hnone => ?_⟩
  intro clock outcome
  obtain ⟨hempty, hevents⟩ := reinjectDeferredDataNoting_all _ clock outcome (hS.decided hN)
  obtain ⟨labels, hr', hlabels⟩ := reinjectDeferredDataNoting_run .NkeSocketDataAll clock outcome _ hnone
  obtain ⟨h', hrun, hh'⟩ := run_alone (fun label hl => alone_of_reinjects (hlabels label hl)) hr'
  exact ⟨_, _, rfl, hempty, hevents, labels, h', hlabels, hrun, hh'⟩

/-- The one packet was allowed. -/
def oneAllowed (n : UserToKernel.NkeSocketFilterNotification) : List ServiceLabel :=
  oneAnswered n ++ [.property 0 0]

theorem oneNotified_attentive : serviceMachine.Along Attentive oneSocket oneNotified := by
  refine ⟨trivial, fun s₁ e₁ hs₁ => ⟨trivial, fun s₂ e₂ hs₂ => ⟨trivial, fun s₃ e₃ hs₃ => ⟨?_, fun _ _ _ =>
    trivial⟩⟩⟩⟩
  obtain rfl := congrArg Prod.fst (Option.some.inj hs₁)
  obtain rfl := congrArg Prod.fst (Option.some.inj hs₂)
  obtain rfl := congrArg Prod.fst (Option.some.inj hs₃)
  intro c hc _
  obtain rfl := CallPhase.queued.inj hc
  rfl

theorem oneAllowed_drains : ∃ n s h, serviceMachine.run oneSocket (oneAllowed n) = some (s, h) ∧
    (s.objects 0).so.pendingQueue.length = 1 ∧ NoneForgotten s ∧ Drains s 0 := by
  obtain ⟨n, s₁, h₁, hr₁, hanswered⟩ := run_oneAnswered
  have htaken := hanswered.taken
  have hregular := hanswered.regular
  have hobjects := hanswered.objects
  have hresponses := hanswered.responses
  have hring := hanswered.ring
  have hreceived := hanswered.received
  obtain ⟨f, q, objects, toRelease, received, responses⟩ := s₁
  obtain rfl : objects = _ := hobjects
  obtain rfl : responses = _ := hresponses
  obtain rfl : received = _ := hreceived
  obtain ⟨s, e, hs, hlength, hreported, hcalls, hnone, hzero, hsucc, hqueue, hgot, hleft⟩ : ∃ s e,
      serviceMachine.step ⟨f, q, oneNotifiedState.objects, toRelease, [],
        [[⟨.NkeSocketDataPropertyTypePermission, 0, ⟨0, 0⟩, 1⟩]]⟩ (.property 0 0) = some (s, e) ∧
      (s.objects 0).so.pendingQueue.length = 1 ∧
      (∀ pkt ∈ (s.objects 0).so.pendingQueue, pkt.needToBeReported = false) ∧
      (∀ id c, (s.objects 0).calls id = .queued c → c.sendNotification = false) ∧
      (s.objects 0).injection = none ∧ (s.objects 0).captures = 1 ∧
      (∀ object, (s.objects (object + 1)).captures = 0) ∧ s.dataQueue = q ∧ s.received = [] ∧
      s.responses = [[]] := by
    refine ⟨_, _, rfl, rfl, ?_, ?_, rfl, rfl, fun _ => rfl, rfl, rfl, rfl⟩
    · intro pkt hp
      obtain rfl := List.mem_singleton.1 hp
      rfl
    · intro id c hc
      cases id with
      | zero => cases hc
      | succ id => cases hc
  have hr := Machine.run_append.2 ⟨_, _, _, hr₁, Machine.run_single hs, rfl⟩
  have hattentive : serviceMachine.Along Attentive oneSocket (oneAllowed n) := by
    have hreceive : serviceMachine.Along Attentive oneSocket (oneNotified ++ [.receive fun _ => 3]) :=
      oneNotified_attentive.append fun _ _ _ => ⟨trivial, fun _ _ _ => trivial⟩
    have hrespond : serviceMachine.Along Attentive oneSocket (oneAnswered n) := by
      refine hreceive.append fun s h hr => ⟨fun n' hn' _ => ?_, fun _ _ _ => trivial⟩
      rw [htaken s h hr] at hn'
      obtain rfl := Option.some.inj hn'
      exact response_decides _
    refine hrespond.append fun s h hr => ⟨fun property rest hthread object hpos _ => ?_, fun _ _ _ => trivial⟩
    obtain ⟨rfl, -⟩ := Prod.mk.inj (Option.some.inj (hr₁.symm.trans hr))
    cases object with
    | zero => rfl
    | succ object => cases hpos
  have hcap : ∀ object, (s.objects object).captures < 2 ^ 32 := by
    intro object
    cases object with
    | zero => simp [hzero]
    | succ object => simp [hsucc]
  have hall : serviceMachine.Along Regular oneSocket (oneAllowed n) :=
    hregular.append fun _ _ _ => ⟨trivial, fun _ _ _ => trivial⟩
  obtain ⟨hN, hdrains⟩ := nothing_stuck (by decide) (by decide) (hall.and hattentive) hr hcap
  refine ⟨n, s, _, hr, hlength, hN, hdrains 0 ⟨hreported, hcalls, ?_, ?_⟩ hnone⟩
  · intro n' hn'
    have hmem := hn'.mem (hqueue ▸ hring)
    rw [hgot] at hmem
    cases hmem
  · intro rest hrest property hp
    rw [hleft] at hrest
    obtain rfl := List.mem_singleton.1 hrest
    cases hp

end Result

end Service
end NkeFilter
