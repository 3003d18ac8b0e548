import NkeFilter.QueueShape

/-!
# Fail-closed filtering

A packet reaches `sock_inject_data_in` or `sock_inject_data_out` only after the client allowed it: over any
run of the machine of one socket in which the processed properties name that socket, `allowData` of a packet
of the queue stands for a permission that no later property took back (`Permitted`). The suffix of waiting
packets is what makes a denial reach its packet.
-/

namespace NkeFilter
open Lib NkeSocketObject

/-- The property is a permission for the packet of that index on that socket. -/
structure Names (socketId : NkeSocketID) (dataIndex : UInt32) (property : NkeSocketDataProperty) : Prop where
  type : property.type = .NkeSocketDataPropertyTypePermission
  socketId : property.socketId = socketId
  dataIndex : property.dataIndex = dataIndex

/-- After the packet was queued, and while it was not marked, a property allowed it, and none denied it
since. -/
def Permitted (socketId : NkeSocketID) (h : List SocketEvent) (id : Nat) : Prop :=
  ∃ (h₁ h₂ : List SocketEvent) (property : NkeSocketDataProperty) (pkt : PendingPktQueueItem),
    h = h₁ ++ .answered property (some pkt) :: h₂ ∧ .queued id ∈ h₁ ∧ pkt.id = id ∧
    pkt.dataIndex = UInt32.ofNat id ∧ pkt.needToBeReported = false ∧ Names socketId pkt.dataIndex property ∧
    property.allowData ≠ 0 ∧
    ∀ property' reached, .answered property' reached ∈ h₂ → Names socketId pkt.dataIndex property' →
      property'.allowData ≠ 0

/-- The packet was permitted when it left the queue to be injected. -/
def Approved (socketId : NkeSocketID) (h : List SocketEvent) (id : Nat) : Prop :=
  ∃ h₁ h₂ : List SocketEvent, h = h₁ ++ .taken id :: h₂ ∧ Permitted socketId h₁ id

def SocketEvent.decides : SocketEvent → Bool
  | .answered .. | .injected .. => true
  | _ => false

/-- `allowData` of a packet has the client's word behind it. -/
structure FailClosed (socketId : NkeSocketID) (s : SocketState) (h : List SocketEvent) : Prop where
  identity : s.so.socketId = socketId
  queue : ∀ pkt ∈ s.so.pendingQueue, pkt.allowData →
    pkt.needToBeReported = false ∧ Permitted socketId h pkt.id
  toInject : ∀ i, s.injection = some i → ∀ pkt ∈ i.packetsToInject, pkt.allowData → Approved socketId h pkt.id
  injected : ∀ id dataInbound error, .injected id dataInbound error ∈ h → Approved socketId h id

/-- A property that is processed names this socket; `processServiceResponse` compares the identity. -/
def Addressed (s : SocketState) : SocketLabel → Prop
  | .property property => property.socketId = s.so.socketId
  | _ => True

variable {s s' : SocketState} {a : SocketLabel} {h e : List SocketEvent} {id : Nat} {socketId : NkeSocketID}
  {pkt pkt' : PendingPktQueueItem} {queue rest taken : List PendingPktQueueItem}

/-! ### Permissions in a longer history -/

theorem Permitted.append (hP : Permitted socketId h id)
    (he : ∀ property reached, .answered property reached ∈ e → Names socketId (UInt32.ofNat id) property →
      property.allowData ≠ 0) : Permitted socketId (h ++ e) id := by
  obtain ⟨h₁, h₂, property, pkt, rfl, hq, hid, hi, hn, hnames, hallow, hsince⟩ := hP
  refine ⟨h₁, h₂ ++ e, property, pkt, by simp, hq, hid, hi, hn, hnames, hallow, ?_⟩
  intro property' reached hm hn'
  rcases List.mem_append.1 hm with hm | hm
  · exact hsince property' reached hm hn'
  · exact he property' reached hm (hi ▸ hn')

theorem Permitted.plain (hP : Permitted socketId h id) (he : ∀ x ∈ e, x.decides = false) :
    Permitted socketId (h ++ e) id :=
  hP.append fun _ _ hm => by cases he _ hm

theorem Approved.mono (hA : Approved socketId h id) : Approved socketId (h ++ e) id := by
  obtain ⟨h₁, h₂, rfl, hP⟩ := hA
  exact ⟨h₁, h₂ ++ e, by simp, hP⟩

theorem plain_reports (he : ∀ x ∈ e, x.isReport) : ∀ x ∈ e, x.decides = false := by
  intro x hx
  have hreport := he x hx
  cases x with
  | answered => simp [SocketEvent.isReport] at hreport
  | injected => simp [SocketEvent.isReport] at hreport
  | _ => rfl

theorem plain_purge (purged : List PendingPktQueueItem) :
    ∀ x ∈ purged.flatMap purgeEvents, x.decides = false := by
  intro x hx
  rcases purgeEvents_inv hx with ⟨w, rfl⟩ | ⟨pkt, -, rfl | rfl⟩
  all_goals rfl

theorem plain_taken (taken : List PendingPktQueueItem) :
    ∀ x ∈ taken.map (fun pkt => SocketEvent.taken pkt.id), x.decides = false := by
  intro x hx
  obtain ⟨pkt, -, rfl⟩ := List.mem_map.1 hx
  rfl

theorem failClosed_start {size : Nat} : FailClosed socketId (SocketState.start socketId size) [] :=
  ⟨rfl, fun _ h => (by cases h), fun _ h => (by cases h), fun _ _ _ h => (by cases h)⟩

/-! ### What a step keeps -/

theorem FailClosed.plain (hF : FailClosed socketId s h) (hid : s'.so.socketId = s.so.socketId)
    (he : ∀ x ∈ e, x.decides = false)
    (hq : ∀ pkt' ∈ s'.so.pendingQueue, pkt'.allowData → ∃ pkt ∈ s.so.pendingQueue, pkt.allowData ∧
      pkt'.id = pkt.id ∧ (pkt.needToBeReported = false → pkt'.needToBeReported = false))
    (hi : ∀ i', s'.injection = some i' → ∃ i, s.injection = some i ∧ i'.packetsToInject ⊆ i.packetsToInject) :
    FailClosed socketId s' (h ++ e) := by
  refine ⟨hid.trans hF.identity, ?_, ?_, ?_⟩
  · intro pkt' hp ha
    obtain ⟨pkt, hp, ha, hpid, hn⟩ := hq pkt' hp ha
    obtain ⟨hneed, hP⟩ := hF.queue pkt hp ha
    exact ⟨hn hneed, hpid ▸ hP.plain he⟩
  · intro i' hi' pkt hp ha
    obtain ⟨i, hi, hsub⟩ := hi i' hi'
    exact (hF.toInject i hi pkt (hsub hp) ha).mono
  · intro id inbound error hm
    rcases List.mem_append.1 hm with hm | hm
    · exact (hF.injected id inbound error hm).mono
    · cases he _ hm

theorem FailClosed.sublist (hF : FailClosed socketId s h) (hid : s'.so.socketId = s.so.socketId)
    (he : ∀ x ∈ e, x.decides = false) (hq : s'.so.pendingQueue ⊆ s.so.pendingQueue)
    (hi : ∀ i', s'.injection = some i' → ∃ i, s.injection = some i ∧ i'.packetsToInject ⊆ i.packetsToInject) :
    FailClosed socketId s' (h ++ e) :=
  hF.plain hid he (fun pkt hp ha => ⟨pkt, hq hp, ha, rfl, fun h => h⟩) hi

theorem FailClosed.queuePkt {so : NkeSocketObject} {c c' : FltDataCall} (hF : FailClosed socketId s h)
    (hallow : c.pendingPkt.allowData = false) (hq : QueueEnd s.so c (so, c', e)) :
    FailClosed socketId { s.setCall id (.queued c') with so } (h ++ e) := by
  have hlast : ∀ pkt : PendingPktQueueItem, so.pendingQueue = s.so.pendingQueue ++ [pkt] →
    pkt.allowData = false →
      ∀ pkt' ∈ so.pendingQueue, pkt'.allowData → ∃ pkt ∈ s.so.pendingQueue, pkt.allowData ∧ pkt'.id = pkt.id ∧
        (pkt.needToBeReported = false → pkt'.needToBeReported = false) := by
    intro pkt hqueue hpallow pkt' hp ha
    rcases List.mem_append.1 (hqueue ▸ hp : pkt' ∈ s.so.pendingQueue ++ [pkt]) with hp | hp
    · exact ⟨pkt', hp, ha, rfl, fun h => h⟩
    · obtain rfl := List.mem_singleton.1 hp
      rw [hpallow] at ha
      cases ha
  cases hq with
  | posted => exact hF.plain rfl (by simp [SocketEvent.decides]) (hlast _ rfl hallow) fun i hi =>
    ⟨i, hi, fun _ h => h⟩
  | postponed _ _ _ _ ha _ _ hqueue _ _ hid hevents =>
    refine hF.plain hid ?_ (hlast _ hqueue (ha.trans hallow)) fun i hi => ⟨i, hi, fun _ h => h⟩
    intro x hx
    rcases List.mem_cons.1 hx with rfl | hx
    · rfl
    · rcases hevents x hx with rfl | rfl <;> rfl

/-- A property either allows the packet it reaches, or denies it, and no other packet of the queue has its
index. -/
theorem FailClosed.property {property : NkeSocketDataProperty} {reached : Option PendingPktQueueItem}
    (hF : FailClosed socketId s h) (hC : Custody s h) (hQ : QueueShape s)
    (hsuffix : ReportSuffix s.so.pendingQueue) (hcap : s.captures < 2 ^ 32)
    (ha : property.socketId = socketId) (hp : PropertyEnd property s.so.pendingQueue (queue, reached)) :
    FailClosed socketId { s with so := s.so.withQueue queue s.so.packetsWaitingForReporting }
      (h ++ [.answered property reached]) := by
  -- a permission that the event does not name is kept
  have hkeep : ∀ pkt ∈ s.so.pendingQueue, pkt.allowData → pkt.dataIndex ≠ property.dataIndex →
      pkt.needToBeReported = false ∧ Permitted socketId (h ++ [.answered property reached]) pkt.id := by
    intro pkt hmem hallow hne
    obtain ⟨hneed, hP⟩ := hF.queue pkt hmem hallow
    refine ⟨hneed, hP.append ?_⟩
    intro property' reached' hm hnames
    obtain ⟨rfl, -⟩ := SocketEvent.answered.inj (List.mem_singleton.1 hm)
    exact absurd (hQ.dataIndex pkt hmem ▸ hnames.dataIndex.symm) hne
  refine ⟨hF.identity, ?_,
    fun i hi pkt hmem hallow => (hF.toInject i hi pkt hmem hallow).mono,
    ?_⟩
  · intro pkt' hp' hallow
    have hnodup := hC.nodup
    have hmine : ∀ pkt ∈ s.so.pendingQueue, .queued pkt.id ∈ h ∧ pkt.dataIndex = UInt32.ofNat pkt.id :=
      fun pkt hmem => ⟨(hC.queued_mem hmem).1, hQ.dataIndex pkt hmem⟩
    have hne := hQ.index_ne hC hcap
    have hold := hF.queue
    change pkt' ∈ queue at hp'
    generalize s.so.pendingQueue = all at hp hkeep hnodup hmine hne hsuffix hold
    cases hp with
    | none hnone => exact hkeep pkt' hp' hallow (hnone hsuffix pkt' hp' (hold pkt' hp' hallow).1)
    | @applied pre post pkt hneed hi =>
      have hpkt : pkt ∈ pre ++ pkt :: post := by simp
      have hother : pkt' ∈ pre ++ post → pkt'.id ≠ pkt.id ∧ pkt' ∈ pre ++ pkt :: post := by
        intro hmem
        have hperm : (pkt.id :: pktIds (pre ++ post)).Nodup := by
          refine (List.Perm.nodup_iff ?_).1 hnodup
          simp [pktIds]
        refine ⟨fun heq => (List.nodup_cons.1 hperm).1 (heq ▸ List.mem_map_of_mem hmem), ?_⟩
        rcases List.mem_append.1 hmem with hmem | hmem
        · exact List.mem_append_left _ hmem
        · exact List.mem_append_right _ (List.mem_cons_of_mem _ hmem)
      by_cases heq : pkt' = setProperty pkt property
      · by_cases htype : property.type = .NkeSocketDataPropertyTypePermission
        · -- the permission itself
          have hset : setProperty pkt property =
              { pkt with allowData := property.allowData ≠ 0, responseReceived := true } := by
            simp [setProperty, htype]
          rw [heq, hset] at hallow ⊢
          refine ⟨hneed, h, [], property, pkt, rfl, (hmine pkt hpkt).1, rfl, (hmine pkt hpkt).2, hneed,
            ⟨htype, ha, hi.symm⟩, by simpa using hallow, fun _ _ hm => by cases hm⟩
        · -- a property of another type changes nothing
          have hset : setProperty pkt property = pkt := by
            unfold setProperty
            split
            · rename_i htype'
              exact absurd htype' htype
            · rfl
          rw [heq, hset] at hallow ⊢
          obtain ⟨hn, hP⟩ := hold pkt hpkt hallow
          refine ⟨hn, hP.append ?_⟩
          intro property' reached' hm hnames
          obtain ⟨rfl, -⟩ := SocketEvent.answered.inj (List.mem_singleton.1 hm)
          exact absurd hnames.type htype
      · have hmem : pkt' ∈ pre ++ post := by
          rcases List.mem_append.1 hp' with hp' | hp'
          · exact List.mem_append_left _ hp'
          · exact List.mem_append_right _ ((List.mem_cons.1 hp').resolve_left heq)
        obtain ⟨hid, hmem⟩ := hother hmem
        exact hkeep pkt' hmem hallow (hi ▸ hne pkt' pkt hmem hpkt hid)
  · intro id inbound error hm
    rcases List.mem_append.1 hm with hm | hm
    · exact (hF.injected id inbound error hm).mono
    · cases List.mem_singleton.1 hm

/-- The collected packets leave the queue one after the other. -/
theorem FailClosed.collect (hF : FailClosed socketId s h) (hc : CollectEnd s.so.pendingQueue (rest, taken)) :
    FailClosed socketId
      { s with so := s.so.withQueue rest s.so.packetsWaitingForReporting, injection := some ⟨taken, none⟩ }
      (h ++ taken.map fun pkt => .taken pkt.id) := by
  obtain ⟨⟨seen, hseen, hrest, htaken, -⟩, -⟩ := hc
  have hold : ∀ pkt' ∈ seen, pkt'.allowData →
    pkt'.needToBeReported = false ∧ Permitted socketId h pkt'.id := by
    intro pkt' hp hallow
    obtain ⟨pkt, hmem, b, rfl, -⟩ := exists_partner hseen hp
    exact hF.queue pkt hmem hallow
  refine ⟨hF.identity, ?_, ?_, ?_⟩
  · intro pkt hp hallow
    obtain ⟨hn, hP⟩ := hold pkt (hrest.subset hp) hallow
    exact ⟨hn, hP.plain (plain_taken taken)⟩
  · intro i hi pkt hp hallow
    obtain rfl := Option.some.inj hi
    obtain ⟨pre, post, rfl⟩ := List.append_of_mem hp
    refine ⟨h ++ pre.map (fun pkt => .taken pkt.id), post.map (fun pkt => .taken pkt.id), by simp, ?_⟩
    exact (hold pkt (htaken.subset hp) hallow).2.plain (plain_taken pre)
  · intro id inbound error hm
    rcases List.mem_append.1 hm with hm | hm
    · exact (hF.injected id inbound error hm).mono
    · cases plain_taken taken _ hm

theorem FailClosed.inject {uninitialised result : Errno} {freeMbufs : Bool} (hF : FailClosed socketId s h)
    (hi : s.injection = some ⟨pkt :: rest, none⟩)
    (he : s.so.inject pkt uninitialised result = (freeMbufs, e)) :
    FailClosed socketId
      { s with injection := some ⟨rest, some (if freeMbufs then .toFree pkt else .toAccount pkt)⟩ }
        (h ++ e) := by
  have hsilent : ∀ property reached, .answered property reached ∉ e := by
    obtain ⟨-, rfl⟩ := Prod.mk.inj he
    intro property reached hm
    split at hm <;> simp at hm
  refine ⟨hF.identity, ?_, ?_, ?_⟩
  · intro pkt hp hallow
    obtain ⟨hn, hP⟩ := hF.queue pkt hp hallow
    exact ⟨hn, hP.append fun _ _ hm => absurd hm (hsilent _ _)⟩
  · intro i hi' pkt' hp hallow
    obtain rfl := Option.some.inj hi'
    exact (hF.toInject _ hi pkt' (List.mem_cons_of_mem _ hp) hallow).mono
  · intro id inbound error hm
    rcases List.mem_append.1 hm with hm | hm
    · exact (hF.injected id inbound error hm).mono
    · obtain ⟨-, rfl⟩ := Prod.mk.inj he
      split at hm
      · cases hm
      · rename_i hskip
        obtain ⟨rfl, -⟩ := SocketEvent.injected.inj (List.mem_singleton.1 hm)
        have hallow : pkt.allowData := by
          by_contra hn
          exact hskip (by simp [hn])
        exact (hF.toInject _ hi pkt (List.mem_cons_self ..) hallow).mono

theorem Delivered.allowData {events : List SocketEvent} (hd : Delivered events pkt pkt')
    (hn : pkt.allowData → pkt.needToBeReported = false) (ha : pkt'.allowData) : pkt' = pkt := by
  cases hd with
  | same => rfl
  | reported hneed => exact absurd hneed (by simp [hn ha])
  | expired => cases ha
  | noData hneed => exact absurd hneed (by simp [hn ha])

theorem FailClosed.step (hF : FailClosed socketId s h) (hC : Custody s h) (hQ : QueueShape s)
    (hsuffix : ReportSuffix s.so.pendingQueue) (hcap : s.captures < 2 ^ 32) (ha : Addressed s a) (hs : socketMachine.step s a = some (s', e)) :
    FailClosed socketId s' (h ++ e) := by
  cases SocketState.step_inv hs with
  | quiet hsame =>
    exact hF.sublist hsame.socketId (by simp) (by rw [hsame.queue]; exact fun _ h => h) fun i hi =>
      ⟨i, hi, fun _ h => h⟩
  | capture _ _ _ _ _ hq _ _ hid =>
    refine hF.sublist hid (by simp) ?_ fun i hi => ⟨i, hi, fun _ h => h⟩
    simp only [hq]
    exact fun _ h => h
  | copy => exact hF.sublist rfl (by simp) (fun _ h => h) fun i hi => ⟨i, hi, fun _ h => h⟩
  | @queue id c _ _ _ hc hq => exact hF.queuePkt (hQ.fresh id c (.inr hc)).notAllowed hq
  | @send id client c =>
    refine hF.sublist rfl (plain_reports ?_) (fun _ h => h) fun i hi => ⟨i, hi, fun _ h => h⟩
    split <;> simp [SocketEvent.isReport]
  | noSend => exact hF.sublist rfl (by simp) (fun _ h => h) fun i hi => ⟨i, hi, fun _ h => h⟩
  | finish => exact hF.sublist rfl (by simp [SocketEvent.decides]) (fun _ h => h) fun i hi =>
    ⟨i, hi, fun _ h => h⟩
  | @deliver outcome queue so _ _ hd =>
    have hso : so = _ := hd.so_eq
    refine hF.plain (by rw [hso]; rfl) (plain_reports hd.reports) ?_
      fun i hi => ⟨i, hi, fun _ h => h⟩
    intro pkt' hp ha
    obtain ⟨pkt, hmem, hdel⟩ := exists_partner hd.pkts hp
    obtain rfl := hdel.allowData (fun h => (hF.queue pkt hmem h).1) ha
    exact ⟨_, hmem, ha, rfl, fun h => h⟩
  | property hp => exact hF.property hC hQ hsuffix hcap (ha.trans hF.identity) hp
  | collect _ hc => exact hF.collect hc
  | inject hi he => exact hF.inject hi he
  | freeMbufs hi =>
    refine hF.sublist rfl (by simp [SocketEvent.decides]) (fun _ h => h) fun i hi' => ⟨_, hi, ?_⟩
    obtain rfl := Option.some.inj hi'
    exact fun _ h => h
  | account hi hsame =>
    refine hF.sublist hsame.socketId (by simp [SocketEvent.decides])
      (by simp only [hsame.queue]; exact fun _ h => h)
      fun i hi' => ⟨_, hi, ?_⟩
    obtain rfl := Option.some.inj hi'
    exact fun _ h => h
  | unlock => exact hF.sublist rfl (by simp) (fun _ h => h) fun i hi => by cases hi
  | purge _ _ hq _ _ hid =>
    refine hF.sublist hid (plain_purge _) ?_ fun i hi => ⟨i, hi, fun _ h => h⟩
    simp only [hq]
    exact fun _ h => List.mem_of_mem_filter h

theorem failClosed_of_run {size : Nat}
    (hr : socketMachine.RunAlong Addressed (SocketState.start socketId size) s h)
    (hcap : s.captures < 2 ^ 32) : FailClosed socketId s h := by
  obtain ⟨as, hr, hC⟩ := hr
  have hinv := Machine.run_induction
    (fun s h => socketMachine.Reachable (SocketState.start socketId size) s ∧ Custody s h ∧
      (s.captures < 2 ^ 32 → FailClosed socketId s h)) []
    ⟨.refl, custody_start, fun _ => failClosed_start⟩ (fun s h a s' e hI ha hs => ?_) hC hr
  · exact hinv.2.2 hcap
  · obtain ⟨hreach, hC, hF⟩ := hI
    refine ⟨hreach.step hs, hC.step hs, ?_⟩
    intro hlt
    have hlt := (captures_le_of_step hs).trans_lt hlt
    exact (hF hlt).step hC (queueShape_of_reachable hreach) (reportSuffix_of_captures hreach hlt) hlt ha hs

end NkeFilter
