import NkeFilter.FltData

/-!
# What the regions of a socket do

One description for each of the loops over the pending queue: `deliverLoop` and `propertyLoop` change
packets in place (`Delivered`, `propertyLoop_spec`), `collectLoop` splits the queue (`collectLoop_spec`)
and `purgeLoop` filters it (`purgeLoop_queue`). None of them looks at `id`.
-/

namespace NkeFilter
open NkeSocketObject

def pktIds (l : List PendingPktQueueItem) : List Nat := l.map (·.id)

/-- The packets that still have to be reported form a suffix. -/
def ReportSuffix (l : List PendingPktQueueItem) : Prop :=
  l.Pairwise fun pkt pkt' => pkt.needToBeReported → pkt'.needToBeReported

def waitingCount (l : List PendingPktQueueItem) : Nat := l.countP (·.needToBeReported)

variable {so so' : NkeSocketObject} {pkt pkt' : PendingPktQueueItem} {queue rest : List PendingPktQueueItem}
  {l : DeliverLocals} {now : UInt64}

/-- An event a delivery makes. -/
def SocketEvent.isReport : SocketEvent → Bool
  | .copied .. | .notified .. | .wakeup _ | .setRcvBuf _ => true
  | _ => false

theorem exists_partner {α β : Type} {R : α → β → Prop} {l : List α} {l' : List β} {b : β}
    (h : List.Forall₂ R l l') (hb : b ∈ l') : ∃ a ∈ l, R a b := by
  induction h with
  | nil => cases hb
  | cons hR _ ih =>
    rcases List.mem_cons.1 hb with rfl | hb
    · exact ⟨_, List.mem_cons_self .., hR⟩
    · obtain ⟨a, ha, hR⟩ := ih hb
      exact ⟨a, List.mem_cons_of_mem _ ha, hR⟩

/-! ### Deadline and wait entry -/

theorem isDeadlineTimerExpired_snd (pkt : PendingPktQueueItem) (now : UInt64) :
    (pkt.isDeadlineTimerExpired now).2 =
      { pkt with deadlineTimerExpired := (pkt.isDeadlineTimerExpired now).1 } := by
  unfold PendingPktQueueItem.isDeadlineTimerExpired
  split
  · rename_i h
    exact congrArg (fun b => { pkt with deadlineTimerExpired := b }) h
  · rfl

theorem isDeadlineTimerExpired_of_latched (h : pkt.deadlineTimerExpired) :
    (pkt.isDeadlineTimerExpired now).1 = true := by
  simp [PendingPktQueueItem.isDeadlineTimerExpired, h]

theorem isDeadlineTimerExpired_not (h : (pkt.isDeadlineTimerExpired now).1 = false) :
    (pkt.isDeadlineTimerExpired now).2 = pkt := by
  have hl : pkt.deadlineTimerExpired = false := by
    by_contra hn
    rw [isDeadlineTimerExpired_of_latched (by simpa using hn)] at h
    cases h
  rw [isDeadlineTimerExpired_snd, h, ← hl]

theorem satisfyWait_fst (pkt : PendingPktQueueItem) : pkt.satisfyWait.1 = { pkt with waitEntry := none } := by
  unfold PendingPktQueueItem.satisfyWait
  split
  · rename_i h
    exact congrArg (fun w => { pkt with waitEntry := w }) h
  · rfl

/-! ### Queueing -/

/-- What the region of `FltData` does: the packet goes to the end of the queue, as it is or postponed. -/
inductive QueueEnd (so : NkeSocketObject) (c : FltDataCall) :
    NkeSocketObject × FltDataCall × List SocketEvent → Prop
  | posted : c.error = KERN_SUCCESS → so.packetsWaitingForReporting = 0 → QueueEnd so c
      ({ so with pendingQueue := so.pendingQueue ++ [c.pendingPkt] }, c, [.queued c.pendingPkt.id])
  | postponed {so' : NkeSocketObject} {c' : FltDataCall} {events : List SocketEvent} :
      c.error ≠ KERN_SUCCESS ∨ so.packetsWaitingForReporting ≠ 0 → c'.pendingPkt.id = c.pendingPkt.id →
      c'.pendingPkt.dataIndex = c.pendingPkt.dataIndex → c'.pendingPkt.data = c.pendingPkt.data →
      c'.pendingPkt.allowData = c.pendingPkt.allowData → c'.pendingPkt.needToBeReported →
      c'.sendNotification = false → so'.pendingQueue = so.pendingQueue ++ [c'.pendingPkt] →
      so'.packetsWaitingForReporting = so.packetsWaitingForReporting + 1 →
      so'.pendingDataNextIndex = so.pendingDataNextIndex → so'.socketId = so.socketId →
      (∀ e ∈ events, e = .setRcvBuf 1 ∨ e = .enlisted) →
      QueueEnd so c (so', c', .queued c.pendingPkt.id :: events)

theorem queuePkt_spec (so : NkeSocketObject) (c : FltDataCall) : QueueEnd so c (so.queuePkt c) := by
  unfold queuePkt
  by_cases hp : c.error ≠ KERN_SUCCESS ∨ so.packetsWaitingForReporting ≠ 0
  · simp only [if_pos hp]
    refine .postponed hp rfl rfl rfl rfl rfl rfl rfl rfl rfl rfl ?_
    intro e he
    rcases List.mem_append.1 he with he | he
    · split at he
      · exact .inl (List.mem_singleton.1 he)
      · cases he
    · split at he
      · exact .inr (List.mem_singleton.1 he)
      · cases he
  · simp only [if_neg hp]
    rw [not_or, not_ne_iff, not_ne_iff] at hp
    exact .posted hp.1 hp.2

/-! ### Delivery -/

/-- What a delivery that made `events` can do to a packet. -/
inductive Delivered (events : List SocketEvent) : PendingPktQueueItem → PendingPktQueueItem → Prop
  | same {pkt : PendingPktQueueItem} : Delivered events pkt pkt
  | reported {pkt : PendingPktQueueItem} {n : NkeSocketFilterNotification} : pkt.needToBeReported →
      .notified pkt.id n ∈ events → n.dataIndex = pkt.dataIndex →
      Delivered events pkt { pkt with needToBeReported := false, waitEntry := none }
  | expired {pkt : PendingPktQueueItem} : pkt.needToBeReported → Delivered events pkt
      { pkt with
        needToBeReported := false, allowData := false, deadlineTimerExpired := true, waitEntry := none }
  | noData {pkt : PendingPktQueueItem} : pkt.needToBeReported → pkt.data = [] →
      Delivered events pkt { pkt with needToBeReported := false, waitEntry := none }

theorem Delivered.mono {events events' : List SocketEvent} (h : Delivered events pkt pkt')
    (hsub : ∀ e ∈ events, e ∈ events') : Delivered events' pkt pkt' := by
  cases h with
  | same => exact .same
  | reported hn he hi => exact .reported hn (hsub _ he) hi
  | expired hn => exact .expired hn
  | noData hn hd => exact .noData hn hd

theorem Delivered.id {events : List SocketEvent} (h : Delivered events pkt pkt') : pkt'.id = pkt.id := by
  cases h <;> rfl

theorem Delivered.dataIndex {events : List SocketEvent} (h : Delivered events pkt pkt') :
    pkt'.dataIndex = pkt.dataIndex := by
  cases h <;> rfl

theorem Delivered.waits {events : List SocketEvent} (h : Delivered events pkt pkt')
    (hw : pkt'.needToBeReported) : pkt.needToBeReported := by
  cases h with
  | same => exact hw
  | reported hn => exact hn
  | expired hn => exact hn
  | noData hn => exact hn

theorem waitingCount_delivered {events : List SocketEvent}
    (h : List.Forall₂ (Delivered events) queue rest) : waitingCount rest ≤ waitingCount queue := by
  induction h with
  | nil => exact Nat.le_refl _
  | @cons pkt pkt' _ _ hpkt _ ih =>
    simp only [waitingCount, List.countP_cons] at ih ⊢
    by_cases hneed : pkt'.needToBeReported
    · simp only [hneed, hpkt.waits hneed, if_true]
      omega
    · rw [if_neg hneed]
      exact ih.trans (Nat.le_add_right ..)

theorem reported_fst (so : NkeSocketObject) (pkt : PendingPktQueueItem) :
    (so.reported pkt).1 = { pkt with needToBeReported := false, waitEntry := none } := by
  unfold reported
  exact satisfyWait_fst _

theorem satisfyWait_wakes (pkt : PendingPktQueueItem) : ∀ x ∈ pkt.satisfyWait.2, ∃ w, x = .wakeup w := by
  intro x hx
  unfold PendingPktQueueItem.satisfyWait at hx
  split at hx
  · cases hx
  · exact ⟨_, List.mem_singleton.1 hx⟩

theorem satisfyWait_reports (pkt : PendingPktQueueItem) : ∀ e ∈ pkt.satisfyWait.2, e.isReport := by
  intro e he
  obtain ⟨w, rfl⟩ := satisfyWait_wakes pkt e he
  rfl

theorem reported_reports (so : NkeSocketObject) (pkt : PendingPktQueueItem) :
    ∀ e ∈ (so.reported pkt).2.2, e.isReport := by
  intro e he
  simp only [reported, List.mem_append] at he
  rcases he with he | he
  · exact satisfyWait_reports _ e he
  · split at he
    · obtain rfl := List.mem_singleton.1 he
      rfl
    · cases he

theorem report_reports (so : NkeSocketObject) (pkt : PendingPktQueueItem) (o : ReportOutcome)
    (l : DeliverLocals) :
    ∀ e ∈ (so.report pkt o l).2, e.isReport := by
  unfold report
  split
  · simp
  · split
    · simp
    · split <;> simp [SocketEvent.isReport]

theorem reported_snd (so : NkeSocketObject) (pkt : PendingPktQueueItem) :
    (so.reported pkt).2.1 = { so with packetsWaitingForReporting := so.packetsWaitingForReporting - 1 } := rfl

theorem report_ok (so : NkeSocketObject) (pkt : PendingPktQueueItem) (o : ReportOutcome) (l : DeliverLocals)
    (hd : pkt.data ≠ []) (h : (so.report pkt o l).1.error = KERN_SUCCESS) :
    .notified pkt.id { so.initSocketNotification pkt with buffers := o.buffers } ∈ (so.report pkt o l).2 := by
  unfold report at h ⊢
  rw [if_neg hd] at h ⊢
  by_cases hc : o.copied = KERN_SUCCESS
  · by_cases hn : o.notified = KERN_SUCCESS
    · simp [hc, hn]
    · simp [hc, hn] at h
  · simp [hc] at h

/-- What the delivery loop leaves: the packets in their order, each as `Delivered` says, the waiting ones
still a suffix, and the counter lowered by the number of packets that wait no longer. -/
structure DeliverEnd (queue : List PendingPktQueueItem) (so : NkeSocketObject)
    (r : List PendingPktQueueItem × NkeSocketObject × DeliverLocals × List SocketEvent) : Prop where
  pkts : List.Forall₂ (Delivered r.2.2.2) queue r.1
  suffix : ReportSuffix queue → ReportSuffix r.1
  so_eq : r.2.1 = { so with
    packetsWaitingForReporting :=
      so.packetsWaitingForReporting - (Int32.ofNat (waitingCount queue) - Int32.ofNat (waitingCount r.1)) }
  reports : ∀ e ∈ r.2.2.2, e.isReport

theorem DeliverEnd.cons (sent : List SocketEvent)
    {r : List PendingPktQueueItem × NkeSocketObject × DeliverLocals × List SocketEvent}
    (hneed : pkt.needToBeReported) (hsent : ∀ e ∈ sent, e.isReport)
    (hr : DeliverEnd rest (so.reported pkt').2.1 r)
    (hpkt : Delivered (sent ++ (so.reported pkt').2.2 ++ r.2.2.2) pkt (so.reported pkt').1) :
    DeliverEnd (pkt :: rest) so
      ((so.reported pkt').1 :: r.1, r.2.1, r.2.2.1, sent ++ (so.reported pkt').2.2 ++ r.2.2.2) := by
  have hdone : (so.reported pkt').1.needToBeReported = false := by rw [reported_fst]
  refine ⟨.cons hpkt (hr.pkts.imp fun _ _ h => h.mono fun e he => List.mem_append_right _ he), ?_, ?_, ?_⟩
  · intro h
    exact List.pairwise_cons.2 ⟨fun _ _ hn => by simp [hdone] at hn, hr.suffix (List.pairwise_cons.1 h).2⟩
  · rw [hr.so_eq, reported_snd]
    have hminus : ∀ a n m : Int32, a - 1 - (n - m) = a - (n + 1 - m) := by
      intro a n m
      grind
    simp [waitingCount, hneed, hdone, hminus]
  · intro e he
    rcases List.mem_append.1 he with he | he
    · rcases List.mem_append.1 he with he | he
      · exact hsent e he
      · exact reported_reports _ _ e he
    · exact hr.reports e he

theorem deliverLoop_spec (outcome : Nat → ReportOutcome) :
    DeliverEnd queue so (deliverLoop outcome queue so l) := by
  induction queue generalizing outcome so l with
  | nil => exact ⟨.nil, id, by simp [deliverLoop, waitingCount], by simp [deliverLoop]⟩
  | cons pkt rest ih =>
    unfold deliverLoop
    by_cases hneed : pkt.needToBeReported
    · simp only [hneed, Bool.not_true, Bool.false_eq_true, if_false]
      have hrep := report_ok so pkt (outcome 0) l
      have hsent := report_reports so pkt (outcome 0) l
      generalize so.report pkt (outcome 0) l = r at hrep hsent
      obtain ⟨l₁, sent⟩ := r
      have hgoes := fun pkt' => DeliverEnd.cons sent hneed hsent
        (@ih (so.reported pkt').2.1 l₁ fun i => outcome (i + 1))
      by_cases he : l₁.error = KERN_SUCCESS
      · have hend := hgoes pkt (by
          rw [reported_fst]
          by_cases hd : pkt.data = []
          · exact .noData hneed hd
          · exact .reported hneed (List.mem_append_left _ (List.mem_append_left _ (hrep hd he))) rfl)
        simpa [he] using hend
      · cases hexp : (pkt.isDeadlineTimerExpired (outcome 0).now).1
        · have hstays : DeliverEnd (pkt :: rest) so
              (pkt :: rest, so, { l₁ with reinsertInList := true }, sent) :=
            ⟨List.forall₂_same.2 fun _ _ => .same, id, by simp, hsent⟩
          simpa [he, hexp, isDeadlineTimerExpired_not hexp] using hstays
        · have hend := hgoes { (pkt.isDeadlineTimerExpired (outcome 0).now).2 with allowData := false } (by
            rw [reported_fst, isDeadlineTimerExpired_snd, hexp]
            exact .expired hneed)
          simpa [he, hexp] using hend
    · rw [if_pos (by simpa using hneed)]
      obtain ⟨hpkts, hsuffix, hso, hreports⟩ := @ih so l fun i => outcome (i + 1)
      refine ⟨.cons .same hpkts, ?_, ?_, hreports⟩
      · intro h
        exact List.pairwise_cons.2 ⟨fun _ _ hn => absurd hn hneed, hsuffix (List.pairwise_cons.1 h).2⟩
      · rw [hso]
        simp [waitingCount, hneed]

theorem report_reinsert (so : NkeSocketObject) (pkt : PendingPktQueueItem) (o : ReportOutcome)
    (l : DeliverLocals) : (so.report pkt o l).1.reinsertInList = l.reinsertInList := by
  unfold report
  split
  · rfl
  · split
    · rfl
    · split <;> rfl

/-- The socket is to be put back exactly when a packet of it still waits, and then `error` is set. -/
theorem deliverLoop_reinsert (outcome : Nat → ReportOutcome) (queue : List PendingPktQueueItem)
    (so : NkeSocketObject) (l : DeliverLocals) (hl : l.reinsertInList = false) :
    ((deliverLoop outcome queue so l).2.2.1.reinsertInList = false ∧
        waitingCount (deliverLoop outcome queue so l).1 = 0) ∨
      ((deliverLoop outcome queue so l).2.2.1.reinsertInList = true ∧
        (deliverLoop outcome queue so l).2.2.1.error ≠ KERN_SUCCESS ∧
        0 < waitingCount (deliverLoop outcome queue so l).1) := by
  induction queue generalizing outcome so l with
  | nil => exact .inl ⟨hl, rfl⟩
  | cons pkt rest ih =>
    unfold deliverLoop
    by_cases hneed : pkt.needToBeReported
    · have hl₁ := (report_reinsert so pkt (outcome 0) l).trans hl
      simp only [hneed, Bool.not_true, Bool.false_eq_true, if_false]
      generalize so.report pkt (outcome 0) l = r at hl₁
      obtain ⟨l₁, sent⟩ := r
      have hgoes : ∀ pkt',
          waitingCount ((so.reported pkt').1 ::
            (deliverLoop (fun i => outcome (i + 1)) rest (so.reported pkt').2.1 l₁).1) =
          waitingCount (deliverLoop (fun i => outcome (i + 1)) rest (so.reported pkt').2.1 l₁).1 := by
        intro pkt'
        rw [reported_fst]
        simp [waitingCount]
      by_cases he : l₁.error = KERN_SUCCESS
      · simpa [he, hgoes] using ih (fun i => outcome (i + 1)) (so.reported pkt).2.1 l₁ hl₁
      · cases hexp : (pkt.isDeadlineTimerExpired (outcome 0).now).1
        · simp [he, hexp, isDeadlineTimerExpired_not hexp, waitingCount, hneed]
        · simpa [he, hexp, hgoes] using ih (fun i => outcome (i + 1))
            (so.reported { (pkt.isDeadlineTimerExpired (outcome 0).now).2 with allowData := false }).2.1 l₁ hl₁
    · rw [if_pos (by simpa using hneed)]
      simpa [waitingCount, hneed] using ih (fun i => outcome (i + 1)) so l hl

/-! ### Answers -/

/-- What `setDeferredDataProperties` does: nothing, or it applies the property to a packet that has been
reported and has its index. -/
inductive PropertyEnd (property : NkeSocketDataProperty) :
    List PendingPktQueueItem → List PendingPktQueueItem × Option PendingPktQueueItem → Prop
  | none {queue : List PendingPktQueueItem} :
      (ReportSuffix queue → ∀ pkt ∈ queue, pkt.needToBeReported = false →
        pkt.dataIndex ≠ property.dataIndex) →
      PropertyEnd property queue (queue, .none)
  | applied {pre post : List PendingPktQueueItem} {pkt : PendingPktQueueItem} :
      pkt.needToBeReported = false → pkt.dataIndex = property.dataIndex →
      PropertyEnd property (pre ++ pkt :: post) (pre ++ setProperty pkt property :: post, some pkt)

theorem propertyLoop_spec (property : NkeSocketDataProperty) :
    PropertyEnd property queue (propertyLoop property queue) := by
  induction queue with
  | nil => exact .none fun _ _ h => by cases h
  | cons pkt rest ih =>
    unfold propertyLoop
    by_cases hneed : pkt.needToBeReported
    · -- behind a waiting packet all wait
      rw [if_pos hneed]
      refine .none ?_
      intro hs pkt' hmem hfalse
      rcases List.mem_cons.1 hmem with rfl | hmem
      · rw [hneed] at hfalse; cases hfalse
      · have := (List.pairwise_cons.1 hs).1 pkt' hmem hneed
        rw [hfalse] at this; cases this
    · rw [if_neg hneed]
      by_cases hi : pkt.dataIndex = property.dataIndex
      · simp only [hi, ne_eq, not_true_eq_false, if_false]
        exact @PropertyEnd.applied property [] rest pkt (by simpa using hneed) hi
      · simp only [hi, ne_eq, not_false_eq_true, if_true]
        generalize propertyLoop property rest = r at ih
        cases ih with
        | none h =>
          refine .none ?_
          intro hs pkt' hmem hfalse
          rcases List.mem_cons.1 hmem with rfl | hmem
          · exact hi
          · exact h (List.pairwise_cons.1 hs).2 pkt' hmem hfalse
        | @applied pre post pkt' h h' => exact @PropertyEnd.applied property (pkt :: pre) post pkt' h h'

theorem PropertyEnd.mem {property : NkeSocketDataProperty} {reached : Option PendingPktQueueItem}
    (hp : PropertyEnd property queue (rest, reached)) (h : pkt' ∈ rest) :
    ∃ pkt ∈ queue, pkt' = pkt ∨ pkt' = setProperty pkt property := by
  cases hp with
  | none => exact ⟨pkt', h, .inl rfl⟩
  | @applied pre post pkt =>
    rcases List.mem_append.1 h with h | h
    · exact ⟨pkt', List.mem_append_left _ h, .inl rfl⟩
    · rcases List.mem_cons.1 h with rfl | h
      · exact ⟨pkt, by simp, .inr rfl⟩
      · exact ⟨pkt', List.mem_append_right _ (List.mem_cons_of_mem _ h), .inl rfl⟩

theorem setProperty_eq (pkt : PendingPktQueueItem) (property : NkeSocketDataProperty) :
    ∃ allowData responseReceived,
    setProperty pkt property = { pkt with allowData, responseReceived } := by
  unfold setProperty
  split
  · exact ⟨_, _, rfl⟩
  · exact ⟨_, _, rfl⟩

@[simp] theorem setProperty_id {property : NkeSocketDataProperty} :
    (setProperty pkt property).id = pkt.id := by
  obtain ⟨_, _, heq⟩ := setProperty_eq pkt property
  rw [heq]

@[simp] theorem setProperty_needToBeReported {property : NkeSocketDataProperty} :
    (setProperty pkt property).needToBeReported = pkt.needToBeReported := by
  obtain ⟨_, _, heq⟩ := setProperty_eq pkt property
  rw [heq]

/-! ### Collecting and purging -/

def Latched (pkt pkt' : PendingPktQueueItem) : Prop :=
  ∃ b, pkt' = { pkt with deadlineTimerExpired := b } ∧ (pkt.deadlineTimerExpired → b)

theorem Latched.refl (pkt : PendingPktQueueItem) : Latched pkt pkt := ⟨_, rfl, id⟩

theorem latched_isDeadlineTimerExpired (pkt : PendingPktQueueItem) (now : UInt64) :
    Latched pkt (pkt.isDeadlineTimerExpired now).2 :=
  ⟨_, isDeadlineTimerExpired_snd pkt now, isDeadlineTimerExpired_of_latched⟩

/-- The collecting loop splits the queue, with some deadlines looked at, into two parts in queue order. -/
structure CollectEnd (queue : List PendingPktQueueItem)
    (r : List PendingPktQueueItem × List PendingPktQueueItem) : Prop where
  split : ∃ seen, List.Forall₂ Latched queue seen ∧ r.1.Sublist seen ∧ r.2.Sublist seen ∧
    (r.2 ++ r.1).Perm seen
  taken : ∀ pkt ∈ r.2, pkt.needToBeReported = false

theorem collectLoop_spec (injectType : NkeSocketDataDirectionType) (clock : Nat → UInt64) :
    CollectEnd queue (collectLoop injectType clock queue) := by
  induction queue generalizing clock with
  | nil => exact ⟨⟨[], .nil, .refl _, .refl _, .refl _⟩, fun _ h => by cases h⟩
  | cons pkt rest ih =>
    obtain ⟨⟨seen, hseen, hrest, htaken, hperm⟩, hneeds⟩ := ih (fun i => clock (i + 1))
    have hkept : ∀ pkt', Latched pkt pkt' → CollectEnd (pkt :: rest) (pkt' :: rest, []) := fun pkt' h =>
      ⟨⟨pkt' :: rest, .cons h (List.forall₂_same.2 fun _ _ => .refl _), .refl _, List.nil_sublist _, .refl _⟩,
        fun _ h => by cases h⟩
    unfold collectLoop
    by_cases hcov : injectType.covers pkt.dataInbound
    · simp only [hcov, Bool.not_true, Bool.false_eq_true, if_false]
      by_cases hneed : pkt.needToBeReported
      · rw [if_pos hneed]
        exact hkept pkt (.refl _)
      · rw [if_neg hneed]
        have hlatch := latched_isDeadlineTimerExpired pkt (clock 0)
        generalize hr : pkt.isDeadlineTimerExpired (clock 0) = r at hlatch
        obtain ⟨expired, pkt'⟩ := r
        simp only at hlatch ⊢
        split
        · exact hkept pkt' hlatch
        · refine ⟨⟨pkt' :: seen, .cons hlatch hseen, hrest.cons _, htaken.cons_cons _, hperm.cons _⟩, ?_⟩
          intro pkt₁ hpkt₁
          rcases List.mem_cons.1 hpkt₁ with rfl | hpkt₁
          · obtain ⟨b, rfl, -⟩ := hlatch
            simpa using hneed
          · exact hneeds pkt₁ hpkt₁
    · simp only [hcov, Bool.not_false, if_true]
      refine ⟨⟨pkt :: seen, .cons (.refl _) hseen, hrest.cons_cons _, htaken.cons _, ?_⟩, hneeds⟩
      exact List.perm_middle.trans (hperm.cons _)

def purgeEvents (pkt : PendingPktQueueItem) : List SocketEvent :=
  pkt.satisfyWait.2 ++ [.freedMbufs pkt.id, .freedEntry pkt.id]

/-- A purge satisfies waits and frees what it takes out, and does nothing else. -/
theorem purgeEvents_inv {purged : List PendingPktQueueItem} {x : SocketEvent}
    (hx : x ∈ purged.flatMap purgeEvents) :
    (∃ w, x = .wakeup w) ∨ ∃ pkt ∈ purged, x = .freedMbufs pkt.id ∨ x = .freedEntry pkt.id := by
  obtain ⟨pkt, hp, hx⟩ := List.mem_flatMap.1 hx
  rcases List.mem_append.1 hx with hx | hx
  · exact .inl (satisfyWait_wakes pkt x hx)
  · exact .inr ⟨pkt, hp, by simpa using hx⟩

@[simp] theorem uncountPkt_packetsWaitingForReporting :
    (so.uncountPkt pkt).packetsWaitingForReporting = so.packetsWaitingForReporting := by
  unfold uncountPkt
  split <;> rfl

theorem purgeLoop_spec (purgeType : NkeSocketDataDirectionType) (queue : List PendingPktQueueItem)
    (so : NkeSocketObject) :
    (purgeLoop purgeType queue so).1 = queue.filter (fun pkt => !purgeType.covers pkt.dataInbound) ∧
      (purgeLoop purgeType queue so).2.2 =
        (queue.filter fun pkt => purgeType.covers pkt.dataInbound).flatMap purgeEvents ∧
      (purgeLoop purgeType queue so).2.1.packetsWaitingForReporting = so.packetsWaitingForReporting -
        Int32.ofNat (waitingCount (queue.filter fun pkt => purgeType.covers pkt.dataInbound)) := by
  induction queue generalizing so with
  | nil => exact ⟨rfl, rfl, by simp [purgeLoop, waitingCount]⟩
  | cons pkt rest ih =>
    unfold purgeLoop
    by_cases hcov : purgeType.covers pkt.dataInbound
    · rw [if_neg (by simpa using hcov)]
      have hwait := satisfyWait_fst pkt
      rcases hw : pkt.satisfyWait with ⟨pkt', woken⟩
      rw [hw] at hwait
      obtain rfl : pkt' = { pkt with waitEntry := none } := hwait
      obtain ⟨hq, he, hp⟩ := ih ((if pkt.needToBeReported then
        { so with packetsWaitingForReporting := so.packetsWaitingForReporting - 1 } else so).uncountPkt
          { pkt with waitEntry := none })
      refine ⟨by simp [hcov, hq], by simp [hcov, he, purgeEvents, hw], ?_⟩
      rw [uncountPkt_packetsWaitingForReporting] at hp
      simp only [hp, hcov, List.filter_cons_of_pos, waitingCount, List.countP_cons]
      split
      · have hminus : ∀ a n : Int32, a - 1 - n = a - (n + 1) := by
          intro a n
          grind
        rw [Int32.ofNat_add, hminus]
        rfl
      · simp
    · obtain ⟨hq, he, hp⟩ := ih so
      rw [if_pos (by simpa using hcov)]
      exact ⟨by simp [hcov, hq], by simp [hcov, he], by simp [hcov, hp]⟩

end NkeFilter
