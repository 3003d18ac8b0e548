import NkeFilter.InjectionOrder
import NkeFilter.QueueShape

/-!
# The order of notifications

A packet is reported by its own `FltData` call, which sends the notification after it has inserted the packet
and given `rwLock` back, or later by a delivery, under the lock. When the calls of a direction do not overlap,
the packet a call is about to report and the marked packets of the queue form a queue that may lose packets: a
call that reports its packet itself found none marked, and until it is done none of its direction is added.
-/

namespace NkeFilter
open Lib NkeSocketObject

def dataEvent (dataInbound : Bool) : NkeSocketFilterEvent :=
  if dataInbound then .NkeSocketFilterEventDataIn else .NkeSocketFilterEventDataOut

/-- The packet a data notification of this direction is enqueued for. -/
def notifiedPkt (dataInbound : Bool) : SocketEvent → Option Nat
  | .notified id n => if n.event = dataEvent dataInbound then some id else none
  | _ => none

/-- The packets of one direction that still have to be reported. -/
def marked (dataInbound : Bool) (l : List PendingPktQueueItem) : List Nat :=
  directed dataInbound (l.filter (·.needToBeReported))

/-- The `FltData` call, from the capture of its packet until it returns. -/
def CallPhase.inProgress : CallPhase → Option FltDataCall
  | .captured c | .copied c | .queued c | .sent c => some c
  | _ => none

/-- `FltData` is called for a direction when no call for that direction is in progress. -/
def NotOverlapping (s : SocketState) (a : SocketLabel) : Prop :=
  ∀ dataInbound, a.capturedInbound = some dataInbound →
    ∀ id c, (s.calls id).inProgress = some c → c.pendingPkt.dataInbound ≠ dataInbound

/-- At most one call for each direction is in progress, and its notification is of that direction. -/
structure SerialCalls (s : SocketState) : Prop where
  single : ∀ id id' c c', (s.calls id).inProgress = some c → (s.calls id').inProgress = some c' →
    c.pendingPkt.dataInbound = c'.pendingPkt.dataInbound → id = id'
  event : ∀ id c, (s.calls id).inProgress = some c → c.notification.event = dataEvent c.pendingPkt.dataInbound

variable {s s' : SocketState} {a : SocketLabel} {as : List SocketLabel} {h e : List SocketEvent} {id : Nat}
  {so : NkeSocketObject} {pkt : PendingPktQueueItem} {queue rest taken : List PendingPktQueueItem}
  {l : DeliverLocals} {d : Bool} {direction : Nat → Option Bool}

/-! ### Marked packets -/

@[simp] theorem marked_append : marked d (queue ++ rest) = marked d queue ++ marked d rest := by
  rw [marked, List.filter_append, directed_append]
  rfl

theorem marked_cons_of_pos (hneed : pkt.needToBeReported) :
    marked d (pkt :: rest) = (if pkt.dataInbound = d then [pkt.id] else []) ++ marked d rest := by
  rw [marked, List.filter_cons_of_pos hneed, directed_cons]
  rfl

theorem marked_cons_of_neg (hneed : ¬ pkt.needToBeReported) : marked d (pkt :: rest) = marked d rest := by
  rw [marked, List.filter_cons_of_neg hneed]
  rfl

theorem marked_sublist (hsub : rest.Sublist queue) : (marked d rest).Sublist (marked d queue) :=
  directed_sublist (hsub.filter _)

theorem marked_of_forall₂ {R : PendingPktQueueItem → PendingPktQueueItem → Prop}
    (hR : ∀ pkt pkt', R pkt pkt' → pkt'.id = pkt.id ∧ pkt'.dataInbound = pkt.dataInbound ∧
      pkt'.needToBeReported = pkt.needToBeReported)
    (hl : List.Forall₂ R queue rest) : marked d rest = marked d queue := by
  induction hl with
  | nil => rfl
  | @cons pkt pkt' _ _ hpkt _ ih =>
    obtain ⟨hid, hin, hneed⟩ := hR _ _ hpkt
    by_cases hp : pkt.needToBeReported
    · rw [marked_cons_of_pos hp, marked_cons_of_pos (hneed ▸ hp), hid, hin, ih]
    · rw [marked_cons_of_neg hp, marked_cons_of_neg (hneed ▸ hp), ih]

theorem marked_eq_nil (hz : waitingCount queue = 0) : marked d queue = [] := by
  have hnone : queue.filter (·.needToBeReported) = [] := by
    rw [← List.length_eq_zero_iff, ← List.countP_eq_length_filter]
    exact hz
  rw [marked, hnone]
  rfl

/-! ### What a delivery reports -/

theorem dataEvent_inj {d' : Bool} : dataEvent d' = dataEvent d ↔ d' = d := by
  cases d' <;> cases d <;> decide

theorem notifiedPkt_eq_nil (he : ∀ x ∈ e, ∀ id n, x ≠ .notified id n) : e.filterMap (notifiedPkt d) = [] := by
  refine List.filterMap_eq_nil_iff.2 ?_
  intro x hx
  cases x with
  | notified id n => exact absurd rfl (he _ hx id n)
  | _ => rfl

/-- One report: the packet is notified or it is not. -/
theorem report_notified (so : NkeSocketObject) (pkt : PendingPktQueueItem) (o : ReportOutcome)
    (l : DeliverLocals) :
    ((so.report pkt o l).2.filterMap (notifiedPkt d)).Sublist
        (if pkt.dataInbound = d then [pkt.id] else []) ∧
      ((so.report pkt o l).1.error ≠ KERN_SUCCESS → (so.report pkt o l).2.filterMap (notifiedPkt d) = []) := by
  unfold report
  split
  · exact ⟨List.nil_sublist _, fun _ => rfl⟩
  · split
    · exact ⟨List.nil_sublist _, fun _ => rfl⟩
    · split
      · exact ⟨List.nil_sublist _, fun _ => rfl⟩
      · refine ⟨?_, fun hne => absurd rfl hne⟩
        by_cases hd : pkt.dataInbound = d
        · simp [List.filterMap_cons, notifiedPkt, initSocketNotification, dataEvent, hd]
        · have hne : ¬ dataEvent pkt.dataInbound = dataEvent d := fun heq => hd (dataEvent_inj.1 heq)
          have hn : (so.initSocketNotification pkt).event = dataEvent pkt.dataInbound := rfl
          simp [List.filterMap_cons, notifiedPkt, hn, hne]

theorem reported_notified (so : NkeSocketObject) (pkt : PendingPktQueueItem) :
    (so.reported pkt).2.2.filterMap (notifiedPkt d) = [] := by
  refine notifiedPkt_eq_nil ?_
  intro x hx id n heq
  simp only [reported, satisfyWait_fst, List.mem_append] at hx
  rcases hx with hx | hx
  · obtain ⟨w, hw⟩ := satisfyWait_wakes _ x hx
    rw [hw] at heq
    cases heq
  · split at hx
    · rw [List.mem_singleton.1 hx] at heq
      cases heq
    · cases hx

/-- A delivery reports the marked packets from the first on. -/
theorem deliverLoop_notified (outcome : Nat → ReportOutcome) (queue : List PendingPktQueueItem)
    (so : NkeSocketObject) (l : DeliverLocals) :
    ((deliverLoop outcome queue so l).2.2.2.filterMap (notifiedPkt d) ++
      marked d (deliverLoop outcome queue so l).1).Sublist (marked d queue) := by
  induction queue generalizing outcome so l with
  | nil => exact .refl _
  | cons pkt rest ih =>
    unfold deliverLoop
    by_cases hneed : pkt.needToBeReported
    · simp only [hneed, Bool.not_true, Bool.false_eq_true, if_false]
      obtain ⟨hsent, hfailed⟩ := report_notified (d := d) so pkt (outcome 0) l
      generalize so.report pkt (outcome 0) l = r at hsent hfailed
      obtain ⟨l₁, sent⟩ := r
      -- the packet is reported, as `pkt'`, and the loop goes on
      have hgoes : ∀ pkt', ((sent ++ (so.reported pkt').2.2 ++
            (deliverLoop (fun i => outcome (i + 1)) rest (so.reported pkt').2.1 l₁).2.2.2).filterMap
              (notifiedPkt d) ++
          marked d ((so.reported pkt').1 ::
            (deliverLoop (fun i => outcome (i + 1)) rest (so.reported pkt').2.1 l₁).1)).Sublist
              (marked d (pkt :: rest)) := by
        intro pkt'
        rw [List.filterMap_append, List.filterMap_append, reported_notified, List.append_nil,
          marked_cons_of_neg (by simp [reported_fst]), marked_cons_of_pos hneed, List.append_assoc]
        exact hsent.append (ih _ _ _)
      by_cases he : l₁.error = KERN_SUCCESS
      · simpa [he] using hgoes pkt
      · cases hexp : (pkt.isDeadlineTimerExpired (outcome 0).now).1
        · simp [he, hexp, isDeadlineTimerExpired_not hexp, hfailed he]
        · simpa [he, hexp] using
            hgoes { (pkt.isDeadlineTimerExpired (outcome 0).now).2 with allowData := false }
    · rw [if_pos (by simpa using hneed)]
      simp only [marked_cons_of_neg hneed]
      exact ih _ _ _

/-! ### What a step keeps -/

theorem queuePkt_call (so : NkeSocketObject) (c : FltDataCall) :
    (so.queuePkt c).2.1.pendingPkt.dataInbound = c.pendingPkt.dataInbound ∧
      (so.queuePkt c).2.1.notification = c.notification := by
  by_cases hp : c.error ≠ KERN_SUCCESS ∨ so.packetsWaitingForReporting ≠ 0
  · simp [queuePkt, hp]
  · simp [queuePkt, if_neg hp]

theorem SerialCalls.call {phase : CallPhase} (hS : SerialCalls s)
    (hphase : ∀ c', phase.inProgress = some c' → ∃ c, (s.calls id).inProgress = some c ∧
      c'.pendingPkt.dataInbound = c.pendingPkt.dataInbound ∧ c'.notification.event = c.notification.event) :
    SerialCalls (s.setCall id phase) := by
  -- every call in progress was so before, for the same direction
  have hback : ∀ id' c', ((s.setCall id phase).calls id').inProgress = some c' →
      ∃ c, (s.calls id').inProgress = some c ∧
        c'.pendingPkt.dataInbound = c.pendingPkt.dataInbound ∧ c'.notification.event = c.notification.event := by
    intro id' c' hc'
    rcases s.setCall_inv id phase id' with ⟨rfl, hp⟩ | ⟨-, hp⟩
    · exact hphase c' (hp ▸ hc')
    · exact ⟨c', hp ▸ hc', rfl, rfl⟩
  refine ⟨?_, ?_⟩
  · intro id₁ id₂ c₁ c₂ h₁ h₂ heq
    obtain ⟨c₁', h₁, hd₁, -⟩ := hback id₁ c₁ h₁
    obtain ⟨c₂', h₂, hd₂, -⟩ := hback id₂ c₂ h₂
    exact hS.single id₁ id₂ c₁' c₂' h₁ h₂ (hd₁.symm.trans (heq.trans hd₂))
  · intro id' c' hc'
    obtain ⟨c, hc, hd, hn⟩ := hback id' c' hc'
    rw [hn, hd]
    exact hS.event id' c hc

theorem SerialCalls.step (hS : SerialCalls s) (ha : NotOverlapping s a)
    (hs : socketMachine.step s a = some (s', e)) : SerialCalls s' := by
  cases SocketState.step_inv hs with
  | @capture _ so =>
    obtain ⟨mbufData, mbufControl, flags, inbound, now, rfl, rfl⟩ := SocketState.capturedPkt_eq hs
    have hother := ha inbound rfl
    -- a call in progress is the one that starts or was so before
    have hback : ∀ id c, (Function.update s.calls s.captures (.captured (.captured so
        (s.so.newPkt s.captures mbufData mbufControl flags inbound now))) id).inProgress = some c →
        id = s.captures ∧ c.pendingPkt.dataInbound = inbound ∧ c.notification.event = dataEvent inbound ∨
          id ≠ s.captures ∧ (s.calls id).inProgress = some c := by
      intro id c hc
      by_cases hne : id = s.captures
      · subst hne
        rw [Function.update_self] at hc
        obtain rfl := Option.some.inj hc
        exact .inl ⟨rfl, rfl, rfl⟩
      · rw [Function.update_of_ne hne] at hc
        exact .inr ⟨hne, hc⟩
    refine ⟨?_, ?_⟩
    · intro id₁ id₂ c₁ c₂ h₁ h₂ heq
      rcases hback id₁ c₁ h₁ with ⟨rfl, hd₁, -⟩ | ⟨-, h₁⟩ <;> rcases hback id₂ c₂ h₂ with ⟨rfl, hd₂, -⟩ | ⟨-, h₂⟩
      · rfl
      · exact absurd (heq.symm.trans hd₁) (hother id₂ c₂ h₂)
      · exact absurd (heq.trans hd₂) (hother id₁ c₁ h₁)
      · exact hS.single id₁ id₂ c₁ c₂ h₁ h₂ heq
    · intro id c hc
      rcases hback id c hc with ⟨-, hd, hn⟩ | ⟨-, hc⟩
      · rw [hd, hn]
      · exact hS.event id c hc
  | @copy id error buffers c hc =>
    refine hS.call ?_
    intro c' hc'
    refine ⟨c, by rw [hc]; rfl, ?_⟩
    obtain rfl := Option.some.inj hc'
    split
    · exact ⟨rfl, rfl⟩
    · unfold FltDataCall.copied
      split <;> exact ⟨rfl, rfl⟩
  | @queue id c so c' _ hc =>
    have hsame : SerialCalls { s with so } := ⟨hS.single, hS.event⟩
    refine hsame.call ?_
    intro c₁ hc₁
    obtain rfl := Option.some.inj hc₁
    obtain ⟨hd, hn⟩ := queuePkt_call s.so c
    rw [SocketState.queue_eq hc hs] at hd hn
    exact ⟨c, by rw [hc]; rfl, hd, congrArg (·.event) hn⟩
  | @send id client c hc =>
    refine hS.call ?_
    intro c' hc'
    obtain rfl := Option.some.inj hc'
    exact ⟨c, by rw [hc]; rfl, rfl, rfl⟩
  | @noSend id client c hc =>
    refine hS.call ?_
    intro c' hc'
    obtain rfl := Option.some.inj hc'
    exact ⟨c, by rw [hc]; rfl, rfl, rfl⟩
  | finish => exact hS.call fun c' hc' => by cases hc'
  | _ => exact ⟨hS.single, hS.event⟩

/-- The call of a direction that is about to report its own packet; then no packet of the queue is marked. -/
structure Unsent (d : Bool) (s : SocketState) (u : List Nat) : Prop where
  call : ∀ id c, s.calls id = .queued c → c.sendNotification → c.pendingPkt.dataInbound = d → u = [id]
  alone : u = [] ∨ marked d s.so.pendingQueue = []

/-- What may still be reported in one direction. -/
structure ToReport (direction : Nat → Option Bool) (d : Bool) (s : SocketState) (items : List Nat) : Prop where
  reachable : ∃ socketId size, socketMachine.Reachable (SocketState.start socketId size) s
  calls : DirectedCalls direction s
  serial : SerialCalls s
  items_eq : ∃ u, Unsent d s u ∧ items = u ++ marked d s.so.pendingQueue

/-- A step reports from the front of what may be reported, and adds at its end what it inserts. -/
def Reports (direction : Nat → Option Bool) (d : Bool) (s s' : SocketState) (e : List SocketEvent)
    (u : List Nat) : Prop :=
  ∃ u', Unsent d s' u' ∧ (e.filterMap (notifiedPkt d) ++ (u' ++ marked d s'.so.pendingQueue)).Sublist
    (u ++ marked d s.so.pendingQueue ++ e.filterMap (insertedPkt direction d))

variable {u : List Nat}

/-- A step that changes no call. -/
theorem Unsent.requeue (hU : Unsent d s u) (hcalls : s'.calls = s.calls)
    (hsub : (e.filterMap (notifiedPkt d) ++ marked d s'.so.pendingQueue).Sublist (marked d s.so.pendingQueue)) :
    Reports direction d s s' e u := by
  refine ⟨u, ⟨fun id c hc => hU.call id c (hcalls ▸ hc), ?_⟩, ?_⟩
  · rcases hU.alone with hnil | hnil
    · exact .inl hnil
    · rw [hnil] at hsub
      exact .inr (List.append_eq_nil_iff.1 (List.sublist_nil.1 hsub)).2
  · refine List.Sublist.trans ?_ (List.sublist_append_left ..)
    rcases hU.alone with rfl | hnil
    · exact hsub
    · rw [hnil] at hsub
      obtain ⟨hout, hin⟩ := List.append_eq_nil_iff.1 (List.sublist_nil.1 hsub)
      rw [hout, hin]
      exact (List.nil_sublist _).append_left u

theorem Reports.of_silent (u' : List Nat) (hU : Unsent d s' u') (he : e.filterMap (notifiedPkt d) = [])
    (hsub : (u' ++ marked d s'.so.pendingQueue).Sublist
      (u ++ marked d s.so.pendingQueue ++ e.filterMap (insertedPkt direction d))) :
    Reports direction d s s' e u := by
  refine ⟨u', hU, ?_⟩
  rw [he]
  exact hsub

/-- A step of a call that is not about to report and will not be. -/
theorem Unsent.otherCall {phase : CallPhase} (hU : Unsent d s u)
    (hcalls : s'.calls = Function.update s.calls id phase) (hq : s'.so.pendingQueue = s.so.pendingQueue)
    (hphase : ∀ c, phase = .queued c → c.sendNotification = false)
    (he : e.filterMap (notifiedPkt d) = []) : Reports direction d s s' e u := by
  refine .of_silent u ⟨?_, hq ▸ hU.alone⟩ he ?_
  · intro id' c hc hsend
    rw [hcalls] at hc
    by_cases hne : id' = id
    · subst hne
      rw [Function.update_self] at hc
      rw [hphase c hc] at hsend
      cases hsend
    · rw [Function.update_of_ne hne] at hc
      exact hU.call id' c hc hsend
  · rw [hq]
    exact List.sublist_append_left ..

/-- No call of a direction is about to report when another call of that direction is in progress. -/
theorem SerialCalls.other {c c₁ : FltDataCall} {id' : Nat} {phase : CallPhase} (hS : SerialCalls s)
    (hc : (s.calls id).inProgress = some c) (hd : c.pendingPkt.dataInbound = d)
    (hc₁ : (s.setCall id phase).calls id' = .queued c₁) (hd₁ : c₁.pendingPkt.dataInbound = d) : id' = id := by
  by_contra hne
  rw [SocketState.setCall_of_ne hne] at hc₁
  exact hne (hS.single id' id c₁ c (by rw [hc₁]; rfl) hc (hd₁.trans hd.symm))

theorem Unsent.queuePkt {c c' : FltDataCall} (hU : Unsent d s u) (hS : SerialCalls s) (hQ : QueueShape s)
    (hfew : waitingCount s.so.pendingQueue < 2 ^ 32) (hD : DirectedCalls direction s) (hc : s.calls id = .copied c) (hq : s.so.queuePkt c = (so, c', e)) :
    Reports direction d s { s.setCall id (.queued c') with so } e u := by
  obtain ⟨hid, hdir⟩ := hD id c (.inr hc)
  have hprogress : (s.calls id).inProgress = some c := by rw [hc]; rfl
  have hend : QueueEnd s.so c (so, c', e) := hq ▸ queuePkt_spec s.so c
  have hcall : c'.pendingPkt.dataInbound = c.pendingPkt.dataInbound := by
    have := (queuePkt_call s.so c).1
    rwa [hq] at this
  have hout : e.filterMap (notifiedPkt d) = [] := by
    obtain ⟨rest, rfl, hrest⟩ := hend.queued_first
    refine notifiedPkt_eq_nil ?_
    intro x hx id n heq
    rcases List.mem_cons.1 hx with rfl | hx
    · cases heq
    · rcases hrest x hx with rfl | rfl <;> cases heq
  have hins : c.pendingPkt.dataInbound = d → [id].Sublist (e.filterMap (insertedPkt direction d)) := by
    intro hd
    obtain ⟨rest, rfl, -⟩ := hend.queued_first
    rw [hid, List.filterMap_cons_some (b := id) (by simp [insertedPkt, hdir, hd])]
    exact (List.nil_sublist _).cons_cons id
  -- a call of the other direction is about to report as before
  have hother : c.pendingPkt.dataInbound ≠ d → ∀ id' c₁, (s.setCall id (.queued c')).calls id' = .queued c₁ →
      c₁.sendNotification → c₁.pendingPkt.dataInbound = d → u = [id'] := by
    intro hd id' c₁ hc₁ hsend hd₁
    rcases s.setCall_inv id (.queued c') id' with ⟨-, hp⟩ | ⟨-, hp⟩
    · obtain rfl := CallPhase.queued.inj (hp.symm.trans hc₁)
      exact absurd (hcall.symm.trans hd₁) hd
    · exact hU.call id' c₁ (hp ▸ hc₁) hsend hd₁
  cases hend with
  | posted _ hzero =>
    have hnone : marked d s.so.pendingQueue = [] :=
      marked_eq_nil ((int32_ofNat_eq_zero_of_lt hfew).1 (hQ.waiting.symm.trans hzero))
    have hnew : marked d (s.so.pendingQueue ++ [c.pendingPkt]) = [] := by
      have hfresh := (hQ.fresh id c (.inr hc)).notMarked
      rw [marked_append, hnone, marked_cons_of_neg (by simp [hfresh])]
      rfl
    by_cases hd : c.pendingPkt.dataInbound = d
    · refine .of_silent [id] ⟨?_, .inr hnew⟩ hout ?_
      · intro id' c₁ hc₁ _ hd₁
        rw [hS.other hprogress hd hc₁ hd₁]
      · show ([id] ++ marked d (s.so.pendingQueue ++ [c.pendingPkt])).Sublist _
        rw [hnew, List.append_nil]
        exact (hins hd).trans (List.sublist_append_right ..)
    · refine .of_silent u ⟨hother hd, .inr hnew⟩ hout ?_
      show (u ++ marked d (s.so.pendingQueue ++ [c.pendingPkt])).Sublist _
      rw [hnew, hnone]
      exact List.sublist_append_left ..
  | postponed _ hpid _ _ _ hneed hquiet hqueue =>
    have hnew : marked d so.pendingQueue =
        marked d s.so.pendingQueue ++ if c.pendingPkt.dataInbound = d then [id] else [] := by
      rw [hqueue, marked_append, marked_cons_of_pos hneed, hcall, hpid, hid]
      exact congrArg _ (List.append_nil _)
    by_cases hd : c.pendingPkt.dataInbound = d
    · rw [if_pos hd] at hnew
      refine .of_silent [] ⟨?_, .inl rfl⟩ hout ?_
      · intro id' c₁ hc₁ hsend hd₁
        obtain rfl := hS.other hprogress hd hc₁ hd₁
        obtain rfl := CallPhase.queued.inj (SocketState.setCall_self.symm.trans hc₁)
        rw [hquiet] at hsend
        cases hsend
      · show (marked d so.pendingQueue).Sublist _
        rw [hnew]
        exact (List.sublist_append_right ..).append (hins hd)
    · rw [if_neg hd, List.append_nil] at hnew
      refine .of_silent u ⟨hother hd, ?_⟩ hout ?_
      · show u = [] ∨ marked d so.pendingQueue = []
        rw [hnew]
        exact hU.alone
      · show (u ++ marked d so.pendingQueue).Sublist _
        rw [hnew]
        exact List.sublist_append_left ..

theorem Unsent.send {c c' : FltDataCall} (hU : Unsent d s u) (hS : SerialCalls s)
    (hc : s.calls id = .queued c) (hsend : c.sendNotification)
    (he : e = [] ∨ e = [.notified id c.notification]) :
    Reports direction d s (s.setCall id (.sent c')) e u := by
  have hevent := hS.event id c (by rw [hc]; rfl)
  by_cases hd : c.pendingPkt.dataInbound = d
  · obtain rfl := hU.call id c hc hsend hd
    refine ⟨[], ⟨?_, .inl rfl⟩, ?_⟩
    · intro id' c₁ hc₁ _ hd₁
      obtain rfl := hS.other (by rw [hc]; rfl) hd hc₁ hd₁
      rw [SocketState.setCall_self] at hc₁
      cases hc₁
    · refine List.Sublist.trans ?_ (List.sublist_append_left ..)
      refine List.Sublist.append_right ?_ _
      rcases he with rfl | rfl
      · exact List.nil_sublist _
      · rw [List.filterMap_cons_some (b := id) (by simp [notifiedPkt, hevent, hd])]
        exact .refl _
  · refine hU.otherCall rfl rfl (by simp) ?_
    rcases he with rfl | rfl
    · rfl
    · exact List.filterMap_cons_none (by simp [notifiedPkt, hevent, dataEvent_inj, hd])

theorem marked_property {property : NkeSocketDataProperty} {reached : Option PendingPktQueueItem}
    (hp : PropertyEnd property queue (rest, reached)) : marked d rest = marked d queue := by
  cases hp with
  | none => rfl
  | @applied pre post pkt hneed =>
    rw [marked_append, marked_append, marked_cons_of_neg (by simp [hneed]),
      marked_cons_of_neg (by simp [hneed])]

theorem latched_same (pkt pkt' : PendingPktQueueItem) (hl : Latched pkt pkt') :
    pkt'.id = pkt.id ∧ pkt'.dataInbound = pkt.dataInbound ∧
      pkt'.needToBeReported = pkt.needToBeReported := by
  obtain ⟨b, rfl, -⟩ := hl
  exact ⟨rfl, rfl, rfl⟩

theorem inject_notNotified {uninitialised result : Errno} {freeMbufs : Bool}
    (hi : so.inject pkt uninitialised result = (freeMbufs, e)) : ∀ x ∈ e, ∀ id n, x ≠ .notified id n := by
  unfold inject at hi
  obtain ⟨-, rfl⟩ := Prod.mk.inj hi
  split <;> simp

theorem purged_notNotified (purged : List PendingPktQueueItem) :
    ∀ x ∈ purged.flatMap purgeEvents, ∀ id n, x ≠ .notified id n := by
  intro x hx id n heq
  rcases purgeEvents_inv hx with ⟨w, rfl⟩ | ⟨pkt, -, rfl | rfl⟩
  all_goals cases heq

theorem toReport_isLossyFifo (direction : Nat → Option Bool) (d : Bool) :
    socketMachine.IsLossyFifo (fun s a => CapturesAs direction s a ∧ NotOverlapping s a ∧ FewWaiting s a)
      (ToReport direction d) (insertedPkt direction d) (notifiedPkt d) := by
  rintro s a s' e items ⟨⟨socketId, size, hreach⟩, hD, hS, u, hU, rfl⟩ ⟨hcap, hover, hfew⟩ hs
  have hQ := queueShape_of_reachable hreach
  suffices hrep : Reports direction d s s' e u by
    obtain ⟨u', hU', hsub⟩ := hrep
    exact ⟨_, ⟨⟨socketId, size, hreach.step hs⟩, hD.step hcap hs, hS.step hover hs, u', hU', rfl⟩, hsub⟩
  cases SocketState.step_inv hs with
  | quiet hsame => exact hU.requeue rfl (by rw [hsame.queue]; exact .refl _)
  | @capture _ so pkt _ _ _ _ _ hq =>
    exact hU.otherCall rfl hq (by simp) rfl
  | copy hc => exact hU.otherCall rfl rfl (by simp) rfl
  | queue hc => exact hU.queuePkt hS hQ hfew hD hc (SocketState.queue_eq hc hs)
  | send hc hsend =>
    refine hU.send hS hc hsend ?_
    split
    · exact .inr rfl
    · exact .inl rfl
  | noSend => exact hU.otherCall rfl rfl (by simp) rfl
  | finish => exact hU.otherCall rfl rfl (by simp) rfl
  | @deliver outcome queue so _ _ hd =>
    refine hU.requeue rfl ?_
    obtain ⟨hqueue, he⟩ := SocketState.deliver_eq hs
    rw [← hqueue, ← he] at *
    exact deliverLoop_notified outcome s.so.pendingQueue s.so _
  | @property _ queue _ hp =>
    refine hU.requeue rfl ?_
    show (marked d queue).Sublist _
    rw [marked_property hp]
  | @collect injectType clock rest taken _ hc =>
    refine hU.requeue rfl ?_
    obtain ⟨⟨seen, hseen, hrest, -⟩, -⟩ := hc
    rw [notifiedPkt_eq_nil (by simp), ← marked_of_forall₂ latched_same hseen]
    exact marked_sublist hrest
  | inject _ he =>
    refine hU.requeue rfl ?_
    rw [notifiedPkt_eq_nil (inject_notNotified he)]
    exact .refl _
  | freeMbufs => exact hU.requeue rfl (.refl _)
  | account _ hsame => exact hU.requeue rfl (by rw [hsame.queue]; exact .refl _)
  | unlock => exact hU.requeue rfl (.refl _)
  | @purge _ so purged _ _ hq =>
    refine hU.requeue rfl ?_
    show (_ ++ marked d so.pendingQueue).Sublist _
    rw [notifiedPkt_eq_nil (purged_notNotified purged), hq]
    exact marked_sublist List.filter_sublist

/-! ### The result -/

/-- The packet a notification is enqueued for. -/
def notifiedAny : SocketEvent → Option Nat
  | .notified id _ => some id
  | _ => none

theorem count_notified (h : List SocketEvent) (id : Nat) :
    (h.filterMap notifiedAny).count id =
      (h.filterMap (notifiedPkt true)).count id + (h.filterMap (notifiedPkt false)).count id := by
  induction h with
  | nil => rfl
  | cons x h ih =>
    cases x with
    | notified id' n =>
      cases hn : n.event <;> simp [notifiedAny, notifiedPkt, dataEvent, hn, ih, List.count_cons] <;> omega
    | _ => exact ih

/-- The call will report its own packet. -/
def CallPhase.reports : CallPhase → Bool
  | .queued c => c.sendNotification
  | _ => false

/-- How often the packet may still be reported. -/
def SocketState.unreported (s : SocketState) (id : Nat) : Nat :=
  (marked true s.so.pendingQueue).count id + (marked false s.so.pendingQueue).count id +
    if (s.calls id).reports then 1 else 0

/-- Each insertion is good for one notification. -/
def NotifiedOnce (s : SocketState) (h : List SocketEvent) : Prop :=
  ∀ id, (h.filterMap notifiedAny).count id + s.unreported id ≤ insertions h id

theorem notifiedAny_eq_nil (he : ∀ x ∈ e, ∀ id n, x ≠ .notified id n) : e.filterMap notifiedAny = [] := by
  refine List.filterMap_eq_nil_iff.2 ?_
  intro x hx
  cases x with
  | notified id n => exact absurd rfl (he _ hx id n)
  | _ => rfl

theorem NotifiedOnce.mono (hO : NotifiedOnce s h)
    (hle : ∀ id, (e.filterMap notifiedAny).count id + s'.unreported id ≤ s.unreported id + insertions e id) :
    NotifiedOnce s' (h ++ e) := by
  intro id
  have hid := hO id
  have hle := hle id
  rw [List.filterMap_append, List.count_append, insertions_append]
  omega

/-- A step that changes no call reports marked packets only. -/
theorem NotifiedOnce.requeue (hO : NotifiedOnce s h) (hcalls : s'.calls = s.calls)
    (hsub : ∀ d, (e.filterMap (notifiedPkt d) ++ marked d s'.so.pendingQueue).Sublist
      (marked d s.so.pendingQueue)) : NotifiedOnce s' (h ++ e) := by
  refine hO.mono fun id => ?_
  have hin := (hsub true).count_le id
  have hout := (hsub false).count_le id
  rw [List.count_append] at hin hout
  rw [count_notified, SocketState.unreported, SocketState.unreported, hcalls]
  omega

/-- So does the step of a call that does not become one that reports. -/
theorem NotifiedOnce.call {phase : CallPhase} (hO : NotifiedOnce s h)
    (hcalls : s'.calls = Function.update s.calls id phase) (hq : s'.so.pendingQueue = s.so.pendingQueue)
    (hphase : phase.reports = false)
    (he : ∀ id', (e.filterMap notifiedAny).count id' ≤ if id' = id ∧ (s.calls id).reports then 1 else 0) :
    NotifiedOnce s' (h ++ e) := by
  refine hO.mono fun id' => ?_
  have he := he id'
  rw [SocketState.unreported, SocketState.unreported, hq, hcalls]
  by_cases hne : id' = id
  · subst hne
    simp only [Function.update_self, hphase, true_and] at he ⊢
    simp only [Bool.false_eq_true, if_false]
    omega
  · simp only [hne, false_and, if_false] at he
    rw [Function.update_of_ne hne]
    omega

theorem NotifiedOnce.queuePkt {c c' : FltDataCall} (hO : NotifiedOnce s h) (hc : s.calls id = .copied c)
    (hid : c.pendingPkt.id = id) (hneed : c.pendingPkt.needToBeReported = false)
    (hq : QueueEnd s.so c (so, c', e)) : NotifiedOnce { s.setCall id (.queued c') with so } (h ++ e) := by
  have hcalls : ∀ id', ((s.setCall id (.queued c')).calls id').reports =
      if id' = id then c'.sendNotification else (s.calls id').reports := by
    intro id'
    by_cases hne : id' = id
    · subst hne
      rw [SocketState.setCall_self, if_pos rfl]
      rfl
    · rw [SocketState.setCall_of_ne hne, if_neg hne]
  have hquiet : (s.calls id).reports = false := by
    rw [hc]
    rfl
  have hnone : e.filterMap notifiedAny = [] := by
    obtain ⟨rest, rfl, hrest⟩ := hq.queued_first
    refine notifiedAny_eq_nil ?_
    intro x hx id n heq
    rcases List.mem_cons.1 hx with rfl | hx
    · cases heq
    · rcases hrest x hx with rfl | rfl <;> cases heq
  have hins : 0 < insertions e id := by
    obtain ⟨rest, rfl, -⟩ := hq.queued_first
    exact insertions_pos.2 (hid ▸ List.mem_cons_self ..)
  refine hO.mono fun id' => ?_
  show _ + ((marked true so.pendingQueue).count id' + (marked false so.pendingQueue).count id' +
    if ((s.setCall id (.queued c')).calls id').reports then 1 else 0) ≤ _
  rw [hnone, hcalls, SocketState.unreported]
  cases hq with
  | posted =>
    have hlone : ∀ d, marked d [c.pendingPkt] = [] := fun d => marked_cons_of_neg (by simp [hneed])
    simp only [marked_append, hlone, List.append_nil, List.count_nil]
    by_cases hne : id' = id
    · subst hne
      simp only [if_true, hquiet]
      split
      · simp
        omega
      · simp
    · simp only [if_neg hne]
      omega
  | postponed _ hpid _ _ _ hmark hsend hqueue =>
    have hlone : ∀ d, marked d [c'.pendingPkt] = if c'.pendingPkt.dataInbound = d then [id] else [] := by
      intro d
      rw [marked_cons_of_pos hmark, hpid, hid]
      exact List.append_nil _
    simp only [hqueue, marked_append, hlone, List.count_append, List.count_nil, hsend]
    by_cases hne : id' = id
    · subst hne
      cases c'.pendingPkt.dataInbound <;> simp [hquiet] <;> omega
    · cases c'.pendingPkt.dataInbound <;> simp [hne, Ne.symm hne]

theorem NotifiedOnce.step (hO : NotifiedOnce s h) (hC : Custody s h) (hQ : QueueShape s)
    (hs : socketMachine.step s a = some (s', e)) : NotifiedOnce s' (h ++ e) := by
  cases SocketState.step_inv hs with
  | quiet hsame => exact hO.requeue rfl fun d => by rw [hsame.queue]; exact .refl _
  | @capture _ so pkt _ _ _ _ _ hq => exact hO.call rfl hq rfl fun id' => Nat.zero_le _
  | copy hc => exact hO.call rfl rfl rfl fun id' => Nat.zero_le _
  | @queue id c _ _ _ hc hq =>
    exact hO.queuePkt hc (hC.captured id c (.inr hc)) (hQ.fresh id c (.inr hc)).notMarked hq
  | @send id client c hc hsend =>
    refine hO.call rfl rfl rfl fun id' => ?_
    split
    · show [id].count id' ≤ _
      simp only [hc, CallPhase.reports, hsend, and_true, List.count_singleton, beq_iff_eq]
      split <;> simp_all
    · exact Nat.zero_le _
  | noSend => exact hO.call rfl rfl rfl fun id' => Nat.zero_le _
  | finish => exact hO.call rfl rfl rfl fun id' => Nat.zero_le _
  | @deliver outcome queue so _ _ hd =>
    refine hO.requeue rfl fun d => ?_
    obtain ⟨hqueue, he⟩ := SocketState.deliver_eq hs
    rw [← hqueue, ← he] at *
    exact deliverLoop_notified outcome s.so.pendingQueue s.so _
  | @property _ queue _ hp =>
    refine hO.requeue rfl fun d => ?_
    show (marked d queue).Sublist _
    rw [marked_property hp]
  | @collect injectType clock rest taken _ hc =>
    refine hO.requeue rfl fun d => ?_
    obtain ⟨⟨seen, hseen, hrest, -⟩, -⟩ := hc
    rw [notifiedPkt_eq_nil (by simp), ← marked_of_forall₂ latched_same hseen]
    exact marked_sublist hrest
  | inject _ he =>
    refine hO.requeue rfl fun d => ?_
    rw [notifiedPkt_eq_nil (inject_notNotified he)]
    exact .refl _
  | freeMbufs => exact hO.requeue rfl fun d => .refl _
  | account _ hsame => exact hO.requeue rfl fun d => by rw [hsame.queue]; exact .refl _
  | unlock => exact hO.requeue rfl fun d => .refl _
  | @purge _ so purged _ _ hq =>
    refine hO.requeue rfl fun d => ?_
    show (_ ++ marked d so.pendingQueue).Sublist _
    rw [notifiedPkt_eq_nil (purged_notNotified purged), hq]
    exact marked_sublist List.filter_sublist

theorem notifiedOnce_of_run {socketId : NkeSocketID} {size : Nat}
    (hr : socketMachine.run (SocketState.start socketId size) as = some (s, h)) : NotifiedOnce s h :=
  (Machine.run_induction (fun s h => Custody s h ∧ QueueShape s ∧ NotifiedOnce s h) []
    ⟨custody_start, queueShape_start, fun _ => Nat.le_refl _⟩
    (fun _ _ _ _ _ hI _ hs => ⟨hI.1.step hs, hI.2.1.step hI.1 hs, hI.2.2.step hI.1 hI.2.1 hs⟩)
    Machine.along_true hr).2.2

/-- When the `FltData` calls of each direction do not overlap and `FewWaiting` holds along the run, the
notifications of a direction are enqueued in the order in which its packets were inserted in `pendingQueue`;
and in every run each packet is notified at most once. -/
theorem notified_inOrder {socketId : NkeSocketID} {size : Nat}
    (hr : socketMachine.run (SocketState.start socketId size) as = some (s, h)) :
    (socketMachine.Along (fun s a => NotOverlapping s a ∧ FewWaiting s a) (SocketState.start socketId size) as →
      ∀ dataInbound, (h.filterMap (notifiedPkt dataInbound)).Sublist
        (h.filterMap (insertedPkt (capturedDirection as) dataInbound))) ∧ (h.filterMap notifiedAny).Nodup := by
  refine ⟨?_, List.nodup_iff_count_le_one.2 fun id => ?_⟩
  · intro hC dataInbound
    have hstart : ToReport (capturedDirection as) dataInbound (SocketState.start socketId size) [] := by
      refine ⟨⟨socketId, size, .refl⟩, ?_, ?_, [], ⟨fun id c hc => (by cases hc), .inl rfl⟩, rfl⟩
      · intro id c hc
        rcases hc with hc | hc <;> cases hc
      · exact ⟨fun id id' c c' hc => (by cases hc), fun id c hc => (by cases hc)⟩
    obtain ⟨items, -, hsub⟩ := (toReport_isLossyFifo (capturedDirection as) dataInbound).run hstart
      (along_capturedDirection.and hC) hr
    exact (List.sublist_append_left ..).trans hsub
  · have honce := notifiedOnce_of_run hr id
    have hone := (custody_of_run hr).inserted_le id
    omega

/-- One packet of each direction. The data of the first is not copied, so both wait for a delivery. -/
def bothDelivered : List SocketLabel :=
  [.capture [⟨[7], some ⟨1, none, []⟩, none⟩] [] 0 true true 0,
    .capture [⟨[8], some ⟨1, none, []⟩, none⟩] [] 0 false true 0,
    .copy 0 ENOMEM [], .queue 0, .copy 1 KERN_SUCCESS [1], .queue 1, .send 1 none, .send 0 none,
    .deliver fun i => ⟨KERN_SUCCESS, [i], KERN_SUCCESS, 0⟩]

theorem bothDelivered_notOverlapping :
    socketMachine.Along NotOverlapping (SocketState.start ⟨1, 1⟩ 65536) bothDelivered := by
  refine ⟨fun _ _ id c hc => (by cases hc), ?_⟩
  intro s₁ e₁ hs₁
  obtain ⟨rfl, -⟩ := Prod.mk.inj (Option.some.inj hs₁)
  refine ⟨?_, fun s₂ e₂ _ => Machine.along_of_forall ?_⟩
  · intro inbound hin id c hc
    obtain rfl := Option.some.inj hin
    cases id with
    | zero =>
      obtain rfl := Option.some.inj hc
      exact Bool.noConfusion
    | succ id => cases hc
  · intro a ha s inbound hin
    simp only [List.mem_cons, List.not_mem_nil, or_false] at ha
    rcases ha with rfl | rfl | rfl | rfl | rfl | rfl | rfl <;> cases hin

theorem bothDelivered_inOrder :
    ∃ s h, socketMachine.run (SocketState.start ⟨1, 1⟩ 65536) bothDelivered = some (s, h) ∧
      h.filterMap notifiedAny = [0, 1] ∧
      (∀ dataInbound, (h.filterMap (notifiedPkt dataInbound)).Sublist
        (h.filterMap (insertedPkt (capturedDirection bothDelivered) dataInbound))) ∧
      (h.filterMap notifiedAny).Nodup := by
  obtain ⟨s, h, hr, hn⟩ : ∃ s h, socketMachine.run (SocketState.start ⟨1, 1⟩ 65536) bothDelivered =
      some (s, h) ∧ h.filterMap notifiedAny = [0, 1] := ⟨_, _, rfl, rfl⟩
  obtain ⟨horder, honce⟩ := notified_inOrder hr
  exact ⟨s, h, hr, hn, horder (bothDelivered_notOverlapping.and (by decide)), honce⟩

/-! ### The counter wraps -/

section Wrap
variable {n : Nat}

/-- A call that starts when no other is in progress, and steps that start none. -/
theorem notOverlapping_call {mbufData mbufControl : MbufChain} {flags : UInt32} {isInboundData allocated : Bool}
    {now : UInt64} {rest : List SocketLabel} (hcalls : ∀ id, s.calls id = .idle ∨ s.calls id = .returned)
    (hrest : ∀ a ∈ rest, a.capturedInbound = none) : socketMachine.Along NotOverlapping s
      (.capture mbufData mbufControl flags isInboundData allocated now :: rest) := by
  refine ⟨?_, fun s' e _ => Machine.along_of_forall ?_⟩
  · intro inbound _ id c hc
    rcases hcalls id with hid | hid <;> rw [hid] at hc <;> cases hc
  · intro a ha s inbound hin
    rw [hrest a ha] at hin
    cases hin

theorem notCopied_notOverlapping (n : Nat) : socketMachine.Along NotOverlapping (SocketState.start ⟨1, 1⟩ 65536)
    ((List.range n).flatMap notCopied) := by
  induction n with
  | zero => trivial
  | succ n ih =>
    rw [List.range_succ, List.flatMap_append, List.flatMap_singleton]
    refine ih.append fun s' e hr => ?_
    obtain ⟨s, h, hr', hA⟩ := exists_allWaiting n
    obtain ⟨rfl, rfl⟩ := Prod.mk.inj (Option.some.inj (hr.symm.trans hr'))
    exact notOverlapping_call hA.calls (by simp [SocketLabel.capturedInbound])

theorem insertedPkt_sublist : (h.filterMap (insertedPkt direction d)).Sublist (h.filterMap queuedPkt) := by
  induction h with
  | nil => exact .refl _
  | cons x h ih =>
    cases x with
    | queued id =>
      by_cases hd : direction id = some d
      · simpa [List.filterMap_cons, insertedPkt, queuedPkt, hd] using ih
      · simpa [List.filterMap_cons, insertedPkt, queuedPkt, hd] using ih.cons id
    | _ => exact ih

def allReported : Nat → ReportOutcome := fun _ => ⟨KERN_SUCCESS, [0], KERN_SUCCESS, 0⟩

/-- The first packet that waits is reported by a delivery whose calls succeed. -/
theorem deliverLoop_first (rest : List PendingPktQueueItem) (so : NkeSocketObject) (l : DeliverLocals)
    (hneed : pkt.needToBeReported) (hdata : pkt.data ≠ []) (hd : pkt.dataInbound = d) : ∃ more,
      (deliverLoop allReported (pkt :: rest) so l).2.2.2.filterMap (notifiedPkt d) = pkt.id :: more := by
  unfold deliverLoop
  simp [allReported, hneed, report, hdata, notifiedPkt, initSocketNotification, dataEvent, hd, List.filterMap_append,
    List.filterMap_cons, reported_notified]

theorem AllWaiting.outOfOrder (hA : AllWaiting n s h) (hn : Int32.ofNat n = 0) (hpos : 0 < n) :
    ∃ s' e more, socketMachine.run s (sentDirectly n ++ [.deliver allReported]) = some (s', e) ∧
      e.filterMap (notifiedPkt true) = n :: 0 :: more ∧ e.filterMap queuedPkt = [n] := by
  obtain ⟨s₁, notification, hr, -, hevent, pkt, hqueue, -⟩ := hA.run_sentDirectly hn
  obtain ⟨first, rest, hcons⟩ := List.exists_cons_of_ne_nil (show s.so.pendingQueue ≠ [] from fun hnil => by
    have hids := hA.ids
    rw [hnil, pktIds, List.map_nil, eq_comm, List.range_eq_nil] at hids
    omega)
  have hfirst : first.id = 0 := by
    have hids := congrArg List.head? hA.ids
    rw [hcons, List.head?_range, if_neg (by omega)] at hids
    exact Option.some.inj hids
  obtain ⟨hneed, hin, hdata⟩ := hA.pkts first (hcons ▸ List.mem_cons_self ..)
  obtain ⟨more, hmore⟩ := deliverLoop_first (rest ++ [pkt]) s₁.so ⟨none, KERN_SUCCESS, false, false⟩ hneed hdata hin
  have hpending : s₁.so.pendingQueue = first :: (rest ++ [pkt]) := by
    rw [hqueue, hcons]
    rfl
  have hreports : ∀ x ∈ (s₁.so.deliverQueue allReported).2.2, x.isReport :=
    (deliverLoop_spec _).reports
  refine ⟨_, [.queued n, .notified n notification] ++ (s₁.so.deliverQueue allReported).2.2, more,
    Machine.run_append.2 ⟨s₁, _, _, hr, Machine.run_single rfl, rfl⟩, ?_, ?_⟩
  · have hdelivered :
        (s₁.so.deliverQueue allReported).2.2.filterMap (notifiedPkt true) = 0 :: more := by
      rw [← hfirst, ← hmore, ← hpending]
      rfl
    have hdirect : notifiedPkt true (.notified n notification) = some n := if_pos hevent
    rw [List.filterMap_append, hdelivered, List.filterMap_cons_none rfl, List.filterMap_cons_some hdirect]
    rfl
  · have hnone : (s₁.so.deliverQueue allReported).2.2.filterMap queuedPkt =
        [] := by
      refine List.filterMap_eq_nil_iff.2 fun x hx => ?_
      have hx := hreports x hx
      cases x <;> first | rfl | cases hx
    rw [List.filterMap_append, hnone]
    rfl

/-- Behind `2 ^ 32` waiting packets the next packet is reported before them. -/
theorem notified_notInOrder : ∃ as s h,
    socketMachine.Along NotOverlapping (SocketState.start ⟨1, 1⟩ 65536) as ∧
      socketMachine.run (SocketState.start ⟨1, 1⟩ 65536) as = some (s, h) ∧
      ¬ (h.filterMap (notifiedPkt true)).Sublist (h.filterMap (insertedPkt (capturedDirection as) true)) := by
  obtain ⟨s, h, hr, hA⟩ := exists_allWaiting (2 ^ 32)
  obtain ⟨s', e, more, hr', hnotified, hqueued⟩ := hA.outOfOrder (by decide) (by decide)
  refine ⟨_, s', _, (notCopied_notOverlapping _).append ?_, Machine.run_append.2 ⟨s, h, e, hr, hr', rfl⟩, ?_⟩
  · intro s₁ e₁ hr₁
    obtain ⟨rfl, rfl⟩ := Prod.mk.inj (Option.some.inj (hr.symm.trans hr₁))
    exact notOverlapping_call hA.calls (by simp [SocketLabel.capturedInbound])
  · -- what is inserted is inserted in the order of the captures
    intro hsub
    have hqueued : (h ++ e).filterMap queuedPkt = List.range (2 ^ 32 + 1) := by
      rw [List.filterMap_append, hA.queued, hqueued, List.range_succ]
    have hsorted : ((h ++ e).filterMap (notifiedPkt true)).Pairwise (· < ·) :=
      (List.pairwise_lt_range (n := 2 ^ 32 + 1)).sublist (hqueued ▸ hsub.trans insertedPkt_sublist)
    rw [List.filterMap_append, hnotified, List.pairwise_append] at hsorted
    have hlt := (List.pairwise_cons.1 hsorted.2.1).1 0 (List.mem_cons_self ..)
    exact absurd hlt (Nat.not_lt_zero _)

end Wrap

end NkeFilter
