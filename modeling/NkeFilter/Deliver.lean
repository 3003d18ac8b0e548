import NkeFilter.SocketObject
import NkeFilter.BufferPoolSpec

/-!
# Buffers of the postponed notifications

What `DeliverWaitingNotifications` does with the buffers of one socket. One notification and one
`releaseBuffers` flag serve all packets of the loop, and only the array of the last notification is
released after it; `deliverQueue_accounted_iff` says for which outcomes that is the right array.
-/

namespace NkeFilter
open NkeSocketFilter NkeSocketObject

namespace NkeSocketObject.ReportOutcome

def error (o : ReportOutcome) : Errno := if o.copied ≠ KERN_SUCCESS then o.copied else o.notified

def acquired (o : ReportOutcome) : List Nat := if o.copied = KERN_SUCCESS then listed o.buffers else []

def enqueued (o : ReportOutcome) : Bool := o.copied == KERN_SUCCESS && o.notified == KERN_SUCCESS

def sendFailed (o : ReportOutcome) : Bool := o.copied == KERN_SUCCESS && o.notified != KERN_SUCCESS

def handed (o : ReportOutcome) : List Nat := if o.enqueued then o.acquired else []

end NkeSocketObject.ReportOutcome

/-- The indices an event says were acquired. -/
def SocketEvent.acquired : SocketEvent → List Nat
  | .copied _ buffers => listed buffers
  | _ => []

def SocketEvent.handed : SocketEvent → List Nat
  | .notified _ notification => listed notification.buffers
  | _ => []

/-- Every acquired index is either handed to the client and not released, or released once. -/
def DeliverAccounted (r : NkeSocketObject × DeliverLocals × List SocketEvent) : Prop :=
  let released := listed r.2.1.released
  (∀ i ∈ r.2.2.flatMap SocketEvent.acquired, i ∉ r.2.2.flatMap SocketEvent.handed → released.count i = 1) ∧
    ∀ i ∈ r.2.2.flatMap SocketEvent.handed, i ∉ released

/-- The reports the loop gets to, in order: those of the waiting packets with data, up to the first packet
that is not reported and whose deadline has not passed. `error` is what the packet before left. -/
def reached (outcome : Nat → ReportOutcome) : List PendingPktQueueItem → Errno → List ReportOutcome
  | [], _ => []
  | pkt :: rest, error =>
    if !pkt.needToBeReported then reached (fun i => outcome (i + 1)) rest error
    else
      let tried := if pkt.data = [] then [] else [outcome 0]
      let error := if pkt.data = [] then error else (outcome 0).error
      if error ≠ KERN_SUCCESS ∧ !(pkt.isDeadlineTimerExpired (outcome 0).now).1 then tried
      else tried ++ reached (fun i => outcome (i + 1)) rest error

/-- The array of the last report is the one to release: a report whose buffers the client did not take is
the last one, and when there is any such report the last one was not enqueued with buffers. -/
structure LastReleases (rs : List ReportOutcome) : Prop where
  failed_last : ∀ pre o post, rs = pre ++ o :: post → o.sendFailed → o.acquired ≠ [] → post = []
  last_failed : ∀ o, rs.getLast? = some o → o.enqueued → o.acquired ≠ [] → ∀ o' ∈ rs, ¬ o'.sendFailed

/-! ### What the reports add up to -/

/-- The reports `rs` took the variables from `l` to `l'` and made `events`. -/
structure Effect (rs : List ReportOutcome) (l l' : DeliverLocals) (events : List SocketEvent) : Prop where
  release : l'.releaseBuffers = (l.releaseBuffers || rs.any (·.sendFailed))
  last : l'.notification.map (·.buffers) = (rs.getLast?.map (·.buffers)).or (l.notification.map (·.buffers))
  acquired : events.flatMap SocketEvent.acquired = rs.flatMap (·.acquired)
  handed : events.flatMap SocketEvent.handed = rs.flatMap (·.handed)

namespace Effect
variable {rs rs' : List ReportOutcome} {l l' l'' : DeliverLocals} {events events' : List SocketEvent}

theorem refl (l : DeliverLocals) : Effect [] l l [] := ⟨by simp, by simp, rfl, rfl⟩

theorem trans (h : Effect rs l l' events) (h' : Effect rs' l' l'' events') :
    Effect (rs ++ rs') l l'' (events ++ events') where
  release := by rw [h'.release, h.release, List.any_append, Bool.or_assoc]
  last := by
    rw [h'.last, h.last, List.getLast?_append]
    cases rs'.getLast? <;> rfl
  acquired := by rw [List.flatMap_append, List.flatMap_append, h.acquired, h'.acquired]
  handed := by rw [List.flatMap_append, List.flatMap_append, h.handed, h'.handed]

end Effect

variable {so : NkeSocketObject} {pkt : PendingPktQueueItem} {o : ReportOutcome} {l : DeliverLocals}
  {rs : List ReportOutcome}

theorem report_error (so : NkeSocketObject) (pkt : PendingPktQueueItem) (o : ReportOutcome)
    (l : DeliverLocals) :
    (so.report pkt o l).1.error = if pkt.data = [] then l.error else o.error := by
  unfold report ReportOutcome.error
  split
  · rfl
  · split
    · rfl
    · split
      · rfl
      · rename_i h
        exact (not_not.1 h).symm

theorem report_effect (so : NkeSocketObject) (pkt : PendingPktQueueItem) (o : ReportOutcome)
    (l : DeliverLocals) :
    Effect (if pkt.data = [] then [] else [o]) l (so.report pkt o l).1
    (so.report pkt o l).2 := by
  unfold report
  split
  · exact .refl l
  · by_cases hc : o.copied = KERN_SUCCESS
    · by_cases hn : o.notified = KERN_SUCCESS
      · constructor <;> simp [hc, hn, ReportOutcome.sendFailed, ReportOutcome.handed, ReportOutcome.enqueued,
          ReportOutcome.acquired, SocketEvent.acquired, SocketEvent.handed]
      · constructor <;> simp [hc, hn, ReportOutcome.sendFailed, ReportOutcome.handed, ReportOutcome.enqueued,
          ReportOutcome.acquired, SocketEvent.acquired, SocketEvent.handed]
    · constructor <;> simp [hc, ReportOutcome.sendFailed, ReportOutcome.handed, ReportOutcome.enqueued,
        ReportOutcome.acquired]

theorem reported_silent : (so.reported pkt).2.2.flatMap SocketEvent.acquired = [] ∧
    (so.reported pkt).2.2.flatMap SocketEvent.handed = [] := by
  unfold reported PendingPktQueueItem.satisfyWait
  cases pkt.waitEntry <;> cases pkt.dataInbound <;> exact ⟨rfl, rfl⟩

theorem deliverLoop_effect (outcome : Nat → ReportOutcome) (queue : List PendingPktQueueItem)
    (so : NkeSocketObject) (l : DeliverLocals) :
    Effect (reached outcome queue l.error) l (deliverLoop outcome queue so l).2.2.1
      (deliverLoop outcome queue so l).2.2.2 := by
  induction queue generalizing outcome so l with
  | nil => exact .refl l
  | cons pkt rest ih =>
    unfold deliverLoop reached
    by_cases hneed : pkt.needToBeReported
    · have hrep := report_effect so pkt (outcome 0) l
      have herr := report_error so pkt (outcome 0) l
      simp only [hneed, Bool.not_true, Bool.false_eq_true, if_false]
      rw [← herr]
      generalize so.report pkt (outcome 0) l = r at hrep
      obtain ⟨l₁, sent⟩ := r
      -- the packet is done with: the loop goes on behind it
      have hgoes : ∀ pkt', Effect ((if pkt.data = [] then [] else [outcome 0]) ++
          reached (fun i => outcome (i + 1)) rest l₁.error) l
          (deliverLoop (fun i => outcome (i + 1)) rest (so.reported pkt').2.1 l₁).2.2.1
          (sent ++ (so.reported pkt').2.2 ++
            (deliverLoop (fun i => outcome (i + 1)) rest (so.reported pkt').2.1 l₁).2.2.2) := by
        intro pkt'
        have hsilent : Effect [] l₁ l₁ (so.reported pkt').2.2 :=
          ⟨by simp, by simp, reported_silent.1, reported_silent.2⟩
        simpa using (hrep.trans hsilent).trans (ih (fun i => outcome (i + 1)) (so.reported pkt').2.1 l₁)
      by_cases he : l₁.error = KERN_SUCCESS
      · simpa [he] using hgoes pkt
      · cases hexp : (pkt.isDeadlineTimerExpired (outcome 0).now).1
        · have hends : Effect (if pkt.data = [] then [] else [outcome 0]) l
              { l₁ with reinsertInList := true } sent :=
            ⟨hrep.release, hrep.last, hrep.acquired, hrep.handed⟩
          simpa [he, hexp] using hends
        · simpa [he, hexp] using
            hgoes { (pkt.isDeadlineTimerExpired (outcome 0).now).2 with allowData := false }
    · simp only [hneed]
      exact ih (fun i => outcome (i + 1)) so l

/-! ### The array that is released -/

theorem handed_eq_acquired (h : o.enqueued) : o.handed = o.acquired := by simp [ReportOutcome.handed, h]

theorem enqueued_or_sendFailed (h : o.acquired ≠ []) : o.enqueued ∨ o.sendFailed := by
  unfold ReportOutcome.acquired at h
  split at h
  · rename_i hc
    by_cases hn : o.notified = KERN_SUCCESS
    · exact .inl (by simp [ReportOutcome.enqueued, hc, hn])
    · exact .inr (by simp [ReportOutcome.sendFailed, hc, hn])
  · exact absurd rfl h

theorem not_enqueued (h : o.sendFailed) : ¬ o.enqueued := by
  simp only [ReportOutcome.sendFailed, ReportOutcome.enqueued, Bool.and_eq_true, bne_iff_ne,
    beq_iff_eq] at h ⊢
  exact fun he => h.2 he.2

/-- The contract of `copyDataToBuffers` over one pass: a copy that fails lists nothing, and what is
acquired is not acquired again before it is released. -/
structure Contract (rs : List ReportOutcome) : Prop where
  failed : ∀ o ∈ rs, o.copied ≠ KERN_SUCCESS → listed o.buffers = []
  fresh : (rs.flatMap (·.acquired)).Nodup

namespace Contract

theorem listed_eq (h : Contract rs) (ho : o ∈ rs) : listed o.buffers = o.acquired := by
  unfold ReportOutcome.acquired
  split
  · rfl
  · rename_i hc
    exact h.failed o ho hc

theorem apart {pre post : List ReportOutcome} {o' : ReportOutcome} {i : Nat} (h : Contract (pre ++ o :: post))
    (hi : i ∈ o.acquired) (ho' : o' ∈ pre ++ post) : i ∉ o'.acquired := by
  intro hi'
  have hnd := h.fresh
  rw [List.flatMap_append, List.flatMap_cons] at hnd
  rcases List.mem_append.1 ho' with hpre | hpost
  · exact List.disjoint_of_nodup_append hnd (List.mem_flatMap.2 ⟨o', hpre, hi'⟩)
      (List.mem_append_left _ hi)
  · exact List.disjoint_of_nodup_append (List.Nodup.of_append_right hnd) hi
      (List.mem_flatMap.2 ⟨o', hpost, hi'⟩)

theorem not_handed {pre post : List ReportOutcome} {i : Nat} (h : Contract (pre ++ o :: post))
    (hi : i ∈ o.acquired) (ho : ¬ o.enqueued) : i ∉ (pre ++ o :: post).flatMap (·.handed) := by
  intro hmem
  obtain ⟨o', ho', hi'⟩ := List.mem_flatMap.1 hmem
  have hq : o'.enqueued ∧ i ∈ o'.acquired := by
    unfold ReportOutcome.handed at hi'
    split at hi'
    · rename_i hq
      exact ⟨hq, hi'⟩
    · cases hi'
  rcases List.mem_append.1 ho' with hpre | hmid
  · exact h.apart hi (List.mem_append_left _ hpre) hq.2
  · rcases List.mem_cons.1 hmid with rfl | hpost
    · exact ho hq.1
    · exact h.apart hi (List.mem_append_right _ hpost) hq.2

end Contract

/-- The indices released when the reports of one pass were `rs`. -/
def releasedAfter (rs : List ReportOutcome) : List Nat :=
  if rs.any (·.sendFailed) then (rs.getLast?.map (·.acquired)).getD [] else []

theorem listed_released (hc : Contract rs) {l' : DeliverLocals} {events : List SocketEvent}
    (h : Effect rs ⟨none, KERN_SUCCESS, false, false⟩ l' events) : listed l'.released = releasedAfter rs := by
  unfold DeliverLocals.released releasedAfter
  rw [h.release, h.last]
  simp only [Bool.false_or]
  split
  · cases hlast : rs.getLast? with
    | none => rfl
    | some o => exact hc.listed_eq (List.mem_of_getLast? hlast)
  · rfl

def ReportsAccounted (rs : List ReportOutcome) : Prop :=
  (∀ i ∈ rs.flatMap (·.acquired), i ∉ rs.flatMap (·.handed) → (releasedAfter rs).count i = 1) ∧
    ∀ i ∈ rs.flatMap (·.handed), i ∉ releasedAfter rs

theorem releasedAfter_eq (ho' : ∃ o' ∈ rs, o'.sendFailed) (hlast : rs.getLast? = some o) :
    releasedAfter rs = o.acquired := by
  have hany : rs.any (·.sendFailed) := List.any_eq_true.2 ho'
  simp [releasedAfter, hany, hlast]

theorem releasedAfter_nil (h : ¬ ∃ o' ∈ rs, o'.sendFailed) : releasedAfter rs = [] := by
  have hany : ¬ rs.any (·.sendFailed) := fun hany => h (List.any_eq_true.1 hany)
  simp [releasedAfter, hany]

theorem getLast?_behind {pre post : List ReportOutcome} {last : ReportOutcome} :
    (pre ++ o :: (post ++ [last])).getLast? = some last := by
  rw [← List.cons_append, ← List.append_assoc, List.getLast?_concat]

theorem mem_handed (ho : o ∈ rs) (hq : o.enqueued) {i : Nat} (hi : i ∈ o.acquired) :
    i ∈ rs.flatMap (·.handed) :=
  List.mem_flatMap.2 ⟨o, ho, by rwa [handed_eq_acquired hq]⟩

theorem reportsAccounted_of_lastReleases (hc : Contract rs) (h : LastReleases rs) : ReportsAccounted rs := by
  by_cases hfail : ∃ o' ∈ rs, o'.sendFailed
  · have hne : rs ≠ [] := by
      rintro rfl
      obtain ⟨o', ho', -⟩ := hfail
      cases ho'
    obtain ⟨last, hlast⟩ : ∃ last, rs.getLast? = some last := ⟨_, List.getLast?_eq_some_getLast hne⟩
    rw [ReportsAccounted, releasedAfter_eq hfail hlast]
    constructor
    · intro i hacq hnot
      obtain ⟨o, ho, hi⟩ := List.mem_flatMap.1 hacq
      have hs : o.sendFailed := (enqueued_or_sendFailed (List.ne_nil_of_mem hi)).resolve_left
        fun hq => hnot (mem_handed ho hq hi)
      obtain ⟨pre, post, rfl⟩ := List.append_of_mem ho
      obtain rfl := h.failed_last pre o post rfl hs (List.ne_nil_of_mem hi)
      obtain rfl : o = last := by simpa using hlast
      have hnd : o.acquired.Nodup := by
        have := hc.fresh
        rw [List.flatMap_append, List.flatMap_cons, List.flatMap_nil, List.append_nil] at this
        exact List.Nodup.of_append_right this
      exact List.count_eq_one_of_mem hnd hi
    · intro i hhanded hil
      obtain ⟨o, ho, hi⟩ := List.mem_flatMap.1 hhanded
      have hq : o.enqueued := by
        by_contra hq
        simp [ReportOutcome.handed, hq] at hi
      rw [handed_eq_acquired hq] at hi
      obtain ⟨pre, post, rfl⟩ := List.append_of_mem ho
      rcases List.eq_nil_or_concat' post with rfl | ⟨post', last', rfl⟩
      · obtain ⟨o', ho', hs⟩ := hfail
        exact h.last_failed o (by simp) hq (List.ne_nil_of_mem hi) o' ho' hs
      · obtain rfl : last' = last := Option.some.inj (getLast?_behind.symm.trans hlast)
        exact hc.apart hi (by simp) hil
  · rw [ReportsAccounted, releasedAfter_nil hfail]
    refine ⟨?_, fun i _ => List.not_mem_nil⟩
    intro i hi hnot
    obtain ⟨o, ho, hi⟩ := List.mem_flatMap.1 hi
    rcases enqueued_or_sendFailed (List.ne_nil_of_mem hi) with hq | hs
    · exact absurd (mem_handed ho hq hi) hnot
    · exact absurd ⟨o, ho, hs⟩ hfail

theorem lastReleases_of_reportsAccounted (hc : Contract rs) (h : ReportsAccounted rs) : LastReleases rs := by
  constructor
  · rintro pre o post rfl hs hne
    obtain ⟨i, hi⟩ := List.exists_mem_of_ne_nil _ hne
    have hcount := h.1 i (List.mem_flatMap.2 ⟨o, by simp, hi⟩) (hc.not_handed hi (not_enqueued hs))
    rcases List.eq_nil_or_concat' post with rfl | ⟨post', last, rfl⟩
    · rfl
    · rw [releasedAfter_eq ⟨o, by simp, hs⟩ getLast?_behind] at hcount
      have hil : i ∈ last.acquired := List.count_pos_iff.1 (by omega)
      exact absurd hil (hc.apart hi (by simp))
  · intro o hlast hq hne o' ho' hs
    obtain ⟨i, hi⟩ := List.exists_mem_of_ne_nil _ hne
    refine h.2 i (mem_handed (List.mem_of_getLast? hlast) hq hi) ?_
    rw [releasedAfter_eq ⟨o', ho', hs⟩ hlast]
    exact hi

theorem deliverAccounted_iff_reports (outcome : Nat → ReportOutcome)
    (hc : Contract (reached outcome so.pendingQueue KERN_SUCCESS)) :
    DeliverAccounted (so.deliverQueue outcome) ↔
      ReportsAccounted (reached outcome so.pendingQueue KERN_SUCCESS) := by
  have heff := deliverLoop_effect outcome so.pendingQueue so ⟨none, KERN_SUCCESS, false, false⟩
  have hrel := listed_released hc heff
  simp only [DeliverAccounted, deliverQueue, ReportsAccounted, heff.acquired, heff.handed]
  rw [hrel]

/-- One socket's buffers are accounted for exactly when the last report is the one whose array is to be
released. -/
theorem deliverQueue_accounted_iff (so : NkeSocketObject) (outcome : Nat → ReportOutcome)
    (hc : Contract (reached outcome so.pendingQueue KERN_SUCCESS)) :
    DeliverAccounted (so.deliverQueue outcome) ↔
      LastReleases (reached outcome so.pendingQueue KERN_SUCCESS) :=
  (deliverAccounted_iff_reports outcome hc).trans
    ⟨lastReleases_of_reportsAccounted hc, reportsAccounted_of_lastReleases hc⟩

/-! ### Two expired packets -/

/-- Two packets whose deadline has passed wait for reporting. -/
def twoExpired : NkeSocketObject :=
  let so := withSocket ⟨1, 1⟩ 65536
  let pkt (i : Nat) : PendingPktQueueItem :=
    { so.newPkt i [⟨[0], some ⟨1, none, []⟩, none⟩] [] 0 true 0 with
      needToBeReported := true, deadlineTimerExpired := true }
  { so with pendingQueue := [pkt 0, pkt 1], packetsWaitingForReporting := 2 }

/-- The `i`-th copy takes the buffer `i`; the client answers as `notified` says. -/
def copies (notified : Nat → Errno) (i : Nat) : ReportOutcome :=
  ⟨KERN_SUCCESS, [i, UINT8_MAX], notified i, 0⟩

theorem copies_reached (notified : Nat → Errno) :
    reached (copies notified) twoExpired.pendingQueue KERN_SUCCESS =
      [copies notified 0, copies notified 1] := by
  simp [reached, twoExpired, newPkt, PendingPktQueueItem.isDeadlineTimerExpired, copies]

theorem copies_contract (notified : Nat → Errno) :
    Contract (reached (copies notified) twoExpired.pendingQueue KERN_SUCCESS) := by
  rw [copies_reached]
  constructor
  · intro o ho hne
    rcases List.mem_cons.1 ho with rfl | ho
    · exact absurd rfl hne
    · obtain rfl := List.mem_singleton.1 ho
      exact absurd rfl hne
  · simp [copies, ReportOutcome.acquired, listed, UINT8_MAX]

theorem second_fails_accounted :
    DeliverAccounted (twoExpired.deliverQueue (copies fun i => if i = 0 then KERN_SUCCESS else ENOENT)) := by
  refine (deliverQueue_accounted_iff _ _ (copies_contract _)).2 ?_
  rw [copies_reached]
  constructor
  · intro pre o post heq hs _
    match pre, heq with
    | [], heq =>
      obtain ⟨rfl, -⟩ := List.cons.inj heq
      exact absurd hs (by decide)
    | [_], heq => exact (List.cons.inj (List.cons.inj heq).2).2.symm
    | _ :: _ :: pre, heq => simp at heq
  · intro o hlast hq
    obtain rfl := Option.some.inj hlast
    exact absurd hq (by decide)

/-- When the first report fails and the second succeeds, the buffers the client was handed are released
and those of the first are not. -/
theorem first_fails_not_accounted : ¬ ∀ (so : NkeSocketObject) (outcome : Nat → ReportOutcome),
    Contract (reached outcome so.pendingQueue KERN_SUCCESS) → DeliverAccounted (so.deliverQueue outcome) := by
  intro hall
  have hacc := hall twoExpired (copies fun i => if i = 0 then ENOENT else KERN_SUCCESS) (copies_contract _)
  rw [deliverAccounted_iff_reports _ (copies_contract _), copies_reached] at hacc
  exact absurd (hacc.2 1 (by decide)) (by decide)

end NkeFilter
