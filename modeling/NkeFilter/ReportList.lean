import NkeFilter.FilterStep
import NkeFilter.DeliverWaiting

/-!
# The sockets that wait for reporting

`SocketsListToReport` holds an object once, and exactly while its flag is set. An object that has packets to
report and is not being detached is in the list, or a thread in `DeliverWaitingNotifications` has it and
will still report the packets or put it back: whoever queues the first packet that waits finds the counter 0
and inserts the object, and a delivery that does not want it back has reported everything.
-/

namespace NkeFilter
open Lib NkeSocketObject

variable {s s' : SocketState} {label : SocketLabel} {ev : List SocketEvent}

/-! ### The flag and the counter in one socket -/

theorem deliverLoop_flag (outcome : Nat → ReportOutcome) (queue : List PendingPktQueueItem)
    (so : NkeSocketObject) (l : DeliverLocals) :
    (deliverLoop outcome queue so l).2.1.insertedInSocketsListToReport =
      so.insertedInSocketsListToReport := by
  rw [(deliverLoop_spec outcome).so_eq]

theorem uncountPkt_flag {so : NkeSocketObject} {pkt : PendingPktQueueItem} :
    (so.uncountPkt pkt).insertedInSocketsListToReport = so.insertedInSocketsListToReport := by
  unfold uncountPkt
  split <;> rfl

theorem countPkt_flag {so : NkeSocketObject} {inbound : Bool} {n : UInt32} :
    (so.countPkt inbound n).insertedInSocketsListToReport = so.insertedInSocketsListToReport := by
  unfold countPkt
  split <;> rfl

theorem purgeLoop_flag (purgeType : NkeSocketDataDirectionType) (queue : List PendingPktQueueItem)
    (so : NkeSocketObject) :
    (purgeLoop purgeType queue so).2.1.insertedInSocketsListToReport = so.insertedInSocketsListToReport := by
  induction queue generalizing so with
  | nil => rfl
  | cons pkt rest ih =>
    unfold purgeLoop
    split
    · exact ih so
    · refine (ih _).trans (uncountPkt_flag.trans ?_)
      split <;> rfl

theorem enlisted_not_mem_purgeEvents (purged : List PendingPktQueueItem) :
    .enlisted ∉ purged.flatMap purgeEvents := by
  intro hmem
  rcases purgeEvents_inv hmem with ⟨w, h⟩ | ⟨pkt, -, h | h⟩
  all_goals cases h

theorem queuePkt_flag (so : NkeSocketObject) (c : FltDataCall) :
    (.enlisted ∉ (so.queuePkt c).2.2 ∧
      (so.queuePkt c).1.insertedInSocketsListToReport = so.insertedInSocketsListToReport) ∨
      (.enlisted ∈ (so.queuePkt c).2.2 ∧ so.insertedInSocketsListToReport = false ∧
        (so.queuePkt c).1.insertedInSocketsListToReport) := by
  unfold queuePkt
  split
  · by_cases henlist : so.packetsWaitingForReporting = 0 ∧ !so.insertedInSocketsListToReport
    · exact .inr ⟨by simp [henlist], by simpa using henlist.2, by simp [henlist]⟩
    · refine .inl ⟨?_, by simp only [henlist, decide_false, Bool.or_false]⟩
      simp only [henlist, if_false, List.append_nil, List.mem_append, List.mem_singleton, reduceCtorEq,
        false_or]
      split <;> simp
  · exact .inl ⟨by simp, rfl⟩

/-- Only `FltData` sets the flag, when it was not set. -/
theorem flag_of_step (hs : socketMachine.step s label = some (s', ev))
    (hlabel : ∀ inserted, label ≠ .listToReport inserted) :
    (.enlisted ∉ ev ∧ s'.so.insertedInSocketsListToReport = s.so.insertedInSocketsListToReport) ∨
      (.enlisted ∈ ev ∧ label.isFltData ∧ s.so.insertedInSocketsListToReport = false ∧
        s'.so.insertedInSocketsListToReport) := by
  cases label with
  | capture mbufData mbufControl flags isInboundData allocated now =>
    simp only [socketMachine, SocketState.step] at hs
    split at hs
    · cases hs
    unfold allocatePkt at hs
    rw [if_neg (fun h => ‹¬ mbufData = []› h.1)] at hs
    cases allocated with
    | false =>
      obtain ⟨rfl, rfl⟩ := Prod.mk.inj (Option.some.inj hs)
      exact .inl ⟨by simp, rfl⟩
    | true =>
      obtain ⟨rfl, rfl⟩ := Prod.mk.inj (Option.some.inj hs)
      exact .inl ⟨by simp, countPkt_flag⟩
  | queue id =>
    simp only [socketMachine, SocketState.step] at hs
    split at hs
    · rename_i c hc
      obtain ⟨rfl, rfl⟩ := Prod.mk.inj (Option.some.inj hs)
      rcases queuePkt_flag s.so c with h | ⟨hmem, hflag, hflag'⟩
      · exact .inl h
      · exact .inr ⟨hmem, rfl, hflag, hflag'⟩
    · cases hs
  | deliver outcome =>
    obtain ⟨rfl, rfl⟩ := Prod.mk.inj (Option.some.inj hs)
    refine .inl ⟨?_, deliverLoop_flag ..⟩
    intro hmem
    exact absurd ((deliverLoop_spec outcome).reports _ hmem) (by decide)
  | purge purgeType =>
    simp only [socketMachine, SocketState.step] at hs
    split at hs
    · cases hs
    · obtain ⟨rfl, rfl⟩ := Prod.mk.inj (Option.some.inj hs)
      refine .inl ⟨?_, purgeLoop_flag ..⟩
      rw [purgePendingQueue, (purgeLoop_spec ..).2.1]
      exact enlisted_not_mem_purgeEvents _
  | property property =>
    obtain ⟨rfl, rfl⟩ := Prod.mk.inj (Option.some.inj hs)
    refine .inl ⟨?_, rfl⟩
    simp
  | listToReport inserted => exact absurd rfl (hlabel inserted)
  | collect injectType clock =>
    simp only [socketMachine, SocketState.step] at hs
    split at hs
    · cases hs
    · obtain ⟨rfl, rfl⟩ := Prod.mk.inj (Option.some.inj hs)
      exact .inl ⟨by simp, rfl⟩
  | inject uninitialised result =>
    simp only [socketMachine, SocketState.step] at hs
    split at hs
    · obtain ⟨rfl, rfl⟩ := Prod.mk.inj (Option.some.inj hs)
      refine .inl ⟨?_, rfl⟩
      unfold NkeSocketObject.inject
      simp only
      split <;> simp
    · cases hs
  | account =>
    simp only [socketMachine, SocketState.step] at hs
    split at hs
    · obtain ⟨rfl, rfl⟩ := Prod.mk.inj (Option.some.inj hs)
      exact .inl ⟨by simp, uncountPkt_flag⟩
    · cases hs
  | _ =>
    simp only [socketMachine, SocketState.step] at hs
    repeat' split at hs
    all_goals cases hs
    all_goals
      refine .inl ⟨?_, rfl⟩
      simp

/-- A packet that is postponed while the counter is 0 leaves the flag set. -/
theorem queuePkt_listed {so : NkeSocketObject} {c : FltDataCall} (hzero : so.packetsWaitingForReporting = 0)
    (he : c.error ≠ KERN_SUCCESS) : (so.queuePkt c).1.insertedInSocketsListToReport := by
  unfold queuePkt
  rw [if_pos (.inl he)]
  simp only [hzero, true_and, Bool.not_eq_true', Bool.or_eq_true, decide_eq_true_eq]
  cases so.insertedInSocketsListToReport <;> simp

/-- Only a step that leaves the flag set makes the first packet wait. -/
theorem waiting_of_step (hQ : QueueShape s) (hs : socketMachine.step s label = some (s', ev))
    (hpos : 0 < waitingCount s'.so.pendingQueue) :
    0 < waitingCount s.so.pendingQueue ∨ s'.so.insertedInSocketsListToReport := by
  cases SocketState.step_inv hs with
  | quiet hsame => exact .inl (hsame.queue ▸ hpos)
  | @capture _ so _ _ _ _ _ _ hq =>
    have hpos : 0 < waitingCount so.pendingQueue := hpos
    exact .inl (hq ▸ hpos)
  | @queue id c so c' _ hc hend =>
    have hq := congrArg Prod.fst (SocketState.queue_eq hc hs)
    have hpos : 0 < waitingCount so.pendingQueue := hpos
    rcases Nat.eq_zero_or_pos (waitingCount s.so.pendingQueue) with hnone | hsome
    · have hzero : s.so.packetsWaitingForReporting = 0 := by rw [hQ.waiting, hnone]; rfl
      cases hend with
      | posted =>
        have hfresh := (hQ.fresh id c (.inr hc)).notMarked
        have hlone : waitingCount [c.pendingPkt] = 0 := by simp [waitingCount, hfresh]
        rw [waitingCount_append, hnone, hlone] at hpos
        cases hpos
      | postponed hp =>
        have hlisted := queuePkt_listed hzero (hp.resolve_right fun hne => hne hzero)
        rw [hq] at hlisted
        exact .inr hlisted
    · exact .inl hsome
  | @deliver _ queue so _ _ hd =>
    exact .inl (hpos.trans_le (waitingCount_delivered hd.pkts))
  | property hp => exact .inl (waitingCount_of_marks (marks_property hp) ▸ hpos)
  | @collect _ _ rest taken _ hc =>
    obtain ⟨⟨seen, hseen, hrest, -, -⟩, -⟩ := hc
    have hmarks := marks_latched hseen
    have hpos : 0 < waitingCount rest := hpos
    exact .inl (waitingCount_of_marks hmarks ▸ hpos.trans_le hrest.countP_le)
  | account _ hsame => exact .inl (hsame.queue ▸ hpos)
  | @purge _ so _ _ _ hq =>
    have hpos : 0 < waitingCount so.pendingQueue := hpos
    rw [hq] at hpos
    exact .inl (hpos.trans_le List.filter_sublist.countP_le)
  | _ => exact .inl hpos

/-- A delivery that does not want the object back has reported everything. -/
theorem deliver_reinsert {outcome : Nat → ReportOutcome}
    (hs : socketMachine.step s (.deliver outcome) = some (s', ev))
    (h : (s.so.deliverQueue outcome).2.1.reinsertInList = false) : waitingCount s'.so.pendingQueue = 0 := by
  obtain ⟨rfl, -⟩ := Prod.mk.inj (Option.some.inj hs)
  rcases deliverLoop_reinsert outcome s.so.pendingQueue s.so ⟨none, KERN_SUCCESS, false, false⟩ rfl with
    ⟨-, hnone⟩ | ⟨hback, -⟩
  · exact hnone
  · cases hback.symm.trans h

/-! ### The list -/

variable {w w' : FilterState} {a : FilterLabel} {e : List FilterEvent} {thread object : Nat}
  {phase phase' : FilterPhase}

/-- The object is in the list, or a delivery has it and will report its packets or put it back. -/
def ToBeReported (w : FilterState) (object : Nat) : Prop :=
  object ∈ w.socketsListToReport ∨
    ∃ thread, w.threads thread = .popped object ∨ w.threads thread = .delivered object true

structure Listed (w : FilterState) : Prop where
  count : ∀ object, w.socketsListToReport.count object = if w.insertedInSocketsListToReport object then 1 else 0
  waiting : ∀ object s, w.objects[object]? = some s → object ∉ w.detaching →
    0 < waitingCount s.so.pendingQueue → ToBeReported w object

/-- The flags after one object has changed. -/
theorem inserted_set (hobj : w.objects[object]? = some s) (hw : w'.objects = w.objects.set object s')
    (object' : Nat) : w'.insertedInSocketsListToReport object' =
      if object' = object then s'.so.insertedInSocketsListToReport
      else w.insertedInSocketsListToReport object' := by
  have hlt := (List.getElem?_eq_some_iff.1 hobj).1
  unfold FilterState.insertedInSocketsListToReport
  rw [hw]
  split
  · rename_i heq
    subst heq
    rw [List.getElem?_set_self hlt]
    rfl
  · rename_i hne
    rw [List.getElem?_set_ne (Ne.symm hne)]

theorem inserted_eq (hobj : w.objects[object]? = some s) :
    w.insertedInSocketsListToReport object = s.so.insertedInSocketsListToReport := by
  unfold FilterState.insertedInSocketsListToReport
  rw [hobj]
  rfl

/-- A thread that had no delivery going on goes on with something else. -/
theorem ToBeReported.go (h : ToBeReported w object)
    (hthreads : w'.threads = Function.update w.threads thread phase)
    (hlist : object ∈ w.socketsListToReport → object ∈ w'.socketsListToReport)
    (hp : w.threads thread ≠ .popped object) (hp' : w.threads thread ≠ .delivered object true) :
    ToBeReported w' object := by
  rcases h with h | ⟨thread', h⟩
  · exact .inl (hlist h)
  · have hne : thread' ≠ thread := by
      rintro rfl
      rcases h with h | h
      · exact hp h
      · exact hp' h
    refine .inr ⟨thread', ?_⟩
    rw [hthreads, Function.update_of_ne hne]
    exact h

theorem listed_start : Listed FilterState.start := by
  refine ⟨fun _ => rfl, ?_⟩
  intro object s h
  cases h

/-! ### What a step keeps -/

/-- A new object is not in the list. -/
theorem create_inserted {attach : AttachCall} :
    ((w.withSocket attach).go thread phase).insertedInSocketsListToReport object =
      w.insertedInSocketsListToReport object := by
  unfold FilterState.insertedInSocketsListToReport
  show (w.objects ++ [_])[object]?.any _ = _
  rcases Nat.lt_trichotomy object w.objects.length with hlt | rfl | hgt
  · rw [List.getElem?_append_left hlt]
  · rw [List.getElem?_concat_length, List.getElem?_eq_none le_rfl]
    rfl
  · rw [List.getElem?_eq_none (by simpa using hgt), List.getElem?_eq_none hgt.le]

theorem inserted_congr (h : w'.objects = w.objects) :
    w'.insertedInSocketsListToReport object = w.insertedInSocketsListToReport object := by
  unfold FilterState.insertedInSocketsListToReport
  rw [h]

theorem listToReport_eq {inserted : Bool} (hs : socketMachine.step s (.listToReport inserted) = some (s', [])) :
    s'.so.insertedInSocketsListToReport = inserted ∧
      s'.so.packetsWaitingForReporting = s.so.packetsWaitingForReporting := by
  obtain ⟨rfl, -⟩ := Prod.mk.inj (Option.some.inj hs)
  exact ⟨rfl, rfl⟩

/-- `count` after one object and its entry in the list have changed. -/
theorem Listed.count_of_set (hL : Listed w) (hobj : w.objects[object]? = some s)
    (hw : w'.objects = w.objects.set object s')
    (hother : ∀ object', object' ≠ object →
      w'.socketsListToReport.count object' = w.socketsListToReport.count object')
    (hself : w'.socketsListToReport.count object = if s'.so.insertedInSocketsListToReport then 1 else 0)
    (object' : Nat) : w'.socketsListToReport.count object' =
      if w'.insertedInSocketsListToReport object' then 1 else 0 := by
  rw [inserted_set hobj hw object']
  by_cases heq : object' = object
  · rw [if_pos heq, heq]
    exact hself
  · rw [if_neg heq, hother object' heq]
    exact hL.count object'

theorem Listed.count_step (hL : Listed w) (hs : FilterStep w a w' e) (object' : Nat) :
    w'.socketsListToReport.count object' = if w'.insertedInSocketsListToReport object' then 1 else 0 := by
  have hcount : ∀ {object s}, w.objects[object]? = some s →
      w.socketsListToReport.count object = if s.so.insertedInSocketsListToReport then 1 else 0 :=
    fun hobj => inserted_eq hobj ▸ hL.count _
  have happend : ∀ (object object' : Nat), object' ≠ object →
      (w.socketsListToReport ++ [object]).count object' = w.socketsListToReport.count object' := by
    intro object object' hne
    rw [List.count_append, List.count_singleton, if_neg (by simpa using Ne.symm hne), Nat.add_zero]
  cases hs with
  | nothing => exact hL.count object'
  | move _ _ hsame =>
    rw [hsame.socketsListToReport, inserted_congr hsame.objects]
    exact hL.count object'
  | begin _ _ hsame =>
    rw [hsame.socketsListToReport, inserted_congr hsame.objects]
    exact hL.count object'
  | detached _ _ hsame =>
    rw [hsame.socketsListToReport, inserted_congr hsame.objects]
    exact hL.count object'
  | attached _ hsame =>
    rw [hsame.socketsListToReport, inserted_congr hsame.objects]
    exact hL.count object'
  | @act _ thread object s s' _ phase _ hobj hacts hstep =>
    have hw : ({ w with objects := w.objects.set object s' }.go thread phase).objects =
      w.objects.set object s' := rfl
    have hset := hL.count_of_set hobj hw (fun _ _ => rfl) ((hcount hobj).trans ?_) object'
    · exact hset
    rcases flag_of_step hstep hacts.label_spec.2 with ⟨-, hflag⟩ | ⟨-, hdata, -⟩
    · rw [hflag]
    · rw [hacts.label_spec.1] at hdata
      cases hdata
  | @data object s s' _ _ hobj hdata hstep hen =>
    have hw : { w with objects := w.objects.set object s' }.objects = w.objects.set object s' := rfl
    have hset := hL.count_of_set hobj hw (fun _ _ => rfl) ((hcount hobj).trans ?_) object'
    · exact hset
    rcases flag_of_step hstep (isFltData_ne hdata) with ⟨-, hflag⟩ | ⟨hen', -⟩
    · rw [hflag]
    · exact absurd hen' hen
  | @enlist object _ _ _ _ hobj hdata hstep hen =>
    refine hL.count_of_set hobj rfl (happend object) ?_ object'
    show (w.socketsListToReport ++ [object]).count object = _
    rcases flag_of_step hstep (isFltData_ne hdata) with ⟨hen', -⟩ | ⟨-, -, hflag, hflag'⟩
    · exact absurd hen hen'
    · rw [List.count_append, hcount hobj, hflag, hflag']
      simp
  | @pop thread object rest _ _ _ hlist hobj hstep =>
    have hone := hcount hobj
    rw [hlist, List.count_cons_self] at hone
    refine hL.count_of_set hobj rfl ?_ ?_ object'
    · intro object' hne
      rw [hlist, List.count_cons_of_ne (Ne.symm hne)]
      rfl
    · rw [(listToReport_eq hstep).1]
      show rest.count object = 0
      split at hone <;> omega
  | @unlist _ _ object _ _ _ _ _ hobj hflag hstep =>
    refine hL.count_of_set hobj rfl (fun _ hne => List.count_erase_of_ne hne ..) ?_ object'
    rw [(listToReport_eq hstep).1]
    show (w.socketsListToReport.erase object).count object = 0
    rw [List.count_erase_self, hcount hobj, hflag]
    rfl
  | @relist _ _ object _ _ _ hobj hflag hstep =>
    refine hL.count_of_set hobj rfl (happend object) ?_ object'
    rw [(listToReport_eq hstep).1]
    show (w.socketsListToReport ++ [object]).count object = 1
    rw [List.count_append, hcount hobj, hflag]
    simp
  | @create _ _ attach _ =>
    refine (hL.count object').trans ?_
    rw [create_inserted]
  | insert _ =>
    rw [inserted_congr insert_objects]
    refine Eq.trans ?_ (hL.count object')
    unfold FilterState.insertInSocketsList
    split <;> rfl
  | remove _ =>
    rw [inserted_congr remove_objects]
    refine Eq.trans ?_ (hL.count object')
    unfold FilterState.removeFromSocketsList
    split <;> rfl

/-- A thread that has no delivery going on, or finds the flag set, is not needed for the report. -/
theorem Move.not_needed (h : Move w a phase phase') : phase ≠ .popped object ∧
    (phase = .delivered object true → w.insertedInSocketsListToReport object) := by
  cases h with
  | alreadyListed hin =>
    refine ⟨nofun, ?_⟩
    rintro ⟨⟩
    exact hin
  | _ => exact ⟨nofun, nofun⟩

/-- A thread that acts on one object has no delivery of another going on. -/
theorem Acts.others {object' : Nat} (h : Acts s object phase label phase') (hne : object' ≠ object) :
    phase ≠ .popped object' ∧ phase ≠ .delivered object' true := by
  cases h with
  | deliver =>
    refine ⟨?_, nofun⟩
    rintro ⟨⟩
    exact hne rfl
  | _ => exact ⟨nofun, nofun⟩

theorem Acts.delivers (h : Acts s object phase label phase') :
    (∃ outcome, label = .deliver outcome ∧ phase = .popped object ∧
      phase' = .delivered object (s.so.deliverQueue outcome).2.1.reinsertInList) ∨
      phase ≠ .popped object ∧ phase ≠ .delivered object true := by
  cases h with
  | deliver => exact .inl ⟨_, rfl, rfl, rfl⟩
  | _ => exact .inr ⟨nofun, nofun⟩

theorem Listed.mem_of_inserted (hL : Listed w) (h : w.insertedInSocketsListToReport object) :
    object ∈ w.socketsListToReport := by
  have hcount := hL.count object
  rw [if_pos h] at hcount
  exact List.count_pos_iff.1 (hcount ▸ Nat.one_pos)

theorem ToBeReported.move (h : ToBeReported w object) (hL : Listed w)
    (hlist : w'.socketsListToReport = w.socketsListToReport)
    (hthreads : w'.threads = Function.update w.threads thread phase)
    (hp : w.threads thread ≠ .popped object ∧
      (w.threads thread = .delivered object true → w.insertedInSocketsListToReport object)) :
    ToBeReported w' object := by
  by_cases hdone : w.threads thread = .delivered object true
  · refine .inl ?_
    rw [hlist]
    exact hL.mem_of_inserted (hp.2 hdone)
  · exact h.go hthreads (fun hmem => hlist ▸ hmem) hp.1 hdone

/-- `waiting` after one object has changed: the others are as they were. -/
theorem Listed.waiting_of_set (hL : Listed w) (hobj : w.objects[object]? = some s)
    (hw : w'.objects = w.objects.set object s') (hdet : w'.detaching = w.detaching)
    (hother : ∀ object', object' ≠ object → ToBeReported w object' → ToBeReported w' object')
    (hself : object ∉ w.detaching → 0 < waitingCount s'.so.pendingQueue →
      (0 < waitingCount s.so.pendingQueue → ToBeReported w object) → ToBeReported w' object) :
    ∀ object s, w'.objects[object]? = some s → object ∉ w'.detaching →
      0 < waitingCount s.so.pendingQueue → ToBeReported w' object := by
  intro object' s₁ hobj' hnot hpos
  rw [hdet] at hnot
  rcases getElem?_set_inv (hw ▸ hobj') with ⟨rfl, rfl⟩ | ⟨hne, hold⟩
  · exact hself hnot hpos fun hpos => hL.waiting _ s hobj hnot hpos
  · exact hother object' hne (hL.waiting object' s₁ hold hnot hpos)

/-- A thread that has no delivery going on is not needed for the report. -/
theorem not_needed_of_eq (hp : w.threads thread = phase) (hpopped : ∀ object, phase ≠ .popped object)
    (hdelivered : ∀ object, phase ≠ .delivered object true) (object : Nat) :
    w.threads thread ≠ .popped object ∧
      (w.threads thread = .delivered object true → w.insertedInSocketsListToReport object) := by
  rw [hp]
  exact ⟨hpopped object, fun h => absurd h (hdelivered object)⟩

theorem Listed.waiting_move (hL : Listed w) (hobjects : w'.objects = w.objects)
    (hlist : w'.socketsListToReport = w.socketsListToReport)
    (hmono : ∀ object, object ∈ w.detaching → object ∈ w'.detaching)
    (hthreads : w'.threads = Function.update w.threads thread phase)
    (hp : ∀ object, w.threads thread ≠ .popped object ∧
      (w.threads thread = .delivered object true → w.insertedInSocketsListToReport object)) :
    ∀ object s, w'.objects[object]? = some s → object ∉ w'.detaching →
      0 < waitingCount s.so.pendingQueue → ToBeReported w' object := by
  intro object s hobj hnot hpos
  exact (hL.waiting object s (hobjects ▸ hobj) (fun h => hnot (hmono object h)) hpos).move hL hlist hthreads
    (hp object)

/-- An object that has packets to report after a step had some before, or is in the list now. -/
theorem waiting_or_listed (hQ : QueueShape s) (hstep : socketMachine.step s label = some (s', ev))
    (hpos : 0 < waitingCount s'.so.pendingQueue) (hobj : w'.objects[object]? = some s')
    (hflags : ∀ object, w'.insertedInSocketsListToReport object → object ∈ w'.socketsListToReport) :
    0 < waitingCount s.so.pendingQueue ∨ object ∈ w'.socketsListToReport := by
  refine (waiting_of_step hQ hstep hpos).imp_right fun hflag => hflags object ?_
  rw [inserted_eq hobj]
  exact hflag

theorem Listed.waiting_act (hL : Listed w) (hobj : w.objects[object]? = some s)
    (hacts : Acts s object (w.threads thread) label phase)
    (hstep : socketMachine.step s label = some (s', ev)) (hQ : QueueShape s)
    (hw : w' = { w with objects := w.objects.set object s' }.go thread phase)
    (hflags : ∀ object, w'.insertedInSocketsListToReport object → object ∈ w'.socketsListToReport) :
    ∀ object s, w'.objects[object]? = some s → object ∉ w'.detaching →
      0 < waitingCount s.so.pendingQueue → ToBeReported w' object := by
  have hthreads : w'.threads = Function.update w.threads thread phase := by rw [hw]; rfl
  have hlist : w'.socketsListToReport = w.socketsListToReport := by rw [hw]; rfl
  have hobjects : w'.objects = w.objects.set object s' := by rw [hw]; rfl
  have hobj' : w'.objects[object]? = some s' := by
    rw [hobjects]
    exact List.getElem?_set_self (List.getElem?_eq_some_iff.1 hobj).1
  refine hL.waiting_of_set hobj hobjects (by rw [hw]; rfl) ?_ ?_
  · intro object' hne h
    exact h.go hthreads (hlist ▸ id) (hacts.others hne).1 (hacts.others hne).2
  · intro hnot hpos hbefore
    rcases hacts.delivers with ⟨outcome, rfl, hp, rfl⟩ | hp
    · cases hre : (s.so.deliverQueue outcome).2.1.reinsertInList with
      | true =>
        refine .inr ⟨thread, .inr ?_⟩
        rw [hthreads, hre, Function.update_self]
      | false =>
        rw [deliver_reinsert hstep hre] at hpos
        cases hpos
    · rcases waiting_or_listed hQ hstep hpos hobj' hflags with h | h
      · exact (hbefore h).go hthreads (hlist ▸ id) hp.1 hp.2
      · exact .inl h

theorem Listed.waiting_step (hL : Listed w) (hD : DetachBegun w) (hs : FilterStep w a w' e)
    (hQ : ∀ (object : Nat) s, w.objects[object]? = some s → QueueShape s)
    (hflags : ∀ object, w'.insertedInSocketsListToReport object → object ∈ w'.socketsListToReport) :
    ∀ object s, w'.objects[object]? = some s → object ∉ w'.detaching →
      0 < waitingCount s.so.pendingQueue → ToBeReported w' object := by
  have hmono := fun object => @detaching_mono w w' a e object hs
  have hget : ∀ {object : Nat} {s s' : SocketState}, w.objects[object]? = some s →
      (w.objects.set object s')[object]? = some s' :=
    fun hobj => List.getElem?_set_self (List.getElem?_eq_some_iff.1 hobj).1
  cases hs with
  | nothing => exact hL.waiting
  | move _ hmove hsame hthreads _ =>
    exact hL.waiting_move hsame.objects hsame.socketsListToReport hmono hthreads fun _ => hmove.not_needed
  | begin hthread hbegins hsame hthreads =>
    refine hL.waiting_move hsame.objects hsame.socketsListToReport hmono hthreads ?_
    rcases hbegins.phase_eq hthread with hp | ⟨attach, hp⟩
    · exact not_needed_of_eq hp nofun nofun
    · exact not_needed_of_eq hp nofun nofun
  | detached hp _ hsame hthreads _ =>
    exact hL.waiting_move hsame.objects hsame.socketsListToReport hmono hthreads
      (not_needed_of_eq hp nofun nofun)
  | attached hp hsame hthreads _ =>
    exact hL.waiting_move hsame.objects hsame.socketsListToReport hmono hthreads
      (not_needed_of_eq hp nofun nofun)
  | insert hp =>
    refine hL.waiting_move insert_objects ?_ hmono insert_threads (not_needed_of_eq hp nofun nofun)
    unfold FilterState.insertInSocketsList
    split <;> rfl
  | remove hp =>
    refine hL.waiting_move remove_objects ?_ hmono remove_threads (not_needed_of_eq hp nofun nofun)
    unfold FilterState.removeFromSocketsList
    split <;> rfl
  | create hp =>
    intro object s hobj hnot hpos
    rcases withSocket_inv hobj with hold | ⟨-, rfl⟩
    · exact (hL.waiting object s hold hnot hpos).move hL rfl rfl (not_needed_of_eq hp nofun nofun object)
    · cases hpos
  | act hobj hacts hstep => exact hL.waiting_act hobj hacts hstep (hQ _ _ hobj) rfl hflags
  | @data object s s' _ _ hobj _ hstep _ =>
    have hw : { w with objects := w.objects.set object s' }.objects = w.objects.set object s' := rfl
    have hset := hL.waiting_of_set hobj hw rfl (fun _ _ h => h) ?_
    · exact hset
    · intro hnot hpos hbefore
      rcases waiting_or_listed (hQ _ _ hobj) hstep hpos (hget hobj) hflags with h | h
      · exact hbefore h
      · exact .inl h
  | @enlist object s s' _ _ hobj _ hstep _ =>
    refine hL.waiting_of_set hobj rfl rfl ?_ ?_
    · intro object' hne h
      exact h.imp_left (List.mem_append_left _)
    · intro _ _ _
      exact .inl (List.mem_append_right _ (List.mem_singleton_self _))
  | @pop thread object rest s s' hp hlist hobj hstep =>
    refine hL.waiting_of_set hobj rfl rfl ?_ ?_
    · intro object' hne h
      refine h.go rfl ?_ ?_ ?_
      · intro hmem
        rw [hlist] at hmem
        exact (List.mem_cons.1 hmem).resolve_left hne
      · rw [hp]
        nofun
      · rw [hp]
        nofun
    · intro _ _ _
      exact .inr ⟨thread, .inl (Function.update_self ..)⟩
  | @unlist _ thread object _ _ s s' hp hobj hflag hstep =>
    refine hL.waiting_of_set hobj rfl rfl ?_ ?_
    · intro object' hne h
      refine h.go rfl (List.mem_erase_of_ne hne).2 ?_ ?_
      · rw [hp]
        nofun
      · rw [hp]
        nofun
    · intro hnot
      exact absurd (hD thread _ object _ hp) hnot
  | @relist _ thread object s s' hp hobj hflag hstep =>
    refine hL.waiting_of_set hobj rfl rfl ?_ ?_
    · intro object' hne h
      refine h.go rfl (List.mem_append_left _) ?_ ?_
      · rw [hp]
        nofun
      · rw [hp]
        rintro ⟨⟩
        exact hne rfl
    · intro _ _ _
      exact .inl (List.mem_append_right _ (List.mem_singleton_self _))

/-! ### The result -/

theorem Listed.step (hL : Listed w) (hD : DetachBegun w) (hs : FilterStep w a w' e)
    (hQ : ∀ (object : Nat) s, w.objects[object]? = some s → QueueShape s) : Listed w' := by
  refine ⟨hL.count_step hs, hL.waiting_step hD hs hQ ?_⟩
  intro object hflag
  have hcount := hL.count_step hs object
  rw [if_pos hflag] at hcount
  exact List.count_pos_iff.1 (hcount ▸ Nat.one_pos)

theorem object_queueShape (hr : filterMachine.Reachable .start w) (hobj : w.objects[object]? = some s) :
    QueueShape s := by
  obtain ⟨id, size, as, h, hrun⟩ := object_reachable hr hobj
  exact queueShape_of_run hrun

theorem listed_of_reachable (hr : filterMachine.Reachable .start w) : Listed w := by
  have hinv := hr.invariant (I := fun w => filterMachine.Reachable .start w ∧ Listed w) ⟨.refl, listed_start⟩ ?_
  · exact hinv.2
  · rintro w a w' e ⟨hreach, hL⟩ hs
    exact ⟨hreach.step hs, hL.step (detachBegun_of_reachable hreach) (FilterState.step_inv hs)
      fun _ _ => object_queueShape hreach⟩

theorem Listed.count_le (hL : Listed w) (object : Nat) : w.socketsListToReport.count object ≤ 1 := by
  rw [hL.count object]
  split <;> omega

/-- `DeliverWaitingNotifications` is never called with an object in the list twice. -/
theorem overflownOnce_of_reachable (hr : filterMachine.Reachable .start w) (objects : Nat → SocketState) :
    OverflownOnce (.call objects w.socketsListToReport) :=
  fun object _ => (listed_of_reachable hr).count_le object

/-- In every state of every run of all threads: an object is in `SocketsListToReport` at most once, exactly
when its flag is set, and as long as its `FltDetach` has not begun and it has packets to report, by the counter
or by the marks of its packets, it is in the list, or a thread took it out and has not looked at its queue yet
or is to put it back. -/
theorem waiting_object_reported {as : List FilterLabel} {h : List FilterEvent}
    (hr : filterMachine.run .start as = some (w, h)) (hobj : w.objects[object]? = some s) :
    w.socketsListToReport.count object ≤ 1 ∧
      (s.so.insertedInSocketsListToReport ↔ object ∈ w.socketsListToReport) ∧
      (object ∉ w.detaching → 0 < s.so.packetsWaitingForReporting ∨ 0 < waitingCount s.so.pendingQueue →
        object ∈ w.socketsListToReport ∨
          ∃ thread, w.threads thread = .popped object ∨ w.threads thread = .delivered object true) := by
  have hL := listed_of_reachable ⟨as, h, hr⟩
  have hcount := hL.count object
  rw [inserted_eq hobj] at hcount
  have hmarked : 0 < s.so.packetsWaitingForReporting → 0 < waitingCount s.so.pendingQueue := by
    intro hpos
    have hne := int32_ne_zero_of_pos hpos
    rw [(object_queueShape ⟨as, h, hr⟩ hobj).waiting] at hne
    exact pos_of_int32_ofNat_ne_zero hne
  refine ⟨hL.count_le object, ?_, fun hnot hpos => hL.waiting object s hobj hnot (hpos.elim hmarked id)⟩
  · rw [← List.count_pos_iff, hcount]
    cases s.so.insertedInSocketsListToReport <;> simp

/-- A packet is captured and cannot be copied; a thread takes the object out of the list. -/
def poppedRun : List FilterLabel :=
  [.fltAttach 0 ⟨7, 65536⟩, .next 0 .success, .next 0 .success, .next 0 .success, .next 0 .success,
    .data 0 (.capture [⟨[7], some ⟨1, none, []⟩, none⟩] [] 0 true true 0), .data 0 (.copy 0 ENOMEM [0]),
    .data 0 (.queue 0), .deliver 1]

theorem poppedRun_reported :
    ∃ w h s, filterMachine.run .start poppedRun = some (w, h) ∧ w.objects[0]? = some s ∧
      0 ∉ w.detaching ∧ 0 < s.so.packetsWaitingForReporting ∧ 0 ∉ w.socketsListToReport ∧
      (0 ∈ w.socketsListToReport ∨
        ∃ thread, w.threads thread = .popped 0 ∨ w.threads thread = .delivered 0 true) := by
  obtain ⟨w, h, s, hr, hobj, hnot, hpos, hlist⟩ : ∃ w h s,
      filterMachine.run .start poppedRun = some (w, h) ∧ w.objects[0]? = some s ∧
      0 ∉ w.detaching ∧ 0 < s.so.packetsWaitingForReporting ∧ 0 ∉ w.socketsListToReport :=
    ⟨_, _, _, rfl, rfl, by decide, by decide, by decide⟩
  exact ⟨w, h, s, hr, hobj, hnot, hpos, hlist, (waiting_object_reported hr hobj).2.2 hnot (.inl hpos)⟩

end NkeFilter
