import NkeFilter.Answers

/-!
# What one reinjection takes

`reinjectDeferredData` run by one thread alone: it takes the longest run of ready packets of its direction
from the front of the queue and disposes of them one by one (`reinjectDeferredData_spec`). A packet is
ready when it was reported and has a response, or its deadline has expired. The call is some steps of the
machine of the socket (`reinjectDeferredDataNoting_run`).
-/

namespace NkeFilter
open Lib NkeSocketObject

/-! ### The whole call -/

/-- What happens around the injection of one packet: whether `sock_evt_disconnecting` arrives before its
turn, what `error` holds then, and what the injection function returns. -/
structure InjectOutcome where
  disconnects : Bool
  uninitialised : Errno
  result : Errno

namespace NkeSocketObject

def noteDisconnecting (so : NkeSocketObject) (disconnects : Bool) : NkeSocketObject :=
  if disconnects then { so with f_sock_evt_disconnecting := true } else so

/-- `injectLoop` while `sock_evt_disconnecting` may arrive; `outcome i` is for the `i`-th packet from here. -/
def injectLoopNoting (outcome : Nat → InjectOutcome) :
    (packetsToInject : List PendingPktQueueItem) → NkeSocketObject → NkeSocketObject × List SocketEvent
  | [], so => (so, [])
  | pkt :: rest, so =>
    let so := so.noteDisconnecting (outcome 0).disconnects
    let (freeMbufs, sent) := so.inject pkt (outcome 0).uninitialised (outcome 0).result
    let (so, events) := injectLoopNoting (fun i => outcome (i + 1)) rest (so.uncountPkt pkt)
    (so, sent ++ (if freeMbufs then [.freedMbufs pkt.id] else []) ++ .freedEntry pkt.id :: events)

/-- `reinjectDeferredData` while `sock_evt_disconnecting` may arrive between two packets. -/
def reinjectDeferredDataNoting (so : NkeSocketObject) (injectType : NkeSocketDataDirectionType)
    (clock : Nat → UInt64) (outcome : Nat → InjectOutcome) : NkeSocketObject × List SocketEvent :=
  let (so, packetsToInject) := so.collect injectType clock
  let (so, events) := injectLoopNoting outcome packetsToInject so
  (so, packetsToInject.map (fun pkt => .taken pkt.id) ++ events)

theorem injectLoopNoting_quiet (uninitialised result : Nat → Errno) (pkts : List PendingPktQueueItem)
    (so : NkeSocketObject) :
    injectLoopNoting (fun i => ⟨false, uninitialised i, result i⟩) pkts so =
      injectLoop uninitialised result pkts so := by
  induction pkts generalizing uninitialised result so with
  | nil => rfl
  | cons pkt rest ih =>
    rw [injectLoopNoting, injectLoop]
    simp only [noteDisconnecting, Bool.false_eq_true, if_false, ih]
    simp

/-- Nothing else than the call without the event, when it does not arrive. -/
theorem reinjectDeferredDataNoting_quiet (so : NkeSocketObject) (injectType : NkeSocketDataDirectionType)
    (o : AnswerOutcome) :
    so.reinjectDeferredDataNoting injectType o.clock (fun i => ⟨false, o.uninitialised i, o.result i⟩) =
      so.reinjectDeferredData injectType o := by
  rw [reinjectDeferredDataNoting, reinjectDeferredData]
  simp only [injectLoopNoting_quiet]

end NkeSocketObject

/-! ### What it takes -/

section Collect
variable (injectType : NkeSocketDataDirectionType) (now : UInt64)

/-- Reported, and answered or expired. -/
def PendingPktQueueItem.ready (pkt : PendingPktQueueItem) : Bool :=
  !pkt.needToBeReported && (pkt.responseReceived || (pkt.isDeadlineTimerExpired now).1)

/-- The packet after its deadline was tested. -/
def PendingPktQueueItem.latched (pkt : PendingPktQueueItem) : PendingPktQueueItem :=
  (pkt.isDeadlineTimerExpired now).2

/-- From `queue` the packets `taken` go to `packetsToInject`, and `rest` is left: of the packets of the
direction the longest ready prefix is taken, with the latch set; all others stay as they are. -/
structure Reinjected (queue rest taken : List PendingPktQueueItem) : Prop where
  taken : taken = ((queue.filter fun pkt => injectType.covers pkt.dataInbound).takeWhile (·.ready now)).map
    (·.latched now)
  left : (rest.filter fun pkt => injectType.covers pkt.dataInbound) =
    (queue.filter fun pkt => injectType.covers pkt.dataInbound).dropWhile (·.ready now)
  others : (rest.filter fun pkt => !injectType.covers pkt.dataInbound) =
    queue.filter fun pkt => !injectType.covers pkt.dataInbound
  order : rest.Sublist queue

variable {injectType now} {pkt : PendingPktQueueItem} {queue rest taken : List PendingPktQueueItem}

theorem latched_of_not_ready (hneed : pkt.needToBeReported = false) (hr : pkt.ready now = false) :
    pkt.latched now = pkt := by
  rw [PendingPktQueueItem.ready, hneed] at hr
  have hexpired : (pkt.isDeadlineTimerExpired now).1 = false := by
    cases he : (pkt.isDeadlineTimerExpired now).1
    · rfl
    · simp [he] at hr
  exact isDeadlineTimerExpired_not hexpired

/-- The loop goes past a packet of another direction, takes a ready one and stops at one that is not. -/
theorem collectLoop_cons (pkt : PendingPktQueueItem) (queue : List PendingPktQueueItem) :
    collectLoop injectType (fun _ => now) (pkt :: queue) =
      if !injectType.covers pkt.dataInbound then
        (pkt :: (collectLoop injectType (fun _ => now) queue).1, (collectLoop injectType (fun _ => now) queue).2)
      else if pkt.ready now then
        ((collectLoop injectType (fun _ => now) queue).1,
          pkt.latched now :: (collectLoop injectType (fun _ => now) queue).2)
      else (pkt :: queue, []) := by
  rw [collectLoop]
  by_cases hcov : injectType.covers pkt.dataInbound
  · simp only [hcov, Bool.not_true, Bool.false_eq_true, if_false]
    by_cases hneed : pkt.needToBeReported
    · have hr : pkt.ready now = false := by simp [PendingPktQueueItem.ready, hneed]
      rw [if_pos hneed, hr]
      rfl
    · rw [if_neg hneed]
      have hstays : pkt.ready now = false → (pkt.isDeadlineTimerExpired now).2 = pkt :=
        latched_of_not_ready (by simpa using hneed)
      have hready : pkt.ready now =
          !(!(pkt.isDeadlineTimerExpired now).1 && !(pkt.isDeadlineTimerExpired now).2.responseReceived) := by
        rw [isDeadlineTimerExpired_snd]
        simp [PendingPktQueueItem.ready, hneed, Bool.or_comm]
      rw [PendingPktQueueItem.latched]
      generalize pkt.isDeadlineTimerExpired now = r at hstays hready
      obtain ⟨expired, pkt'⟩ := r
      simp only at hstays hready ⊢
      cases hr : pkt.ready now
      · rw [hr] at hready
        rw [if_pos (by simpa using hready), hstays hr]
        rfl
      · rw [hr] at hready
        have hgo : ¬ (!expired && !pkt'.responseReceived) = true := by
          intro hstop
          rw [hstop] at hready
          cases hready
        rw [if_neg hgo]
        rfl
  · simp [hcov]

theorem collectLoop_reinjected (queue : List PendingPktQueueItem) :
    Reinjected injectType now queue (collectLoop injectType (fun _ => now) queue).1
      (collectLoop injectType (fun _ => now) queue).2 := by
  induction queue with
  | nil => exact ⟨rfl, rfl, rfl, .slnil⟩
  | cons pkt queue ih =>
    obtain ⟨htaken, hrest, hothers, horder⟩ := ih
    rw [collectLoop_cons]
    by_cases hcov : injectType.covers pkt.dataInbound
    · rw [if_neg (by simp [hcov])]
      by_cases hr : pkt.ready now
      · rw [if_pos hr]
        refine ⟨?_, ?_, ?_, horder.cons _⟩
        · simp [hcov, hr, htaken]
        · simp [hcov, hr, hrest]
        · simp [hcov, hothers]
      · rw [if_neg hr]
        refine ⟨?_, ?_, rfl, .refl _⟩
        · simp [hcov, hr]
        · simp [hcov, hr]
    · rw [if_pos (by simp [hcov])]
      refine ⟨?_, ?_, ?_, horder.cons_cons _⟩
      · simp [hcov, htaken]
      · simp [hcov, hrest]
      · simp [hcov, hothers]

/-- With all directions the queue is cut at the first packet that is not ready. -/
theorem Reinjected.all (h : Reinjected .NkeSocketDataAll now queue rest taken) :
    taken = (queue.takeWhile (·.ready now)).map (·.latched now) ∧ rest = queue.dropWhile (·.ready now) := by
  have hrest := h.left
  have htaken := h.taken
  simp only [NkeSocketDataDirectionType.covers, List.filter_true] at hrest htaken
  exact ⟨htaken, hrest⟩

end Collect

/-! ### What becomes of a packet -/

/-- Injected when the flag is clear and the data allowed, freed otherwise; an inbound packet whose
injection failed is freed as well. -/
def disposal (disconnecting : Bool) (result : Errno) (pkt : PendingPktQueueItem) : List SocketEvent :=
  if disconnecting || !pkt.allowData then [.freedMbufs pkt.id, .freedEntry pkt.id]
  else
    .injected pkt.id pkt.dataInbound result ::
      ((if pkt.dataInbound && result != KERN_SUCCESS then [.freedMbufs pkt.id] else []) ++ [.freedEntry pkt.id])

/-- The flag at the turn of the `i`-th packet. -/
def disconnectingAt (so : NkeSocketObject) (outcome : Nat → InjectOutcome) (i : Nat) : Bool :=
  so.f_sock_evt_disconnecting || (List.range (i + 1)).any fun j => (outcome j).disconnects

variable {so : NkeSocketObject} {pkt : PendingPktQueueItem} {outcome : Nat → InjectOutcome}

theorem noteDisconnecting_disconnecting (disconnects : Bool) :
    (so.noteDisconnecting disconnects).f_sock_evt_disconnecting =
      (so.f_sock_evt_disconnecting || disconnects) := by
  unfold noteDisconnecting
  cases disconnects <;> simp

theorem noteDisconnecting_queue (disconnects : Bool) :
    (so.noteDisconnecting disconnects).pendingQueue = so.pendingQueue := by
  unfold noteDisconnecting
  split <;> rfl

theorem injectLoopNoting_queue (outcome : Nat → InjectOutcome) (pkts : List PendingPktQueueItem)
    (so : NkeSocketObject) : (injectLoopNoting outcome pkts so).1.pendingQueue = so.pendingQueue := by
  induction pkts generalizing outcome so with
  | nil => rfl
  | cons pkt rest ih =>
    rw [injectLoopNoting]
    exact (ih _ _).trans (uncountPkt_same.queue.trans (noteDisconnecting_queue _))

/-- Whatever the error variable held, a packet that is not injected is freed. -/
theorem inject_disposal (so : NkeSocketObject) (pkt : PendingPktQueueItem) (uninitialised result : Errno) :
    (so.inject pkt uninitialised result).2 ++
        (if (so.inject pkt uninitialised result).1 then [.freedMbufs pkt.id] else []) ++ [.freedEntry pkt.id] =
      disposal so.f_sock_evt_disconnecting result pkt := by
  unfold inject disposal
  by_cases hskip : so.f_sock_evt_disconnecting || !pkt.allowData
  · simp [hskip]
  · by_cases hin : pkt.dataInbound <;> by_cases hok : result = KERN_SUCCESS <;> simp [hskip, hin, hok]

theorem disconnectingAt_succ (i : Nat) :
    disconnectingAt ((so.noteDisconnecting (outcome 0).disconnects).uncountPkt pkt)
      (fun j => outcome (j + 1)) i = disconnectingAt so outcome (i + 1) := by
  rw [disconnectingAt, uncountPkt_disconnecting, noteDisconnecting_disconnecting, disconnectingAt,
    @List.range_succ_eq_map (i + 1), List.any_cons, List.any_map, Bool.or_assoc]
  rfl

theorem injectLoopNoting_events (outcome : Nat → InjectOutcome) (pkts : List PendingPktQueueItem)
    (so : NkeSocketObject) :
    (injectLoopNoting outcome pkts so).2 =
      (pkts.mapIdx fun i pkt => disposal (disconnectingAt so outcome i) (outcome i).result pkt).flatten := by
  induction pkts generalizing outcome so with
  | nil => rfl
  | cons pkt rest ih =>
    rw [injectLoopNoting, List.mapIdx_cons, List.flatten_cons]
    have hfirst := inject_disposal (so.noteDisconnecting (outcome 0).disconnects) pkt
      (outcome 0).uninitialised (outcome 0).result
    have hflag : disconnectingAt so outcome 0 =
        (so.noteDisconnecting (outcome 0).disconnects).f_sock_evt_disconnecting := by
      rw [noteDisconnecting_disconnecting]
      simp [disconnectingAt]
    have hrest := ih (fun j => outcome (j + 1))
      ((so.noteDisconnecting (outcome 0).disconnects).uncountPkt pkt)
    simp only [disconnectingAt_succ] at hrest
    rw [hflag, ← hfirst, List.append_assoc, ← hrest]
    rfl

/-- One reinjection alone, at any fixed time: what it takes, and that it disposes of it packet by packet in
the order of the queue. -/
theorem reinjectDeferredData_spec (so : NkeSocketObject) (injectType : NkeSocketDataDirectionType)
    (now : UInt64) (outcome : Nat → InjectOutcome) :
    ∃ taken, Reinjected injectType now so.pendingQueue
        (so.reinjectDeferredDataNoting injectType (fun _ => now) outcome).1.pendingQueue taken ∧
      (so.reinjectDeferredDataNoting injectType (fun _ => now) outcome).2 =
        taken.map (fun pkt => .taken pkt.id) ++
          (taken.mapIdx fun i pkt => disposal (disconnectingAt so outcome i) (outcome i).result pkt).flatten := by
  refine ⟨(so.collect injectType fun _ => now).2, ?_, ?_⟩
  · simp only [reinjectDeferredDataNoting, injectLoopNoting_queue]
    exact collectLoop_reinjected so.pendingQueue
  · simp only [reinjectDeferredDataNoting, injectLoopNoting_events]
    rfl

/-! ### The call as steps of the socket -/

/-- The regions of one call of `reinjectDeferredData`, and the event that may come in between. -/
def SocketLabel.reinjects : SocketLabel → Bool
  | .collect .. | .disconnecting | .inject .. | .freeMbufs | .account | .unlock => true
  | _ => false

variable {s : SocketState} {h : List SocketEvent}

theorem noteDisconnecting_run (s : SocketState) (disconnects : Bool) :
    ∃ as, socketMachine.run s as = some ({ s with so := s.so.noteDisconnecting disconnects }, []) ∧
      ∀ a ∈ as, a.reinjects := by
  cases disconnects
  · exact ⟨[], rfl, fun _ ha => (by cases ha)⟩
  · exact ⟨[.disconnecting], rfl, by simp [SocketLabel.reinjects]⟩

/-- One packet: it is injected or not, its mbufs are freed if they must, and it is counted off. -/
theorem turn_run {rest : List PendingPktQueueItem} (uninitialised result : Errno)
    (hinj : s.injection = some ⟨pkt :: rest, none⟩) :
    ∃ as, socketMachine.run s as =
      some ({ s with so := s.so.uncountPkt pkt, injection := some ⟨rest, none⟩ },
        (s.so.inject pkt uninitialised result).2 ++
          (if (s.so.inject pkt uninitialised result).1 then [.freedMbufs pkt.id] else []) ++
          [.freedEntry pkt.id]) ∧ ∀ a ∈ as, a.reinjects := by
  have hinject : socketMachine.step s (.inject uninitialised result) =
      some ({ s with injection := some ⟨rest, some (if (s.so.inject pkt uninitialised result).1 then
        .toFree pkt else .toAccount pkt)⟩ }, (s.so.inject pkt uninitialised result).2) := by
    simp only [socketMachine, SocketState.step, hinj]
  generalize s.so.inject pkt uninitialised result = r at hinject
  obtain ⟨freeMbufs, sent⟩ := r
  cases freeMbufs
  · refine ⟨[.inject uninitialised result, .account], Machine.run_cons.2 ⟨_, _, _, hinject, rfl, ?_⟩, ?_⟩
    · simp
    · simp [SocketLabel.reinjects]
  · refine ⟨[.inject uninitialised result, .freeMbufs, .account],
      Machine.run_cons.2 ⟨_, _, _, hinject, rfl, ?_⟩, ?_⟩
    · simp
    · simp [SocketLabel.reinjects]

theorem injectLoopNoting_run (outcome : Nat → InjectOutcome) (pkts : List PendingPktQueueItem) (s : SocketState)
    (hinj : s.injection = some ⟨pkts, none⟩) :
    ∃ as, socketMachine.run s as =
      some ({ s with so := (injectLoopNoting outcome pkts s.so).1, injection := some ⟨[], none⟩ },
        (injectLoopNoting outcome pkts s.so).2) ∧ ∀ a ∈ as, a.reinjects := by
  induction pkts generalizing outcome s with
  | nil => exact ⟨[], by rw [Machine.run_nil, injectLoopNoting, ← hinj], fun _ ha => (by cases ha)⟩
  | cons pkt rest ih =>
    obtain ⟨as, has, haLabels⟩ := noteDisconnecting_run s (outcome 0).disconnects
    obtain ⟨bs, hbs, hbLabels⟩ := turn_run (s := { s with so := s.so.noteDisconnecting (outcome 0).disconnects })
      (outcome 0).uninitialised (outcome 0).result hinj
    obtain ⟨cs, hcs, hcLabels⟩ := ih (fun j => outcome (j + 1))
      { s with
        so := (s.so.noteDisconnecting (outcome 0).disconnects).uncountPkt pkt
        injection := some ⟨rest, none⟩ } rfl
    have hturn := Machine.run_append.2 ⟨_, _, _, has, hbs, rfl⟩
    refine ⟨as ++ bs ++ cs, (Machine.run_append.2 ⟨_, _, _, hturn, hcs, rfl⟩).trans ?_, ?_⟩
    · simp [injectLoopNoting]
    · intro a ha
      rcases List.mem_append.1 ha with ha | ha
      · exact (List.mem_append.1 ha).elim (haLabels a) (hbLabels a)
      · exact hcLabels a ha

/-- The whole call by a thread that finds `injectionMutex` free. -/
theorem reinjectDeferredDataNoting_run (injectType : NkeSocketDataDirectionType) (clock : Nat → UInt64)
    (outcome : Nat → InjectOutcome) (s : SocketState) (hnone : s.injection = none) :
    ∃ as, socketMachine.run s as =
      some ({ s with so := (s.so.reinjectDeferredDataNoting injectType clock outcome).1 },
        (s.so.reinjectDeferredDataNoting injectType clock outcome).2) ∧ ∀ a ∈ as, a.reinjects := by
  have hcollect : socketMachine.step s (.collect injectType clock) =
      some ({ s with
        so := (s.so.collect injectType clock).1
        injection := some ⟨(s.so.collect injectType clock).2, none⟩ },
          (s.so.collect injectType clock).2.map (fun pkt => .taken pkt.id)) := by
    simp only [socketMachine, SocketState.step, hnone]
  obtain ⟨bs, hbs, hLabels⟩ := injectLoopNoting_run outcome (s.so.collect injectType clock).2
    { s with
      so := (s.so.collect injectType clock).1
      injection := some ⟨(s.so.collect injectType clock).2, none⟩ } rfl
  have hunlock := Machine.run_append.2
    ⟨_, _, _, hbs, Machine.run_single (M := socketMachine) (a := .unlock) rfl, rfl⟩
  refine ⟨.collect injectType clock :: (bs ++ [.unlock]),
    (Machine.run_cons.2 ⟨_, _, _, hcollect, hunlock, rfl⟩).trans ?_, ?_⟩
  · simp [reinjectDeferredDataNoting, ← hnone]
  · intro a ha
    rcases List.mem_cons.1 ha with rfl | ha
    · rfl
    · rcases List.mem_append.1 ha with ha | ha
      · exact hLabels a ha
      · obtain rfl := List.mem_singleton.1 ha
        rfl

end NkeFilter
