import NkeFilter.SocketMachine

/-!
# The order of the client's answers

`processServiceResponse` applies each property of a response and reinjects what can leave the queue.
`processServiceResponses` runs it alone for any number of responses (`processServiceResponses_run`: that is a
run of the machine of the socket). Between two properties the queue is what the first unanswered packet has
behind it (`Progress`), so that once every packet is answered it is empty, whatever the order of the answers,
and what left it was injected or freed in queue order.
-/

namespace NkeFilter
open Lib NkeSocketObject

/-- What the calls made while one property is processed return: the clock at each packet of the queue, and for
each packet taken what `error` holds when nothing is injected and what the injection returns. -/
structure AnswerOutcome where
  clock : Nat → UInt64
  uninitialised : Nat → Errno
  result : Nat → Errno

namespace NkeSocketObject

/-- The second loop of `reinjectDeferredData`; `uninitialised i` and `result i` are for the `i`-th packet from
here. -/
def injectLoop (uninitialised result : Nat → Errno) :
    (packetsToInject : List PendingPktQueueItem) → NkeSocketObject → NkeSocketObject × List SocketEvent
  | [], so => (so, [])
  | pkt :: rest, so =>
    let (freeMbufs, events) := so.inject pkt (uninitialised 0) (result 0)
    let (so, later) :=
      injectLoop (fun i => uninitialised (i + 1)) (fun i => result (i + 1)) rest (so.uncountPkt pkt)
    (so, events ++ (if freeMbufs then [.freedMbufs pkt.id] else []) ++ [.freedEntry pkt.id] ++ later)

def reinjectDeferredData (so : NkeSocketObject) (injectType : NkeSocketDataDirectionType) (o : AnswerOutcome) :
    NkeSocketObject × List SocketEvent :=
  let (so, taken) := so.collect injectType o.clock
  let (so, events) := injectLoop o.uninitialised o.result taken so
  (so, (taken.map fun pkt => .taken pkt.id) ++ events)

/-- One property, when the object it names is looked up; a property of another socket is not for this one. -/
def processProperty (so : NkeSocketObject) (property : NkeSocketDataProperty) (o : AnswerOutcome) :
    NkeSocketObject × List SocketEvent :=
  if property.socketId ≠ so.socketId then (so, [])
  else
    let (so, answered) := so.setDeferredDataProperties property
    let (so, events) := so.reinjectDeferredData .NkeSocketDataAll o
    (so, answered ++ events)

/-- The loop of `processServiceResponse` over the array of properties, which ends at the first unknown one. -/
def processServiceResponse (outcome : Nat → AnswerOutcome) :
    (response : List NkeSocketDataProperty) → NkeSocketObject → NkeSocketObject × List SocketEvent
  | [], so => (so, [])
  | property :: rest, so =>
    if property.type = .NkeSocketDataPropertyTypeUnknown then (so, [])
    else
      let (so, events) := so.processProperty property (outcome 0)
      let (so, later) := processServiceResponse (fun i => outcome (i + 1)) rest so
      (so, events ++ later)

/-- Any number of responses, one after the other. -/
def processServiceResponses (outcome : Nat → Nat → AnswerOutcome) :
    (responses : List (List NkeSocketDataProperty)) → NkeSocketObject → NkeSocketObject × List SocketEvent
  | [], so => (so, [])
  | response :: rest, so =>
    let (so, events) := processServiceResponse (outcome 0) response so
    let (so, later) := processServiceResponses (fun i => outcome (i + 1)) rest so
    (so, events ++ later)

end NkeSocketObject

/-- The object with another queue. -/
def NkeSocketObject.withPending (so : NkeSocketObject) (queue : List PendingPktQueueItem) : NkeSocketObject :=
  { so with pendingQueue := queue }

/-- The properties of a response that are processed. -/
def properties (response : List NkeSocketDataProperty) : List NkeSocketDataProperty :=
  response.takeWhile fun property => property.type ≠ .NkeSocketDataPropertyTypeUnknown

/-- The permission for the packet with this index. -/
def permission (socketId : NkeSocketID) (allow : UInt32 → UInt8) (dataIndex : UInt32) : NkeSocketDataProperty :=
  ⟨.NkeSocketDataPropertyTypePermission, dataIndex, socketId, allow dataIndex⟩

/-- The packet that is passed to an injection function, with its direction. -/
def injectedAny : SocketEvent → Option (Nat × Bool)
  | .injected id dataInbound _ => some (id, dataInbound)
  | _ => none

/-- The client allowed the packet with this index. -/
def allowed (allow : UInt32 → UInt8) (pkt : PendingPktQueueItem) : Bool := allow pkt.dataIndex ≠ 0

/-- The packet with the client's decision, once its index was answered. -/
def withAnswer (allow : UInt32 → UInt8) (answered : List UInt32) (pkt : PendingPktQueueItem) :
    PendingPktQueueItem :=
  if pkt.dataIndex ∈ answered then { pkt with allowData := allowed allow pkt, responseReceived := true } else pkt

/-- A queue whose packets all wait for the client's answer. -/
structure Awaiting (queue : List PendingPktQueueItem) : Prop where
  reported : ∀ pkt ∈ queue, pkt.needToBeReported = false
  unanswered : ∀ pkt ∈ queue, pkt.responseReceived = false
  indices : (queue.map (·.dataIndex)).Nodup

/-- No deadline is found expired. -/
def Unexpired (queue : List PendingPktQueueItem) (o : AnswerOutcome) : Prop :=
  ∀ pkt ∈ queue, ∀ i, (pkt.isDeadlineTimerExpired (o.clock i)).1 = false

/-- The packets `gone` of the first queue were answered and have left it; of those in `rest` the ones with an
index in `answered` are answered, the first is not. -/
structure Progress (so₀ : NkeSocketObject) (allow : UInt32 → UInt8) (answered : List UInt32)
    (so : NkeSocketObject) (e : List SocketEvent) (gone rest : List PendingPktQueueItem) : Prop where
  split : so₀.pendingQueue = gone ++ rest
  object : so = (gone.foldl uncountPkt so₀).withPending (rest.map (withAnswer allow answered))
  front : ∀ pkt ∈ rest.head?, pkt.dataIndex ∉ answered
  injected : e.filterMap injectedAny = (gone.filter (allowed allow)).map fun pkt => (pkt.id, pkt.dataInbound)
  freed : ∀ pkt ∈ gone, .freedEntry pkt.id ∈ e ∧ (allowed allow pkt = false → .freedMbufs pkt.id ∈ e)

variable {so so₀ : NkeSocketObject} {allow : UInt32 → UInt8} {answered : List UInt32} {o : AnswerOutcome}
  {queue gone rest : List PendingPktQueueItem} {pkt : PendingPktQueueItem} {property : NkeSocketDataProperty}
  {e : List SocketEvent} {x : UInt32}

/-! ### Counting off -/

theorem uncountPkt_queue (so : NkeSocketObject) (queue : List PendingPktQueueItem) (pkt : PendingPktQueueItem) :
    (so.withPending queue).uncountPkt pkt = (so.uncountPkt pkt).withPending queue := by
  unfold uncountPkt withPending
  split <;> rfl

theorem foldl_uncountPkt_queue (l : List PendingPktQueueItem) (so : NkeSocketObject) :
    l.foldl uncountPkt (so.withPending queue) = (l.foldl uncountPkt so).withPending queue := by
  induction l generalizing so with
  | nil => rfl
  | cons pkt l ih => rw [List.foldl_cons, uncountPkt_queue, ih, List.foldl_cons]

theorem uncountPkt_disconnecting :
    (so.uncountPkt pkt).f_sock_evt_disconnecting = so.f_sock_evt_disconnecting := by
  unfold uncountPkt
  split <;> rfl

theorem foldl_uncountPkt_disconnecting (l : List PendingPktQueueItem) (so : NkeSocketObject) :
    (l.foldl uncountPkt so).f_sock_evt_disconnecting = so.f_sock_evt_disconnecting := by
  induction l generalizing so with
  | nil => rfl
  | cons pkt l ih => rw [List.foldl_cons, ih, uncountPkt_disconnecting]

theorem foldl_uncountPkt_socketId (l : List PendingPktQueueItem) (so : NkeSocketObject) :
    (l.foldl uncountPkt so).socketId = so.socketId := by
  induction l generalizing so with
  | nil => rfl
  | cons pkt l ih => rw [List.foldl_cons, ih, uncountPkt_same.socketId]

theorem uncountPkt_withAnswer (so : NkeSocketObject) (pkt : PendingPktQueueItem) :
    so.uncountPkt (withAnswer allow answered pkt) = so.uncountPkt pkt := by
  unfold withAnswer
  split <;> rfl

/-! ### One property -/

/-- A property is applied to the packet with its index. -/
theorem propertyLoop_eq (hreported : ∀ pkt ∈ queue, pkt.needToBeReported = false)
    (hnd : (queue.map (·.dataIndex)).Nodup) :
    (propertyLoop property queue).1 =
      queue.map fun pkt => if pkt.dataIndex = property.dataIndex then setProperty pkt property else pkt := by
  induction queue with
  | nil => rfl
  | cons pkt rest ih =>
    obtain ⟨hnot, hnd⟩ := List.nodup_cons.1 hnd
    unfold propertyLoop
    rw [if_neg (by simp [hreported pkt (List.mem_cons_self ..)])]
    by_cases hi : pkt.dataIndex = property.dataIndex
    · -- no other packet has this index
      have hrest : rest.map (fun pkt => if pkt.dataIndex = property.dataIndex then setProperty pkt property
          else pkt) = rest := by
        refine (List.map_congr_left ?_).trans (List.map_id rest)
        intro pkt' hp
        have hne : pkt'.dataIndex ≠ property.dataIndex :=
          fun heq => hnot (List.mem_map.2 ⟨pkt', hp, heq.trans hi.symm⟩)
        rw [if_neg hne]
        rfl
      simp [hi, hrest]
    · simp [hi, ih (fun pkt' hp => hreported pkt' (List.mem_cons_of_mem _ hp)) hnd]

section WithAnswer

@[simp] theorem withAnswer_dataIndex : (withAnswer allow answered pkt).dataIndex = pkt.dataIndex := by
  unfold withAnswer
  split <;> rfl

@[simp] theorem withAnswer_needToBeReported :
    (withAnswer allow answered pkt).needToBeReported = pkt.needToBeReported := by
  unfold withAnswer
  split <;> rfl

@[simp] theorem withAnswer_id : (withAnswer allow answered pkt).id = pkt.id := by
  unfold withAnswer
  split <;> rfl

@[simp] theorem withAnswer_dataInbound : (withAnswer allow answered pkt).dataInbound = pkt.dataInbound := by
  unfold withAnswer
  split <;> rfl

theorem withAnswer_responseReceived (h : pkt.responseReceived = false) :
    (withAnswer allow answered pkt).responseReceived = decide (pkt.dataIndex ∈ answered) := by
  unfold withAnswer
  split <;> simp_all

theorem withAnswer_allowData (h : pkt.dataIndex ∈ answered) :
    (withAnswer allow answered pkt).allowData = allowed allow pkt := by
  unfold withAnswer
  rw [if_pos h]

theorem withAnswer_isDeadlineTimerExpired {now : UInt64} (h : (pkt.isDeadlineTimerExpired now).1 = false) :
    (withAnswer allow answered pkt).isDeadlineTimerExpired now = (false, withAnswer allow answered pkt) := by
  have hsame : ((withAnswer allow answered pkt).isDeadlineTimerExpired now).1 = false := by
    refine Eq.trans ?_ h
    unfold withAnswer PendingPktQueueItem.isDeadlineTimerExpired
    split
    · dsimp only
      split <;> rfl
    · rfl
  exact Prod.ext hsame (isDeadlineTimerExpired_not hsame)

theorem setProperty_withAnswer (socketId : NkeSocketID) :
    setProperty (withAnswer allow answered pkt) (permission socketId allow pkt.dataIndex) =
      withAnswer allow (pkt.dataIndex :: answered) pkt := by
  unfold withAnswer
  rw [if_pos (List.mem_cons_self ..)]
  split <;> rfl

theorem withAnswer_other (hne : pkt.dataIndex ≠ x) :
    withAnswer allow (x :: answered) pkt = withAnswer allow answered pkt := by
  simp [withAnswer, hne]

end WithAnswer

theorem setDeferredDataProperties_eq (hreported : ∀ pkt ∈ rest, pkt.needToBeReported = false)
    (hnd : (rest.map (·.dataIndex)).Nodup) (hq : so.pendingQueue = rest.map (withAnswer allow answered))
    (socketId : NkeSocketID) :
    (so.setDeferredDataProperties (permission socketId allow x)).1 =
      so.withPending (rest.map (withAnswer allow (x :: answered))) := by
  have hloop : (propertyLoop (permission socketId allow x) so.pendingQueue).1 =
      rest.map (withAnswer allow (x :: answered)) := by
    rw [hq, propertyLoop_eq (by simpa using hreported) (by simpa [Function.comp_def] using hnd), List.map_map]
    refine List.map_congr_left ?_
    intro pkt _
    by_cases hi : pkt.dataIndex = x
    · subst hi
      simpa [permission] using setProperty_withAnswer socketId
    · simp [permission, hi, withAnswer_other hi]
  simp only [setDeferredDataProperties, hloop]
  rfl

/-- What can leave the queue is what is answered from its front on. -/
theorem collectLoop_eq (clock : Nat → UInt64) (l : List PendingPktQueueItem)
    (hreported : ∀ pkt ∈ l, pkt.needToBeReported = false) (hunanswered : ∀ pkt ∈ l, pkt.responseReceived = false)
    (hclock : ∀ pkt ∈ l, ∀ i, (pkt.isDeadlineTimerExpired (clock i)).1 = false) :
    collectLoop .NkeSocketDataAll clock (l.map (withAnswer allow answered)) =
      ((l.dropWhile (·.dataIndex ∈ answered)).map (withAnswer allow answered),
        (l.takeWhile (·.dataIndex ∈ answered)).map (withAnswer allow answered)) := by
  induction l generalizing clock with
  | nil => rfl
  | cons pkt rest ih =>
    have hrest := ih (fun i => clock (i + 1)) (fun pkt' hp => hreported pkt' (List.mem_cons_of_mem _ hp))
      (fun pkt' hp => hunanswered pkt' (List.mem_cons_of_mem _ hp))
      (fun pkt' hp i => hclock pkt' (List.mem_cons_of_mem _ hp) (i + 1))
    have hhere : pkt ∈ pkt :: rest := List.mem_cons_self ..
    rw [List.map_cons, collectLoop]
    simp only [NkeSocketDataDirectionType.covers, Bool.not_true, Bool.false_eq_true, if_false,
      withAnswer_needToBeReported, hreported pkt hhere, withAnswer_isDeadlineTimerExpired (hclock pkt hhere 0),
      withAnswer_responseReceived (hunanswered pkt hhere), hrest]
    by_cases hm : pkt.dataIndex ∈ answered
    · simp [hm]
    · simp [hm]

/-- A packet is passed to the injection function or its mbufs are freed, as it is allowed or not. -/
theorem inject_connected (so : NkeSocketObject) (pkt : PendingPktQueueItem) (uninitialised result : Errno)
    (hconn : so.f_sock_evt_disconnecting = false) :
    (so.inject pkt uninitialised result).2 =
        (if pkt.allowData then [.injected pkt.id pkt.dataInbound result] else []) ∧
      (pkt.allowData = false → (so.inject pkt uninitialised result).1) := by
  unfold inject
  cases pkt.allowData
  · simp [hconn]
  · simp [hconn]

/-- The packets taken are counted off and, as they are allowed or not, injected or freed. -/
theorem injectLoop_spec (uninitialised result : Nat → Errno) (l : List PendingPktQueueItem)
    (so : NkeSocketObject) (hconn : so.f_sock_evt_disconnecting = false) :
    (injectLoop uninitialised result l so).1 = l.foldl uncountPkt so ∧
      (injectLoop uninitialised result l so).2.filterMap injectedAny =
        (l.filter (·.allowData)).map (fun pkt => (pkt.id, pkt.dataInbound)) ∧
      ∀ pkt ∈ l, .freedEntry pkt.id ∈ (injectLoop uninitialised result l so).2 ∧
        (pkt.allowData = false → .freedMbufs pkt.id ∈ (injectLoop uninitialised result l so).2) := by
  induction l generalizing uninitialised result so with
  | nil => exact ⟨rfl, rfl, fun _ h => by cases h⟩
  | cons pkt rest ih =>
    obtain ⟨hso, hinj, hfreed⟩ := ih (fun i => uninitialised (i + 1)) (fun i => result (i + 1))
      (so.uncountPkt pkt) (uncountPkt_disconnecting.trans hconn)
    obtain ⟨hevents, hfrees⟩ := inject_connected so pkt (uninitialised 0) (result 0) hconn
    have hfree : ∀ freeMbufs : Bool,
        (if freeMbufs then [SocketEvent.freedMbufs pkt.id] else []).filterMap injectedAny = [] := by
      intro freeMbufs
      split <;> rfl
    unfold injectLoop
    refine ⟨hso, ?_, ?_⟩
    · rw [List.filterMap_append, List.filterMap_append, List.filterMap_append, hinj, hfree, hevents]
      cases hallow : pkt.allowData
      · rw [List.filter_cons_of_neg (by simp [hallow])]
        rfl
      · rw [List.filter_cons_of_pos hallow]
        rfl
    · intro pkt' hp
      rcases List.mem_cons.1 hp with rfl | hp
      · exact ⟨by simp, fun hallow => by simp [hfrees hallow]⟩
      · obtain ⟨hentry, hmbufs⟩ := hfreed pkt' hp
        exact ⟨List.mem_append_right _ hentry, fun hallow => List.mem_append_right _ (hmbufs hallow)⟩

/-! ### Any number of properties -/

theorem Awaiting.of_append (haw : Awaiting (gone ++ rest)) : Awaiting rest := by
  refine ⟨fun pkt hp => haw.reported pkt (List.mem_append_right _ hp),
    fun pkt hp => haw.unanswered pkt (List.mem_append_right _ hp), ?_⟩
  have hnd := haw.indices
  rw [List.map_append] at hnd
  exact List.Nodup.of_append_right hnd

/-- What one property does: the packets that are answered from the front on leave the queue. -/
theorem reinject_answered (so : NkeSocketObject) (haw : Awaiting rest) (hexp : Unexpired rest o)
    (hconn : so.f_sock_evt_disconnecting = false)
    (hq : so.pendingQueue = rest.map (withAnswer allow answered)) :
    let leaves := rest.takeWhile (·.dataIndex ∈ answered)
    let r := so.reinjectDeferredData .NkeSocketDataAll o
    r.1 = (leaves.foldl uncountPkt so).withPending
        ((rest.dropWhile (·.dataIndex ∈ answered)).map (withAnswer allow answered)) ∧
      r.2.filterMap injectedAny = (leaves.filter (allowed allow)).map (fun pkt => (pkt.id, pkt.dataInbound)) ∧
      ∀ pkt ∈ leaves, .freedEntry pkt.id ∈ r.2 ∧ (allowed allow pkt = false → .freedMbufs pkt.id ∈ r.2) := by
  intro leaves
  have hloop := @collectLoop_eq allow answered o.clock rest haw.reported haw.unanswered hexp
  -- what is taken has the client's decision
  have hdecided : ∀ pkt ∈ leaves, (withAnswer allow answered pkt).allowData = allowed allow pkt := by
    intro pkt hp
    exact withAnswer_allowData (by simpa using List.mem_takeWhile_imp hp)
  obtain ⟨hso, hinj, hfreed⟩ := injectLoop_spec o.uninitialised o.result (leaves.map (withAnswer allow answered))
    (so.withPending ((rest.dropWhile (·.dataIndex ∈ answered)).map (withAnswer allow answered))) hconn
  have htaken : ((leaves.map (withAnswer allow answered)).map fun pkt => SocketEvent.taken pkt.id).filterMap
      injectedAny = [] := List.filterMap_eq_nil_iff.2 (by simp [injectedAny])
  simp only [reinjectDeferredData, collect, hq, hloop]
  refine ⟨?_, ?_, ?_⟩
  · refine hso.trans ?_
    rw [List.foldl_map]
    simp only [uncountPkt_withAnswer]
    exact foldl_uncountPkt_queue leaves so
  · rw [List.filterMap_append, htaken, List.nil_append]
    refine hinj.trans ?_
    rw [List.filter_map, List.map_map]
    have hfilter : leaves.filter ((·.allowData) ∘ withAnswer allow answered) = leaves.filter (allowed allow) :=
      List.filter_congr hdecided
    rw [hfilter]
    exact List.map_congr_left fun pkt _ => Prod.ext withAnswer_id withAnswer_dataInbound
  · intro pkt hp
    obtain ⟨hentry, hmbufs⟩ := hfreed _ (List.mem_map_of_mem hp)
    rw [hdecided pkt hp] at hmbufs
    rw [withAnswer_id] at hentry hmbufs
    exact ⟨List.mem_append_right _ hentry, fun hallow => List.mem_append_right _ (hmbufs hallow)⟩

theorem processProperty_eq (hid : property.socketId = so.socketId) :
    so.processProperty property o =
      (((so.setDeferredDataProperties property).1.reinjectDeferredData .NkeSocketDataAll o).1,
        (so.setDeferredDataProperties property).2 ++
          ((so.setDeferredDataProperties property).1.reinjectDeferredData .NkeSocketDataAll o).2) := by
  unfold processProperty
  rw [if_neg (not_not_intro hid)]

theorem Progress.answer (haw : Awaiting so₀.pendingQueue) (hconn : so₀.f_sock_evt_disconnecting = false)
    (hexp : Unexpired so₀.pendingQueue o) (hP : Progress so₀ allow answered so e gone rest) :
    ∃ gone' rest', Progress so₀ allow (x :: answered)
      (so.processProperty (permission so₀.socketId allow x) o).1
      (e ++ (so.processProperty (permission so₀.socketId allow x) o).2) gone' rest' := by
  obtain ⟨hsplit, hobj, -, hinjected, hfreed⟩ := hP
  have hrest : Awaiting rest := (hsplit ▸ haw).of_append
  have hid : (permission so₀.socketId allow x).socketId = so.socketId := by
    rw [hobj]
    exact (foldl_uncountPkt_socketId gone so₀).symm
  have hanswer : (so.setDeferredDataProperties (permission so₀.socketId allow x)).1 =
      (gone.foldl uncountPkt so₀).withPending (rest.map (withAnswer allow (x :: answered))) := by
    rw [setDeferredDataProperties_eq hrest.reported hrest.indices (congrArg (·.pendingQueue) hobj), hobj]
    rfl
  obtain ⟨hso, hinj, hfree⟩ := @reinject_answered allow (x :: answered) o rest
    ((gone.foldl uncountPkt so₀).withPending (rest.map (withAnswer allow (x :: answered)))) hrest
    (fun pkt hp => hexp pkt (hsplit ▸ List.mem_append_right _ hp))
    ((foldl_uncountPkt_disconnecting gone so₀).trans hconn) rfl
  rw [processProperty_eq hid, hanswer]
  refine ⟨gone ++ rest.takeWhile (·.dataIndex ∈ x :: answered), rest.dropWhile (·.dataIndex ∈ x :: answered),
    ?_, ?_, ?_, ?_, ?_⟩
  · rw [List.append_assoc, List.takeWhile_append_dropWhile]
    exact hsplit
  · rw [hso, List.foldl_append, foldl_uncountPkt_queue]
    rfl
  · intro pkt hp
    have hnot := List.head?_dropWhile_not (·.dataIndex ∈ x :: answered) rest
    rw [hp] at hnot
    simpa using hnot
  · rw [List.filterMap_append, List.filterMap_append, hinj, hinjected, List.filter_append, List.map_append]
    rfl
  · intro pkt hp
    rcases List.mem_append.1 hp with hp | hp
    · obtain ⟨hentry, hmbufs⟩ := hfreed pkt hp
      exact ⟨List.mem_append_left _ hentry, fun hallow => List.mem_append_left _ (hmbufs hallow)⟩
    · obtain ⟨hentry, hmbufs⟩ := hfree pkt hp
      exact ⟨List.mem_append_right _ (List.mem_append_right _ hentry),
        fun hallow => List.mem_append_right _ (List.mem_append_right _ (hmbufs hallow))⟩

/-- A response whose properties are permissions for this socket. -/
theorem Progress.response {outcome : Nat → AnswerOutcome} {response : List NkeSocketDataProperty}
    (haw : Awaiting so₀.pendingQueue) (hconn : so₀.f_sock_evt_disconnecting = false)
    (hexp : ∀ i, Unexpired so₀.pendingQueue (outcome i)) {indices : List UInt32}
    (hr : properties response = indices.map (permission so₀.socketId allow))
    (hP : Progress so₀ allow answered so e gone rest) :
    ∃ gone' rest', Progress so₀ allow (indices.reverse ++ answered) (processServiceResponse outcome response so).1
      (e ++ (processServiceResponse outcome response so).2) gone' rest' := by
  induction response generalizing outcome so e gone rest answered indices with
  | nil =>
    obtain rfl : indices = [] := by simpa [properties] using hr
    exact ⟨gone, rest, by simpa [processServiceResponse] using hP⟩
  | cons property response ih =>
    unfold processServiceResponse
    by_cases hu : property.type = .NkeSocketDataPropertyTypeUnknown
    · obtain rfl : indices = [] := by simpa [properties, hu] using hr.symm
      simp only [if_pos hu, List.append_nil]
      exact ⟨gone, rest, hP⟩
    · rw [properties, List.takeWhile_cons_of_pos (by simpa using hu)] at hr
      cases indices with
      | nil => cases hr
      | cons x indices =>
        obtain ⟨rfl, htail⟩ := List.cons.inj hr
        simp only [if_neg hu]
        obtain ⟨gone', rest', hP'⟩ := hP.answer haw hconn (hexp 0)
        rw [← List.append_assoc, List.reverse_cons, List.append_assoc]
        rw [List.singleton_append]
        exact ih (fun i => hexp (i + 1)) htail hP'

theorem Progress.responses {outcome : Nat → Nat → AnswerOutcome} {responses : List (List NkeSocketDataProperty)}
    (haw : Awaiting so₀.pendingQueue) (hconn : so₀.f_sock_evt_disconnecting = false)
    (hexp : ∀ i j, Unexpired so₀.pendingQueue (outcome i j)) {indices : List UInt32}
    (hr : responses.flatMap properties = indices.map (permission so₀.socketId allow))
    (hP : Progress so₀ allow answered so e gone rest) :
    ∃ gone' rest', Progress so₀ allow (indices.reverse ++ answered)
      (processServiceResponses outcome responses so).1
      (e ++ (processServiceResponses outcome responses so).2) gone' rest' := by
  induction responses generalizing outcome so e gone rest answered indices with
  | nil =>
    obtain rfl : indices = [] := by simpa using hr.symm
    exact ⟨gone, rest, by simpa [processServiceResponses] using hP⟩
  | cons response responses ih =>
    obtain ⟨first, later, rfl, hfirst, hlater⟩ := List.append_eq_map_iff.1 (List.flatMap_cons ▸ hr)
    obtain ⟨gone', rest', hP'⟩ := hP.response haw hconn (hexp 0) hfirst.symm
    unfold processServiceResponses
    rw [List.reverse_append, List.append_assoc, ← List.append_assoc e]
    exact ih (fun i => hexp (i + 1)) hlater.symm hP'

/-! ### A run of the machine -/

/-- Handling the packets of `packetsToInject` one after the other, and giving the mutex back. -/
theorem injectLoop_run (uninitialised result : Nat → Errno) (l : List PendingPktQueueItem) (s : SocketState)
    (hs : s.injection = some ⟨l, none⟩) :
    ∃ as, socketMachine.run s as = some
      ({ s with so := (injectLoop uninitialised result l s.so).1, injection := none },
        (injectLoop uninitialised result l s.so).2) := by
  induction l generalizing uninitialised result s with
  | nil => exact ⟨[.unlock], by simp [Machine.run, socketMachine, SocketState.step, hs, injectLoop]⟩
  | cons pkt rest ih =>
    obtain ⟨as, has⟩ := ih (fun i => uninitialised (i + 1)) (fun i => result (i + 1))
      { s with so := s.so.uncountPkt pkt, injection := some ⟨rest, none⟩ } rfl
    unfold injectLoop
    rcases hi : s.so.inject pkt (uninitialised 0) (result 0) with ⟨freeMbufs, events⟩
    have hinject : socketMachine.step s (.inject (uninitialised 0) (result 0)) =
        some ({ s with
          injection := some ⟨rest, some (if freeMbufs then .toFree pkt else .toAccount pkt)⟩ }, events) := by
      simp only [socketMachine, SocketState.step, hs, hi]
    cases freeMbufs with
    | false =>
      refine ⟨.inject (uninitialised 0) (result 0) :: .account :: as, ?_⟩
      exact Machine.run_cons.2 ⟨_, _, _, hinject, Machine.run_cons.2 ⟨_, _, _, rfl, has, rfl⟩, by simp⟩
    | true =>
      refine ⟨.inject (uninitialised 0) (result 0) :: .freeMbufs :: .account :: as, ?_⟩
      exact Machine.run_cons.2 ⟨_, _, _, hinject, Machine.run_cons.2 ⟨_, _, _, rfl,
        Machine.run_cons.2 ⟨_, _, _, rfl, has, rfl⟩, rfl⟩, by simp⟩

/-- A property processed while no other thread moves is a run of the machine. -/
theorem processProperty_run (property : NkeSocketDataProperty) (o : AnswerOutcome) (s : SocketState)
    (hs : s.injection = none) :
    ∃ as, socketMachine.run s as = some
      ({ s with so := (s.so.processProperty property o).1 }, (s.so.processProperty property o).2) := by
  obtain ⟨so, calls, captures, injection, waitSatisfied⟩ := s
  obtain rfl : injection = none := hs
  by_cases hid : property.socketId = so.socketId
  · rw [processProperty_eq hid]
    obtain ⟨as, has⟩ := injectLoop_run o.uninitialised o.result
      ((so.setDeferredDataProperties property).1.collect .NkeSocketDataAll o.clock).2
      ⟨((so.setDeferredDataProperties property).1.collect .NkeSocketDataAll o.clock).1, calls, captures,
        some ⟨((so.setDeferredDataProperties property).1.collect .NkeSocketDataAll o.clock).2, none⟩,
        waitSatisfied⟩ rfl
    refine ⟨.property property :: .collect .NkeSocketDataAll o.clock :: as, ?_⟩
    exact Machine.run_cons.2 ⟨_, _, _, rfl, Machine.run_cons.2 ⟨_, _, _, rfl, has, rfl⟩, rfl⟩
  · refine ⟨[], ?_⟩
    unfold processProperty
    rw [if_pos hid]
    rfl

theorem processServiceResponse_run (outcome : Nat → AnswerOutcome) (response : List NkeSocketDataProperty)
    (s : SocketState) (hs : s.injection = none) :
    ∃ as, socketMachine.run s as = some ({ s with so := (processServiceResponse outcome response s.so).1 },
      (processServiceResponse outcome response s.so).2) := by
  induction response generalizing outcome s with
  | nil => exact ⟨[], rfl⟩
  | cons property rest ih =>
    unfold processServiceResponse
    by_cases hu : property.type = .NkeSocketDataPropertyTypeUnknown
    · rw [if_pos hu]
      exact ⟨[], rfl⟩
    · rw [if_neg hu]
      obtain ⟨as, has⟩ := processProperty_run property (outcome 0) s hs
      obtain ⟨as', has'⟩ := ih (fun i => outcome (i + 1))
        { s with so := (s.so.processProperty property (outcome 0)).1 } hs
      exact ⟨as ++ as', Machine.run_append.2 ⟨_, _, _, has, has', rfl⟩⟩

/-- Responses processed while no other thread moves are a run of the machine of the socket. -/
theorem processServiceResponses_run (outcome : Nat → Nat → AnswerOutcome)
    (responses : List (List NkeSocketDataProperty)) (s : SocketState) (hs : s.injection = none) :
    ∃ as, socketMachine.run s as = some ({ s with so := (processServiceResponses outcome responses s.so).1 },
      (processServiceResponses outcome responses s.so).2) := by
  induction responses generalizing outcome s with
  | nil => exact ⟨[], rfl⟩
  | cons response rest ih =>
    obtain ⟨as, has⟩ := processServiceResponse_run (outcome 0) response s hs
    obtain ⟨as', has'⟩ := ih (fun i => outcome (i + 1))
      { s with so := (processServiceResponse (outcome 0) response s.so).1 } hs
    exact ⟨as ++ as', Machine.run_append.2 ⟨_, _, _, has, has', rfl⟩⟩

/-! ### The result -/

/-- All packets were answered: the queue is empty, all are counted off, the allowed ones were passed to the
injection functions in queue order and the denied ones were freed. -/
structure Settled (so : NkeSocketObject) (allow : UInt32 → UInt8) (r : NkeSocketObject × List SocketEvent) :
    Prop where
  final : r.1 = (so.pendingQueue.foldl uncountPkt so).withPending []
  injected : r.2.filterMap injectedAny =
    (so.pendingQueue.filter (allowed allow)).map fun pkt => (pkt.id, pkt.dataInbound)
  denied : ∀ pkt ∈ so.pendingQueue, allowed allow pkt = false →
    .freedMbufs pkt.id ∈ r.2 ∧ .freedEntry pkt.id ∈ r.2

theorem progress_start : Progress so allow [] so [] [] so.pendingQueue := by
  refine ⟨rfl, ?_, fun _ _ => List.not_mem_nil, rfl, fun _ h => by cases h⟩
  have hnone : so.pendingQueue.map (withAnswer allow []) = so.pendingQueue :=
    List.map_id'' (fun pkt => by simp [withAnswer]) _
  rw [hnone]
  rfl

theorem settled_of_responses {outcome : Nat → Nat → AnswerOutcome}
    {responses : List (List NkeSocketDataProperty)} (haw : Awaiting so.pendingQueue)
    (hconn : so.f_sock_evt_disconnecting = false) (hexp : ∀ i j, Unexpired so.pendingQueue (outcome i j))
    (hr : (responses.flatMap properties).Perm
      (so.pendingQueue.map fun pkt => permission so.socketId allow pkt.dataIndex)) :
    Settled so allow (processServiceResponses outcome responses so) := by
  obtain ⟨indices, hindices, hall⟩ : ∃ indices : List UInt32, responses.flatMap properties =
      indices.map (permission so.socketId allow) ∧ indices.Perm (so.pendingQueue.map (·.dataIndex)) := by
    refine ⟨(responses.flatMap properties).map (·.dataIndex), ?_, ?_⟩
    · rw [List.map_map]
      refine ((List.map_congr_left ?_).trans (List.map_id _)).symm
      intro property hp
      obtain ⟨pkt, -, rfl⟩ := List.mem_map.1 (hr.mem_iff.1 hp)
      rfl
    · have := hr.map (·.dataIndex)
      rwa [List.map_map] at this
  obtain ⟨gone, rest, hP⟩ := progress_start.responses haw hconn hexp hindices
  -- every packet was answered, so none is left
  obtain rfl : rest = [] := by
    cases hrest : rest with
    | nil => rfl
    | cons pkt rest' =>
      have hp : pkt ∈ so.pendingQueue := by
        rw [hP.split, hrest]
        simp
      have hmem : pkt.dataIndex ∈ indices := hall.mem_iff.2 (List.mem_map_of_mem hp)
      exact absurd (by simpa using hmem) (hP.front pkt (by rw [hrest]; rfl))
  have hgone : gone = so.pendingQueue := by rw [hP.split, List.append_nil]
  subst hgone
  exact ⟨hP.object, hP.injected, fun pkt hp hallow => ((hP.freed pkt hp).symm.imp (· hallow) id)⟩

/-- For any two orders in which the permissions for the packets arrive, grouped into any responses, the final
state and the sequence of injected packets are the same. -/
theorem answers_anyOrder {outcome outcome' : Nat → Nat → AnswerOutcome}
    {responses responses' : List (List NkeSocketDataProperty)} (haw : Awaiting so.pendingQueue)
    (hconn : so.f_sock_evt_disconnecting = false) (hexp : ∀ i j, Unexpired so.pendingQueue (outcome i j))
    (hexp' : ∀ i j, Unexpired so.pendingQueue (outcome' i j))
    (hr : (responses.flatMap properties).Perm
      (so.pendingQueue.map fun pkt => permission so.socketId allow pkt.dataIndex))
    (hr' : (responses'.flatMap properties).Perm
      (so.pendingQueue.map fun pkt => permission so.socketId allow pkt.dataIndex)) :
    (processServiceResponses outcome responses so).1 = (processServiceResponses outcome' responses' so).1 ∧
      (processServiceResponses outcome responses so).2.filterMap injectedAny =
        (processServiceResponses outcome' responses' so).2.filterMap injectedAny ∧
      Settled so allow (processServiceResponses outcome responses so) := by
  have h := settled_of_responses haw hconn hexp hr
  have h' := settled_of_responses haw hconn hexp' hr'
  exact ⟨h.final.trans h'.final.symm, h.injected.trans h'.injected.symm, h⟩

/-- Two reported packets with the indices 0 and 1. -/
def twoReported : NkeSocketObject :=
  let so := withSocket ⟨1, 1⟩ 65536
  let pkt (i : Nat) : PendingPktQueueItem :=
    { so.newPkt i [⟨[0], some ⟨1, none, []⟩, none⟩] [] 0 true 0 with dataIndex := UInt32.ofNat i }
  { so with pendingQueue := [pkt 0, pkt 1], numberOfPendingInPackets := 2, totalPendingBytesIn := 2 }

def noTimePasses : AnswerOutcome := ⟨fun _ => 0, fun _ => 0, fun _ => KERN_SUCCESS⟩

/-- The first packet is denied, the second allowed. -/
def allowSecond (dataIndex : UInt32) : UInt8 := if dataIndex = 1 then 1 else 0

/-- Both answers in one response, the later packet first, or each in its own. -/
theorem twoReported_anyOrder :
    (processServiceResponses (fun _ _ => noTimePasses)
        [[permission ⟨1, 1⟩ allowSecond 1, permission ⟨1, 1⟩ allowSecond 0]] twoReported).1 =
      (processServiceResponses (fun _ _ => noTimePasses)
        [[permission ⟨1, 1⟩ allowSecond 0], [permission ⟨1, 1⟩ allowSecond 1]] twoReported).1 ∧
    (processServiceResponses (fun _ _ => noTimePasses)
        [[permission ⟨1, 1⟩ allowSecond 1, permission ⟨1, 1⟩ allowSecond 0]] twoReported).2.filterMap injectedAny =
      (processServiceResponses (fun _ _ => noTimePasses)
        [[permission ⟨1, 1⟩ allowSecond 0], [permission ⟨1, 1⟩ allowSecond 1]] twoReported).2.filterMap
          injectedAny ∧
    Settled twoReported allowSecond (processServiceResponses (fun _ _ => noTimePasses)
      [[permission ⟨1, 1⟩ allowSecond 1, permission ⟨1, 1⟩ allowSecond 0]] twoReported) := by
  have hexp : ∀ i j : Nat, Unexpired twoReported.pendingQueue noTimePasses := by
    intro _ _ pkt hp i
    rcases List.mem_cons.1 hp with rfl | hp
    · rfl
    · obtain rfl := List.mem_singleton.1 hp
      rfl
  exact answers_anyOrder ⟨by decide, by decide, by decide⟩ rfl hexp hexp (by decide) (by decide)

end NkeFilter
