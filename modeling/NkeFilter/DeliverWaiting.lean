import NkeFilter.Deliver
import NkeFilter.QueueShape

/-!
# DeliverWaitingNotifications

The function run by one thread alone, over any sockets: `deliverMachine` keeps the stack of its
activations, which grows when a failed notification makes it call itself through
`releaseDataBuffersAndDeliverNotifications`. A step takes one activation from one region to the next; what
the calls to the outside return is its label. Every run returns (`deliverWaitingNotifications_returns`):
an activation that puts a socket back leaves its loop, so the passes an activation can still make are
bounded by the sockets in the list when it was called.
-/

namespace NkeFilter
open Lib NkeSocketObject

/-! ### The function -/

/-- What `DeliverWaitingNotifications` does to one socket under its lock. -/
def SocketState.deliver (s : SocketState) (outcome : Nat → ReportOutcome) :
    SocketState × DeliverLocals × List SocketEvent :=
  let (so, l, events) := s.so.deliverQueue outcome
  ({ s with so, waitSatisfied := s.woken events }, l, events)

def SocketState.listed (s : SocketState) (inserted : Bool) : SocketState :=
  { s with so := { s.so with insertedInSocketsListToReport := inserted } }

/-- Where an activation is, with its variables; `error` is what the loop over the queue left. -/
inductive DeliverPhase where
  /-- the condition of the `while` -/
  | loop
  | popped (object : Nat)
  /-- the buffers are released, if they had to be -/
  | delivered (object : Nat) (reinsertInList : Bool) (error : Errno)
  deriving DecidableEq, Repr

/-- The sockets, the list, and the activations, the innermost first. -/
structure DeliverState where
  objects : Nat → SocketState
  socketsListToReport : List Nat
  stack : List DeliverPhase

inductive DeliverEvent where
  | socket (object : Nat) (event : SocketEvent)
  | releasedBuffers (buffers : List Nat)
  /-- the reference of the list is released -/
  | released (object : Nat)
  deriving DecidableEq, Repr

/-- What is left of the stack behind the turn of an activation: it returns when there was an error. -/
def goOn (error : Errno) (callers : List DeliverPhase) : List DeliverPhase :=
  if error ≠ KERN_SUCCESS then callers else .loop :: callers

namespace DeliverState

/-- A call on these sockets with this list. -/
def call (objects : Nat → SocketState) (socketsListToReport : List Nat) : DeliverState where
  objects := objects
  socketsListToReport := socketsListToReport
  stack := [.loop]

def setObject (d : DeliverState) (object : Nat) (s : SocketState) : DeliverState :=
  { d with objects := Function.update d.objects object s }

/-- `outcome` is for the delivery, if the step is one. A returned activation leaves the stack. -/
def step (d : DeliverState) (outcome : Nat → ReportOutcome) : Option (DeliverState × List DeliverEvent) :=
  match d.stack with
  | [] => none
  | .loop :: callers => match d.socketsListToReport with
    | [] => some ({ d with stack := callers }, [])
    | object :: rest =>
      some ({ d.setObject object ((d.objects object).listed false) with
        socketsListToReport := rest, stack := .popped object :: callers }, [])
  | .popped object :: callers =>
    let (s, l, events) := (d.objects object).deliver outcome
    let d := d.setObject object s
    let events := events.map (DeliverEvent.socket object)
    let caller := DeliverPhase.delivered object l.reinsertInList l.error
    -- `releaseDataBuffersAndDeliverNotifications` calls `DeliverWaitingNotifications`
    if l.releaseBuffers then
      some ({ d with stack := .loop :: caller :: callers }, events ++ [.releasedBuffers l.released])
    else some ({ d with stack := caller :: callers }, events)
  | .delivered object reinsertInList error :: callers =>
    if reinsertInList && !(d.objects object).so.insertedInSocketsListToReport then
      some ({ d.setObject object ((d.objects object).listed true) with
        socketsListToReport := d.socketsListToReport ++ [object], stack := goOn error callers }, [])
    else some ({ d with stack := goOn error callers }, [.released object])

end DeliverState

def deliverMachine : Machine DeliverState (Nat → ReportOutcome) DeliverEvent where
  step := DeliverState.step

/-- What a step can do; `l` are the variables after the delivery. -/
inductive DeliverStep (d : DeliverState) (outcome : Nat → ReportOutcome) :
    DeliverState → List DeliverEvent → Prop
  | leave {callers} : d.stack = .loop :: callers → d.socketsListToReport = [] →
      DeliverStep d outcome { d with stack := callers } []
  | pop {object rest callers} : d.stack = .loop :: callers → d.socketsListToReport = object :: rest →
      DeliverStep d outcome { d.setObject object ((d.objects object).listed false) with
        socketsListToReport := rest, stack := .popped object :: callers } []
  | deliver {object callers s l events nested released} : d.stack = .popped object :: callers →
      (d.objects object).deliver outcome = (s, l, events) →
      (nested = [] ∧ released = [] ∨ nested = [.loop] ∧ released = [.releasedBuffers l.released]) →
      DeliverStep d outcome { d.setObject object s with
        stack := nested ++ .delivered object l.reinsertInList l.error :: callers }
        (events.map (.socket object) ++ released)
  | reinsert {object error callers} : d.stack = .delivered object true error :: callers →
      (d.objects object).so.insertedInSocketsListToReport = false →
      DeliverStep d outcome { d.setObject object ((d.objects object).listed true) with
        socketsListToReport := d.socketsListToReport ++ [object]
        stack := goOn error callers } []
  | release {object reinsertInList error callers} :
      d.stack = .delivered object reinsertInList error :: callers →
      (reinsertInList → (d.objects object).so.insertedInSocketsListToReport) →
      DeliverStep d outcome { d with stack := goOn error callers } [.released object]

variable {d d' : DeliverState} {outcome : Nat → ReportOutcome} {e : List DeliverEvent} {object n n' N : Nat}
  {queue : List PendingPktQueueItem} {so : NkeSocketObject} {l : DeliverLocals} {stack : List DeliverPhase}

theorem DeliverState.step_inv (hs : deliverMachine.step d outcome = some (d', e)) :
    DeliverStep d outcome d' e := by
  simp only [deliverMachine, step] at hs
  split at hs
  · cases hs
  · rename_i callers hstack
    split at hs
    · rename_i hnil
      obtain ⟨rfl, rfl⟩ := Prod.mk.inj (Option.some.inj hs)
      exact .leave hstack hnil
    · rename_i object rest hlist
      obtain ⟨rfl, rfl⟩ := Prod.mk.inj (Option.some.inj hs)
      exact .pop hstack hlist
  · rename_i object callers hstack
    generalize hd : (d.objects object).deliver outcome = r at hs
    obtain ⟨s, l, events⟩ := r
    simp only at hs
    split at hs
    · obtain ⟨rfl, rfl⟩ := Prod.mk.inj (Option.some.inj hs)
      exact .deliver hstack hd (.inr ⟨rfl, rfl⟩)
    · obtain ⟨rfl, rfl⟩ := Prod.mk.inj (Option.some.inj hs)
      rw [← List.append_nil (events.map _)]
      exact .deliver hstack hd (.inl ⟨rfl, rfl⟩)
  · rename_i object reinsertInList error callers hstack
    split at hs
    · rename_i hre
      obtain ⟨hre, hflag⟩ := Bool.and_eq_true_iff.1 hre
      subst hre
      obtain ⟨rfl, rfl⟩ := Prod.mk.inj (Option.some.inj hs)
      exact .reinsert hstack (by simpa using hflag)
    · rename_i hre
      obtain ⟨rfl, rfl⟩ := Prod.mk.inj (Option.some.inj hs)
      refine .release hstack ?_
      intro htrue
      simpa [htrue] using hre

theorem DeliverState.step_none (hs : deliverMachine.step d outcome = none) : d.stack = [] := by
  simp only [deliverMachine, step] at hs
  repeat' split at hs
  all_goals first | assumption | cases hs

/-! ### The call and the machine of one socket -/

theorem setObject_self {s : SocketState} : (d.setObject object s).objects object = s := Function.update_self ..

theorem setObject_of_ne {s : SocketState} {object' : Nat} (hne : object' ≠ object) :
    (d.setObject object s).objects object' = d.objects object' :=
  Function.update_of_ne hne ..

/-- The part of the history that is the socket's. -/
def DeliverEvent.ofSocket (object : Nat) : DeliverEvent → Option SocketEvent
  | .socket object' event => if object' = object then some event else none
  | _ => none

theorem ofSocket_map {events : List SocketEvent} {object' : Nat} :
    (events.map (DeliverEvent.socket object')).filterMap (DeliverEvent.ofSocket object) =
      if object' = object then events else [] := by
  rw [List.filterMap_map]
  split
  · rename_i heq
    subst heq
    exact (List.filterMap_congr fun _ _ => if_pos rfl).trans List.filterMap_some
  · rename_i hne
    exact List.filterMap_eq_nil_iff.2 fun _ _ => if_neg hne

theorem run_setObject {s : SocketState} {object' : Nat} {label : SocketLabel} {events : List SocketEvent}
    (hs : socketMachine.step (d.objects object) label = some (s, events)) :
    ∃ bs, socketMachine.run (d.objects object') bs =
      some ((d.setObject object s).objects object', if object = object' then events else []) := by
  by_cases hne : object = object'
  · subst hne
    rw [setObject_self, if_pos rfl]
    exact ⟨[label], Machine.run_single hs⟩
  · rw [setObject_of_ne (Ne.symm hne), if_neg hne]
    exact ⟨[], rfl⟩

/-- What the call does to a socket its threads can do. -/
theorem deliverMachine_socket {outcomes : List (Nat → ReportOutcome)} {h : List DeliverEvent} (object : Nat)
    (hr : deliverMachine.run d outcomes = some (d', h)) :
    ∃ bs, socketMachine.run (d.objects object) bs =
      some (d'.objects object, h.filterMap (DeliverEvent.ofSocket object)) := by
  refine Machine.run_simulation (N := socketMachine) (f := fun d : DeliverState => d.objects object)
    (g := DeliverEvent.ofSocket object) (I := fun _ => True) (fun _ _ _ _ _ _ => trivial) ?_ trivial hr
  intro d outcome d' e _ hs
  cases DeliverState.step_inv hs with
  | leave => exact ⟨[], rfl⟩
  | @pop object' =>
    obtain ⟨bs, hbs⟩ := @run_setObject d object' _ object (.listToReport false) [] rfl
    rw [ite_self] at hbs
    exact ⟨bs, hbs⟩
  | @deliver object' _ s l events _ released _ hd hnested =>
    have hstep : socketMachine.step (d.objects object') (.deliver outcome) = some (s, events) := by
      cases hd
      rfl
    have hnone : released.filterMap (DeliverEvent.ofSocket object) = [] := by
      rcases hnested with ⟨-, rfl⟩ | ⟨-, rfl⟩ <;> rfl
    rw [List.filterMap_append, ofSocket_map, hnone, List.append_nil]
    exact run_setObject hstep
  | @reinsert object' =>
    obtain ⟨bs, hbs⟩ := @run_setObject d object' _ object (.listToReport true) [] rfl
    rw [ite_self] at hbs
    exact ⟨bs, hbs⟩
  | release => exact ⟨[], rfl⟩

/-! ### One delivery -/

theorem SocketState.deliver_reinsert {s : SocketState} {events : List SocketEvent}
    (hd : (d.objects object).deliver outcome = (s, l, events)) :
    (l.reinsertInList = false ∧ waitingCount s.so.pendingQueue = 0) ∨
      (l.reinsertInList = true ∧ l.error ≠ KERN_SUCCESS ∧ 0 < waitingCount s.so.pendingQueue) := by
  have hend := deliverLoop_reinsert outcome (d.objects object).so.pendingQueue (d.objects object).so
    ⟨none, KERN_SUCCESS, false, false⟩ rfl
  cases hd
  exact hend

/-! ### Termination -/

/-- The sockets an activation may still put back besides those in the list. -/
def DeliverPhase.restores : DeliverPhase → Nat
  | .loop => 0
  | .popped _ => 1
  | .delivered _ reinsertInList _ => if reinsertInList then 1 else 0

/-- The most steps a call can take with `n` sockets in the list. -/
def passes : Nat → Nat
  | 0 => 1
  | n + 1 => 2 * passes n + 3

/-- The most steps an activation can still take, with `n` sockets in the list, its nested calls included. -/
def DeliverPhase.cost (n : Nat) : DeliverPhase → Nat
  | .loop => passes n
  | .popped _ => 2 * passes n + 2
  | .delivered object reinsertInList error =>
    if error ≠ KERN_SUCCESS then 1
    else passes (n + (DeliverPhase.delivered object reinsertInList error).restores) + 1

/-- The same for the whole stack: a caller goes on with what the activation it called leaves in the list. -/
def stackCost : Nat → List DeliverPhase → Nat
  | _, [] => 0
  | n, phase :: callers => phase.cost n + stackCost (n + phase.restores) callers

theorem passes_mono (hle : n ≤ n') : passes n ≤ passes n' := by
  refine monotone_nat_of_le_succ ?_ hle
  intro n
  rw [passes]
  omega

theorem cost_mono (hle : n ≤ n') (phase : DeliverPhase) : phase.cost n ≤ phase.cost n' := by
  cases phase with
  | loop => exact passes_mono hle
  | popped object =>
    have := passes_mono hle
    simp only [DeliverPhase.cost]
    omega
  | delivered object reinsertInList error =>
    simp only [DeliverPhase.cost]
    split
    · exact Nat.le_refl _
    · exact Nat.succ_le_succ (passes_mono (Nat.add_le_add_right hle _))

theorem stackCost_mono (hle : n ≤ n') (stack : List DeliverPhase) : stackCost n stack ≤ stackCost n' stack := by
  induction stack generalizing n n' with
  | nil => exact Nat.le_refl _
  | cons phase callers ih => exact Nat.add_le_add (cost_mono hle phase) (ih (Nat.add_le_add_right hle _))

/-- When an activation leaves its turn it returns or goes back to its condition. -/
theorem stackCost_turn {reinsertInList : Bool} {error : Errno} {callers : List DeliverPhase}
    (hle : n' ≤ n + (DeliverPhase.delivered object reinsertInList error).restores) :
    stackCost n' (goOn error callers) <
      stackCost n (.delivered object reinsertInList error :: callers) := by
  have hcallers := stackCost_mono hle callers
  rw [stackCost, DeliverPhase.cost, goOn]
  split
  · omega
  · have hpasses := passes_mono hle
    rw [stackCost, DeliverPhase.cost]
    simp only [DeliverPhase.restores, Nat.add_zero] at hcallers hpasses ⊢
    omega

theorem stackCost_step (hs : deliverMachine.step d outcome = some (d', e)) :
    stackCost d'.socketsListToReport.length d'.stack < stackCost d.socketsListToReport.length d.stack := by
  cases DeliverState.step_inv hs with
  | leave hstack hlist =>
    rw [hstack, hlist]
    simp only [stackCost, DeliverPhase.cost, DeliverPhase.restores, List.length_nil, passes, Nat.add_zero]
    omega
  | pop hstack hlist =>
    rw [hstack, hlist]
    simp only [stackCost, DeliverPhase.cost, DeliverPhase.restores, List.length_cons, passes, Nat.add_zero]
    omega
  | @deliver object callers s l events nested _ hstack hd hnested =>
    rw [hstack]
    show stackCost d.socketsListToReport.length (nested ++ _) < _
    generalize d.socketsListToReport.length = n
    have hnext : (DeliverPhase.delivered object l.reinsertInList l.error).cost n ≤ passes n + 1 ∧
        stackCost (n + (DeliverPhase.delivered object l.reinsertInList l.error).restores) callers ≤
          stackCost (n + 1) callers := by
      rcases SocketState.deliver_reinsert hd with ⟨hre, -⟩ | ⟨hre, herr, -⟩
      · refine ⟨?_, stackCost_mono (by simp [DeliverPhase.restores, hre]) callers⟩
        simp only [DeliverPhase.cost, DeliverPhase.restores, hre]
        split
        · omega
        · exact Nat.le_refl _
      · refine ⟨?_, stackCost_mono (by simp [DeliverPhase.restores, hre]) callers⟩
        simp only [DeliverPhase.cost, if_pos herr]
        omega
    have hnested : stackCost n (nested ++ .delivered object l.reinsertInList l.error :: callers) ≤
        passes n + stackCost n (.delivered object l.reinsertInList l.error :: callers) := by
      rcases hnested with ⟨rfl, -⟩ | ⟨rfl, -⟩
      · exact Nat.le_add_left ..
      · exact Nat.le_refl _
    simp only [stackCost, DeliverPhase.restores, DeliverPhase.cost] at hnext hnested ⊢
    omega
  | reinsert hstack =>
    rw [hstack]
    refine stackCost_turn ?_
    simp [DeliverPhase.restores]
  | release hstack =>
    rw [hstack]
    exact stackCost_turn (Nat.le_add_right ..)

/-! ### Depth -/

/-- No activation leaves more sockets than `N` less the number of its callers. -/
def StackFits (N : Nat) : Nat → List DeliverPhase → Prop
  | _, [] => True
  | n, phase :: callers => n + phase.restores + callers.length ≤ N ∧ StackFits N (n + phase.restores) callers

theorem StackFits.mono (hle : n' ≤ n) (h : StackFits N n stack) : StackFits N n' stack := by
  induction stack generalizing n n' with
  | nil => trivial
  | cons phase callers ih => exact ⟨by have := h.1; omega, ih (Nat.add_le_add_right hle _) h.2⟩

theorem StackFits.depth (h : StackFits N n stack) : stack.length ≤ N + 1 := by
  cases stack with
  | nil => exact Nat.zero_le _
  | cons phase callers =>
    have := h.1
    rw [List.length_cons]
    omega

theorem StackFits.turn {reinsertInList : Bool} {error : Errno} {callers : List DeliverPhase}
    (h : StackFits N n (.delivered object reinsertInList error :: callers))
    (hle : n' ≤ n + (DeliverPhase.delivered object reinsertInList error).restores) :
    StackFits N n' (goOn error callers) := by
  unfold goOn
  split
  · exact h.2.mono hle
  · refine ⟨?_, h.2.mono hle⟩
    have := h.1
    simp only [DeliverPhase.restores] at this hle ⊢
    omega

theorem StackFits.step (h : StackFits N d.socketsListToReport.length d.stack)
    (hs : deliverMachine.step d outcome = some (d', e)) :
    StackFits N d'.socketsListToReport.length d'.stack := by
  cases DeliverState.step_inv hs with
  | leave hstack hlist =>
    rw [hstack] at h
    exact h.2
  | pop hstack hlist =>
    rw [hstack, hlist] at h
    exact h
  | @deliver object callers s l events nested _ hstack hd hnested =>
    rw [hstack] at h
    have hnext : StackFits N d.socketsListToReport.length
        (.delivered object l.reinsertInList l.error :: callers) := by
      have hle : (DeliverPhase.delivered object l.reinsertInList l.error).restores ≤ 1 := by
        simp only [DeliverPhase.restores]
        split <;> omega
      exact ⟨(Nat.add_le_add_right (Nat.add_le_add_left hle _) _).trans h.1,
        h.2.mono (Nat.add_le_add_left hle _)⟩
    rcases hnested with ⟨rfl, -⟩ | ⟨rfl, -⟩
    · exact hnext
    · refine ⟨?_, hnext⟩
      have hfits : d.socketsListToReport.length + 1 + callers.length ≤ N := h.1
      show d.socketsListToReport.length + 0 + (callers.length + 1) ≤ N
      omega
  | reinsert hstack =>
    rw [hstack] at h
    refine h.turn ?_
    simp [DeliverPhase.restores]
  | release hstack =>
    rw [hstack] at h
    exact h.turn (Nat.le_add_right ..)

/-! ### The list -/

/-- The counters are the numbers of waiting packets, as far as their 32 bits go. -/
def CountersExact (objects : Nat → SocketState) : Prop :=
  ∀ object, (objects object).so.packetsWaitingForReporting =
    Int32.ofNat (waitingCount (objects object).so.pendingQueue)

/-- Every socket with waiting packets is in the list once. -/
def ListedOnce (d : DeliverState) : Prop :=
  ∀ object, 0 < (d.objects object).so.packetsWaitingForReporting → d.socketsListToReport.count object = 1

/-- No socket with more waiting packets than the counter can say is in the list twice. -/
def OverflownOnce (d : DeliverState) : Prop :=
  ∀ object, 2 ^ 31 ≤ waitingCount (d.objects object).so.pendingQueue → d.socketsListToReport.count object ≤ 1

def DeliverPhase.pops (object : Nat) : DeliverPhase → Bool
  | .popped object' => object' == object
  | _ => false

/-- The activation will put the socket back. -/
def DeliverPhase.owes (object : Nat) : DeliverPhase → Bool
  | .delivered object' true _ => object' == object
  | _ => false

def popped (object : Nat) (stack : List DeliverPhase) : Nat := stack.countP (·.pops object)

def owed (object : Nat) (stack : List DeliverPhase) : Nat := stack.countP (·.owes object)

/-- Where a socket stands: its counter, waiting packets and flag, how often it is in the list, and how many
activations have taken it out and not delivered it yet, or will put it back. -/
structure Standing where
  counter : Int32
  waiting : Nat
  inserted : Bool
  listed : Nat
  popped : Nat
  owed : Nat

def DeliverState.standing (d : DeliverState) (object : Nat) : Standing where
  counter := (d.objects object).so.packetsWaitingForReporting
  waiting := waitingCount (d.objects object).so.pendingQueue
  inserted := (d.objects object).so.insertedInSocketsListToReport
  listed := d.socketsListToReport.count object
  popped := popped object d.stack
  owed := owed object d.stack

/-- A socket with waiting packets is in the list or in the hands of at most one activation, of one if the
counter says so, and one that is to be put back waits and is not flagged. -/
structure Standing.Once (x : Standing) : Prop where
  atMost : 0 < x.waiting → x.listed + x.popped + x.owed ≤ 1
  once : 0 < x.counter → x.listed + x.popped + x.owed = 1
  unflagged : 0 < x.popped + x.owed → x.inserted = false
  waits : 0 < x.owed → 0 < x.waiting

structure HeldOnce (d : DeliverState) : Prop where
  exact : CountersExact d.objects
  standing : ∀ object, (d.standing object).Once

section Standing
variable {s s' : SocketState} {events : List SocketEvent} {object' : Nat} {objects : Nat → SocketState}

@[simp] theorem popped_loop : popped object (.loop :: stack) = popped object stack := by
  simp [popped, DeliverPhase.pops]

@[simp] theorem popped_popped :
    popped object (.popped object' :: stack) = popped object stack + if object' = object then 1 else 0 := by
  simp [popped, DeliverPhase.pops, List.countP_cons]

@[simp] theorem popped_delivered {reinsertInList : Bool} {error : Errno} :
    popped object (.delivered object' reinsertInList error :: stack) = popped object stack := by
  simp [popped, DeliverPhase.pops]

@[simp] theorem owed_loop : owed object (.loop :: stack) = owed object stack := by
  simp [owed, DeliverPhase.owes]

@[simp] theorem owed_popped : owed object (.popped object' :: stack) = owed object stack := by
  simp [owed, DeliverPhase.owes]

@[simp] theorem owed_delivered {reinsertInList : Bool} {error : Errno} :
    owed object (.delivered object' reinsertInList error :: stack) =
      owed object stack + if reinsertInList ∧ object' = object then 1 else 0 := by
  cases reinsertInList <;> simp [owed, DeliverPhase.owes, List.countP_cons]

@[simp] theorem popped_goOn {error : Errno} : popped object (goOn error stack) = popped object stack := by
  unfold goOn
  split <;> simp

@[simp] theorem owed_goOn {error : Errno} : owed object (goOn error stack) = owed object stack := by
  unfold goOn
  split <;> simp

@[simp] theorem listed_waiting {inserted : Bool} :
    (s.listed inserted).so.packetsWaitingForReporting = s.so.packetsWaitingForReporting := rfl

@[simp] theorem listed_queue {inserted : Bool} :
    (s.listed inserted).so.pendingQueue = s.so.pendingQueue := rfl

@[simp] theorem listed_inserted {inserted : Bool} :
    (s.listed inserted).so.insertedInSocketsListToReport = inserted := rfl

/-- A delivery keeps the counter exact and the flag as it is, and leaves no packet waiting that did not. -/
theorem deliver_end (hd : s.deliver outcome = (s', l, events)) :
    (s.so.packetsWaitingForReporting = Int32.ofNat (waitingCount s.so.pendingQueue) →
        s'.so.packetsWaitingForReporting = Int32.ofNat (waitingCount s'.so.pendingQueue)) ∧
      s'.so.insertedInSocketsListToReport = s.so.insertedInSocketsListToReport ∧
      waitingCount s'.so.pendingQueue ≤ waitingCount s.so.pendingQueue := by
  obtain ⟨hpkts, -, hso, -⟩ : DeliverEnd s.so.pendingQueue s.so (deliverLoop outcome s.so.pendingQueue s.so
    ⟨none, KERN_SUCCESS, false, false⟩) := deliverLoop_spec outcome
  cases hd
  refine ⟨?_, ?_, waitingCount_delivered hpkts⟩
  · intro hwait
    show (deliverLoop _ _ _ _).2.1.packetsWaitingForReporting =
      Int32.ofNat (waitingCount (deliverLoop _ _ _ _).1)
    rw [hso, hwait]
    grind
  · have hflag := congrArg NkeSocketObject.insertedInSocketsListToReport hso
    exact hflag

theorem CountersExact.setObject (h : CountersExact d.objects)
    (hs : s.so.packetsWaitingForReporting = Int32.ofNat (waitingCount s.so.pendingQueue)) :
    CountersExact (d.setObject object s).objects := by
  intro object'
  by_cases hne : object' = object
  · subst hne
    rw [setObject_self]
    exact hs
  · rw [setObject_of_ne hne]
    exact h object'

/-- Below `2 ^ 31` waiting packets the counter says that there are some. -/
theorem CountersExact.counter_pos (h : CountersExact objects)
    (hpos : 0 < waitingCount (objects object).so.pendingQueue)
    (hlt : waitingCount (objects object).so.pendingQueue < 2 ^ 31) :
    0 < (objects object).so.packetsWaitingForReporting := by
  rw [h object]
  exact (Int32.ofNat_lt_iff_lt (by decide) hlt).2 hpos

theorem standing_call {list : List Nat} (hexact : CountersExact objects)
    (hover : OverflownOnce (.call objects list)) (honce : ListedOnce (.call objects list)) (object : Nat) :
    ((DeliverState.call objects list).standing object).Once := by
  have hnone : popped object [.loop] = 0 ∧ owed object [.loop] = 0 := ⟨rfl, rfl⟩
  refine ⟨?_, honce object, ?_, ?_⟩
  · intro hpos
    rcases Nat.lt_or_ge (waitingCount (objects object).so.pendingQueue) (2 ^ 31) with hlt | hge
    · exact (honce object (hexact.counter_pos hpos hlt)).le
    · exact hover object hge
  · intro hpos
    simp [DeliverState.standing, DeliverState.call, hnone] at hpos
  · intro hpos
    simp [DeliverState.standing, DeliverState.call, hnone] at hpos

/-- The step of an activation on one socket leaves the others where they stand. -/
theorem standing_other {list : List Nat} (hne : object' ≠ object)
    (hlist : list.count object' = d.socketsListToReport.count object')
    (hpopped : popped object' stack = popped object' d.stack)
    (howed : owed object' stack = owed object' d.stack) :
    ({ d.setObject object s with socketsListToReport := list, stack } : DeliverState).standing object' =
      d.standing object' := by
  simp only [DeliverState.standing, hlist, hpopped, howed]
  rw [setObject_of_ne hne]

theorem standing_pop {rest : List Nat} {callers : List DeliverPhase} (hstack : d.stack = .loop :: callers)
    (hlist : d.socketsListToReport = object :: rest) (h : (d.standing object').Once) :
    (({ d.setObject object ((d.objects object).listed false) with
      socketsListToReport := rest, stack := .popped object :: callers } : DeliverState).standing object').Once := by
  by_cases hne : object' = object
  · subst hne
    obtain ⟨hatMost, honce, -, hwaits⟩ := h
    simp only [DeliverState.standing, hstack, hlist, List.count_cons_self, popped_loop, owed_loop]
      at hatMost honce hwaits
    refine ⟨?_, ?_, ?_, ?_⟩ <;>
      simp only [DeliverState.standing, setObject_self, listed_waiting, listed_queue, listed_inserted,
        popped_popped, owed_popped, if_true]
    · intro hw
      have := hatMost hw
      omega
    · intro hw
      have := honce hw
      omega
    · exact fun _ => trivial
    · exact hwaits
  · rw [standing_other hne]
    · exact h
    · simp [hlist, Ne.symm hne]
    · simp [hstack, Ne.symm hne]
    · simp [hstack]

theorem standing_deliver {callers nested : List DeliverPhase} (hstack : d.stack = .popped object :: callers)
    (hd : (d.objects object).deliver outcome = (s, l, events)) (hnested : nested = [] ∨ nested = [.loop])
    (hexact : CountersExact d.objects) (h : (d.standing object').Once) :
    (({ d.setObject object s with
      stack := nested ++ .delivered object l.reinsertInList l.error :: callers } :
        DeliverState).standing object').Once := by
  have hpopped : ∀ object', popped object' (nested ++ .delivered object l.reinsertInList l.error :: callers) =
      popped object' callers := by
    intro object'
    rcases hnested with rfl | rfl <;> simp
  have howed : ∀ object', owed object' (nested ++ .delivered object l.reinsertInList l.error :: callers) =
      owed object' callers + if l.reinsertInList ∧ object = object' then 1 else 0 := by
    intro object'
    rcases hnested with rfl | rfl <;> simp
  by_cases hne : object' = object
  · subst hne
    obtain ⟨hcount, hflag, hle⟩ := deliver_end hd
    have hwaiting := hcount (hexact object')
    obtain ⟨hatMost, -, hunflagged, hwaits⟩ := h
    simp only [DeliverState.standing, hstack, popped_popped, owed_popped, if_true] at hatMost hunflagged hwaits
    have hre := SocketState.deliver_reinsert hd
    -- when packets still wait this activation alone has the socket, and owes it
    have hone : 0 < waitingCount s.so.pendingQueue → d.socketsListToReport.count object' +
        popped object' callers + (owed object' callers + if l.reinsertInList ∧ True then 1 else 0) = 1 := by
      intro hw
      have hold := hatMost (by omega)
      rcases hre with ⟨-, hzero⟩ | ⟨hre, -, -⟩
      · omega
      · simp only [hre, and_self, if_true]
        omega
    refine ⟨?_, ?_, ?_, ?_⟩ <;> simp only [DeliverState.standing, setObject_self, hpopped, howed]
    · exact fun hw => (hone hw).le
    · exact fun hw => hone (pos_of_int32_ofNat_ne_zero (hwaiting ▸ int32_ne_zero_of_pos hw))
    · intro _
      exact hflag.trans (hunflagged (by omega))
    · intro hpos
      rcases hre with ⟨hre, -⟩ | ⟨-, -, hsome⟩
      · -- no other activation owes a socket that this one has taken out
        simp only [hre, Bool.false_eq_true, false_and, if_false, Nat.add_zero] at hpos
        have := hatMost (hwaits hpos)
        omega
      · omega
  · rw [standing_other hne]
    · exact h
    · rfl
    · simp [hstack, hpopped, Ne.symm hne]
    · simp [hstack, howed, Ne.symm hne]

theorem standing_reinsert {error : Errno} {callers : List DeliverPhase}
    (hstack : d.stack = .delivered object true error :: callers) (h : (d.standing object').Once) :
    (({ d.setObject object ((d.objects object).listed true) with
      socketsListToReport := d.socketsListToReport ++ [object]
      stack := goOn error callers } :
        DeliverState).standing object').Once := by
  by_cases hne : object' = object
  · subst hne
    obtain ⟨hatMost, -, hunflagged, hwaits⟩ := h
    simp only [DeliverState.standing, hstack, popped_delivered, owed_delivered, and_self, if_true]
      at hatMost hwaits
    have hone := hatMost (hwaits (Nat.succ_pos _))
    refine ⟨?_, ?_, ?_, ?_⟩ <;>
      simp only [DeliverState.standing, setObject_self, listed_waiting, listed_inserted, popped_goOn, owed_goOn,
        List.count_append, List.count_singleton_self]
    · intro _
      omega
    · intro _
      omega
    · intro hpos
      omega
    · intro hpos
      omega
  · rw [standing_other hne]
    · exact h
    · simp [Ne.symm hne]
    · simp [hstack]
    · simp [hstack, Ne.symm hne]

/-- An activation that would put its socket back finds it unflagged, so only others release it. -/
theorem standing_release {reinsertInList : Bool} {error : Errno} {callers : List DeliverPhase}
    (hstack : d.stack = .delivered object reinsertInList error :: callers)
    (hflagged : reinsertInList → (d.objects object).so.insertedInSocketsListToReport)
    (h : ∀ object, (d.standing object).Once) :
    (({ d with stack := goOn error callers } :
      DeliverState).standing object').Once := by
  have hkeeps : reinsertInList = false := by
    by_contra hre
    rw [Bool.not_eq_false] at hre
    have hunflagged := (h object).unflagged
    simp only [DeliverState.standing, hstack, owed_delivered, hre, and_self, if_true, hflagged hre] at hunflagged
    exact absurd (hunflagged (by omega)) (by simp)
  have hsame : ({ d with stack := goOn error callers } :
      DeliverState).standing object' = d.standing object' := by
    subst hkeeps
    simp [DeliverState.standing, hstack]
  rw [hsame]
  exact h object'

end Standing

theorem HeldOnce.step (h : HeldOnce d) (hs : deliverMachine.step d outcome = some (d', e)) : HeldOnce d' := by
  obtain ⟨hexact, hstanding⟩ := h
  cases DeliverState.step_inv hs with
  | leave hstack hlist =>
    refine ⟨hexact, fun object => ?_⟩
    have hold := hstanding object
    simp only [DeliverState.standing, hstack, popped_loop, owed_loop] at hold ⊢
    exact hold
  | @pop object _ _ hstack hlist =>
    exact ⟨hexact.setObject (hexact object), fun object' => standing_pop hstack hlist (hstanding object')⟩
  | @deliver object _ _ _ _ _ _ hstack hd hnested =>
    exact ⟨hexact.setObject ((deliver_end hd).1 (hexact object)),
      fun object' => standing_deliver hstack hd (hnested.imp And.left And.left) hexact (hstanding object')⟩
  | @reinsert object _ _ hstack =>
    exact ⟨hexact.setObject (hexact object), fun object' => standing_reinsert hstack (hstanding object')⟩
  | release hstack hflagged => exact ⟨hexact, fun _ => standing_release hstack hflagged hstanding⟩

/-- The counter of a socket that its threads have brought where it is is exact as far as it goes. -/
theorem countersExact_of_reachable {objects : Nat → SocketState}
    (hreach : ∀ object, ∃ socketId size,
      socketMachine.Reachable (SocketState.start socketId size) (objects object)) : CountersExact objects := by
  intro object
  obtain ⟨socketId, size, as, h, hr⟩ := hreach object
  exact (queueShape_of_run hr).waiting

/-! ### The call -/

theorem deliverMachine_returns (objects : Nat → SocketState) (list : List Nat)
    (outcomes : Nat → Nat → ReportOutcome) :
    ∃ k d h, k ≤ passes list.length ∧
      deliverMachine.run (.call objects list) ((List.range k).map outcomes) = some (d, h) ∧ d.stack = [] := by
  obtain ⟨k, d, h, hk, hr, hstuck⟩ := Machine.exists_stuck
    (fun d : DeliverState => stackCost d.socketsListToReport.length d.stack)
    (fun _ _ _ _ hs => stackCost_step hs) (.call objects list) outcomes
  refine ⟨k, d, h, ?_, hr, DeliverState.step_none hstuck⟩
  simpa [DeliverState.call, stackCost, DeliverPhase.cost] using hk

/-- A call of `DeliverWaitingNotifications` by one thread alone, whatever the copies, the client and the
clock answer in any of its deliveries: it returns after a number of steps that the length of the list
bounds, nests no deeper than that length and one, and when every socket with waiting packets was in the
list once, then it is so again. Of a socket whose counter has overflowed it is enough that it was not in the
list twice. -/
theorem deliverWaitingNotifications_returns (objects : Nat → SocketState) (list : List Nat)
    (outcomes : Nat → Nat → ReportOutcome) :
    ∃ k d h, k ≤ passes list.length ∧
      deliverMachine.run (.call objects list) ((List.range k).map outcomes) = some (d, h) ∧ d.stack = [] ∧
      (∀ as d' h', deliverMachine.run (.call objects list) as = some (d', h') →
        d'.stack.length ≤ list.length + 1) ∧
      (CountersExact objects → OverflownOnce (.call objects list) → ListedOnce (.call objects list) →
        ListedOnce d) := by
  obtain ⟨k, d, h, hk, hr, hreturned⟩ := deliverMachine_returns objects list outcomes
  refine ⟨k, d, h, hk, hr, hreturned, ?_, ?_⟩
  · intro as d' h' hr'
    have hcalled : StackFits list.length list.length [.loop] := ⟨Nat.le_refl _, trivial⟩
    have hfits : StackFits list.length d'.socketsListToReport.length d'.stack :=
      Machine.Reachable.invariant (I := fun d => StackFits list.length d.socketsListToReport.length d.stack)
        ⟨as, h', hr'⟩ hcalled fun _ _ _ _ hI hs => hI.step hs
    exact hfits.depth
  · intro hexact hover honce object hw
    have hheld : HeldOnce d := Machine.Reachable.invariant ⟨_, h, hr⟩ ⟨hexact, standing_call hexact hover honce⟩
      fun _ _ _ _ hI hs => hI.step hs
    simpa [DeliverState.standing, hreturned, popped, owed] using (hheld.standing object).once hw

/-- One socket with a packet that was not copied; no notification arrives. -/
theorem secondNotCopied_returns :
    ∃ s k d h, s.so.packetsWaitingForReporting = 1 ∧
      deliverMachine.run (.call (Function.update (fun _ => SocketState.start ⟨2, 2⟩ 65536) 0 s) [0])
        ((List.range k).map fun _ _ => ⟨KERN_SUCCESS, [0], ENOMEM, 0⟩) = some (d, h) ∧
      d.stack = [] ∧ ListedOnce d := by
  obtain ⟨s, h, hr, hone⟩ : ∃ s h, socketMachine.run (SocketState.start ⟨1, 1⟩ 65536) secondNotCopied =
      some (s, h) ∧ s.so.packetsWaitingForReporting = 1 := ⟨_, _, rfl, rfl⟩
  have hexact : CountersExact (Function.update (fun _ => SocketState.start ⟨2, 2⟩ 65536) 0 s) := by
    refine countersExact_of_reachable fun object => ?_
    by_cases hne : object = 0
    · subst hne
      rw [Function.update_self]
      exact ⟨_, _, _, _, hr⟩
    · rw [Function.update_of_ne hne]
      exact ⟨_, _, .refl⟩
  have honce : ListedOnce (.call (Function.update (fun _ => SocketState.start ⟨2, 2⟩ 65536) 0 s) [0]) := by
    intro object hw
    by_cases hne : object = 0
    · subst hne
      rfl
    · simp [DeliverState.call, Function.update_of_ne hne, SocketState.start, withSocket] at hw
  have hover : OverflownOnce (.call (Function.update (fun _ => SocketState.start ⟨2, 2⟩ 65536) 0 s) [0]) := by
    intro object _
    exact List.nodup_iff_count_le_one.1 (List.nodup_singleton 0) object
  obtain ⟨k, d, h', -, hr', hreturned, -, honce'⟩ := deliverWaitingNotifications_returns
    (Function.update (fun _ => SocketState.start ⟨2, 2⟩ 65536) 0 s) [0] fun _ _ => ⟨KERN_SUCCESS, [0], ENOMEM, 0⟩
  exact ⟨s, k, d, h', hone, hr', hreturned, honce' hexact hover honce⟩

end NkeFilter
