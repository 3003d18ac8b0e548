import NkeFilter.SocketsList

/-!
# Nothing uses a socket after `FltDetach`

`FltDetach` takes the object out of the lists, purges its queue while it has `injectionMutex`, and waits for
the counters. The kernel runs no data callback of the socket any more. Other threads may have references on
the object all the while: once the queue is purged they find nothing in it, and `packetsToInject` of the
one that had taken packets out was empty when the purge got the mutex.
-/

namespace NkeFilter
open Lib NkeSocketObject

/-- Nothing is in the queue and nothing was taken out of it that is not done with. -/
structure Drained (s : SocketState) : Prop where
  queue : s.so.pendingQueue = []
  injection : s.injection = none ∨ s.injection = some ⟨[], none⟩

/-- `sock_inject_data_in`, `sock_inject_data_out` or `sock_setsockopt` was called. -/
def SocketEvent.usesSocket : SocketEvent → Bool
  | .setRcvBuf _ | .injected .. => true
  | _ => false

/-- No `FltData` call of the socket is in progress. -/
def SocketState.noFltData (s : SocketState) : Prop := ∀ id, s.calls id = .idle ∨ s.calls id = .returned

variable {s s' : SocketState} {label : SocketLabel} {ev : List SocketEvent}

/-! ### One socket -/

theorem calls_of_step (hs : socketMachine.step s label = some (s', ev)) (hlabel : label.isFltData = false) :
    s'.calls = s.calls := by
  cases label with
  | capture | copy | queue | send | finish => cases hlabel
  | deliver | property | disconnecting | markAsDisconnected | beginDetach | listToReport =>
    obtain ⟨rfl, -⟩ := Prod.mk.inj (Option.some.inj hs)
    rfl
  | collect | inject | freeMbufs | account | unlock | purge =>
    simp only [socketMachine, SocketState.step] at hs
    split at hs <;> cases hs
    rfl

/-- The counters of pending packets are as they were. -/
def SamePending (so so' : NkeSocketObject) : Prop :=
  ∀ inbound, so'.numberOfPendingPackets inbound = so.numberOfPendingPackets inbound

theorem Drained.step (hD : Drained s) (hs : socketMachine.step s label = some (s', ev))
    (hlabel : label.isFltData = false) :
    Drained s' ∧ SamePending s.so s'.so ∧ ∀ event ∈ ev, event.usesSocket = false := by
  obtain ⟨hqueue, hinj⟩ := hD
  cases label with
  | capture | copy | queue | send | finish => cases hlabel
  | disconnecting | markAsDisconnected | beginDetach | listToReport =>
    obtain ⟨rfl, rfl⟩ := Prod.mk.inj (Option.some.inj hs)
    exact ⟨⟨hqueue, hinj⟩, fun _ => rfl, List.forall_mem_nil _⟩
  | deliver outcome =>
    simp only [socketMachine, SocketState.step, deliverQueue, hqueue, deliverLoop, Option.some.injEq,
      Prod.mk.injEq] at hs
    obtain ⟨rfl, rfl⟩ := hs
    exact ⟨⟨rfl, hinj⟩, fun _ => rfl, List.forall_mem_nil _⟩
  | property property =>
    simp only [socketMachine, SocketState.step, setDeferredDataProperties, hqueue, propertyLoop,
      Option.some.injEq, Prod.mk.injEq] at hs
    obtain ⟨rfl, rfl⟩ := hs
    refine ⟨⟨rfl, hinj⟩, fun _ => rfl, ?_⟩
    intro event hmem
    rw [List.mem_singleton.1 hmem]
    rfl
  | collect injectType clock =>
    simp only [socketMachine, SocketState.step, NkeSocketObject.collect, hqueue, collectLoop] at hs
    split at hs
    · cases hs
    · obtain ⟨rfl, rfl⟩ := Prod.mk.inj (Option.some.inj hs)
      exact ⟨⟨rfl, .inr rfl⟩, fun _ => rfl, List.forall_mem_nil _⟩
  | purge purgeType =>
    simp only [socketMachine, SocketState.step, purgePendingQueue, hqueue, purgeLoop] at hs
    split at hs
    · cases hs
    · rename_i hnone
      obtain ⟨rfl, rfl⟩ := Prod.mk.inj (Option.some.inj hs)
      exact ⟨⟨rfl, .inl hnone⟩, fun _ => rfl, List.forall_mem_nil _⟩
  | unlock =>
    simp only [socketMachine, SocketState.step] at hs
    split at hs
    · obtain ⟨rfl, rfl⟩ := Prod.mk.inj (Option.some.inj hs)
      exact ⟨⟨hqueue, .inl rfl⟩, fun _ => rfl, List.forall_mem_nil _⟩
    · cases hs
  | inject | freeMbufs | account =>
    -- nothing was taken out of the queue
    simp only [socketMachine, SocketState.step] at hs
    rcases hinj with h | h <;> rw [h] at hs <;> cases hs

/-- The purge of everything in `FltDetach`. -/
theorem drained_of_purge (hs : socketMachine.step s (.purge .NkeSocketDataAll) = some (s', ev)) :
    Drained s' := by
  simp only [socketMachine, SocketState.step, purgePendingQueue] at hs
  split at hs
  · cases hs
  · rename_i hnone
    obtain ⟨rfl, -⟩ := Prod.mk.inj (Option.some.inj hs)
    refine ⟨(purgeLoop_spec ..).1.trans ?_, .inl hnone⟩
    exact List.filter_eq_nil_iff.2 fun _ _ => by simp [NkeSocketDataDirectionType.covers]

/-! ### All sockets -/

/-- Every `FltData` call of the object that captured a packet has returned. -/
def FilterState.noFltData (w : FilterState) (object : Nat) : Prop :=
  ∀ s ∈ w.objects[object]?, ∀ id < s.captures, s.calls id = .returned

/-- The object of which a step of a `FltData` call is made. -/
def FilterLabel.dataObject : FilterLabel → Option Nat
  | .data object _ => some object
  | _ => none

/-- The object whose `FltDetach` begins with the step. -/
def FilterState.detachBegins (w : FilterState) : FilterLabel → Option Nat
  | .fltDetach _ object => some object
  | .next thread _ => match w.threads thread with
    | .attachFind attach => w.getSocketObject attach.so
    | _ => none
  | _ => none

/-- What the socket filter KPI guarantees: no data callback of a socket is running when its `FltDetach`
begins, and none runs later. -/
def FilterState.Kpi (w : FilterState) (a : FilterLabel) : Prop :=
  (∀ object ∈ w.detachBegins a, w.noFltData object) ∧ ∀ object ∈ a.dataObject, object ∉ w.detaching

instance (w : FilterState) (object : Nat) : Decidable (w.noFltData object) :=
  inferInstanceAs (Decidable (∀ s ∈ w.objects[object]?, ∀ id < s.captures, s.calls id = .returned))

instance (w : FilterState) (a : FilterLabel) : Decidable (w.Kpi a) :=
  inferInstanceAs (Decidable ((∀ object ∈ w.detachBegins a, w.noFltData object) ∧ _))

/-- What holds of the object when `FltDetach` comes to the step. -/
def DetachStep.Settled (step : DetachStep) (s : SocketState) : Prop :=
  match step with
  | .waitOutbound => Drained s
  | .waitInbound => Drained s ∧ s.so.numberOfPendingPackets false = 0
  | .release => Drained s ∧ s.so.numberOfPendingPackets false = 0 ∧ s.so.numberOfPendingPackets true = 0
  | _ => True

structure Detached (w : FilterState) (h : List FilterEvent) : Prop where
  noFltData : ∀ object ∈ w.detaching, ∀ s, w.objects[object]? = some s → s.noFltData
  settled : ∀ thread step object resume s, w.threads thread = .detach step object resume →
    w.objects[object]? = some s → step.Settled s
  detached : ∀ object, .detached object ∈ h → object ∈ w.detaching ∧
    w.insertedInSocketsList object = false ∧
    ∀ s, w.objects[object]? = some s → DetachStep.release.Settled s

variable {w w' : FilterState} {a : FilterLabel} {h e : List FilterEvent} {thread object : Nat}
  {phase : FilterPhase} {point : DetachStep}

theorem Begins.detachBegins (hb : Begins w object a phase) : object ∈ w.detachBegins a := by
  cases hb with
  | called => rfl
  | forced hp hfound =>
    simp only [FilterState.detachBegins, hp]
    exact hfound

theorem Begins.kpi (hb : Begins w object a phase) (hK : w.Kpi a) : w.noFltData object :=
  hK.1 object hb.detachBegins

/-- An object that is being detached makes steps of the other threads only. -/
theorem detaching_step (hK : w.Kpi a) (hs : FilterStep w a w' e) (hR : Registered w)
    (hdet : object ∈ w.detaching) (hobj' : w'.objects[object]? = some s') :
    ∃ s, w.objects[object]? = some s ∧ (s' = s ∧ (∀ event, .socket object event ∉ e) ∨
      ∃ label ev, label.isFltData = false ∧ socketMachine.step s label = some (s', ev) ∧
        ∀ event, .socket object event ∈ e → event ∈ ev) := by
  have hobj := List.getElem?_eq_getElem (hR.known object (.inr (.inl hdet)))
  obtain ⟨s₁, hs₁, hstep⟩ := hs.object_step hobj
  obtain rfl := Option.some.inj (hs₁.symm.trans hobj')
  refine ⟨_, hobj, hstep.imp_right ?_⟩
  rintro ⟨label, ev, hstep, hlabel, he⟩
  refine ⟨label, ev, Bool.eq_false_iff.2 fun hdata => ?_, hstep, he⟩
  exact hK.2 object (hlabel hdata ▸ rfl) hdet

theorem DetachStep.Settled.step (h : point.Settled s) (hs : socketMachine.step s label = some (s', ev))
    (hlabel : label.isFltData = false) : point.Settled s' := by
  cases point with
  | waitOutbound => exact (Drained.step h hs hlabel).1
  | waitInbound =>
    obtain ⟨hD, hsame, -⟩ := Drained.step h.1 hs hlabel
    exact ⟨hD, (hsame false).trans h.2⟩
  | release =>
    obtain ⟨hD, hsame, -⟩ := Drained.step h.1 hs hlabel
    exact ⟨hD, (hsame false).trans h.2.1, (hsame true).trans h.2.2⟩
  | _ => trivial

/-- What holds of an object that is being detached stays so. -/
theorem settled_mono (hK : w.Kpi a) (hs : FilterStep w a w' e) (hR : Registered w)
    (hdet : object ∈ w.detaching) (hset : ∀ s, w.objects[object]? = some s → point.Settled s)
    (hobj' : w'.objects[object]? = some s') : point.Settled s' := by
  obtain ⟨s, hobj, ⟨rfl, -⟩ | ⟨label, ev, hlabel, hstep, -⟩⟩ := detaching_step hK hs hR hdet hobj'
  · exact hset s' hobj
  · exact (hset s hobj).step hstep hlabel

theorem begins_of_detaching (hs : FilterStep w a w' e) (h : object ∈ w'.detaching) :
    object ∈ w.detaching ∨ w'.objects = w.objects ∧ ∃ phase, Begins w object a phase := by
  cases hs with
  | move _ _ hsame => exact .inl (hsame.detaching ▸ h)
  | @begin _ _ _ object' phase _ hbegins hsame =>
    have hdet : w'.detaching = object' :: w.detaching := hsame.detaching
    rcases List.mem_cons.1 (hdet ▸ h) with rfl | h
    · exact .inr ⟨hsame.objects, phase, hbegins⟩
    · exact .inl h
  | detached _ _ hsame => exact .inl (hsame.detaching ▸ h)
  | attached _ hsame => exact .inl (hsame.detaching ▸ h)
  | @insert _ _ object' _ =>
    have hdet : (w.insertInSocketsList object').detaching = w.detaching := insert_detaching
    exact .inl (hdet ▸ h)
  | @remove _ _ object' _ _ =>
    have hdet : (w.removeFromSocketsList object').detaching = w.detaching := remove_detaching
    exact .inl (hdet ▸ h)
  | _ => exact .inl h

theorem SocketState.noFltData_of_reachable {id : NkeSocketID} {size : Nat}
    (hr : socketMachine.Reachable (SocketState.start id size) s)
    (h : ∀ id < s.captures, s.calls id = .returned) : s.noFltData := by
  obtain ⟨as, ev, hrun⟩ := hr
  intro id
  by_cases hlt : id < s.captures
  · exact .inr (h id hlt)
  · exact .inl ((custody_of_run hrun).fresh id (Nat.not_lt.1 hlt))

theorem Detached.noFltData_step (hD : Detached w h) (hK : w.Kpi a) (hs : FilterStep w a w' e)
    (hR : Registered w) (hr : filterMachine.Reachable .start w) (hdet : object ∈ w'.detaching)
    (hobj' : w'.objects[object]? = some s') : s'.noFltData := by
  by_cases hbefore : object ∈ w.detaching
  · obtain ⟨s, hobj, ⟨rfl, -⟩ | ⟨label, ev, hlabel, hstep, -⟩⟩ := detaching_step hK hs hR hbefore hobj'
    · exact hD.noFltData object hbefore s' hobj
    · intro id
      rw [calls_of_step hstep hlabel]
      exact hD.noFltData object hbefore s hobj id
  · rcases begins_of_detaching hs hdet with hin | ⟨hobjects, phase, hbegins⟩
    · exact absurd hin hbefore
    · rw [hobjects] at hobj'
      obtain ⟨id, size, hreach⟩ := object_reachable hr hobj'
      exact SocketState.noFltData_of_reachable hreach (hbegins.kpi hK s' hobj')

/-- The thread has come to another point of `FltDetach`, or to something else. -/
theorem Detached.settled_of_update (hD : Detached w h) (hK : w.Kpi a) (hs : FilterStep w a w' e)
    (hR : Registered w) (hthreads : w'.threads = Function.update w.threads thread phase)
    (hphase : ∀ point object resume s', phase = .detach point object resume → w'.objects[object]? = some s' →
      point.Settled s') (thread' : Nat) (point : DetachStep) (object : Nat) (resume : Option AttachCall)
    (s' : SocketState) (hp : w'.threads thread' = .detach point object resume)
    (hobj' : w'.objects[object]? = some s') : point.Settled s' := by
  rcases threads_inv hthreads thread' with ⟨-, heq⟩ | ⟨-, heq⟩
  · exact hphase point object resume s' (heq.symm.trans hp) hobj'
  · have hknown := hR.knows thread'
    rw [← heq, hp] at hknown
    exact settled_mono hK hs hR hknown.1 (hD.settled thread' point object resume · (heq ▸ hp)) hobj'

theorem Detached.settled_step (hD : Detached w h) (hK : w.Kpi a) (hs : FilterStep w a w' e)
    (hR : Registered w) (thread' : Nat) (point : DetachStep) (object : Nat) (resume : Option AttachCall)
    (s' : SocketState) (hp : w'.threads thread' = .detach point object resume)
    (hobj' : w'.objects[object]? = some s') : point.Settled s' := by
  have hupdate : ∀ {thread phase}, w'.threads = Function.update w.threads thread phase →
      (∀ point object resume s', phase = .detach point object resume → w'.objects[object]? = some s' →
        point.Settled s') → point.Settled s' :=
    fun hthreads hphase => hD.settled_of_update hK hs hR hthreads hphase thread' point object resume s' hp hobj'
  have hsame : w'.threads = w.threads → point.Settled s' := by
    intro heq
    have hp₀ : w.threads thread' = .detach point object resume := heq ▸ hp
    have hknown := hR.knows thread'
    rw [hp₀] at hknown
    exact settled_mono hK hs hR hknown.1 (hD.settled thread' point object resume · hp₀) hobj'
  cases hs with
  | nothing => exact hsame rfl
  | @move _ _ thread _ _ _ hmove hfilter hthreads =>
    refine hupdate hthreads ?_
    rintro point object resume s' rfl hobj'
    rw [hfilter.objects] at hobj'
    have hbefore := hD.settled thread
    generalize w.threads thread = old at hmove hbefore
    cases hmove with
    | detach hmove =>
      have hset := hbefore _ object resume s' rfl hobj'
      cases hmove with
      | noneOutbound hzero => exact ⟨hset, by simpa [hobj'] using hzero⟩
      | noneInbound hzero => exact ⟨hset.1, hset.2, by simpa [hobj'] using hzero⟩
      | _ => trivial
  | begin _ hbegins _ hthreads =>
    refine hupdate hthreads ?_
    rintro point object resume s' rfl hobj'
    obtain ⟨resume, heq⟩ := hbegins.phase_detach
    cases heq
    trivial
  | detached _ hphase _ hthreads _ =>
    refine hupdate hthreads ?_
    rintro point object resume s' rfl
    rcases hphase with heq | ⟨attach, -, heq⟩ <;> cases heq
  | attached _ _ hthreads _ => exact hupdate hthreads (by rintro _ _ _ _ ⟨⟩)
  | @act _ thread object₁ s₁ s₁' _ _ _ hobj hacts hstep =>
    refine hupdate rfl ?_
    rintro point object resume s' rfl hobj'
    generalize w.threads thread = old at hacts
    cases hacts with
    | decrement => trivial
    | purgeAll =>
      have hget : (w.objects.set object₁ s₁')[object₁]? = some s₁' :=
        List.getElem?_set_self (List.getElem?_eq_some_iff.1 hobj).1
      obtain rfl := Option.some.inj (hget.symm.trans hobj')
      exact drained_of_purge hstep
  | data => exact hsame rfl
  | enlist => exact hsame rfl
  | pop => exact hupdate rfl (by rintro _ _ _ _ ⟨⟩)
  | unlist =>
    refine hupdate rfl ?_
    rintro point object resume s' ⟨⟩ _
    trivial
  | relist => exact hupdate rfl (by rintro _ _ _ _ ⟨⟩)
  | create => exact hupdate rfl (by rintro _ _ _ _ ⟨⟩)
  | insert => exact hupdate insert_threads (by rintro _ _ _ _ ⟨⟩)
  | remove =>
    refine hupdate remove_threads ?_
    rintro point object resume s' ⟨⟩ _
    trivial

/-- `FltDetach` returns from its last step. -/
theorem FilterStep.detached_inv (hs : FilterStep w a w' e) (hmem : .detached object ∈ e) :
    w'.objects = w.objects ∧ ∃ thread resume, w.threads thread = .detach .release object resume := by
  have hsocket : ∀ (object' : Nat) (ev : List SocketEvent),
      .detached object ∉ ev.map fun event => FilterEvent.socket object' event := by
    intro object' ev hmem
    obtain ⟨_, _, heq⟩ := List.mem_map.1 hmem
    cases heq
  cases hs with
  | move _ _ _ _ he => exact absurd rfl ((he _ hmem).2 object)
  | @detached _ _ thread object' resume _ _ hp _ hsame _ he =>
    rcases List.mem_append.1 hmem with hmem | hmem
    · exact absurd rfl ((he _ hmem).2 object)
    · cases List.mem_singleton.1 hmem
      exact ⟨hsame.objects, thread, resume, hp⟩
  | attached _ _ _ he => exact absurd rfl ((he _ hmem).2 object)
  | act => exact absurd hmem (hsocket _ _)
  | data => exact absurd hmem (hsocket _ _)
  | enlist => exact absurd hmem (hsocket _ _)
  | _ => cases hmem

theorem Detached.step (hD : Detached w h) (hK : w.Kpi a) (hs : FilterStep w a w' e)
    (hR : Registered w) (hr : filterMachine.Reachable .start w) : Detached w' (h ++ e) := by
  refine ⟨fun object hdet s => hD.noFltData_step hK hs hR hr hdet, hD.settled_step hK hs hR, ?_⟩
  intro object hmem
  have hdone : object ∈ w.detaching ∧ w.insertedInSocketsList object = false ∧
      ∀ s, w.objects[object]? = some s → DetachStep.release.Settled s := by
    rcases List.mem_append.1 hmem with hmem | hmem
    · exact hD.detached object hmem
    · obtain ⟨-, thread, resume, hp⟩ := hs.detached_inv hmem
      have hknown := hR.knows thread
      rw [hp] at hknown
      exact ⟨hknown.1, hknown.2 rfl, fun s => hD.settled thread _ object resume s hp⟩
  obtain ⟨hdet, hout, hset⟩ := hdone
  exact ⟨detaching_mono hs hdet, hs.sockets.unlisted hR hdet hout, fun s => settled_mono hK hs hR hdet hset⟩

theorem detached_start : Detached .start [] := by
  refine ⟨?_, ?_, ?_⟩
  · intro object h
    cases h
  · intro thread point object resume s h
    cases h
  · intro object h
    cases h

/-! ### The result -/

theorem detached_of_run {as : List FilterLabel} (hr : filterMachine.run .start as = some (w, h))
    (hC : filterMachine.Along FilterState.Kpi .start as) : Detached w h :=
  (Machine.run_induction (fun w h => filterMachine.Reachable .start w ∧ Detached w h) []
    ⟨.refl, detached_start⟩ (fun _ _ _ _ _ hI hK hs =>
      ⟨hI.1.step hs, hI.2.step hK (FilterState.step_inv hs) (registered_of_reachable hI.1) hI.1⟩) hC hr).2

theorem Detached.not_usesSocket (hD : Detached w h) (hK : w.Kpi a) (hs : FilterStep w a w' e)
    (hR : Registered w) (hdone : .detached object ∈ h) (event : SocketEvent) (hmem : .socket object event ∈ e) :
    event.usesSocket = false := by
  obtain ⟨hdet, -, hset⟩ := hD.detached object hdone
  have hobj := List.getElem?_eq_getElem (hR.known object (.inr (.inl hdet)))
  obtain ⟨s', hobj', -⟩ := hs.object_step hobj
  obtain ⟨s, hobj, ⟨-, hnone⟩ | ⟨label, ev, hlabel, hstep, he⟩⟩ := detaching_step hK hs hR hdet hobj'
  · exact absurd hmem (hnone event)
  · exact (Drained.step (hset s hobj).1 hstep hlabel).2.2 event (he event hmem)

/-- As long as the kernel keeps to the KPI, whatever the other threads that have references on the object do:
once `FltDetach` of it has returned, the object is not in `SocketsList`, nothing is pending in it and no writer
is blocked, and no later step injects data into the socket or sets an option of it. -/
theorem no_use_after_detach {as bs : List FilterLabel} {h' : List FilterEvent}
    (hr : filterMachine.run .start as = some (w, h)) (hC : filterMachine.Along FilterState.Kpi .start as)
    (hdone : .detached object ∈ h) (hr' : filterMachine.run w bs = some (w', h'))
    (hC' : filterMachine.Along FilterState.Kpi w bs) :
    object ∉ w'.socketsList ∧
      (∃ s, w'.objects[object]? = some s ∧ s.so.pendingQueue = [] ∧ s.so.numberOfPendingInPackets = 0 ∧
        s.so.numberOfPendingOutPackets = 0 ∧ s.noFltData) ∧
      ∀ event, .socket object event ∈ h' → event.usesSocket = false := by
  have hlater := Machine.run_induction (fun w₁ h₁ => filterMachine.Reachable .start w₁ ∧
      Detached w₁ (h ++ h₁) ∧ ∀ event, .socket object event ∈ h₁ → event.usesSocket = false) []
    ⟨⟨as, h, hr⟩, by rw [List.append_nil]; exact detached_of_run hr hC, fun _ => (nomatch ·)⟩ ?_ hC' hr'
  · obtain ⟨hreach, hD, hevents⟩ := hlater
    have hR := registered_of_reachable hreach
    obtain ⟨hdet, hout, hset⟩ := hD.detached object (List.mem_append_left _ hdone)
    have hobj := List.getElem?_eq_getElem (hR.known object (.inr (.inl hdet)))
    obtain ⟨hdrained, hzeroOut, hzeroIn⟩ := hset _ hobj
    refine ⟨?_, ⟨_, hobj, hdrained.queue, hzeroIn, hzeroOut, hD.noFltData object hdet _ hobj⟩, hevents⟩
    rw [hR.mem_iff, hout]
    exact Bool.false_ne_true
  · rintro w₁ h₁ a w₂ e ⟨hreach, hD, hevents⟩ hK hs
    have hstep := FilterState.step_inv hs
    have hR := registered_of_reachable hreach
    refine ⟨hreach.step hs, ?_, ?_⟩
    · rw [← List.append_assoc]
      exact hD.step hK hstep hR hreach
    · intro event hmem
      rcases List.mem_append.1 hmem with hmem | hmem
      · exact hevents event hmem
      · exact hD.not_usesSocket hK hstep hR (List.mem_append_left _ hdone) event hmem

/-- `FltDetach` while a packet is in the queue and the injection thread has a reference on the object. -/
def detachRun : List FilterLabel :=
  [.fltAttach 0 ⟨7, 65536⟩, .next 0 .success, .next 0 .success, .next 0 .success, .next 0 .success,
    .data 0 (.capture [⟨[7], some ⟨1, none, []⟩, none⟩] [] 0 true true 0), .data 0 (.copy 0 KERN_SUCCESS [0]),
    .data 0 (.queue 0), .data 0 (.send 0 (some KERN_SUCCESS)), .data 0 (.finish 0), .injectionPass 1,
    .fltDetach 0 0, .next 0 .success, .next 0 .success, .next 0 .success, .next 0 .success, .next 0 .success,
    .next 0 .success, .next 0 .success, .next 0 .success, .next 0 .success, .next 0 .success]

theorem detachRun_no_use :
    ∃ w h w' h', filterMachine.run .start detachRun = some (w, h) ∧ .detached 0 ∈ h ∧
      filterMachine.run w [.next 1 .success, .next 1 .success] = some (w', h') ∧ 0 ∉ w'.socketsList ∧
      (∃ s, w'.objects[0]? = some s ∧ s.so.pendingQueue = [] ∧ s.so.numberOfPendingInPackets = 0 ∧
        s.so.numberOfPendingOutPackets = 0 ∧ s.noFltData) ∧
      ∀ event, .socket 0 event ∈ h' → event.usesSocket = false := by
  obtain ⟨w, h, w', h', hr, hdone, hr', hC'⟩ : ∃ w h w' h',
      filterMachine.run .start detachRun = some (w, h) ∧ .detached 0 ∈ h ∧
      filterMachine.run w [.next 1 .success, .next 1 .success] = some (w', h') ∧
      filterMachine.Along FilterState.Kpi w [.next 1 .success, .next 1 .success] :=
    ⟨_, _, _, _, rfl, by decide, rfl, by decide⟩
  exact ⟨w, h, w', h', hr, hdone, hr', no_use_after_detach hr (by decide) hdone hr' hC'⟩

end NkeFilter
