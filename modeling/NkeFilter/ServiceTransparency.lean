import NkeFilter.ServiceInspection
import NkeFilter.Transparency

/-!
# A client that allows everything

With a client that only gives permissions, as `NkeSocketHandler` does, the driver is a queue in each direction
of each socket: what was handed to the injection function is what was inserted first, in order, and what
was inserted and not yet handed over is still held (`handler_transparent`).
-/

namespace NkeFilter
open Lib NkeSocketObject

/-- The step of the socket that the label is, when it is one that needs nothing else. -/
def Service.ServiceLabel.ofObject (object : Nat) : Service.ServiceLabel → Option SocketLabel
  | .socket object' label => if object' = object then some label else none
  | _ => none

namespace Service
open UserToKernel

/-- The client allows what it decides about, and the socket loses nothing of the direction by itself. -/
def Permits (object : Nat) (dataInbound : Bool) (s : ServiceState) : ServiceLabel → Prop
  | .socket object' label => object' = object → Lenient dataInbound (s.objects object) label
  | .respond _ response => ∀ property ∈ response.properties, property.allowData ≠ 0
  | _ => True

/-- What the socket captures next has the direction `direction` gives it. -/
def CapturesOn (object : Nat) (direction : Nat → Option Bool) (s : ServiceState) (a : ServiceLabel) : Prop :=
  ∀ label, a.ofObject object = some label → CapturesAs direction (s.objects object) label

/-- The socket passes on what it holds, and all decisions that are left are permissions. -/
structure PermitsOn (object : Nat) (direction : Nat → Option Bool) (d : Bool) (s : ServiceState)
    (items : List Nat) : Prop where
  passesOn : PassesOn direction d (s.objects object) items
  permitted : ∀ rest ∈ s.responses, ∀ property ∈ rest, property.allowData ≠ 0

variable {s s' : ServiceState} {a : ServiceLabel} {as : List ServiceLabel} {h e : List ServiceEvent}
  {object : Nat} {d : Bool} {direction : Nat → Option Bool}

/-- `NkeSocketHandler` only gives permissions. -/
theorem response_permits (n : UserToKernel.NkeSocketFilterNotification) :
    ∀ property ∈ n.response.properties, property.allowData ≠ 0 := by
  intro property hp
  rw [properties_response] at hp
  obtain rfl := List.mem_singleton.1 hp
  exact (by decide : (1 : UInt8) ≠ 0)

/-! ### One socket -/

@[simp] theorem ofObject_self {label : SocketLabel} :
    (ServiceLabel.socket object label).ofObject object = some label := if_pos rfl

/-- The step of its machine that a step of the driver is for the socket, with what the calls in it return. -/
inductive Runs (s : ServiceState) (object : Nat) : ServiceLabel → SocketLabel → Prop
  | socket {label} : alone label → Runs s object (.socket object label) label
  | copy {id error buffers} : Runs s object (.copy object id) (.copy id error buffers)
  | send {id client result} :
      (∀ c, (s.objects object).calls id = .queued c → c.sendNotification →
        result = (notify s.dataQueue client (ofData c.notification)).1) →
      Runs s object (.send object id client) (.send id result)
  | deliver {client now outcome} : Runs s object (.deliver object client now) (.deliver outcome)
  | property {thread property rest} : s.responses[thread]? = some (property :: rest) →
      Runs s object (.property thread object) (.property property)

/-- A step leaves a socket alone or is a step of its machine. -/
theorem object_inv (hs : serviceMachine.step s a = some (s', e)) (object : Nat) :
    s'.objects object = s.objects object ∧ e.filterMap (ServiceEvent.ofSocket object) = [] ∧
        a.ofObject object = none ∨
      ∃ label, socketMachine.step (s.objects object) label =
        some (s'.objects object, e.filterMap (ServiceEvent.ofSocket object)) ∧ Runs s object a label := by
  have hone : ∀ {object' label o events} (captured : List ServiceEvent),
      socketMachine.step (s.objects object') label = some (o, events) → Runs s object' a label →
      s'.objects = Function.update s.objects object' o → e = captured ++ events.map (.socket object') →
      (∀ object, captured.filterMap (ServiceEvent.ofSocket object) = []) →
      (object' ≠ object → a.ofObject object = none) →
      s'.objects object = s.objects object ∧ e.filterMap (ServiceEvent.ofSocket object) = [] ∧
          a.ofObject object = none ∨
        ∃ label, socketMachine.step (s.objects object) label =
          some (s'.objects object, e.filterMap (ServiceEvent.ofSocket object)) ∧ Runs s object a label := by
    intro object' label o events captured hstep hruns hs' he hnone ha
    rw [hs', he, List.filterMap_append, hnone, ofSocket_map, List.nil_append]
    by_cases heq : object' = object
    · subst heq
      rw [Function.update_self, if_pos rfl]
      exact .inr ⟨label, hstep, hruns⟩
    · rw [Function.update_of_ne (Ne.symm heq), if_neg heq]
      exact .inl ⟨rfl, rfl, ha heq⟩
  cases ServiceState.step_inv hs with
  | socket halone hstep =>
    exact hone _ hstep (.socket halone) rfl rfl (fun _ => ofSocket_capturedBy) fun hne => if_neg hne
  | copy _ _ hstep => exact hone [] hstep .copy rfl rfl (fun _ => rfl) fun _ => rfl
  | send hc _ hn hstep =>
    refine hone [] hstep (.send fun c' hc' _ => ?_) rfl rfl (fun _ => rfl) fun _ => rfl
    obtain rfl := CallPhase.queued.inj (hc.symm.trans hc')
    exact (congrArg Prod.fst hn).symm
  | noSend hc hsend hstep =>
    refine hone [] hstep (.send fun c' hc' hsend' => ?_) rfl rfl (fun _ => rfl) fun _ => rfl
    obtain rfl := CallPhase.queued.inj (hc.symm.trans hc')
    rw [hsend] at hsend'
    cases hsend'
  | deliver _ _ hstep => exact hone [] hstep .deliver rfl rfl (fun _ => rfl) fun _ => rfl
  | property hthread _ hstep => exact hone [] hstep (.property hthread) rfl rfl (fun _ => rfl) fun _ => rfl
  | _ => exact .inl ⟨rfl, rfl, rfl⟩

/-- What the socket captures is told by the labels that are steps of it. -/
theorem along_capturesOn (pre : List Bool) (hpre : pre.length = (s.objects object).captures) :
    serviceMachine.Along (CapturesOn object fun id =>
      (pre ++ (as.filterMap (ServiceLabel.ofObject object)).filterMap SocketLabel.capturedInbound)[id]?) s as := by
  induction as generalizing s pre with
  | nil => trivial
  | cons a as ih =>
    refine ⟨?_, ?_⟩
    · intro label ha inbound hin
      simp [ha, hin, ← hpre]
    · intro s' e hs
      have hstay : (s'.objects object).captures = (s.objects object).captures →
          ((a :: as).filterMap (ServiceLabel.ofObject object)).filterMap SocketLabel.capturedInbound =
            (as.filterMap (ServiceLabel.ofObject object)).filterMap SocketLabel.capturedInbound →
          serviceMachine.Along (CapturesOn object fun id => (pre ++ ((a :: as).filterMap
            (ServiceLabel.ofObject object)).filterMap SocketLabel.capturedInbound)[id]?) s' as := by
        intro hcap heq
        rw [heq]
        exact ih pre (hpre.trans hcap.symm)
      rcases object_inv hs object with ⟨hsame, -, ha⟩ | ⟨label, hstep, hruns⟩
      · exact hstay (by rw [hsame]) (by rw [List.filterMap_cons_none ha])
      · rcases SocketState.capture_inv hstep with ⟨hno, hcap⟩ | ⟨_, _, _, inbound, _, rfl, _, ho⟩
        · refine hstay hcap ?_
          cases hruns with
          | socket => rw [List.filterMap_cons_some ofObject_self, List.filterMap_cons_none hno]
          | _ => rw [List.filterMap_cons_none rfl]
        · -- the next number is used up
          cases hruns
          have hlen : (pre ++ [inbound]).length = (s'.objects object).captures := by
            rw [ho]
            simp [hpre]
          have hnext := ih (pre ++ [inbound]) hlen
          rw [List.append_assoc] at hnext
          rw [List.filterMap_cons_some ofObject_self]
          exact hnext

/-! ### The queue -/

theorem permitted_of_step (hpermitted : ∀ rest ∈ s.responses, ∀ property ∈ rest, property.allowData ≠ 0)
    (ha : Permits object d s a) (hs : serviceMachine.step s a = some (s', e)) :
    ∀ rest ∈ s'.responses, ∀ property ∈ rest, property.allowData ≠ 0 := by
  intro rest hrest property hp
  rcases responses_inv hs hrest hp with ⟨rest, hrest, hp⟩ | ⟨_, _, _, rfl, -, hp, -⟩
  · exact hpermitted rest hrest property hp
  · exact ha property hp

theorem permits_isFifo (object : Nat) (direction : Nat → Option Bool) (d : Bool) :
    serviceMachine.IsFifo (fun s a => Permits object d s a ∧ CapturesOn object direction s a)
      (PermitsOn object direction d) (fun x => (x.ofSocket object).bind (insertedPkt direction d))
      (fun x => (x.ofSocket object).bind (injectedPkt d)) := by
  rintro s a s' e items ⟨hP, hpermitted⟩ ⟨ha, hcap⟩ hs
  have hpermitted' := permitted_of_step hpermitted ha hs
  rw [← List.filterMap_filterMap, ← List.filterMap_filterMap]
  rcases object_inv hs object with ⟨hsame, hnone, -⟩ | ⟨label, hstep, hruns⟩
  · rw [hnone]
    exact ⟨items, ⟨hsame ▸ hP, hpermitted'⟩, List.append_nil items⟩
  · have hlenient : Lenient d (s.objects object) label ∧ CapturesAs direction (s.objects object) label := by
      cases hruns with
      | socket => exact ⟨ha rfl, hcap label ofObject_self⟩
      | copy => exact ⟨trivial, fun _ h => by cases h⟩
      | send => exact ⟨trivial, fun _ h => by cases h⟩
      | deliver => exact ⟨trivial, fun _ h => by cases h⟩
      | property hthread =>
        have hallow := hpermitted _ (List.mem_of_getElem? hthread) _ (List.mem_cons_self ..)
        exact ⟨fun _ _ _ _ _ => hallow, fun _ h => by cases h⟩
    obtain ⟨items', hP', heq⟩ := passing_isFifo direction d _ _ _ _ items hP hlenient hstep
    exact ⟨items', ⟨hP', hpermitted'⟩, heq⟩

/-! ### The result -/

section Result
variable {withSize : Nat → Bool} {queueSize : UInt32} {queue : Memory} {socketIds : Nat → NkeSocketID}
  {sizes : Nat → Nat}

/-- The packets of the direction that the socket inserted are those it passed to the injection function,
followed by those it still holds. -/
def PassedOn (as : List ServiceLabel) (s : ServiceState) (h : List ServiceEvent) (object : Nat) (d : Bool) : Prop :=
  (h.filterMap (ServiceEvent.ofSocket object)).filterMap
      (insertedPkt (capturedDirection (as.filterMap (ServiceLabel.ofObject object))) d) =
    (h.filterMap (ServiceEvent.ofSocket object)).filterMap (injectedPkt d) ++
      directed d ((s.objects object).packetsToInject ++ (s.objects object).so.pendingQueue)

/-- However the threads of the sockets and the client take turns, and whatever fails. -/
theorem handler_transparent
    (hC : serviceMachine.Along (Permits object d) (.start withSize queueSize queue socketIds sizes) as)
    (hr : serviceMachine.run (.start withSize queueSize queue socketIds sizes) as = some (s, h)) :
    PassedOn as s h object d := by
  set direction := capturedDirection (as.filterMap (ServiceLabel.ofObject object))
  have hstart : PermitsOn object direction d (.start withSize queueSize queue socketIds sizes) [] := by
    refine ⟨⟨passing_start, ?_, rfl⟩, fun _ h => (by cases h)⟩
    intro id c hc
    rcases hc with hc | hc <;> cases hc
  obtain ⟨items, hP, heq⟩ := (permits_isFifo object direction d).run hstart
    (hC.and (along_capturesOn [] rfl)) hr
  rw [List.nil_append, ← List.filterMap_filterMap, ← List.filterMap_filterMap, hP.passesOn.toInject.items_eq] at heq
  exact heq

/-- The one packet was inserted, allowed and injected. -/
theorem oneInjected_transparent : ∃ n s h, serviceMachine.run oneSocket (oneInjected n) = some (s, h) ∧
    .socket 0 (.injected 0 true 0) ∈ h ∧ PassedOn (oneInjected n) s h 0 true := by
  obtain ⟨n, s₁, h₁, s, h, hr₁, hanswered, hr, hinjected, -⟩ := run_oneInjected
  refine ⟨n, s, h, hr, hinjected, handler_transparent (Machine.Along.append ?_ ?_) hr⟩
  · refine Machine.along_of_forall fun a ha s => ?_
    simp only [oneAnswered, oneNotified, List.cons_append, List.nil_append, List.mem_cons, List.not_mem_nil,
      or_false] at ha
    rcases ha with rfl | rfl | rfl | rfl | rfl | rfl
    · exact fun _ => trivial
    · trivial
    · exact fun _ => trivial
    · trivial
    · trivial
    · exact response_permits n
  · intro s₂ h₂ hr₂
    obtain ⟨rfl, -⟩ := Prod.mk.inj (Option.some.inj (hr₁.symm.trans hr₂))
    refine ⟨trivial, fun s₃ e hs => ⟨fun _ => ?_, fun _ _ _ => ⟨fun _ => trivial, fun _ _ _ => trivial⟩⟩⟩
    have hobjects := hanswered.objects
    have hresponses := hanswered.responses
    obtain ⟨f, q, objects, toRelease, received, responses⟩ := s₁
    obtain rfl : objects = _ := hobjects
    obtain rfl : responses = _ := hresponses
    obtain ⟨rfl, -⟩ := Prod.mk.inj (Option.some.inj hs)
    -- the packet has its answer
    intro pkt hp _ hresponse
    obtain rfl := List.mem_singleton.1 hp
    cases hresponse

end Result

end Service
end NkeFilter
