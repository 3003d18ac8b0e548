import NkeFilter.FailClosed

/-!
# All sockets

The machines of all sockets side by side, with what connects them: `withSocket` and its sequence numbers,
`SocketsList`, and the threads in `processServiceResponse`, which look up the object a property names and
compare the sequence number before they apply it. Socket addresses may be reused. Each object goes through
a run of its own machine in which every processed property names it.
-/

namespace NkeFilter
open Lib NkeSocketObject

/-- All objects ever created, by number; the numbers in `SocketsList`; the counter; and for each thread in
`processServiceResponse` the object it found for its current property. -/
structure Sockets where
  objects : List SocketState
  socketsList : List Nat
  gSocketSequence : Int32
  responders : Nat → Option (Nat × NkeSocketDataProperty)

inductive SocketsLabel where
  | withSocket (socket : UInt64) (origReceiveBufferSize : Nat)
  | insertInSocketsList (object : Nat)
  | removeFromSocketsList (object : Nat)
  /-- `processServiceResponse` turns to its next property -/
  | respond (thread : Nat) (property : NkeSocketDataProperty)
  /-- it applies the property to the object it found -/
  | setDeferredDataProperties (thread : Nat)
  | act (object : Nat) (label : SocketLabel)

def SocketLabel.isProperty : SocketLabel → Bool
  | .property _ => true
  | _ => false

namespace Sockets

def start : Sockets := ⟨[], [], 1, fun _ => none⟩

/-- Creates an object; the counter is widened with its sign. -/
def withSocket (w : Sockets) (socket : UInt64) (origReceiveBufferSize : Nat) : Sockets :=
  { w with
    objects := w.objects ++ [.start ⟨socket, w.gSocketSequence.toInt64.toUInt64⟩ origReceiveBufferSize]
    gSocketSequence := w.gSocketSequence + 1 }

/-- `GetSocketObjectRef`: the first object of the list with that address. -/
def getSocketObjectRef (w : Sockets) (socket : UInt64) : Option Nat :=
  w.socketsList.find? fun object => w.objects[object]?.any fun s => s.so.socketId.socket == socket

/-- The object a property is for: the one found, when the socket was not reused. -/
def propertyObject (w : Sockets) (property : NkeSocketDataProperty) : Option Nat :=
  (w.getSocketObjectRef property.socketId.socket).filter fun object =>
    w.objects[object]?.any fun s => s.so.socketId.socketSequence == property.socketId.socketSequence

def act (w : Sockets) (object : Nat) (label : SocketLabel) : Option (Sockets × List (Nat × SocketEvent)) :=
  match w.objects[object]? with
  | none => none
  | some s => (socketMachine.step s label).map fun r =>
    ({ w with objects := w.objects.set object r.1 }, r.2.map fun event => (object, event))

def step (w : Sockets) : SocketsLabel → Option (Sockets × List (Nat × SocketEvent))
  | .withSocket socket origReceiveBufferSize => some (w.withSocket socket origReceiveBufferSize, [])
  | .insertInSocketsList object =>
    if object < w.objects.length then
      some ({ w with
        socketsList := if object ∈ w.socketsList then w.socketsList else object :: w.socketsList }, [])
    else none
  | .removeFromSocketsList object => some ({ w with socketsList := w.socketsList.erase object }, [])
  | .respond thread property =>
    if (w.responders thread).isSome ∨ property.type = .NkeSocketDataPropertyTypeUnknown then none
    else
      let found := (w.propertyObject property).map fun object => (object, property)
      some ({ w with responders := Function.update w.responders thread found }, [])
  | .setDeferredDataProperties thread => match w.responders thread with
    | none => none
    | some (object, property) =>
      { w with responders := Function.update w.responders thread none }.act object (.property property)
  | .act object label => if label.isProperty then none else w.act object label

end Sockets

/-- Any interleaving of the threads of all sockets. -/
def socketsMachine : Machine Sockets SocketsLabel (Nat × SocketEvent) where
  step := Sockets.step

def observed (object : Nat) (h : List (Nat × SocketEvent)) : List SocketEvent :=
  h.filterMap fun x => if x.1 = object then some x.2 else none

/-- Every object has made a run of its own machine, and every property found its object. -/
structure Tracks (w : Sockets) (h : List (Nat × SocketEvent)) : Prop where
  objects : ∀ object s, w.objects[object]? = some s →
    ∃ size, socketMachine.RunAlong Addressed (SocketState.start s.so.socketId size) s (observed object h)
  later : ∀ object, w.objects.length ≤ object → observed object h = []
  responders : ∀ thread object property, w.responders thread = some (object, property) →
    ∃ s, w.objects[object]? = some s ∧ s.so.socketId = property.socketId

variable {w w' : Sockets} {h e : List (Nat × SocketEvent)} {a : SocketsLabel} {object : Nat}

theorem observed_append :
    observed object (h ++ e) = observed object h ++ observed object e := List.filterMap_append

theorem observed_self (events : List SocketEvent) :
    observed object (events.map fun event => (object, event)) = events := by
  simp [observed, List.filterMap_map]

theorem observed_other {object' : Nat} (hne : object' ≠ object) (events : List SocketEvent) :
    observed object' (events.map fun event => (object, event)) = [] := by
  simp [observed, hne.symm]

theorem propertyObject_spec {property : NkeSocketDataProperty}
    (hp : w.propertyObject property = some object) :
    ∃ s, w.objects[object]? = some s ∧ s.so.socketId = property.socketId := by
  obtain ⟨hfound, hseq⟩ := Option.filter_eq_some_iff.1 hp
  obtain ⟨s, hs, hseq⟩ := (Option.any_eq_true ..).1 hseq
  unfold Sockets.getSocketObjectRef at hfound
  have hsock := List.find?_some hfound
  obtain ⟨s', hs', hsock⟩ := (Option.any_eq_true ..).1 hsock
  obtain rfl := Option.some.inj (hs.symm.trans hs')
  refine ⟨s, hs, ?_⟩
  rcases hid : property.socketId with ⟨socket, socketSequence⟩
  rw [hid] at hseq hsock
  rcases hsid : s.so.socketId with ⟨socket', socketSequence'⟩
  rw [hsid] at hseq hsock
  exact congrArg₂ NkeSocketID.mk (eq_of_beq hsock) (eq_of_beq hseq)

theorem tracks_start : Tracks Sockets.start [] :=
  ⟨fun _ _ h => (by cases h), fun _ _ => rfl, fun _ _ _ h => (by cases h)⟩

theorem Tracks.act {label : SocketLabel} (hT : Tracks w h) (hw : w.act object label = some (w', e))
    (hlabel : ∀ s, w.objects[object]? = some s → Addressed s label) : Tracks w' (h ++ e) := by
  unfold Sockets.act at hw
  split at hw
  · cases hw
  rename_i s hs
  obtain ⟨⟨s', events⟩, hstep, heq⟩ := Option.map_eq_some_iff.1 hw
  obtain ⟨rfl, rfl⟩ := Prod.mk.inj heq
  have hlt : object < w.objects.length := (List.getElem?_eq_some_iff.1 hs).1
  have hself : (w.objects.set object s')[object]? = some s' := by simp [hlt]
  have hother : ∀ object', object' ≠ object → (w.objects.set object s')[object']? = w.objects[object']? :=
    fun object' hne => List.getElem?_set_ne hne.symm
  refine ⟨?_, ?_, ?_⟩
  · intro object' s₁ hs₁
    by_cases hne : object' = object
    · subst hne
      obtain rfl := Option.some.inj (hself.symm.trans hs₁)
      obtain ⟨size, hrun⟩ := hT.objects object' s hs
      rw [observed_append, observed_self, socketId_of_step hstep]
      exact ⟨size, hrun.snoc (hlabel s hs) hstep⟩
    · rw [observed_append, observed_other hne, List.append_nil]
      exact hT.objects object' s₁ ((hother object' hne).symm.trans hs₁)
  · intro object' hle
    have hle : w.objects.length ≤ object' := by simpa using hle
    rw [observed_append, observed_other (by omega), List.append_nil]
    exact hT.later object' hle
  · intro thread object' property hr
    obtain ⟨s₁, hs₁, hid⟩ := hT.responders thread object' property hr
    by_cases hne : object' = object
    · subst hne
      obtain rfl := Option.some.inj (hs.symm.trans hs₁)
      exact ⟨s', hself, (socketId_of_step hstep).trans hid⟩
    · exact ⟨s₁, (hother object' hne).trans hs₁, hid⟩

theorem Tracks.congr (hT : Tracks w h) (hobj : w'.objects = w.objects)
    (hr : ∀ thread object property, w'.responders thread = some (object, property) →
      w.responders thread = some (object, property) ∨ w.propertyObject property = some object) :
        Tracks w' (h ++ []) := by
  rw [List.append_nil]
  refine ⟨hobj ▸ hT.objects, hobj ▸ hT.later, ?_⟩
  intro thread object property h
  rw [hobj]
  rcases hr thread object property h with h | h
  · exact hT.responders thread object property h
  · exact propertyObject_spec h

theorem Tracks.withSocket {socket : UInt64} {size : Nat} (hT : Tracks w h) :
    Tracks (w.withSocket socket size) (h ++ []) := by
  rw [List.append_nil]
  refine ⟨?_, ?_, ?_⟩
  · intro object s hs
    rcases Nat.lt_or_ge object w.objects.length with hlt | hge
    · exact hT.objects object s ((List.getElem?_append_left hlt).symm.trans hs)
    · rw [hT.later object hge]
      have hs := (List.getElem?_append_right hge).symm.trans hs
      have hs : s = SocketState.start ⟨socket, w.gSocketSequence.toInt64.toUInt64⟩ size :=
        (List.mem_singleton.1 (List.mem_of_getElem? hs))
      rw [hs]
      exact ⟨size, .refl⟩
  · intro object hle
    have hle : w.objects.length + 1 ≤ object := by simpa [Sockets.withSocket] using hle
    exact hT.later object (by omega)
  · intro thread object property hr
    obtain ⟨s, hs, hid⟩ := hT.responders thread object property hr
    have hlt := (List.getElem?_eq_some_iff.1 hs).1
    exact ⟨s, (List.getElem?_append_left hlt).trans hs, hid⟩

theorem Tracks.step (hT : Tracks w h) (hs : socketsMachine.step w a = some (w', e)) : Tracks w' (h ++ e) := by
  cases a with
  | withSocket socket size =>
    obtain ⟨rfl, rfl⟩ := Prod.mk.inj (Option.some.inj hs)
    exact hT.withSocket
  | insertInSocketsList object =>
    simp only [socketsMachine, Sockets.step] at hs
    split at hs
    · obtain ⟨rfl, rfl⟩ := Prod.mk.inj (Option.some.inj hs)
      exact hT.congr rfl fun _ _ _ h => .inl h
    · cases hs
  | removeFromSocketsList object =>
    obtain ⟨rfl, rfl⟩ := Prod.mk.inj (Option.some.inj hs)
    exact hT.congr rfl fun _ _ _ h => .inl h
  | respond thread property =>
    simp only [socketsMachine, Sockets.step] at hs
    split at hs
    · cases hs
    · obtain ⟨rfl, rfl⟩ := Prod.mk.inj (Option.some.inj hs)
      refine hT.congr rfl ?_
      intro thread' object property' hr
      by_cases hne : thread' = thread
      · subst hne
        simp only [Function.update_self] at hr
        obtain ⟨object', hfound, heq⟩ := Option.map_eq_some_iff.1 hr
        obtain ⟨rfl, rfl⟩ := Prod.mk.inj heq
        exact .inr hfound
      · simp only [Function.update_of_ne hne] at hr
        exact .inl hr
  | setDeferredDataProperties thread =>
    simp only [socketsMachine, Sockets.step] at hs
    split at hs
    · cases hs
    · rename_i object property hr
      have hT' : Tracks { w with responders := Function.update w.responders thread none } (h ++ []) := by
        refine hT.congr rfl ?_
        intro thread' object' property' hr'
        by_cases hne : thread' = thread
        · subst hne
          simp at hr'
        · simp only [Function.update_of_ne hne] at hr'
          exact .inl hr'
      rw [List.append_nil] at hT'
      refine hT'.act hs ?_
      intro s hs
      obtain ⟨s', hs', hid⟩ := hT.responders thread object property hr
      obtain rfl := Option.some.inj (hs.symm.trans hs')
      exact hid.symm
  | act object label =>
    simp only [socketsMachine, Sockets.step] at hs
    split at hs
    · cases hs
    · rename_i hlabel
      refine hT.act hs ?_
      intro s _
      cases label with
      | property property => exact absurd rfl hlabel
      | _ => trivial

/-- Every object of a run of all sockets has made a run of its own machine in which every processed
property names it. -/
theorem tracks_of_run {as : List SocketsLabel} (hr : socketsMachine.run Sockets.start as = some (w, h)) :
    Tracks w h :=
  Machine.run_induction Tracks [] tracks_start (fun _ _ _ _ _ hT _ hs => hT.step hs) Machine.along_true hr

/-- In every run of all sockets, a packet of an object that captured fewer than `2 ^ 32` packets is handed to
an injection function only if the client permitted it. -/
theorem injected_approved {as : List SocketsLabel} {s : SocketState} {id : Nat} {dataInbound : Bool}
    {error : Errno}
    (hr : socketsMachine.run Sockets.start as = some (w, h)) (hs : w.objects[object]? = some s)
    (hcap : s.captures < 2 ^ 32) (hi : .injected id dataInbound error ∈ observed object h) :
    Approved s.so.socketId (observed object h) id := by
  obtain ⟨size, hrun⟩ := (tracks_of_run hr).objects object s hs
  exact (failClosed_of_run hrun hcap).injected id dataInbound error hi

/-- One socket, one packet, allowed by the client and injected. -/
def allowedOnce : List SocketsLabel :=
  [.withSocket 7 65536, .insertInSocketsList 0,
    .act 0 (.capture [⟨[7], some ⟨1, none, []⟩, none⟩] [] 0 true true 0), .act 0 (.copy 0 KERN_SUCCESS [0]),
    .act 0 (.queue 0), .act 0 (.send 0 (some KERN_SUCCESS)), .act 0 (.finish 0),
    .respond 0 ⟨.NkeSocketDataPropertyTypePermission, 0, ⟨7, 1⟩, 1⟩, .setDeferredDataProperties 0,
    .act 0 (.collect .NkeSocketDataAll fun _ => 0), .act 0 (.inject 0 KERN_SUCCESS)]

theorem allowedOnce_approved :
    ∃ w h, socketsMachine.run Sockets.start allowedOnce = some (w, h) ∧
      .injected 0 true KERN_SUCCESS ∈ observed 0 h ∧ Approved ⟨7, 1⟩ (observed 0 h) 0 := by
  obtain ⟨w, h, s, hr, hs, hid, hcap, hi⟩ :
    ∃ w h s, socketsMachine.run Sockets.start allowedOnce = some (w, h) ∧
      w.objects[0]? = some s ∧ s.so.socketId = ⟨7, 1⟩ ∧ s.captures = 1 ∧
        .injected 0 true KERN_SUCCESS ∈ observed 0 h := ⟨_, _, _, rfl, rfl, rfl, rfl, by decide⟩
  exact ⟨w, h, hr, hi, hid ▸ injected_approved hr hs (by omega) hi⟩

end NkeFilter
