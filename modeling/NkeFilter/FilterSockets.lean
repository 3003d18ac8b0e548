import NkeFilter.SocketIdentity
import NkeFilter.Sockets

/-!
# The filter and its sockets

With the threads forgotten except for the answers they have found an object for, a run of the filter is a run of
all sockets side by side: `FltAttach` and `FltDetach` create, insert and remove, an answer is applied to the
object it names, and everything else is a step of one socket. What is proved of the sockets holds in the filter.
-/

namespace NkeFilter
open Lib NkeSocketObject

/-- The property a thread is going to apply: the sequence numbers will agree. -/
def FilterState.responder (w : FilterState) : FilterPhase → Option (Nat × NkeSocketDataProperty)
  | .respond .compare object property =>
    if (w.socketId object).any fun id => id.socketSequence = property.socketId.socketSequence then
      some (object, property)
    else none
  | _ => none

def FilterState.sockets (w : FilterState) : Sockets where
  objects := w.objects
  socketsList := w.socketsList
  gSocketSequence := w.gSocketSequence
  responders := fun thread => w.responder (w.threads thread)

def FilterEvent.socketEvent : FilterEvent → Option (Nat × SocketEvent)
  | .socket object event => some (object, event)
  | _ => none

variable {w w' : FilterState} {a : FilterLabel} {h e : List FilterEvent} {thread object : Nat}
  {s s' : SocketState} {label : SocketLabel} {phase phase' : FilterPhase} {ev : List SocketEvent}

theorem socketEvents_uneventful (he : Uneventful e) : e.filterMap FilterEvent.socketEvent = [] := by
  refine List.filterMap_eq_nil_iff.2 ?_
  intro event hmem
  have hsocket := (he event hmem).1
  cases event with
  | socket => cases hsocket
  | _ => rfl

theorem socketEvents_map (object : Nat) (ev : List SocketEvent) :
    (ev.map fun event => FilterEvent.socket object event).filterMap FilterEvent.socketEvent =
      ev.map fun event => (object, event) := by
  rw [List.filterMap_map]
  exact congrFun List.filterMap_eq_map' ev

/-- A thread that is not about to compare applies nothing. -/
theorem responder_none (h : ∀ object property, phase ≠ .respond .compare object property) :
    w.responder phase = none := by
  cases phase with
  | respond step object property =>
    cases step with
    | compare => exact absurd rfl (h object property)
    | _ => rfl
  | _ => rfl

theorem responder_some (hobj : w.objects[object]? = some s) {property : NkeSocketDataProperty} :
    w.responder (.respond .compare object property) =
      if s.so.socketId.socketSequence = property.socketId.socketSequence then some (object, property)
      else none := by
  simp [FilterState.responder, socketId_of_object hobj]

theorem responder_congr (hF : Found w) (hs : SocketsStep w a w') (thread : Nat) :
    w'.responder (w.threads thread) = w.responder (w.threads thread) := by
  unfold FilterState.responder
  split
  · rename_i object property hp
    obtain ⟨id, hid, -⟩ := hF thread _ object property hp
    rw [hs.socketId (lt_of_socketId hid)]
  · rfl

theorem responders_stay (hF : Found w) (hs : SocketsStep w a w') (hthreads : w'.threads = w.threads) :
    w'.sockets.responders = w.sockets.responders := by
  funext thread
  show w'.responder (w'.threads thread) = _
  rw [hthreads]
  exact responder_congr hF hs thread

theorem responders_update (hF : Found w) (hs : SocketsStep w a w')
    (hthreads : w'.threads = Function.update w.threads thread phase) :
    w'.sockets.responders = Function.update w.sockets.responders thread (w'.responder phase) := by
  funext thread'
  show w'.responder (w'.threads thread') = _
  rcases threads_inv hthreads thread' with ⟨rfl, hp⟩ | ⟨hne, hp⟩
  · rw [hp, Function.update_self]
  · rw [hp, Function.update_of_ne hne]
    exact responder_congr hF hs thread'

/-- The thread was not about to apply a property, and is not now. -/
theorem responders_same (hF : Found w) (hs : SocketsStep w a w')
    (hthreads : w'.threads = Function.update w.threads thread phase)
    (hold : w.responder (w.threads thread) = none) (hnew : w'.responder phase = none) :
    w'.sockets.responders = w.sockets.responders := by
  rw [responders_update hF hs hthreads, hnew]
  exact Function.update_eq_self_iff.2 hold.symm

/-- Steps of the filter that the sockets do not see. -/
theorem sockets_stutter (hobjects : w'.objects = w.objects) (hlist : w'.socketsList = w.socketsList)
    (hseq : w'.gSocketSequence = w.gSocketSequence)
    (hresponders : w'.sockets.responders = w.sockets.responders)
    (he : e.filterMap FilterEvent.socketEvent = []) :
    ∃ bs, socketsMachine.run w.sockets bs = some (w'.sockets, e.filterMap FilterEvent.socketEvent) := by
  refine ⟨[], ?_⟩
  have hw : w'.sockets = w.sockets := by
    show Sockets.mk w'.objects w'.socketsList w'.gSocketSequence w'.sockets.responders = _
    rw [hobjects, hlist, hseq, hresponders]
    rfl
  rw [hw, he]
  rfl

/-- Steps of the filter that are a step of one socket. -/
theorem sockets_act (hobj : w.objects[object]? = some s) (hstep : socketMachine.step s label = some (s', ev))
    (hlabel : label.isProperty = false) (hobjects : w'.objects = w.objects.set object s')
    (hlist : w'.socketsList = w.socketsList) (hseq : w'.gSocketSequence = w.gSocketSequence)
    (hresponders : w'.sockets.responders = w.sockets.responders) :
    ∃ bs, socketsMachine.run w.sockets bs = some (w'.sockets, ev.map fun event => (object, event)) := by
  refine ⟨[.act object label], Machine.run_single ?_⟩
  have hw : w'.sockets = { w.sockets with objects := w.objects.set object s' } := by
    show Sockets.mk w'.objects w'.socketsList w'.gSocketSequence w'.sockets.responders = _
    rw [hobjects, hlist, hseq, hresponders]
    rfl
  have hobj' : w.sockets.objects[object]? = some s := hobj
  simp only [socketsMachine, Sockets.step, hlabel, Bool.false_eq_true, if_false, Sockets.act, hobj', hstep,
    Option.map_some, hw]
  rfl

theorem Acts.responder (h : Acts s object phase label phase') (hobj : w.objects[object]? = some s) :
    label.isProperty = false ∧ w.responder phase = none ∧ (∀ w' : FilterState, w'.responder phase' = none) ∨
      ∃ property, label = .property property ∧ phase = .respond .compare object property ∧
        w.responder phase = some (object, property) ∧ ∀ w' : FilterState, w'.responder phase' = none := by
  have hinj : ∀ label : SocketLabel, label.isInjection → label.isProperty = false := by
    intro label hl
    cases label with
    | inject | freeMbufs | account | unlock => rfl
    | _ => cases hl
  cases h with
  | property hseq =>
    refine .inr ⟨_, rfl, rfl, ?_, fun _ => rfl⟩
    rw [responder_some hobj, if_pos hseq]
  | @respondInject _ _ step hl hstep =>
    refine .inl ⟨hinj _ hl, rfl, fun w' => responder_none ?_⟩
    rintro object property ⟨⟩
    exact hstep rfl
  | inject hl => exact .inl ⟨hinj _ hl, rfl, fun _ => rfl⟩
  | injected hl => exact .inl ⟨hinj _ hl, rfl, fun _ => rfl⟩
  | _ => exact .inl ⟨rfl, rfl, fun _ => rfl⟩

theorem Move.responder (h : Move w a phase phase') (hF : Found w) (hp : w.threads thread = phase) :
    w.responder phase = none ∧ ((∀ object property, phase' ≠ .respond .compare object property) ∨
      ∃ object property, phase' = .respond .compare object property ∧
        property.type ≠ .NkeSocketDataPropertyTypeUnknown ∧
          w.getSocketObject property.socketId.socket = some object) := by
  cases h with
  | respond htype hfound => exact ⟨rfl, .inr ⟨_, _, rfl, htype, hfound⟩⟩
  | @mismatch object property hseq =>
    refine ⟨?_, .inl nofun⟩
    obtain ⟨id, hid, -⟩ := hF thread _ object property hp
    obtain ⟨s, hobj, -⟩ := Option.map_eq_some_iff.1 hid
    rw [responder_some hobj, if_neg]
    simpa [hobj] using hseq
  | detach => exact ⟨rfl, .inl nofun⟩
  | _ => exact ⟨rfl, .inl nofun⟩

/-- An object that was found is the one the property is for, if the sequence numbers agree. -/
theorem propertyObject_responder {property : NkeSocketDataProperty}
    (hfound : w.getSocketObject property.socketId.socket = some object) :
    (w.sockets.propertyObject property).map (fun object => (object, property)) =
      w.responder (.respond .compare object property) := by
  obtain ⟨-, id, hid, -⟩ := mem_of_getSocketObject hfound
  obtain ⟨s, hobj, -⟩ := Option.map_eq_some_iff.1 hid
  have hfound' : w.sockets.getSocketObjectRef property.socketId.socket = some object := hfound
  have hobj' : w.sockets.objects[object]? = some s := hobj
  rw [responder_some hobj, Sockets.propertyObject, hfound']
  by_cases hseq : s.so.socketId.socketSequence = property.socketId.socketSequence
  · rw [if_pos hseq, Option.filter_some_pos (by simpa [hobj'] using hseq)]
    rfl
  · rw [if_neg hseq, Option.filter_some_neg (by simpa [hobj'] using hseq)]
    rfl

theorem sockets_respond {property : NkeSocketDataProperty} (hF : Found w) (hs : SocketsStep w a w')
    (hold : w.responder (w.threads thread) = none) (htype : property.type ≠ .NkeSocketDataPropertyTypeUnknown)
    (hfound : w.getSocketObject property.socketId.socket = some object) (hsame : SameFilter w w')
    (hthreads : w'.threads = Function.update w.threads thread (.respond .compare object property)) :
    socketsMachine.run w.sockets [.respond thread property] = some (w'.sockets, []) := by
  refine Machine.run_single ?_
  have hold' : w.sockets.responders thread = none := hold
  have hnew : w'.responder (.respond .compare object property) =
      w.responder (.respond .compare object property) := by
    unfold FilterState.responder FilterState.socketId
    rw [hsame.objects]
  have hw : w'.sockets = { w.sockets with
      responders := Function.update w.sockets.responders thread
        ((w.sockets.propertyObject property).map fun object => (object, property)) } := by
    rw [propertyObject_responder hfound, ← hnew, ← responders_update hF hs hthreads]
    show Sockets.mk w'.objects w'.socketsList w'.gSocketSequence w'.sockets.responders = _
    rw [hsame.objects, hsame.socketsList, hsame.gSocketSequence]
    rfl
  simp only [socketsMachine, Sockets.step, hold', Option.isSome_none, Bool.false_eq_true, htype, or_self,
    if_false, hw]

theorem sockets_property {property : NkeSocketDataProperty} (hF : Found w) (hs : SocketsStep w a w')
    (hold : w.responder (w.threads thread) = some (object, property)) (hnew : w'.responder phase = none)
    (hobj : w.objects[object]? = some s) (hstep : socketMachine.step s (.property property) = some (s', ev))
    (hobjects : w'.objects = w.objects.set object s') (hlist : w'.socketsList = w.socketsList)
    (hseq : w'.gSocketSequence = w.gSocketSequence)
    (hthreads : w'.threads = Function.update w.threads thread phase) :
    socketsMachine.run w.sockets [.setDeferredDataProperties thread] =
      some (w'.sockets, ev.map fun event => (object, event)) := by
  refine Machine.run_single ?_
  have hold' : w.sockets.responders thread = some (object, property) := hold
  have hobj' : w.sockets.objects[object]? = some s := hobj
  have hw : w'.sockets = { w.sockets with
      objects := w.objects.set object s'
      responders := Function.update w.sockets.responders thread none } := by
    rw [← hnew, ← responders_update hF hs hthreads]
    show Sockets.mk w'.objects w'.socketsList w'.gSocketSequence w'.sockets.responders = _
    rw [hobjects, hlist, hseq]
    rfl
  simp only [socketsMachine, Sockets.step, hold', Sockets.act, hobj', hstep, Option.map_some, hw]
  rfl

theorem sockets_create {attach : AttachCall} (hF : Found w)
    (hs : SocketsStep w a ((w.withSocket attach).go thread (.attachInsert w.objects.length)))
    (hp : w.threads thread = .attachCreate attach) :
    socketsMachine.run w.sockets [.withSocket attach.so attach.origReceiveBufferSize] =
      some (((w.withSocket attach).go thread (.attachInsert w.objects.length)).sockets, []) := by
  have hresponders := responders_same hF hs rfl (by rw [hp]; rfl) rfl
  refine Machine.run_single ?_
  show some (Sockets.mk _ _ _ w.sockets.responders, _) = _
  rw [← hresponders]
  rfl

theorem sockets_insert (hF : Found w) (hR : Registered w)
    (hs : SocketsStep w a ((w.insertInSocketsList object).go thread (.attachReturn object)))
    (hp : w.threads thread = .attachInsert object) :
    socketsMachine.run w.sockets [.insertInSocketsList object] =
      some (((w.insertInSocketsList object).go thread (.attachReturn object)).sockets, []) := by
  have hresponders := responders_same hF hs insert_threads (by rw [hp]; rfl) rfl
  have hknows := hR.knows thread
  rw [hp] at hknows
  have hout : w.insertedInSocketsList object = false := hknows.1
  have hnot : object ∉ w.sockets.socketsList := by
    intro hmem
    rw [(hR.mem_iff object).1 hmem] at hout
    cases hout
  have hlt : object < w.sockets.objects.length := hR.attaching thread object (by rw [hp]; rfl)
  refine Machine.run_single ?_
  simp only [socketsMachine, Sockets.step, hlt, if_true, hnot, if_false]
  show some (Sockets.mk w.objects (object :: w.socketsList) w.gSocketSequence w.sockets.responders, _) = _
  rw [← hresponders, ← insert_socketsList hout]
  unfold FilterState.insertInSocketsList
  rw [if_neg (by simp [hout])]
  rfl

theorem sockets_remove {resume : Option AttachCall} (hF : Found w) (hR : Registered w)
    (hs : SocketsStep w a ((w.removeFromSocketsList object).go thread phase))
    (hphase : phase = .detach (.removeFromSocketsListToReport (w.insertedInSocketsList object)) object resume)
    (hp : w.threads thread = .detach .removeFromSocketsList object resume) :
    socketsMachine.run w.sockets [.removeFromSocketsList object] =
      some (((w.removeFromSocketsList object).go thread phase).sockets, []) := by
  have hresponders := responders_same hF hs remove_threads (by rw [hp]; rfl) (by rw [hphase]; rfl)
  have hlist : (w.removeFromSocketsList object).socketsList = w.socketsList.erase object := by
    unfold FilterState.removeFromSocketsList
    split
    · rfl
    · rename_i hout
      rw [← hR.mem_iff] at hout
      exact (List.erase_of_not_mem hout).symm
  refine Machine.run_single ?_
  show some (Sockets.mk w.objects (w.socketsList.erase object) w.gSocketSequence w.sockets.responders, _) = _
  rw [← hresponders, ← hlist]
  unfold FilterState.removeFromSocketsList
  split <;> rfl

theorem sockets_simulate (hF : Found w) (hR : Registered w) (hs : FilterStep w a w' e) :
    ∃ bs, socketsMachine.run w.sockets bs = some (w'.sockets, e.filterMap FilterEvent.socketEvent) := by
  have hsockets := hs.sockets
  have hlabel : ∀ label : SocketLabel, label.isFltData → label.isProperty = false := by
    intro label h
    cases label with
    | property => cases h
    | _ => rfl
  cases hs with
  | nothing => exact ⟨[], rfl⟩
  | @move _ _ thread phase _ _ hmove hsame hthreads he =>
    obtain ⟨hold, hnew | ⟨object, property, rfl, htype, hfound⟩⟩ := hmove.responder hF rfl
    · exact sockets_stutter hsame.objects hsame.socketsList hsame.gSocketSequence
        (responders_same hF hsockets hthreads hold (responder_none hnew)) (socketEvents_uneventful he)
    · rw [socketEvents_uneventful he]
      exact ⟨_, sockets_respond hF hsockets hold htype hfound hsame hthreads⟩
  | @begin _ _ thread object phase hthread hbegins hsame hthreads =>
    obtain ⟨resume, rfl⟩ := hbegins.phase_detach
    refine sockets_stutter hsame.objects hsame.socketsList hsame.gSocketSequence
      (responders_same hF hsockets hthreads ?_ rfl) rfl
    cases hbegins with
    | called hidle =>
      obtain rfl := Option.some.inj hthread
      rw [hidle]
      rfl
    | forced hfind =>
      obtain rfl := Option.some.inj hthread
      rw [hfind]
      rfl
  | detached hp hphase hsame hthreads he =>
    refine sockets_stutter hsame.objects hsame.socketsList hsame.gSocketSequence
      (responders_same hF hsockets hthreads (by rw [hp]; rfl) ?_) ?_
    · rcases hphase with rfl | ⟨attach, -, rfl⟩ <;> rfl
    · rw [List.filterMap_append, socketEvents_uneventful he]
      rfl
  | attached hp hsame hthreads he =>
    have hresponders := responders_same hF hsockets hthreads (by rw [hp]; rfl) rfl
    exact sockets_stutter hsame.objects hsame.socketsList hsame.gSocketSequence hresponders
      (socketEvents_uneventful he)
  | act hobj hacts hstep =>
    rw [socketEvents_map]
    rcases hacts.responder hobj with ⟨hlabel, hold, hnew⟩ | ⟨property, rfl, -, hold, hnew⟩
    · exact sockets_act hobj hstep hlabel rfl rfl rfl (responders_same hF hsockets rfl hold (hnew _))
    · exact ⟨_, sockets_property hF hsockets hold (hnew _) hobj hstep rfl rfl rfl rfl⟩
  | data hobj hdata hstep _ =>
    rw [socketEvents_map]
    exact sockets_act hobj hstep (hlabel _ hdata) rfl rfl rfl (responders_stay hF hsockets rfl)
  | enlist hobj hdata hstep _ =>
    rw [socketEvents_map]
    exact sockets_act hobj hstep (hlabel _ hdata) rfl rfl rfl (responders_stay hF hsockets rfl)
  | pop hp _ hobj hstep =>
    exact sockets_act hobj hstep rfl rfl rfl rfl (responders_same hF hsockets rfl (by rw [hp]; rfl) rfl)
  | unlist hp hobj _ hstep =>
    exact sockets_act hobj hstep rfl rfl rfl rfl (responders_same hF hsockets rfl (by rw [hp]; rfl) rfl)
  | relist hp hobj _ hstep =>
    exact sockets_act hobj hstep rfl rfl rfl rfl (responders_same hF hsockets rfl (by rw [hp]; rfl) rfl)
  | create hp => exact ⟨_, sockets_create hF hsockets hp⟩
  | insert hp => exact ⟨_, sockets_insert hF hR hsockets hp⟩
  | remove hp => exact ⟨_, sockets_remove hF hR hsockets rfl hp⟩

/-- Every run of the filter is a run of the sockets, with the same events in the objects. -/
theorem sockets_of_run {as : List FilterLabel} (hr : filterMachine.run .start as = some (w, h)) :
    ∃ bs, socketsMachine.run .start bs = some (w.sockets, h.filterMap FilterEvent.socketEvent) := by
  have hstart : Sockets.start = FilterState.start.sockets := rfl
  rw [hstart]
  refine Machine.run_simulation (I := filterMachine.Reachable .start) ?_ ?_ .refl hr
  · intro w a w' e hreach hs
    exact hreach.step hs
  · intro w a w' e hreach hs
    exact sockets_simulate (found_of_reachable hreach) (registered_of_reachable hreach)
      (FilterState.step_inv hs)

/-- So every object of the filter has made a run of its own machine in which every processed property names
the object. -/
theorem tracks_filter {as : List FilterLabel} (hr : filterMachine.run .start as = some (w, h)) :
    Tracks w.sockets (h.filterMap FilterEvent.socketEvent) :=
  let ⟨_, hr'⟩ := sockets_of_run hr
  tracks_of_run hr'

/-- With all threads of the filter running, a packet of an object that captured fewer than `2 ^ 32` packets is
handed to an injection function only if the client permitted it. -/
theorem filter_failClosed {as : List FilterLabel} {id : Nat} {dataInbound : Bool} {error : Errno}
    (hr : filterMachine.run .start as = some (w, h)) (hobj : w.objects[object]? = some s)
    (hcap : s.captures < 2 ^ 32) (hi : .socket object (.injected id dataInbound error) ∈ h) :
    Approved s.so.socketId (observed object (h.filterMap FilterEvent.socketEvent)) id := by
  obtain ⟨size, hrun⟩ := (tracks_filter hr).objects object s hobj
  refine (failClosed_of_run hrun hcap).injected id dataInbound error ?_
  exact List.mem_filterMap.2 ⟨(object, _), List.mem_filterMap.2 ⟨_, hi, rfl⟩, if_pos rfl⟩

end NkeFilter
