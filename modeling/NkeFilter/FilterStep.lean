import NkeFilter.FilterMachine

/-!
# What a step of the filter can do

`FilterStep` lists the steps of `filterMachine` by what they do to the objects, the lists and the thread
that makes them, and `FilterState.step_inv` says that there are no others. What follows here from it: every
object makes a run of its own machine, and an object that `FltDetach` works on is one whose `FltDetach`
has begun.
-/

namespace NkeFilter
open Lib NkeSocketObject

def SocketLabel.isInjection : SocketLabel → Bool
  | .inject .. | .freeMbufs | .account | .unlock => true
  | _ => false

/-- `FltDetach` goes on without doing anything to the object or the lists. -/
inductive DetachMove (w : FilterState) (object : Nat) : DetachStep → DetachStep → Prop
  | retained : DetachMove w object .retain .removeFromSocketsList
  | notListed {was : Bool} :
      DetachMove w object (.removeFromSocketsListToReport was) (.releaseLists was false)
  | released {was was' : Bool} : DetachMove w object (.releaseLists was was') .decrementLockCount
  | unlocked : DetachMove w object .waitLockCount .purgePendingQueue
  | noneOutbound : (w.objects[object]?.any fun s => s.so.numberOfPendingPackets false = 0) →
      DetachMove w object .waitOutbound .waitInbound
  | noneInbound : (w.objects[object]?.any fun s => s.so.numberOfPendingPackets true = 0) →
      DetachMove w object .waitInbound .release

/-- A thread goes on without doing anything to the objects or the lists. -/
inductive Move (w : FilterState) (a : FilterLabel) : FilterPhase → FilterPhase → Prop
  | attach {thread : Nat} {attach : AttachCall} : a = .fltAttach thread attach →
      Move w a .idle (.attachCheck attach)
  | hold {objects : List Nat} {calls : List ObjectCall} : Move w a .idle (.holding objects calls)
  | respond {object : Nat} {property : NkeSocketDataProperty} :
      property.type ≠ .NkeSocketDataPropertyTypeUnknown →
      w.getSocketObject property.socketId.socket = some object →
      Move w a .idle (.respond .compare object property)
  | present {object : Nat} {attach : AttachCall} :
      Move w a (.attachCheck attach) (.attachChecked object attach)
  | absent {attach : AttachCall} : w.getSocketObject attach.so = none →
      Move w a (.attachCheck attach) (.attachCreate attach)
  | checked {object : Nat} {attach : AttachCall} :
      Move w a (.attachChecked object attach) (.attachFind attach)
  | gone {attach : AttachCall} : w.getSocketObject attach.so = none →
      Move w a (.attachFind attach) (.attachCreate attach)
  | oldReleased {object : Nat} {attach : AttachCall} :
      Move w a (.attachOld object attach) (.attachCreate attach)
  | notAllocated {attach : AttachCall} : Move w a (.attachCreate attach) .idle
  | detach {step step' : DetachStep} {object : Nat} {resume : Option AttachCall} :
      DetachMove w object step step' → Move w a (.detach step object resume) (.detach step' object resume)
  | mismatch {object : Nat} {property : NkeSocketDataProperty} :
      (¬ w.objects[object]?.any fun s => s.so.socketId.socketSequence = property.socketId.socketSequence) →
      Move w a (.respond .compare object property) (.respond .release object property)
  | responded {object : Nat} {property : NkeSocketDataProperty} :
      Move w a (.respond .release object property) .idle
  | lastObject {object : Nat} : Move w a (.holding [object] []) .idle
  | nextObject {object : Nat} {objects : List Nat} {calls : List ObjectCall} :
      Move w a (.holding (object :: objects) []) (.holding objects calls)
  | waited {objects : List Nat} {call : ObjectCall} {calls : List ObjectCall} :
      Move w a (.holding objects (call :: calls)) (.holding objects calls)
  | alreadyListed {object : Nat} : w.insertedInSocketsListToReport object →
      Move w a (.delivered object true) (.delivered object false)
  | dropped {object : Nat} : Move w a (.delivered object false) .idle

/-- A thread goes on with a step of the object `object`, which is in the state `s`. -/
inductive Acts (s : SocketState) (object : Nat) : FilterPhase → SocketLabel → FilterPhase → Prop
  | decrement {resume : Option AttachCall} : Acts s object (.detach .decrementLockCount object resume)
      .beginDetach (.detach .waitLockCount object resume)
  | purgeAll {resume : Option AttachCall} : Acts s object (.detach .purgePendingQueue object resume)
      (.purge .NkeSocketDataAll) (.detach .waitOutbound object resume)
  | property {property : NkeSocketDataProperty} :
      s.so.socketId.socketSequence = property.socketId.socketSequence →
      Acts s object (.respond .compare object property) (.property property)
        (.respond .reinjectDeferredData object property)
  | respondCollect {property : NkeSocketDataProperty} {clock : Nat → UInt64} :
      Acts s object (.respond .reinjectDeferredData object property) (.collect .NkeSocketDataAll clock)
        (.respond .injecting object property)
  | respondInject {property : NkeSocketDataProperty} {label : SocketLabel} {step : RespondStep} :
      label.isInjection → step ≠ .compare →
      Acts s object (.respond .injecting object property) label (.respond step object property)
  | collect {injectType : NkeSocketDataDirectionType} {clock : Nat → UInt64} {objects : List Nat}
      {calls : List ObjectCall} :
      Acts s object (.holding (object :: objects) (.reinjectDeferredData injectType :: calls))
        (.collect injectType clock) (.injecting (object :: objects) calls)
  | purge {purgeType : NkeSocketDataDirectionType} {objects : List Nat} {calls : List ObjectCall} :
      Acts s object (.holding (object :: objects) (.purgePendingQueue purgeType :: calls)) (.purge purgeType)
        (.holding (object :: objects) calls)
  | markAsDisconnected {objects : List Nat} {calls : List ObjectCall} :
      Acts s object (.holding (object :: objects) (.markAsDisconnected :: calls)) .markAsDisconnected
        (.holding (object :: objects) calls)
  | logDisconnecting {objects : List Nat} {calls : List ObjectCall} :
      Acts s object (.holding (object :: objects) (.logDisconnecting :: calls)) .disconnecting
        (.holding (object :: objects) calls)
  | inject {label : SocketLabel} {objects : List Nat} {calls : List ObjectCall} : label.isInjection →
      Acts s object (.injecting (object :: objects) calls) label (.injecting (object :: objects) calls)
  | injected {label : SocketLabel} {objects : List Nat} {calls : List ObjectCall} : label.isInjection →
      Acts s object (.injecting (object :: objects) calls) label (.holding (object :: objects) calls)
  | deliver {outcome : Nat → ReportOutcome} : Acts s object (.popped object) (.deliver outcome)
      (.delivered object (s.so.deliverQueue outcome).2.1.reinsertInList)

/-- The states differ at most in the threads and the reference counts. -/
structure SameFilter (w w' : FilterState) : Prop where
  objects : w'.objects = w.objects
  socketsList : w'.socketsList = w.socketsList
  socketsListToReport : w'.socketsListToReport = w.socketsListToReport
  insertedInSocketsList : w'.insertedInSocketsList = w.insertedInSocketsList
  gSocketSequence : w'.gSocketSequence = w.gSocketSequence
  cookies : w'.cookies = w.cookies
  detaching : w'.detaching = w.detaching

/-- `FltDetach` of the object begins, called by the kernel or by `FltAttach`. -/
inductive Begins (w : FilterState) (object : Nat) : FilterLabel → FilterPhase → Prop
  | called {thread : Nat} : w.threads thread = .idle → object ∈ w.cookies →
      Begins w object (.fltDetach thread object) (.detach .retain object none)
  | forced {thread : Nat} {outside : Outside} {attach : AttachCall} :
      w.threads thread = .attachFind attach → w.getSocketObject attach.so = some object →
      Begins w object (.next thread outside) (.detach .retain object (some attach))

def FilterEvent.isSocket : FilterEvent → Bool
  | .socket .. => true
  | _ => false

/-- Nothing happened in an object and no `FltDetach` returned. -/
def Uneventful (e : List FilterEvent) : Prop :=
  ∀ event ∈ e, event.isSocket = false ∧ ∀ object, event ≠ .detached object

def FilterLabel.thread : FilterLabel → Option Nat
  | .fltAttach thread _ | .fltDetach thread _ | .fltNotify thread _ _ | .respond thread _
  | .injectionPass thread | .deliver thread | .next thread _ => some thread
  | .data .. => none

/-- The steps of `filterMachine` by what they do to the objects and to the lists. -/
inductive FilterStep (w : FilterState) : FilterLabel → FilterState → List FilterEvent → Prop
  | nothing {a : FilterLabel} : FilterStep w a w []
  | move {a : FilterLabel} {w' : FilterState} {thread : Nat} {phase : FilterPhase} {e : List FilterEvent} :
      a.thread = some thread → Move w a (w.threads thread) phase → SameFilter w w' →
      w'.threads = Function.update w.threads thread phase → Uneventful e → FilterStep w a w' e
  | begin {a : FilterLabel} {w' : FilterState} {thread object : Nat} {phase : FilterPhase} :
      a.thread = some thread → Begins w object a phase → SameFilter (w.beginDetach object) w' →
      w'.threads = Function.update w.threads thread phase → FilterStep w a w' []
  | detached {outside : Outside} {w' : FilterState} {thread object : Nat} {resume : Option AttachCall}
      {phase : FilterPhase} {e : List FilterEvent} :
      w.threads thread = .detach .release object resume →
      (phase = .idle ∨ ∃ attach, resume = some attach ∧ phase = .attachOld object attach) →
      SameFilter w w' → w'.threads = Function.update w.threads thread phase → Uneventful e →
      FilterStep w (.next thread outside) w' (e ++ [.detached object])
  | attached {outside : Outside} {w' : FilterState} {thread object : Nat} {e : List FilterEvent} :
      w.threads thread = .attachReturn object → SameFilter { w with cookies := object :: w.cookies } w' →
      w'.threads = Function.update w.threads thread .idle → Uneventful e →
      FilterStep w (.next thread outside) w' e
  | act {outside : Outside} {thread object : Nat} {s s' : SocketState} {label : SocketLabel}
      {phase : FilterPhase} {e : List SocketEvent} :
      w.objects[object]? = some s → Acts s object (w.threads thread) label phase →
      socketMachine.step s label = some (s', e) →
      FilterStep w (.next thread outside) ({ w with objects := w.objects.set object s' }.go thread phase)
        (e.map fun event => .socket object event)
  | data {object : Nat} {s s' : SocketState} {label : SocketLabel} {e : List SocketEvent} :
      w.objects[object]? = some s → label.isFltData → socketMachine.step s label = some (s', e) →
      .enlisted ∉ e →
      FilterStep w (.data object label) { w with objects := w.objects.set object s' }
        (e.map fun event => .socket object event)
  | enlist {object : Nat} {s s' : SocketState} {label : SocketLabel} {e : List SocketEvent} :
      w.objects[object]? = some s → label.isFltData → socketMachine.step s label = some (s', e) →
      .enlisted ∈ e →
      FilterStep w (.data object label)
        ({ w with
          objects := w.objects.set object s'
          socketsListToReport := w.socketsListToReport ++ [object] }.retain object)
        (e.map fun event => .socket object event)
  | pop {thread object : Nat} {rest : List Nat} {s s' : SocketState} :
      w.threads thread = .idle → w.socketsListToReport = object :: rest → w.objects[object]? = some s →
      socketMachine.step s (.listToReport false) = some (s', []) →
      FilterStep w (.deliver thread)
        ({ w with objects := w.objects.set object s', socketsListToReport := rest }.go thread (.popped object))
        []
  | unlist {outside : Outside} {thread object : Nat} {was : Bool} {resume : Option AttachCall}
      {s s' : SocketState} :
      w.threads thread = .detach (.removeFromSocketsListToReport was) object resume →
      w.objects[object]? = some s → s.so.insertedInSocketsListToReport →
      socketMachine.step s (.listToReport false) = some (s', []) →
      FilterStep w (.next thread outside)
        ({ w with
          objects := w.objects.set object s'
          socketsListToReport := w.socketsListToReport.erase object }.go thread
            (.detach (.releaseLists was true) object resume))
        []
  | relist {outside : Outside} {thread object : Nat} {s s' : SocketState} :
      w.threads thread = .delivered object true → w.objects[object]? = some s →
      s.so.insertedInSocketsListToReport = false →
      socketMachine.step s (.listToReport true) = some (s', []) →
      FilterStep w (.next thread outside)
        ({ w with
          objects := w.objects.set object s'
          socketsListToReport := w.socketsListToReport ++ [object] }.go thread .idle)
        []
  | create {outside : Outside} {thread : Nat} {attach : AttachCall} :
      w.threads thread = .attachCreate attach →
      FilterStep w (.next thread outside) ((w.withSocket attach).go thread (.attachInsert w.objects.length)) []
  | insert {outside : Outside} {thread object : Nat} : w.threads thread = .attachInsert object →
      FilterStep w (.next thread outside) ((w.insertInSocketsList object).go thread (.attachReturn object)) []
  | remove {outside : Outside} {thread object : Nat} {resume : Option AttachCall} :
      w.threads thread = .detach .removeFromSocketsList object resume →
      FilterStep w (.next thread outside) ((w.removeFromSocketsList object).go thread
        (.detach (.removeFromSocketsListToReport (w.insertedInSocketsList object)) object resume)) []

variable {w w' : FilterState} {a : FilterLabel} {e : List FilterEvent} {thread object : Nat}
  {label : SocketLabel} {phase : FilterPhase} {outside : Outside}

theorem uneventful_nil : Uneventful [] := by
  intro event h
  cases h

theorem uneventful_release : Uneventful (w.release object).2 := by
  intro event h
  unfold FilterState.release at h
  split at h
  · obtain rfl := List.mem_singleton.1 h
    exact ⟨rfl, nofun⟩
  · cases h

theorem SameFilter.refl : SameFilter w w := ⟨rfl, rfl, rfl, rfl, rfl, rfl, rfl⟩

theorem SameFilter.trans {w'' : FilterState} (h : SameFilter w w') (h' : SameFilter w' w'') :
    SameFilter w w'' :=
  ⟨h'.objects.trans h.objects, h'.socketsList.trans h.socketsList,
    h'.socketsListToReport.trans h.socketsListToReport,
    h'.insertedInSocketsList.trans h.insertedInSocketsList, h'.gSocketSequence.trans h.gSocketSequence,
    h'.cookies.trans h.cookies, h'.detaching.trans h.detaching⟩

theorem sameFilter_retain : SameFilter w ((w.retain object).go thread phase) :=
  ⟨rfl, rfl, rfl, rfl, rfl, rfl, rfl⟩

theorem sameFilter_release : SameFilter w ((w.release object).1.go thread phase) :=
  ⟨rfl, rfl, rfl, rfl, rfl, rfl, rfl⟩

theorem sameFilter_go : SameFilter w (w.go thread phase) := ⟨rfl, rfl, rfl, rfl, rfl, rfl, rfl⟩

theorem Begins.phase_eq (h : Begins w object a phase) (hthread : a.thread = some thread) :
    w.threads thread = .idle ∨ ∃ attach, w.threads thread = .attachFind attach := by
  cases h with
  | called hidle =>
    obtain rfl := Option.some.inj hthread
    exact .inl hidle
  | forced hp =>
    obtain rfl := Option.some.inj hthread
    exact .inr ⟨_, hp⟩

namespace FilterState

theorem actThen_inv (hs : w.actThen object label thread phase = some (w', e)) :
    ∃ s s' events, w.objects[object]? = some s ∧ socketMachine.step s label = some (s', events) ∧
      w' = { w with objects := w.objects.set object s' }.go thread phase ∧
      e = events.map fun event => .socket object event := by
  obtain ⟨⟨w₁, e₁⟩, hact, heq⟩ := Option.map_eq_some_iff.1 hs
  obtain ⟨rfl, rfl⟩ := Prod.mk.inj heq
  unfold act at hact
  split at hact
  · cases hact
  rename_i s hobj
  obtain ⟨⟨s', events⟩, hstep, heq⟩ := Option.map_eq_some_iff.1 hact
  obtain ⟨rfl, rfl⟩ := Prod.mk.inj heq
  exact ⟨s, s', events, hobj, hstep, rfl, rfl⟩

/-- `FilterStep.act` for a step given by `actThen`. -/
theorem act_step (hs : w.actThen object label thread phase = some (w', e))
    (hacts : ∀ s, w.objects[object]? = some s → Acts s object (w.threads thread) label phase) :
    FilterStep w (.next thread outside) w' e := by
  obtain ⟨s, s', events, hobj, hstep, rfl, rfl⟩ := actThen_inv hs
  exact .act hobj (hacts s hobj) hstep

theorem attachNext_inv (hp : w.threads thread = phase)
    (hs : w.attachNext thread outside phase = some (w', e)) : FilterStep w (.next thread outside) w' e := by
  cases phase with
  | attachCheck attach =>
    simp only [attachNext] at hs
    split at hs
    · obtain ⟨rfl, rfl⟩ := Prod.mk.inj (Option.some.inj hs)
      exact .move rfl (hp ▸ .present) sameFilter_retain rfl uneventful_nil
    · rename_i hnone
      obtain ⟨rfl, rfl⟩ := Prod.mk.inj (Option.some.inj hs)
      exact .move rfl (hp ▸ .absent hnone) sameFilter_go rfl uneventful_nil
  | attachChecked object attach =>
    obtain ⟨rfl, rfl⟩ := Prod.mk.inj (Option.some.inj hs)
    exact .move rfl (hp ▸ .checked) sameFilter_release rfl uneventful_release
  | attachFind attach =>
    simp only [attachNext] at hs
    split at hs
    · rename_i object hfound
      obtain ⟨rfl, rfl⟩ := Prod.mk.inj (Option.some.inj hs)
      exact .begin rfl (.forced hp hfound) ⟨rfl, rfl, rfl, rfl, rfl, rfl, rfl⟩ rfl
    · rename_i hnone
      obtain ⟨rfl, rfl⟩ := Prod.mk.inj (Option.some.inj hs)
      exact .move rfl (hp ▸ .gone hnone) sameFilter_go rfl uneventful_nil
  | attachOld object attach =>
    obtain ⟨rfl, rfl⟩ := Prod.mk.inj (Option.some.inj hs)
    exact .move rfl (hp ▸ .oldReleased) sameFilter_release rfl uneventful_release
  | attachCreate attach =>
    simp only [attachNext] at hs
    split at hs
    · obtain ⟨rfl, rfl⟩ := Prod.mk.inj (Option.some.inj hs)
      exact .create hp
    · obtain ⟨rfl, rfl⟩ := Prod.mk.inj (Option.some.inj hs)
      exact .move rfl (hp ▸ .notAllocated) sameFilter_go rfl uneventful_nil
  | attachInsert object =>
    obtain ⟨rfl, rfl⟩ := Prod.mk.inj (Option.some.inj hs)
    exact .insert hp
  | attachReturn object =>
    obtain ⟨rfl, rfl⟩ := Prod.mk.inj (Option.some.inj hs)
    refine .attached hp ⟨rfl, rfl, rfl, rfl, rfl, rfl, rfl⟩ rfl ?_
    intro event hmem
    rcases List.mem_append.1 hmem with h | h
    · exact uneventful_release event h
    · obtain rfl := List.mem_singleton.1 h
      exact ⟨rfl, nofun⟩
  | _ => cases hs

theorem releaseIf_same {was : Bool} : SameFilter w (w.releaseIf object was).1 := by
  unfold releaseIf
  split
  · exact ⟨rfl, rfl, rfl, rfl, rfl, rfl, rfl⟩
  · exact .refl

theorem releaseIf_threads {was : Bool} : (w.releaseIf object was).1.threads = w.threads := by
  unfold releaseIf
  split <;> rfl

theorem releaseIf_uneventful {was : Bool} : Uneventful (w.releaseIf object was).2 := by
  unfold releaseIf
  split
  · exact uneventful_release
  · exact uneventful_nil

theorem detachNext_inv {resume : Option AttachCall} {step : DetachStep}
    (hp : w.threads thread = .detach step object resume)
    (hs : w.detachNext thread object resume step = some (w', e)) :
    FilterStep w (.next thread outside) w' e := by
  cases step with
  | retain =>
    obtain ⟨rfl, rfl⟩ := Prod.mk.inj (Option.some.inj hs)
    exact .move rfl (hp ▸ .detach .retained) sameFilter_retain rfl uneventful_nil
  | removeFromSocketsList =>
    obtain ⟨rfl, rfl⟩ := Prod.mk.inj (Option.some.inj hs)
    exact .remove hp
  | removeFromSocketsListToReport was =>
    simp only [detachNext] at hs
    split at hs
    · rename_i hin
      obtain ⟨s, s', events, hobj, hstep, rfl, rfl⟩ := actThen_inv hs
      have hflag : s.so.insertedInSocketsListToReport := by
        simpa [insertedInSocketsListToReport, show w.objects[object]? = some s from hobj] using hin
      obtain rfl : events = [] := ((Prod.mk.inj (Option.some.inj hstep)).2).symm
      exact .unlist hp hobj hflag hstep
    · obtain ⟨rfl, rfl⟩ := Prod.mk.inj (Option.some.inj hs)
      exact .move rfl (hp ▸ .detach .notListed) sameFilter_go rfl uneventful_nil
  | releaseLists was was' =>
    simp only [detachNext, Option.some.injEq, Prod.mk.injEq] at hs
    obtain ⟨rfl, rfl⟩ := hs
    have hfirst := @releaseIf_same w object was
    have hsecond := @releaseIf_same (w.releaseIf object was).1 object was'
    refine .move rfl (hp ▸ Move.detach .released) ((hfirst.trans hsecond).trans sameFilter_go) ?_ ?_
    · rw [go, releaseIf_threads, releaseIf_threads]
    · intro event hmem
      rcases List.mem_append.1 hmem with h | h
      · exact releaseIf_uneventful event h
      · exact releaseIf_uneventful event h
  | decrementLockCount => exact act_step hs fun _ _ => hp ▸ .decrement
  | waitLockCount =>
    simp only [detachNext] at hs
    split at hs
    · obtain ⟨rfl, rfl⟩ := Prod.mk.inj (Option.some.inj hs)
      exact .move rfl (hp ▸ .detach .unlocked) sameFilter_go rfl uneventful_nil
    · cases hs
  | purgePendingQueue => exact act_step hs fun _ _ => hp ▸ .purgeAll
  | waitOutbound =>
    simp only [detachNext] at hs
    split at hs
    · rename_i hzero
      obtain ⟨rfl, rfl⟩ := Prod.mk.inj (Option.some.inj hs)
      exact .move rfl (hp ▸ .detach (.noneOutbound hzero)) sameFilter_go rfl uneventful_nil
    · cases hs
  | waitInbound =>
    simp only [detachNext] at hs
    split at hs
    · rename_i hzero
      obtain ⟨rfl, rfl⟩ := Prod.mk.inj (Option.some.inj hs)
      exact .move rfl (hp ▸ .detach (.noneInbound hzero)) sameFilter_go rfl uneventful_nil
    · cases hs
  | release =>
    obtain ⟨rfl, rfl⟩ := Prod.mk.inj (Option.some.inj hs)
    refine .detached hp ?_ sameFilter_release rfl uneventful_release
    cases resume with
    | none => exact .inl rfl
    | some attach => exact .inr ⟨attach, rfl, rfl⟩

theorem injection_label_isInjection (injection : Injection) : (injection.label outside).isInjection := by
  unfold Injection.label
  split <;> rfl

theorem respondNext_inv {property : NkeSocketDataProperty} {step : RespondStep}
    (hp : w.threads thread = .respond step object property)
    (hs : w.respondNext thread outside object property step = some (w', e)) :
    FilterStep w (.next thread outside) w' e := by
  cases step with
  | compare =>
    simp only [respondNext] at hs
    split at hs
    · rename_i hseq
      refine act_step hs ?_
      intro s hobj
      exact hp ▸ .property (by simpa [hobj] using hseq)
    · rename_i hseq
      obtain ⟨rfl, rfl⟩ := Prod.mk.inj (Option.some.inj hs)
      exact .move rfl (hp ▸ .mismatch hseq) sameFilter_go rfl uneventful_nil
  | reinjectDeferredData => exact act_step hs fun _ _ => hp ▸ .respondCollect
  | injecting =>
    simp only [respondNext] at hs
    split at hs
    · cases hs
    rename_i injection _
    by_cases hdone : injection = ⟨[], none⟩
    · rw [if_pos hdone] at hs
      exact act_step hs fun _ _ => hp ▸ .respondInject (injection_label_isInjection injection) nofun
    · rw [if_neg hdone] at hs
      refine act_step hs ?_
      intro s _
      rw [hp]
      exact .respondInject (injection_label_isInjection injection) nofun
  | release =>
    obtain ⟨rfl, rfl⟩ := Prod.mk.inj (Option.some.inj hs)
    exact .move rfl (hp ▸ .responded) sameFilter_release rfl uneventful_release

theorem holdingNext_inv {objects : List Nat} {calls : List ObjectCall}
    (hp : w.threads thread = .holding (object :: objects) calls)
    (hs : w.holdingNext thread outside objects object calls = some (w', e)) :
    FilterStep w (.next thread outside) w' e := by
  cases calls with
  | nil =>
    obtain ⟨rfl, rfl⟩ := Prod.mk.inj (Option.some.inj hs)
    by_cases hlast : objects = []
    · subst hlast
      exact .move rfl (hp ▸ .lastObject) sameFilter_release rfl uneventful_release
    · rw [if_neg hlast]
      exact .move rfl (hp ▸ .nextObject) sameFilter_release rfl uneventful_release
  | cons call calls =>
    cases call with
    | reinjectDeferredData injectType => exact act_step hs fun _ _ => hp ▸ .collect
    | purgePendingQueue purgeType => exact act_step hs fun _ _ => hp ▸ .purge
    | waitForCompletion inbound =>
      simp only [holdingNext] at hs
      split at hs
      · obtain ⟨rfl, rfl⟩ := Prod.mk.inj (Option.some.inj hs)
        exact .move rfl (hp ▸ .waited) sameFilter_go rfl uneventful_nil
      · cases hs
    | markAsDisconnected => exact act_step hs fun _ _ => hp ▸ .markAsDisconnected
    | logDisconnecting => exact act_step hs fun _ _ => hp ▸ .logDisconnecting

theorem injectingNext_inv {objects : List Nat} {calls : List ObjectCall}
    (hp : w.threads thread = .injecting (object :: objects) calls)
    (hs : w.injectingNext thread outside objects object calls = some (w', e)) :
    FilterStep w (.next thread outside) w' e := by
  simp only [injectingNext] at hs
  split at hs
  · cases hs
  rename_i injection _
  by_cases hdone : injection = ⟨[], none⟩
  · rw [if_pos hdone] at hs
    exact act_step hs fun _ _ => hp ▸ .injected (injection_label_isInjection injection)
  · rw [if_neg hdone] at hs
    refine act_step hs ?_
    intro s _
    rw [hp]
    exact .inject (injection_label_isInjection injection)

theorem deliverNext_inv (hp : w.threads thread = phase)
    (hs : w.deliverNext thread outside phase = some (w', e)) : FilterStep w (.next thread outside) w' e := by
  cases phase with
  | popped object =>
    simp only [deliverNext] at hs
    split at hs
    · cases hs
    rename_i s hobj
    refine act_step hs ?_
    intro s' hobj'
    obtain rfl := Option.some.inj (hobj.symm.trans hobj')
    exact hp ▸ .deliver
  | delivered object reinsertInList =>
    cases reinsertInList with
    | true =>
      simp only [deliverNext] at hs
      split at hs
      · rename_i hin
        obtain ⟨rfl, rfl⟩ := Prod.mk.inj (Option.some.inj hs)
        exact .move rfl (hp ▸ .alreadyListed hin) sameFilter_go rfl uneventful_nil
      · rename_i hin
        obtain ⟨s, s', events, hobj, hstep, rfl, rfl⟩ := actThen_inv hs
        have hflag : s.so.insertedInSocketsListToReport = false := by
          simpa [insertedInSocketsListToReport, show w.objects[object]? = some s from hobj] using hin
        obtain rfl : events = [] := ((Prod.mk.inj (Option.some.inj hstep)).2).symm
        exact .relist hp hobj hflag hstep
    | false =>
      obtain ⟨rfl, rfl⟩ := Prod.mk.inj (Option.some.inj hs)
      exact .move rfl (hp ▸ .dropped) sameFilter_release rfl uneventful_release
  | _ => cases hs

theorem next_inv (hs : w.next thread outside = some (w', e)) : FilterStep w (.next thread outside) w' e := by
  unfold next at hs
  split at hs
  · rename_i hp
    exact detachNext_inv hp hs
  · rename_i hp
    exact respondNext_inv hp hs
  · rename_i hp
    exact holdingNext_inv hp hs
  · rename_i hp
    exact injectingNext_inv hp hs
  · rename_i hp
    exact deliverNext_inv hp hs
  · rename_i hp
    exact deliverNext_inv hp hs
  · exact attachNext_inv rfl hs

theorem foldl_retain_same (w : FilterState) (objects : List Nat) : SameFilter w (objects.foldl retain w) ∧
    (objects.foldl retain w).threads = w.threads := by
  induction objects generalizing w with
  | nil => exact ⟨.refl, rfl⟩
  | cons object objects ih =>
    obtain ⟨hsame, ht⟩ := ih (w.retain object)
    have hretain : SameFilter w (w.retain object) := ⟨rfl, rfl, rfl, rfl, rfl, rfl, rfl⟩
    exact ⟨hretain.trans hsame, ht⟩

theorem step_inv (hs : filterMachine.step w a = some (w', e)) : FilterStep w a w' e := by
  cases a with
  | fltAttach thread attach =>
    simp only [filterMachine, step] at hs
    split at hs
    · rename_i hidle
      obtain ⟨rfl, rfl⟩ := Prod.mk.inj (Option.some.inj hs)
      exact .move rfl (hidle ▸ .attach rfl) sameFilter_go rfl uneventful_nil
    · cases hs
  | fltDetach thread object =>
    simp only [filterMachine, step] at hs
    split at hs
    · rename_i hidle
      obtain ⟨rfl, rfl⟩ := Prod.mk.inj (Option.some.inj hs)
      exact .begin rfl (.called hidle.1 hidle.2) ⟨rfl, rfl, rfl, rfl, rfl, rfl, rfl⟩ rfl
    · cases hs
  | fltNotify thread so event =>
    simp only [filterMachine, step] at hs
    split at hs
    · rename_i hidle
      split at hs
      · obtain ⟨rfl, rfl⟩ := Prod.mk.inj (Option.some.inj hs)
        exact .nothing
      · obtain ⟨rfl, rfl⟩ := Prod.mk.inj (Option.some.inj hs)
        exact .move rfl (hidle ▸ .hold) sameFilter_retain rfl uneventful_nil
    · cases hs
  | respond thread property =>
    simp only [filterMachine, step] at hs
    split at hs
    · rename_i hidle
      split at hs
      · obtain ⟨rfl, rfl⟩ := Prod.mk.inj (Option.some.inj hs)
        exact .nothing
      · rename_i hfound
        obtain ⟨rfl, rfl⟩ := Prod.mk.inj (Option.some.inj hs)
        exact .move rfl (hidle.1 ▸ .respond hidle.2 hfound) sameFilter_retain rfl uneventful_nil
    · cases hs
  | injectionPass thread =>
    simp only [filterMachine, step] at hs
    split at hs
    · rename_i hidle
      split at hs
      · obtain ⟨rfl, rfl⟩ := Prod.mk.inj (Option.some.inj hs)
        exact .nothing
      · rename_i object objects _
        obtain ⟨rfl, rfl⟩ := Prod.mk.inj (Option.some.inj hs)
        obtain ⟨hsame, ht⟩ := foldl_retain_same w (object :: objects)
        have hmove : Move w (.injectionPass thread) (w.threads thread) (.holding (object :: objects)
            [.reinjectDeferredData .NkeSocketDataAll]) := hidle ▸ .hold
        refine .move rfl hmove (hsame.trans sameFilter_go) ?_ uneventful_nil
        rw [go, ht]
    · cases hs
  | deliver thread =>
    simp only [filterMachine, step] at hs
    split at hs
    · rename_i hidle
      split at hs
      · obtain ⟨rfl, rfl⟩ := Prod.mk.inj (Option.some.inj hs)
        exact .nothing
      · rename_i object rest hlist
        obtain ⟨s, s', events, hobj, hstep, rfl, rfl⟩ := actThen_inv hs
        obtain rfl : events = [] := ((Prod.mk.inj (Option.some.inj hstep)).2).symm
        exact .pop hidle hlist hobj hstep
    · cases hs
  | data object label =>
    simp only [filterMachine, step] at hs
    split at hs
    · rename_i hdata
      obtain ⟨⟨w₁, e₁⟩, hact, heq⟩ := Option.map_eq_some_iff.1 hs
      unfold act at hact
      split at hact
      · cases hact
      rename_i s hobj
      obtain ⟨⟨s', events⟩, hstep, heq'⟩ := Option.map_eq_some_iff.1 hact
      obtain ⟨rfl, rfl⟩ := Prod.mk.inj heq'
      by_cases hen : .enlisted ∈ events
      · rw [if_pos (List.mem_map.2 ⟨_, hen, rfl⟩)] at heq
        obtain ⟨rfl, rfl⟩ := Prod.mk.inj heq
        exact .enlist hobj hdata hstep hen
      · rw [if_neg (by simpa using hen)] at heq
        obtain ⟨rfl, rfl⟩ := Prod.mk.inj heq
        exact .data hobj hdata hstep hen
    · cases hs
  | next thread outside => exact next_inv hs

end FilterState

theorem insert_threads : ((w.insertInSocketsList object).go thread phase).threads =
    Function.update w.threads thread phase := by
  unfold FilterState.insertInSocketsList
  split <;> rfl

theorem insert_objects : ((w.insertInSocketsList object).go thread phase).objects = w.objects := by
  unfold FilterState.insertInSocketsList
  split <;> rfl

theorem remove_threads : ((w.removeFromSocketsList object).go thread phase).threads =
    Function.update w.threads thread phase := by
  unfold FilterState.removeFromSocketsList
  split <;> rfl

theorem remove_objects : ((w.removeFromSocketsList object).go thread phase).objects = w.objects := by
  unfold FilterState.removeFromSocketsList
  split <;> rfl

theorem isFltData_ne (h : label.isFltData) (inserted : Bool) : label ≠ .listToReport inserted := by
  rintro rfl
  cases h

theorem Acts.label_spec {p p' : FilterPhase} (h : Acts s object p label p') :
    label.isFltData = false ∧ ∀ inserted, label ≠ .listToReport inserted := by
  have hinj : ∀ label : SocketLabel, label.isInjection →
      label.isFltData = false ∧ ∀ inserted, label ≠ .listToReport inserted := by
    intro label hl
    cases label with
    | inject | freeMbufs | account | unlock => exact ⟨rfl, nofun⟩
    | _ => cases hl
  cases h with
  | respondInject hl _ => exact hinj _ hl
  | inject hl => exact hinj _ hl
  | injected hl => exact hinj _ hl
  | _ => exact ⟨rfl, nofun⟩

/-! ### The objects -/

/-- The object made at most one step of its own machine. -/
def Advanced (s s' : SocketState) : Prop := s' = s ∨ ∃ label e, socketMachine.step s label = some (s', e)

theorem getElem?_set_inv {l : List SocketState} {i j : Nat} {x y : SocketState}
    (h : (l.set i x)[j]? = some y) : j = i ∧ y = x ∨ j ≠ i ∧ l[j]? = some y := by
  by_cases hji : j = i
  · subst hji
    have hlt : j < (l.set j x).length := (List.getElem?_eq_some_iff.1 h).1
    rw [List.getElem?_set_self (by simpa using hlt)] at h
    exact .inl ⟨rfl, (Option.some.inj h).symm⟩
  · rw [List.getElem?_set_ne (Ne.symm hji)] at h
    exact .inr ⟨hji, h⟩

theorem advanced_of_set {s₁ s₁' s' : SocketState} {object' : Nat} {e : List SocketEvent}
    (hobj : w.objects[object']? = some s₁) (hstep : socketMachine.step s₁ label = some (s₁', e))
    (h : (w.objects.set object' s₁')[object]? = some s') :
    ∃ s, w.objects[object]? = some s ∧ Advanced s s' := by
  rcases getElem?_set_inv h with ⟨rfl, rfl⟩ | ⟨_, h⟩
  · exact ⟨s₁, hobj, .inr ⟨label, e, hstep⟩⟩
  · exact ⟨s', h, .inl rfl⟩

theorem withSocket_inv {attach : AttachCall} {s : SocketState}
    (h : (w.withSocket attach).objects[object]? = some s) : w.objects[object]? = some s ∨
      object = w.objects.length ∧
        s = .start ⟨attach.so, w.gSocketSequence.toInt64.toUInt64⟩ attach.origReceiveBufferSize := by
  rcases Nat.lt_or_ge object w.objects.length with hlt | hge
  · exact .inl ((List.getElem?_append_left hlt).symm.trans h)
  · have h := (List.getElem?_append_right hge).symm.trans h
    obtain ⟨hlt, -⟩ := List.getElem?_eq_some_iff.1 h
    have hlt : object - w.objects.length < 1 := hlt
    exact .inr ⟨by omega, List.mem_singleton.1 (List.mem_of_getElem? h)⟩

/-- An object of the new state is new, or was there before and made at most one step. -/
theorem FilterStep.object_inv {s' : SocketState} (hs : FilterStep w a w' e)
    (h : w'.objects[object]? = some s') :
    (∃ s, w.objects[object]? = some s ∧ Advanced s s') ∨
      object = w.objects.length ∧ ∃ attach : AttachCall,
        s' = .start ⟨attach.so, w.gSocketSequence.toInt64.toUInt64⟩ attach.origReceiveBufferSize := by
  cases hs with
  | nothing => exact .inl ⟨s', h, .inl rfl⟩
  | move _ _ hsame => exact .inl ⟨s', hsame.objects ▸ h, .inl rfl⟩
  | begin _ _ hsame => exact .inl ⟨s', hsame.objects ▸ h, .inl rfl⟩
  | detached _ _ hsame => exact .inl ⟨s', hsame.objects ▸ h, .inl rfl⟩
  | attached _ hsame => exact .inl ⟨s', hsame.objects ▸ h, .inl rfl⟩
  | act hobj _ hstep => exact .inl (advanced_of_set hobj hstep h)
  | data hobj _ hstep _ => exact .inl (advanced_of_set hobj hstep h)
  | enlist hobj _ hstep _ => exact .inl (advanced_of_set hobj hstep h)
  | pop _ _ hobj hstep => exact .inl (advanced_of_set hobj hstep h)
  | unlist _ hobj _ hstep => exact .inl (advanced_of_set hobj hstep h)
  | relist _ hobj _ hstep => exact .inl (advanced_of_set hobj hstep h)
  | create _ =>
    rcases withSocket_inv h with hold | hnew
    · exact .inl ⟨s', hold, .inl rfl⟩
    · exact .inr ⟨hnew.1, _, hnew.2⟩
  | insert _ =>
    refine .inl ⟨s', ?_, .inl rfl⟩
    unfold FilterState.insertInSocketsList at h
    split at h <;> exact h
  | remove _ =>
    refine .inl ⟨s', ?_, .inl rfl⟩
    unfold FilterState.removeFromSocketsList at h
    split at h <;> exact h

/-- The object makes no step of its machine, or one, whose events are the ones of the object. -/
def ObjectStep (a : FilterLabel) (e : List FilterEvent) (object : Nat) (s s' : SocketState) : Prop :=
  s' = s ∧ (∀ event, .socket object event ∉ e) ∨
    ∃ label ev, socketMachine.step s label = some (s', ev) ∧ (label.isFltData → a = .data object label) ∧
      ∀ event, .socket object event ∈ e → event ∈ ev

theorem not_mem_of_uneventful (he : Uneventful e) (event : SocketEvent) : .socket object event ∉ e := by
  intro h
  cases (he _ h).1

theorem objectStep_of_set {s s₁ s₁' : SocketState} {object' : Nat} {ev : List SocketEvent}
    (hobj : w.objects[object']? = some s₁) (hstep : socketMachine.step s₁ label = some (s₁', ev))
    (hlabel : label.isFltData → a = .data object' label) (h : w.objects[object]? = some s)
    (hw : w'.objects = w.objects.set object' s₁')
    (he : ∀ event, .socket object event ∈ e → object = object' ∧ event ∈ ev) :
    ∃ s', w'.objects[object]? = some s' ∧ ObjectStep a e object s s' := by
  rw [hw]
  by_cases heq : object = object'
  · subst heq
    obtain rfl := Option.some.inj (h.symm.trans hobj)
    exact ⟨s₁', List.getElem?_set_self (List.getElem?_eq_some_iff.1 h).1, .inr ⟨label, ev, hstep, hlabel,
      fun event hmem => (he event hmem).2⟩⟩
  · refine ⟨s, by rw [List.getElem?_set_ne (Ne.symm heq), h], .inl ⟨rfl, ?_⟩⟩
    exact fun event hmem => heq (he event hmem).1

theorem FilterStep.object_step {s : SocketState} (hs : FilterStep w a w' e) (h : w.objects[object]? = some s) :
    ∃ s', w'.objects[object]? = some s' ∧ ObjectStep a e object s s' := by
  have hsame : w'.objects = w.objects → (∀ event, .socket object event ∉ e) →
      ∃ s', w'.objects[object]? = some s' ∧ ObjectStep a e object s s' :=
    fun hobj he => ⟨s, by rw [hobj, h], .inl ⟨rfl, he⟩⟩
  have hmap : ∀ (object' : Nat) (ev : List SocketEvent) (event : SocketEvent),
      .socket object event ∈ ev.map (fun event => FilterEvent.socket object' event) →
      object = object' ∧ event ∈ ev := by
    intro object' ev event hmem
    obtain ⟨event', hmem, heq⟩ := List.mem_map.1 hmem
    cases heq
    exact ⟨rfl, hmem⟩
  have hnil : ∀ event, FilterEvent.socket object event ∉ [] := fun _ => List.not_mem_nil
  have hnone : ∀ {object' : Nat} {ev : List SocketEvent} (event : SocketEvent),
      FilterEvent.socket object event ∈ [] → object = object' ∧ event ∈ ev :=
    fun event hmem => absurd hmem (hnil event)
  cases hs with
  | nothing => exact hsame rfl hnil
  | move _ _ h _ he => exact hsame h.objects (not_mem_of_uneventful he)
  | begin _ _ h => exact hsame h.objects hnil
  | detached _ _ h _ he =>
    refine hsame h.objects ?_
    intro event hmem
    rcases List.mem_append.1 hmem with hmem | hmem
    · exact not_mem_of_uneventful he event hmem
    · cases List.mem_singleton.1 hmem
  | attached _ h _ he => exact hsame h.objects (not_mem_of_uneventful he)
  | act hobj hacts hstep =>
    refine objectStep_of_set hobj hstep ?_ h rfl (hmap _ _)
    intro hlabel
    rw [hacts.label_spec.1] at hlabel
    cases hlabel
  | data hobj hlabel hstep _ => exact objectStep_of_set hobj hstep (fun _ => rfl) h rfl (hmap _ _)
  | enlist hobj hlabel hstep _ => exact objectStep_of_set hobj hstep (fun _ => rfl) h rfl (hmap _ _)
  | pop _ _ hobj hstep => exact objectStep_of_set hobj hstep nofun h rfl hnone
  | unlist _ hobj _ hstep => exact objectStep_of_set hobj hstep nofun h rfl hnone
  | relist _ hobj _ hstep => exact objectStep_of_set hobj hstep nofun h rfl hnone
  | create _ =>
    refine ⟨s, ?_, .inl ⟨rfl, hnil⟩⟩
    exact (List.getElem?_append_left (List.getElem?_eq_some_iff.1 h).1).trans h
  | insert _ => exact hsame insert_objects hnil
  | remove _ => exact hsame remove_objects hnil

/-- Every object has made a run of its own machine. -/
theorem object_reachable {s : SocketState} (hr : filterMachine.Reachable .start w)
    (h : w.objects[object]? = some s) : ∃ id size, socketMachine.Reachable (SocketState.start id size) s := by
  have hinv := hr.invariant (I := fun w : FilterState => ∀ (object : Nat) s, w.objects[object]? = some s →
    ∃ id size, socketMachine.Reachable (SocketState.start id size) s) ?_ ?_
  · exact hinv object s h
  · intro object s h
    cases h
  · intro w a w' e hI hs object s' h
    rcases (FilterState.step_inv hs).object_inv h with ⟨s, hobj, hadv⟩ | ⟨-, attach, rfl⟩
    · obtain ⟨id, size, hreach⟩ := hI object s hobj
      rcases hadv with rfl | ⟨label, e, hstep⟩
      · exact ⟨id, size, hreach⟩
      · exact ⟨id, size, hreach.step hstep⟩
    · exact ⟨_, _, .refl⟩

/-! ### Objects whose `FltDetach` has begun -/

def DetachBegun (w : FilterState) : Prop :=
  ∀ thread step object resume, w.threads thread = .detach step object resume → object ∈ w.detaching

theorem detaching_mono (hs : FilterStep w a w' e) (h : object ∈ w.detaching) : object ∈ w'.detaching := by
  cases hs with
  | move _ _ hsame => exact hsame.detaching ▸ h
  | begin _ _ hsame => exact hsame.detaching ▸ List.mem_cons_of_mem _ h
  | detached _ _ hsame => exact hsame.detaching ▸ h
  | attached _ hsame => exact hsame.detaching ▸ h
  | insert _ =>
    unfold FilterState.insertInSocketsList
    split <;> exact h
  | remove _ =>
    unfold FilterState.removeFromSocketsList
    split <;> exact h
  | _ => exact h

/-- The thread has gone from one step of `FltDetach` to the next, or to something else. -/
theorem DetachBegun.update (hD : DetachBegun w) (hmono : ∀ object, object ∈ w.detaching → object ∈ w'.detaching)
    (hthreads : w'.threads = Function.update w.threads thread phase)
    (hphase : ∀ step object resume, phase = .detach step object resume →
      (∃ step', w.threads thread = .detach step' object resume) ∨ object ∈ w'.detaching) :
    DetachBegun w' := by
  intro thread' step object resume h
  rw [hthreads] at h
  by_cases hne : thread' = thread
  · subst hne
    rw [Function.update_self] at h
    rcases hphase step object resume h with ⟨step', hold⟩ | hin
    · exact hmono object (hD thread' step' object resume hold)
    · exact hin
  · rw [Function.update_of_ne hne] at h
    exact hmono object (hD thread' step object resume h)

theorem DetachBegun.step (hD : DetachBegun w) (hs : FilterStep w a w' e) : DetachBegun w' := by
  have hmono := fun object => @detaching_mono w w' a e object hs
  cases hs with
  | nothing => exact hD
  | move _ hmove _ hthreads _ =>
    refine hD.update hmono hthreads ?_
    rintro step object resume rfl
    generalize w.threads _ = p at hmove
    cases hmove with
    | detach _ => exact .inl ⟨_, rfl⟩
  | @begin _ _ thread object phase _ hbegins hsame hthreads =>
    refine hD.update hmono hthreads ?_
    rintro step object' resume rfl
    have hin : object ∈ w'.detaching := hsame.detaching ▸ List.mem_cons_self ..
    cases hbegins with
    | called => exact .inr hin
    | forced => exact .inr hin
  | detached _ hphase _ hthreads _ =>
    refine hD.update hmono hthreads ?_
    rintro step object resume rfl
    rcases hphase with h | ⟨attach, -, h⟩ <;> cases h
  | attached _ _ hthreads _ => exact hD.update hmono hthreads nofun
  | act _ hacts _ =>
    refine hD.update hmono rfl ?_
    rintro step object resume rfl
    generalize w.threads _ = p at hacts
    cases hacts with
    | decrement => exact .inl ⟨_, rfl⟩
    | purgeAll => exact .inl ⟨_, rfl⟩
  | data => exact hD
  | enlist => exact hD
  | pop => exact hD.update hmono rfl nofun
  | unlist hp =>
    refine hD.update hmono rfl ?_
    intro step object resume h
    cases h
    exact .inl ⟨_, hp⟩
  | relist => exact hD.update hmono rfl nofun
  | create => exact hD.update hmono rfl nofun
  | insert =>
    refine hD.update hmono insert_threads ?_
    intro step object resume h
    cases h
  | remove hp =>
    refine hD.update hmono remove_threads ?_
    intro step object resume h
    cases h
    exact .inl ⟨_, hp⟩

theorem detachBegun_of_reachable (hr : filterMachine.Reachable .start w) : DetachBegun w := by
  refine hr.invariant ?_ fun _ _ _ _ hD hs => hD.step (FilterState.step_inv hs)
  intro thread step object resume h
  cases h

end NkeFilter
