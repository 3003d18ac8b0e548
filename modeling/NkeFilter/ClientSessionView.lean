import NkeFilter.ClientLifetime

/-!
# What a step does to sessions

The part of the state that decides who can have which client: the references, where the threads are, and which
clients are terminated. `SessionStep` lists what a step can do to it, and every step of the machine does one of
these things while the calls of one client do not overlap (`isSession_of_step`).
-/

namespace NkeFilter
open Lib

section View
variable {T C : Type*}

structure SessionView (T C : Type*) where
  refs : ClientRefName → UserClientState T C
  programs : T → ClientProgram C
  inactive : C → Bool
  fProvider : C → Bool

def LifetimeState.view (s : LifetimeState T C) : SessionView T C where
  refs := s.refs
  programs := s.programs
  inactive c := (s.clients c).inactive
  fProvider c := (s.clients c).fProvider

/-- What a function of a reference did. -/
def LifetimeEvent.refEvent : LifetimeEvent C → Option (ClientRefName × UserClientEvent C)
  | .ref which event => some (which, event)
  | _ => none

/-- `open`, `clientClose` and `terminate` of one client do not overlap, and IOKit keeps its reference to a client
while the client is in one of them. Neither `clientMemoryForType` nor `registerNotificationPort` meets a pointer
that `stop` has given back and not cleared yet. -/
def CallsApart (s : LifetimeState T C) : LifetimeLabel T C → Prop
  | .callOpen _ c | .callClientClose _ c | .callTerminate _ c | .finalize c =>
    ∀ t, (s.programs t).calling ≠ some c
  | .clientMemoryForType c type => (s.clients c).stage ≠ .stopping type .clearSharedMemory
  | .registerNotificationPort c _ type => (s.clients c).stage ≠ .stopping type .clearDataQueue
  | _ => True

/-- The increment of a thread does not wrap. -/
def FewClientInvocations (s : LifetimeState T C) (l : LifetimeLabel T C) : Prop :=
  ∀ t, l = .run t → ∀ which, FewInvocations (s.refs which) (.access t)

namespace SessionView
variable [DecidableEq T]

def setProgram (v : SessionView T C) (t : T) (program : ClientProgram C) : SessionView T C :=
  { v with programs := Function.update v.programs t program }

def setRef (v : SessionView T C) (which : ClientRefName) (ref : UserClientState T C) : SessionView T C :=
  { v with refs := Function.update v.refs which ref }

variable {v : SessionView T C} {t u : T} {program : ClientProgram C} {which which' : ClientRefName}
  {ref : UserClientState T C}

@[simp] theorem setProgram_self : (v.setProgram t program).programs t = program := Function.update_self ..

theorem setProgram_of_ne (hne : u ≠ t) : (v.setProgram t program).programs u = v.programs u :=
  Function.update_of_ne hne ..

omit [DecidableEq T] in
@[simp] theorem setRef_self : (v.setRef which ref).refs which = ref := Function.update_self ..

omit [DecidableEq T] in
theorem setRef_of_ne (hne : which' ≠ which) : (v.setRef which ref).refs which' = v.refs which' :=
  Function.update_of_ne hne ..

variable [DecidableEq C] {c c' : C}

def terminate (v : SessionView T C) (c : C) : SessionView T C :=
  { v with inactive := Function.update v.inactive c true }

def clearProvider (v : SessionView T C) (c : C) : SessionView T C :=
  { v with fProvider := Function.update v.fProvider c false }

omit [DecidableEq T] in
@[simp] theorem terminate_self : (v.terminate c).inactive c = true := Function.update_self ..

omit [DecidableEq T] in
theorem terminate_of_ne (hne : c' ≠ c) : (v.terminate c).inactive c' = v.inactive c' :=
  Function.update_of_ne hne ..

omit [DecidableEq T] in
theorem clearProvider_of_ne (hne : c' ≠ c) : (v.clearProvider c).fProvider c' = v.fProvider c' :=
  Function.update_of_ne hne ..

end SessionView

/-- The stages of `clientClose` before the first reference. -/
def CloseStage.early : CloseStage → Bool
  | close | closeProvider | clearPort => true
  | _ => false

variable [DecidableEq T] [DecidableEq C]

inductive SessionStep (v : SessionView T C) :
    SessionView T C → List (ClientRefName × UserClientEvent C) → Prop
  | stutter : SessionStep v v []
  | callOpen {t : T} {c : C} : v.programs t = .outside → (v.refs .gSocketFilter).threads t = .idle →
      (∀ u, (v.programs u).calling ≠ some c) → SessionStep v (v.setProgram t (.opening c .isInactive)) []
  | callClose {t : T} {c : C} {stage : CloseStage} {clientClose : Bool} : v.programs t = .outside →
      (v.refs .gSocketFilter).threads t = .idle → (∀ u, (v.programs u).calling ≠ some c) → stage.early →
      SessionStep v (v.setProgram t (.closing c stage clientClose)) []
  | notify {t : T} {c : C} : v.programs t = .outside → (v.refs .gSocketFilter).threads t = .holding c →
      SessionStep v (v.setProgram t (.notifying c .checkPort)) []
  | notifying {t : T} {c : C} {stage stage' : NotifyStage} : v.programs t = .notifying c stage →
      SessionStep v (v.setProgram t (.notifying c stage')) []
  | notified {t : T} {c : C} {stage : NotifyStage} : v.programs t = .notifying c stage →
      SessionStep v (v.setProgram t .outside) []
  | isActive {t : T} {c : C} : v.programs t = .opening c .isInactive → v.inactive c = false →
      SessionStep v (v.setProgram t (.opening c .openProvider)) []
  | providerOpened {t : T} {c : C} : v.programs t = .opening c .openProvider →
      SessionStep v (v.setProgram t (.opening c .registerService)) []
  | openFailed {t : T} {c : C} {stage : OpenStage} : v.programs t = .opening c stage →
      (v.programs t).refCall = none → SessionStep v (v.setProgram t .outside) []
  | closing {t : T} {c : C} {stage stage' : CloseStage} {clientClose : Bool} :
      v.programs t = .closing c stage clientClose → stage.early → stage'.early ∨ stage' = .unregisterSocket →
      SessionStep v (v.setProgram t (.closing c stage' clientClose)) []
  | terminated {t : T} {c : C} {clientClose : Bool} : v.programs t = .closing c .superTerminate clientClose →
      SessionStep v
        ((v.terminate c).setProgram t (if clientClose then .closing c .clearProvider clientClose else .outside)) []
  | closed {t : T} {c : C} {clientClose : Bool} : v.programs t = .closing c .clearProvider clientClose →
      SessionStep v ((v.clearProvider c).setProgram t .outside) []
  /-- `getUserClient` or `releaseUserClient` -/
  | borrow {l : UserClientLabel T C} {ref : UserClientState T C} {e : List (UserClientEvent C)} :
      v.programs l.thread = .outside →
      (∀ t call, l = .call t call → call = .getUserClient ∨ call = .releaseUserClient) →
      FewInvocations (v.refs .gSocketFilter) l →
      (userClientMachine T C).step (v.refs .gSocketFilter) l = some (ref, e) →
      SessionStep v (v.setRef .gSocketFilter ref) (e.map fun event => (.gSocketFilter, event))
  | enter {t : T} {which : ClientRefName} {call : UserClientCall C} {ref : UserClientState T C}
      {e : List (UserClientEvent C)} :
      (v.programs t).refCall = some (which, call) → (v.refs which).threads t = .idle →
      (userClientMachine T C).step (v.refs which) (.call t call) = some (ref, e) →
      SessionStep v (v.setRef which ref) (e.map fun event => (which, event))
  | inside {t : T} {which : ClientRefName} {call : UserClientCall C} {ref : UserClientState T C}
      {e : List (UserClientEvent C)} :
      (v.programs t).refCall = some (which, call) → FewInvocations (v.refs which) (.access t) →
      (userClientMachine T C).step (v.refs which) (.access t) = some (ref, e) →
      e.findSome? UserClientEvent.result = none →
      SessionStep v (v.setRef which ref) (e.map fun event => (which, event))
  | returned {t : T} {which : ClientRefName} {call : UserClientCall C} {ref : UserClientState T C}
      {e : List (UserClientEvent C)} {RC : RegistrationResult} :
      (v.programs t).refCall = some (which, call) → FewInvocations (v.refs which) (.access t) →
      (userClientMachine T C).step (v.refs which) (.access t) = some (ref, e) →
      e.findSome? UserClientEvent.result = some RC →
      SessionStep v ((v.setRef which ref).setProgram t ((v.programs t).returned RC).1)
        (e.map fun event => (which, event))

end View

/-! ### The steps of the machine -/

section Step
variable {T C : Type*} [DecidableEq C] {s s' : LifetimeState T C} {t : T} {c : C} {e : List (LifetimeEvent C)}

namespace LifetimeState

/-- Nobody moves, and no event is one of a reference. -/
def Stutters (s : LifetimeState T C) (r : LifetimeState T C × List (LifetimeEvent C)) : Prop :=
  r.1.view = s.view ∧ r.2.filterMap LifetimeEvent.refEvent = []

theorem view_setClient {client : ClientObject T} (hinactive : client.inactive = (s.clients c).inactive)
    (hprovider : client.fProvider = (s.clients c).fProvider) : (s.setClient c client).view = s.view := by
  simp only [view, setClient, SessionView.mk.injEq, true_and]
  constructor
  · funext c'
    by_cases heq : c' = c
    · subst heq
      rw [Function.update_self, hinactive]
    · rw [Function.update_of_ne heq]
  · funext c'
    by_cases heq : c' = c
    · subst heq
      rw [Function.update_self, hprovider]
    · rw [Function.update_of_ne heq]

theorem view_terminate :
    (s.setClient c { s.clients c with inactive := true }).view = s.view.terminate c := by
  simp only [view, setClient, SessionView.terminate, SessionView.mk.injEq, true_and]
  constructor
  · funext c'
    exact Function.apply_update (fun _ => fun client : ClientObject T => client.inactive) s.clients c _ c'
  · funext c'
    by_cases heq : c' = c
    · subst heq
      rw [Function.update_self]
    · rw [Function.update_of_ne heq]

theorem view_clearProvider :
    (s.setClient c { s.clients c with fProvider := false }).view = s.view.clearProvider c := by
  simp only [view, setClient, SessionView.clearProvider, SessionView.mk.injEq, true_and]
  constructor
  · funext c'
    by_cases heq : c' = c
    · subst heq
      rw [Function.update_self]
    · rw [Function.update_of_ne heq]
  · funext c'
    exact Function.apply_update (fun _ => fun client : ClientObject T => client.fProvider) s.clients c _ c'

theorem view_closeProvider : (s.closeProvider c).view = s.view := by
  unfold closeProvider
  split <;> rfl

theorem view_close : (s.close c).view = s.view := by
  unfold close
  split
  · rfl
  · exact Eq.trans (view_setClient (s := s.closeProvider c) rfl rfl) view_closeProvider

theorem view_freeAccess {type : NkeNotifyType} {access : FreeAccess} (h : s.freeAccess c type access = some s') :
    s'.view = s.view := by
  unfold freeAccess at h
  split at h
  · cases h
  · obtain ⟨⟨queue, heap⟩, -, rfl⟩ := Option.map_eq_some_iff.1 h
    exact view_setClient (s := s) rfl rfl

theorem view_freeAllocatedResources (h : s.freeAllocatedResources c = some s') : s'.view = s.view := by
  unfold freeAllocatedResources at h
  split at h
  · cases h
  · obtain ⟨⟨queues, heap⟩, -, rfl⟩ := Option.map_eq_some_iff.1 h
    exact view_setClient (s := s) rfl rfl

theorem stutters_retain : s.Stutters (s.retain c) := by
  unfold retain
  split
  · exact ⟨rfl, rfl⟩
  · exact ⟨view_setClient rfl rfl, rfl⟩

theorem stutters_release : s.Stutters (s.release c) := by
  unfold release
  split
  · exact ⟨rfl, rfl⟩
  · have hview : (s.setClient c { s.clients c with retainCount := (s.clients c).retainCount - 1 }).view = s.view :=
      view_setClient rfl rfl
    dsimp only
    split
    · exact ⟨hview, rfl⟩
    · split
      · exact ⟨hview, rfl⟩
      · next hfree => exact ⟨(view_freeAllocatedResources hfree).trans hview, rfl⟩

theorem stutters_handleEvent (event : UserClientEvent C) : s.Stutters (s.handleEvent event) := by
  unfold handleEvent
  split
  · exact stutters_retain
  · exact stutters_release
  · exact ⟨rfl, rfl⟩

theorem stutters_handle (events : List (UserClientEvent C)) : s.Stutters (s.handle events) := by
  induction events generalizing s with
  | nil => exact ⟨rfl, rfl⟩
  | cons event events ih =>
    obtain ⟨hview, hevents⟩ := stutters_handleEvent (s := s) event
    obtain ⟨hview', hevents'⟩ := ih (s := (s.handleEvent event).1)
    refine ⟨hview'.trans hview, ?_⟩
    rw [handle, List.filterMap_append, hevents, hevents', List.append_nil]

variable [DecidableEq T]

theorem stepRef_inv {which : ClientRefName} {label : UserClientLabel T C} {events : List (UserClientEvent C)}
    (hs : s.stepRef which label = some (s', events, e)) :
    ∃ ref, (userClientMachine T C).step (s.refs which) label = some (ref, events) ∧
      s'.view = s.view.setRef which ref ∧
      e.filterMap LifetimeEvent.refEvent = events.map fun event => (which, event) := by
  obtain ⟨⟨ref, events'⟩, href, heq⟩ := Option.map_eq_some_iff.1 hs
  cases heq
  obtain ⟨hview, hevents⟩ := stutters_handle (s := s.setRef which ref) events
  refine ⟨ref, href, hview, ?_⟩
  rw [List.filterMap_append, hevents, List.append_nil, List.filterMap_map, ← List.filterMap_eq_map]
  rfl

/-- The step is one of those of the sessions. -/
def IsSession (s : LifetimeState T C) (r : LifetimeState T C × List (LifetimeEvent C)) : Prop :=
  SessionStep s.view r.1.view (r.2.filterMap LifetimeEvent.refEvent)

variable {r : LifetimeState T C × List (LifetimeEvent C)}

theorem Stutters.isSession (h : s.Stutters r) : s.IsSession r := by
  unfold IsSession
  rw [h.1, h.2]
  exact .stutter

/-- Nobody moves but one thread, and no function of a reference does anything. -/
theorem isSession_setProgram {program : ClientProgram C} (hview : s'.view = s.view)
    (he : e.filterMap LifetimeEvent.refEvent = []) (h : SessionStep s.view (s.view.setProgram t program) []) :
    s.IsSession (s'.setProgram t program, e) := by
  unfold IsSession
  rw [he]
  have hset : (s'.setProgram t program).view = s.view.setProgram t program := by
    rw [← hview]
    rfl
  rwa [hset]

theorem isSession_runRef {which : ClientRefName} {call : UserClientCall C}
    (hcall : (s.programs t).refCall = some (which, call)) (hfew : FewInvocations (s.refs which) (.access t))
    (hs : s.runRef t which call = some r) :
    s.IsSession r := by
  unfold runRef at hs
  split at hs
  · next hidle =>
    obtain ⟨⟨s', events, e⟩, hstep, rfl⟩ := Option.map_eq_some_iff.1 hs
    obtain ⟨ref, href, hview, hevents⟩ := stepRef_inv hstep
    unfold IsSession
    rw [hview, hevents]
    exact .enter hcall hidle href
  · obtain ⟨⟨s', events, e⟩, hstep, heq⟩ := Option.map_eq_some_iff.1 hs
    obtain ⟨ref, href, hview, hevents⟩ := stepRef_inv hstep
    have hprograms : s'.programs = s.programs := congrArg SessionView.programs hview
    unfold IsSession
    cases hresult : events.findSome? UserClientEvent.result with
    | none =>
      simp only [hresult] at heq
      subst heq
      rw [hview, hevents]
      exact .inside hcall hfew href hresult
    | some RC =>
      simp only [hresult] at heq
      subst heq
      have hnone : ((s'.programs t).returned RC).2.filterMap LifetimeEvent.refEvent = [] := by
        cases s'.programs t with
        | outside | notifying => rfl
        | opening _ stage => cases stage <;> cases RC <;> rfl
        | closing _ stage => cases stage <;> rfl
      have hset : (s'.setProgram t ((s'.programs t).returned RC).1).view =
          (s.view.setRef which ref).setProgram t ((s.programs t).returned RC).1 := by
        rw [← hview, hprograms]
        rfl
      rw [List.filterMap_append, hevents, hnone, List.append_nil, hset]
      exact .returned hcall hfew href hresult

theorem isSession_runNotification {stage : NotifyStage} (hp : s.programs t = .notifying c stage)
    (hs : s.runNotification t c stage = some r) : s.IsSession r := by
  have hleft : ∀ {s' : LifetimeState T C} {e : List (LifetimeEvent C)}, s'.view = s.view →
      e.filterMap LifetimeEvent.refEvent = [] →
      s.IsSession (s'.setProgram t .outside, e) :=
    fun hview he => isSession_setProgram hview he (.notified hp)
  have hnext : ∀ {s' : LifetimeState T C} {e : List (LifetimeEvent C)} {stage' : NotifyStage},
      s'.view = s.view → e.filterMap LifetimeEvent.refEvent = [] →
      s.IsSession (s'.setProgram t (.notifying c stage'), e) :=
    fun hview he => isSession_setProgram hview he (.notifying hp)
  have hpanic : s.IsSession (s, [.panic]) := Stutters.isSession ⟨rfl, rfl⟩
  cases stage with
  | checkPort =>
    simp only [runNotification] at hs
    split at hs <;> cases hs
    · exact hleft rfl rfl
    · exact hnext rfl rfl
  | lock =>
    simp only [runNotification] at hs
    split at hs
    · cases hs
      exact hpanic
    · split at hs <;> cases hs
      exact hnext (view_setClient rfl rfl) rfl
  | enqueue =>
    simp only [runNotification] at hs
    split at hs <;> cases hs
    · exact hpanic
    · exact hnext rfl rfl
  | unlock =>
    simp only [runNotification] at hs
    split at hs <;> cases hs
    · exact hpanic
    · exact hleft (view_setClient rfl rfl) rfl

theorem isSession_runOpen {stage : OpenStage} (hp : s.programs t = .opening c stage)
    (hs : s.runOpen t c stage = some r) : s.IsSession r := by
  have hpanic : s.IsSession (s, [.panic]) := Stutters.isSession ⟨rfl, rfl⟩
  cases stage with
  | isInactive =>
    have hnone : (s.view.programs t).refCall = none := congrArg ClientProgram.refCall hp
    simp only [runOpen] at hs
    split at hs <;> cases hs
    · exact isSession_setProgram rfl rfl (.openFailed hp hnone)
    · next hactive => exact isSession_setProgram rfl rfl (.isActive hp (Bool.eq_false_iff.2 hactive))
  | openProvider =>
    have hnone : (s.view.programs t).refCall = none := congrArg ClientProgram.refCall hp
    simp only [runOpen] at hs
    split at hs
    · cases hs
      exact hpanic
    · split at hs <;> cases hs
      · exact isSession_setProgram rfl rfl (.openFailed hp hnone)
      · have hview : ({ s with owner := some c } : LifetimeState T C).view = s.view := rfl
        exact isSession_setProgram hview rfl (.providerOpened hp)
  | registerService | registerSocket | unregisterSocket => cases hs

theorem isSession_runClose {stage : CloseStage} {clientClose : Bool}
    (hp : s.programs t = .closing c stage clientClose) (hs : s.runClose t c clientClose stage = some r) :
    s.IsSession r := by
  cases stage with
  | close =>
    cases hs
    refine isSession_setProgram ?_ rfl (.closing hp rfl (.inl rfl))
    split
    · exact view_close.trans view_closeProvider
    · rfl
  | closeProvider =>
    cases hs
    exact isSession_setProgram view_closeProvider rfl (.closing hp rfl (.inl rfl))
  | clearPort =>
    cases hs
    exact isSession_setProgram (view_setClient rfl rfl) rfl (.closing hp rfl (.inr rfl))
  | superTerminate =>
    cases hs
    have hset : ((s.setClient c { s.clients c with inactive := true }).setProgram t
          (if clientClose then .closing c .clearProvider clientClose else .outside)).view =
        (s.view.terminate c).setProgram t
          (if clientClose then .closing c .clearProvider clientClose else .outside) := by
      rw [← view_terminate]
      rfl
    rw [IsSession, hset]
    exact .terminated hp
  | clearProvider =>
    cases hs
    have hset : ((s.setClient c { s.clients c with fProvider := false }).setProgram t .outside).view =
        (s.view.clearProvider c).setProgram t .outside := by
      rw [← view_clearProvider]
      rfl
    rw [IsSession, hset]
    exact .closed hp
  | unregisterSocket | unregisterService => cases hs

theorem isSession_run (hfew : ∀ which, FewInvocations (s.refs which) (.access t)) (hs : s.run t = some r) :
    s.IsSession r := by
  unfold run at hs
  split at hs
  · cases hs
    exact Stutters.isSession ⟨rfl, rfl⟩
  · split at hs
    · next hcall => exact isSession_runRef hcall (hfew _) hs
    · split at hs
      · next hp =>
        obtain ⟨⟨s', events, e⟩, hstep, rfl⟩ := Option.map_eq_some_iff.1 hs
        obtain ⟨ref, href, hview, hevents⟩ := stepRef_inv hstep
        rw [IsSession, hview, hevents]
        exact .borrow (l := .access t) hp (fun _ _ heq => by cases heq) (hfew _) href
      · next hp => exact isSession_runNotification hp hs
      · next hp => exact isSession_runOpen hp hs
      · next hp => exact isSession_runClose hp hs

/-- No call starts with the increment. -/
theorem few_of_call {ref ref' : UserClientState T C} {call : UserClientCall C}
    {events : List (UserClientEvent C)}
    (hs : (userClientMachine T C).step ref (.call t call) = some (ref', events)) :
    FewInvocations ref (.call t call) := by
  obtain ⟨a, henter, -⟩ := Option.map_eq_some_iff.1 hs
  intro hincrement
  have hthread : ref.threads t = .increment := hincrement
  rw [hthread] at henter
  cases call <;> cases henter

/-- A call of `getUserClient` or `releaseUserClient`. -/
theorem isSession_borrow {call : UserClientCall C} (hcall : call = .getUserClient ∨ call = .releaseUserClient)
    (hs : (if s.programs t = .outside then
      (s.stepRef .gSocketFilter (.call t call)).map fun (s, _, e) => (s, e) else none) = some r) :
    s.IsSession r := by
  split at hs
  · next hp =>
    obtain ⟨⟨s', events, e⟩, hstep, rfl⟩ := Option.map_eq_some_iff.1 hs
    obtain ⟨ref, href, hview, hevents⟩ := stepRef_inv hstep
    rw [IsSession, hview, hevents]
    refine .borrow (l := .call t call) hp ?_ (few_of_call href) href
    intro _ _ heq
    obtain ⟨-, rfl⟩ := UserClientLabel.call.inj heq
    exact hcall
  · cases hs

/-- The step of one resource function, if it neither moves a thread nor terminates a client. -/
theorem isSession_of_view (hview : s'.view = s.view) (he : e.filterMap LifetimeEvent.refEvent = []) :
    s.IsSession (s', e) := Stutters.isSession ⟨hview, he⟩

theorem call_inv {program : ClientProgram C} (hs : s.call t c program = some r) :
    s.programs t = .outside ∧ (s.refs .gSocketFilter).threads t = .idle ∧ s.Callable c ∧
      r = (s.setProgram t program, []) := by
  unfold call at hs
  split at hs
  · next h =>
    cases hs
    exact ⟨h.1, h.2.1, h.2.2, rfl⟩
  · cases hs

/-- Every step is one of those of the sessions. -/
theorem isSession_of_step {l : LifetimeLabel T C} (hapart : CallsApart s l) (hfew : FewClientInvocations s l)
    (hs : (lifetimeMachine T C).step s l = some r) : s.IsSession r := by
  have hs : s.step l = some r := hs
  cases l with
  | newUserClient c outcome =>
    simp only [step] at hs
    split at hs
    · cases hs
    · split at hs <;> cases hs
      · exact isSession_of_view rfl rfl
      · exact isSession_of_view rfl rfl
      · exact isSession_of_view (view_setClient (s := s) rfl rfl) rfl
  | callOpen t c =>
    obtain ⟨hout, hidle, -, rfl⟩ := call_inv hs
    exact isSession_setProgram rfl rfl (.callOpen hout hidle hapart)
  | callClose c =>
    simp only [step] at hs
    split at hs <;> cases hs
    exact isSession_of_view view_close rfl
  | callClientClose t c =>
    obtain ⟨hout, hidle, -, rfl⟩ := call_inv hs
    exact isSession_setProgram rfl rfl (.callClose hout hidle hapart rfl)
  | callTerminate t c =>
    obtain ⟨hout, hidle, -, rfl⟩ := call_inv hs
    exact isSession_setProgram rfl rfl (.callClose hout hidle hapart rfl)
  | registerNotificationPort c port type =>
    simp only [step] at hs
    split at hs
    · cases hs
    · split at hs
      · cases hs
        exact isSession_of_view rfl rfl
      · split at hs <;> cases hs
        · exact isSession_of_view rfl rfl
        · exact isSession_of_view (view_setClient rfl rfl) rfl
  | clientMemoryForType c type =>
    simp only [step] at hs
    split at hs
    · cases hs
    · split at hs
      · cases hs
        exact isSession_of_view rfl rfl
      · split at hs
        · cases hs
          exact isSession_of_view rfl rfl
        · split at hs <;> cases hs <;> exact isSession_of_view rfl rfl
  | unmap id =>
    simp only [step] at hs
    split at hs
    · cases hs
    · split at hs <;> cases hs <;> exact isSession_of_view rfl rfl
  | getUserClient t => exact isSession_borrow (.inl rfl) hs
  | releaseUserClient t => exact isSession_borrow (.inr rfl) hs
  | socketFilterNotification t =>
    simp only [step] at hs
    split at hs
    · next hout hhas =>
      cases hs
      exact isSession_setProgram rfl rfl (.notify hout hhas)
    · cases hs
  | run t => exact isSession_run (hfew t rfl) hs
  | stop c =>
    simp only [step] at hs
    split at hs
    · split at hs <;> cases hs
      exact isSession_of_view (view_setClient rfl rfl) rfl
    · split at hs <;> cases hs
      · exact isSession_of_view rfl rfl
      · next hfree => exact isSession_of_view (view_freeAccess hfree) rfl
    · cases hs
  | finalize c =>
    simp only [step] at hs
    split at hs
    · cases hs
      obtain ⟨hview, he⟩ :=
        stutters_release (s := s.setClient c { s.clients c with stage := .finalized }) (c := c)
      exact isSession_of_view (hview.trans (view_setClient rfl rfl)) he
    · cases hs

end LifetimeState

end Step

end NkeFilter
