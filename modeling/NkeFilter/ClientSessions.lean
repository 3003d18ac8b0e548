import NkeFilter.ClientRegistration
import NkeFilter.ClientSessionView

/-!
# Sessions that do not overlap

Who is registered and who has which client, while the calls of one client do not overlap (`Sessions`): a client
is put into each reference once at most, and nobody has a client any more when `terminate` has taken it out of
`gSocketFilter`, not when it takes it out itself, and not when the client was out already. A step of one thread
and a step of one reference keep that (`Sessions.move`, `Sessions.stepRef`).
-/

namespace NkeFilter
open Lib

/-! ### What every state keeps -/

section Sessions
variable {T C : Type*}

namespace ClientProgram

/-- The access a thread can be at in a reference. -/
def Within (which : ClientRefName) (p : ClientProgram C) (a : UserClientAccess C) : Prop :=
  match p with
  | outside => if which = .gSocketFilter then a.registration = none else a = .idle
  | notifying client _ => a = if which = .gSocketFilter then .holding client else .idle
  | p => a = .idle ∨ ∃ call, p.refCall = some (which, call) ∧ a.registration = some call

/-- `terminate` of the client is behind its unregistration. -/
def Left (which : ClientRefName) (c : C) : ClientProgram C → Prop
  | closing client .unregisterService _ => client = c ∧ which = .gSocketFilter
  | closing client .superTerminate _ => client = c
  | _ => False

variable {which : ClientRefName} {p : ClientProgram C} {a : UserClientAccess C} {c : C}

theorem calling_of_left (h : p.Left which c) : p.calling = some c := by
  cases p with
  | closing client stage =>
    cases stage with
    | unregisterService => exact congrArg some h.1
    | superTerminate => exact congrArg some h
    | _ => exact h.elim
  | _ => exact h.elim

theorem Within.refCall {call : UserClientCall C} (h : p.Within which a) (hcall : a.registration = some call) :
    p.refCall = some (which, call) := by
  have hidle : a ≠ .idle := by
    rintro rfl
    cases hcall
  have hin : (∃ call, p.refCall = some (which, call) ∧ a.registration = some call) →
      p.refCall = some (which, call) := by
    rintro ⟨call', hp, ha⟩
    rw [hp, Option.some.inj (ha.symm.trans hcall)]
  cases p with
  | outside =>
    simp only [Within] at h
    split at h
    · rw [h] at hcall
      cases hcall
    · exact absurd h hidle
  | notifying client _ =>
    simp only [Within] at h
    split at h
    · rw [h] at hcall
      cases hcall
    · exact absurd h hidle
  | opening | closing => exact hin (h.resolve_left hidle)

/-- Who registers a client is in `open`. -/
theorem opening_of_refCall (h : p.refCall = some (which, .registerUserClient c)) :
    (p = .opening c .registerService ∧ which = .gServiceUserClient) ∨
      (p = .opening c .registerSocket ∧ which = .gSocketFilter) := by
  cases p with
  | opening client stage =>
    cases stage with
    | registerService =>
      obtain ⟨rfl, rfl⟩ := by simpa [ClientProgram.refCall] using h
      exact .inl ⟨rfl, rfl⟩
    | registerSocket =>
      obtain ⟨rfl, rfl⟩ := by simpa [ClientProgram.refCall] using h
      exact .inr ⟨rfl, rfl⟩
    | _ => simp [ClientProgram.refCall] at h
  | closing client stage => cases stage <;> simp [ClientProgram.refCall] at h
  | _ => cases h

theorem calling_of_refCall {call : UserClientCall C} (h : p.refCall = some (which, call))
    (hcall : call = .registerUserClient c ∨ call = .unregisterUserClient c) : p.calling = some c := by
  cases p with
  | opening client stage => cases stage <;> simp [ClientProgram.refCall] at h <;> grind [ClientProgram.calling]
  | closing client stage => cases stage <;> simp [ClientProgram.refCall] at h <;> grind [ClientProgram.calling]
  | _ => cases h

/-- The only unregistration from the service is that of `terminate`. -/
theorem closing_of_refCall (h : p.refCall = some (.gServiceUserClient, .unregisterUserClient c)) :
    ∃ clientClose, p = .closing c .unregisterService clientClose := by
  cases p with
  | opening client stage => cases stage <;> simp [ClientProgram.refCall] at h
  | closing client stage clientClose =>
    cases stage with
    | unregisterService =>
      obtain rfl : client = c := by simpa [ClientProgram.refCall] using h
      exact ⟨clientClose, rfl⟩
    | _ => simp [ClientProgram.refCall] at h
  | _ => cases h

end ClientProgram

/-- What happened in one of the references. -/
def eventsOf (which : ClientRefName) (h : List (ClientRefName × UserClientEvent C)) :
    List (UserClientEvent C) :=
  h.filterMap fun x => if x.1 = which then some x.2 else none

theorem eventsOf_append (which : ClientRefName) (h e : List (ClientRefName × UserClientEvent C)) :
    eventsOf which (h ++ e) = eventsOf which h ++ eventsOf which e := List.filterMap_append

theorem eventsOf_self (which : ClientRefName) (e : List (UserClientEvent C)) :
    eventsOf which (e.map fun event => (which, event)) = e := by
  simp [eventsOf, List.filterMap_map]

theorem eventsOf_other {which which' : ClientRefName} (hne : which ≠ which') (e : List (UserClientEvent C)) :
    eventsOf which' (e.map fun event => (which, event)) = [] := by
  simp [eventsOf, hne]

/-- `terminate` has taken the client out of the reference. -/
def SessionView.Left (v : SessionView T C) (which : ClientRefName) (c : C) : Prop :=
  v.inactive c = true ∨ ∃ t, (v.programs t).Left which c

/-- A thread will put the client into `gSocketFilter` if nobody is in its way. -/
def SessionView.Registering (v : SessionView T C) (t : T) (c : C) : Prop :=
  (v.programs t = .opening c .registerService ∧ (v.refs .gServiceUserClient).threads t = .retain c) ∨
    (v.programs t = .opening c .registerSocket ∧ ((v.refs .gSocketFilter).threads t = .idle ∨
      (v.refs .gSocketFilter).threads t = .checkPending c ∨ (v.refs .gSocketFilter).threads t = .swapIn c))

variable [DecidableEq C]

/-- Where the threads are, who is registered and who was. -/
structure Sessions (v : SessionView T C) (h : List (ClientRefName × UserClientEvent C)) : Prop where
  within : ∀ which t, (v.programs t).Within which ((v.refs which).threads t)
  apart : ∀ t u c, (v.programs t).calling = some c → (v.programs u).calling = some c → t = u
  active : ∀ t c stage, v.programs t = .opening c stage → stage ≠ .isInactive → v.inactive c = false
  clearing : ∀ t c clientClose, v.programs t = .closing c .clearProvider clientClose → v.inactive c = true
  fProvider : ∀ c, v.fProvider c = false → v.inactive c = true
  handedOut : ∀ which, HandedOut (v.refs which) (eventsOf which h)
  once : ∀ which, RegisteredOnce (eventsOf which h)
  steady : ∀ which t, ((v.refs which).threads t).Steady (v.refs which).ref
  /-- A client that somebody has is in place, or the thread that took it out still waits. -/
  accounted : ∀ t c, ((v.refs .gSocketFilter).threads t).confirmed = some c →
    (v.refs .gSocketFilter).ref.userClient = some c ∨
      ∃ u, (v.refs .gSocketFilter).threads u = .waitInvocations c
  left : ∀ which c, v.Left which c → (v.refs which).ref.userClient ≠ some c
  handedBack : ∀ c, v.Left .gSocketFilter c → ∀ t, ((v.refs .gSocketFilter).threads t).confirmed ≠ some c
  /-- Only `terminate` takes a client out of the service. -/
  service : ∀ c, .registered c ∈ eventsOf .gServiceUserClient h →
    (v.refs .gServiceUserClient).ref.userClient = some c ∨ v.Left .gServiceUserClient c ∨
      ∃ t clientClose, v.programs t = .closing c .unregisterService clientClose
  both : ∀ c, .registered c ∈ eventsOf .gSocketFilter h → .registered c ∈ eventsOf .gServiceUserClient h

/-- Who registers a client in `gSocketFilter` is the first to do so, and has registered it in the service. -/
def Fresh (v : SessionView T C) (h : List (ClientRefName × UserClientEvent C)) : Prop :=
  ∀ t c, v.Registering t c →
    .registered c ∉ eventsOf .gSocketFilter h ∧ .registered c ∈ eventsOf .gServiceUserClient h

variable {v : SessionView T C} {h : List (ClientRefName × UserClientEvent C)} {t : T} {c : C}
  {which : ClientRefName}

omit [DecidableEq C] in
theorem SessionView.calling_of_registering (hr : v.Registering t c) : (v.programs t).calling = some c := by
  rcases hr with ⟨hp, -⟩ | ⟨hp, -⟩ <;> exact congrArg ClientProgram.calling hp

/-- Nobody opens a client that was taken out. -/
theorem Sessions.not_left (hS : Sessions v h) {stage : OpenStage} (hp : v.programs t = .opening c stage)
    (hne : stage ≠ .isInactive) : ¬ v.Left which c := by
  rintro (hinactive | ⟨u, hu⟩)
  · rw [hS.active t c stage hp hne] at hinactive
    cases hinactive
  · have htu := hS.apart t u c (congrArg ClientProgram.calling hp) (ClientProgram.calling_of_left hu)
    subst htu
    rw [hp] at hu
    exact hu

/-- A thread that puts a client in is in `open` of it. -/
theorem Sessions.opening_of_swapIn (hS : Sessions v h) (ha : (v.refs which).threads t = .swapIn c) :
    (v.programs t = .opening c .registerService ∧ which = .gServiceUserClient) ∨
      (v.programs t = .opening c .registerSocket ∧ which = .gSocketFilter) :=
  ClientProgram.opening_of_refCall ((hS.within which t).refCall (congrArg UserClientAccess.registration ha))

theorem Sessions.not_left_of_swapIn (hS : Sessions v h) {which' : ClientRefName}
    (ha : (v.refs which).threads t = .swapIn c) : ¬ v.Left which' c := by
  rcases hS.opening_of_swapIn ha with ⟨hp, -⟩ | ⟨hp, -⟩ <;> exact hS.not_left hp (by decide)

/-- A client that is put in was not put in before. -/
theorem Sessions.not_registered (hS : Sessions v h) (hF : Fresh v h)
    (ha : (v.refs which).threads t = .swapIn c) (hnone : (v.refs which).ref.userClient = none) :
    .registered c ∉ eventsOf which h := by
  rcases hS.opening_of_swapIn ha with ⟨hp, rfl⟩ | ⟨hp, rfl⟩
  · intro hmem
    rcases hS.service c hmem with hplace | hleft | ⟨u, clientClose, hu⟩
    · rw [hnone] at hplace
      cases hplace
    · exact hS.not_left hp (by decide) hleft
    · have htu := hS.apart t u c (congrArg ClientProgram.calling hp) (congrArg ClientProgram.calling hu)
      subst htu
      rw [hp] at hu
      cases hu
  · exact (hF t c (.inr ⟨hp, .inr (.inr ha)⟩)).1

/-! ### One thread goes on -/

/-- `super::terminate`, when the references are done. -/
theorem Sessions.terminate (hS : Sessions v h) {clientClose : Bool}
    (hp : v.programs t = .closing c .superTerminate clientClose) : Sessions (v.terminate c) h := by
  have hmine : ∀ which, v.Left which c := fun which => .inr ⟨t, hp ▸ rfl⟩
  have hleft : ∀ which c', (v.terminate c).Left which c' → v.Left which c' := by
    rintro which c' (hinactive | hu)
    · by_cases heq : c' = c
      · exact heq ▸ hmine which
      · rw [SessionView.terminate_of_ne heq] at hinactive
        exact .inl hinactive
    · exact .inr hu
  have hinactive : ∀ c', v.inactive c' = true → (v.terminate c).inactive c' = true := by
    intro c' htrue
    by_cases heq : c' = c
    · subst heq
      exact SessionView.terminate_self
    · rw [SessionView.terminate_of_ne heq]
      exact htrue
  refine ⟨hS.within, hS.apart, ?_, ?_, ?_, hS.handedOut, hS.once, hS.steady, hS.accounted, ?_, ?_, ?_, hS.both⟩
  · intro u c' stage hu hne
    have hne' : c' ≠ c := by
      rintro rfl
      have hut := hS.apart u t c' (congrArg ClientProgram.calling hu) (congrArg ClientProgram.calling hp)
      subst hut
      have hu : v.programs u = .opening c' stage := hu
      rw [hp] at hu
      cases hu
    rw [SessionView.terminate_of_ne hne']
    exact hS.active u c' stage hu hne
  · exact fun u c' clientClose hu => hinactive c' (hS.clearing u c' clientClose hu)
  · exact fun c' hcleared => hinactive c' (hS.fProvider c' hcleared)
  · exact fun which c' hl => hS.left which c' (hleft which c' hl)
  · exact fun c' hl => hS.handedBack c' (hleft _ c' hl)
  · intro c' hmem
    rcases hS.service c' hmem with hplace | (htrue | hu) | hu
    · exact .inl hplace
    · exact .inr (.inl (.inl (hinactive c' htrue)))
    · exact .inr (.inl (.inr hu))
    · exact .inr (.inr hu)

theorem Sessions.clearProvider (hS : Sessions v h) {clientClose : Bool}
    (hp : v.programs t = .closing c .clearProvider clientClose) : Sessions (v.clearProvider c) h := by
  refine ⟨hS.within, hS.apart, hS.active, hS.clearing, ?_, hS.handedOut, hS.once,
    hS.steady, hS.accounted, hS.left,
    hS.handedBack, hS.service, hS.both⟩
  intro c' hcleared
  by_cases heq : c' = c
  · subst heq
    exact hS.clearing t c' clientClose hp
  · rw [SessionView.clearProvider_of_ne heq] at hcleared
    exact hS.fProvider c' hcleared

section Move
variable [DecidableEq T] {p : ClientProgram C}

omit [DecidableEq C] in
theorem SessionView.left_of_setProgram (hl : (v.setProgram t p).Left which c) :
    v.Left which c ∨ p.Left which c := by
  rcases hl with hinactive | ⟨u, hu⟩
  · exact .inl (.inl hinactive)
  · by_cases hut : u = t
    · subst hut
      rw [setProgram_self] at hu
      exact .inr hu
    · rw [setProgram_of_ne hut] at hu
      exact .inl (.inr ⟨u, hu⟩)

/-- What a thread has to keep to when it goes from where it is to `p`. -/
structure Moves (v : SessionView T C) (t : T) (p : ClientProgram C) : Prop where
  within : ∀ which, p.Within which ((v.refs which).threads t)
  calling : ∀ c, p.calling = some c → (v.programs t).calling = some c ∨ ∀ u, (v.programs u).calling ≠ some c
  active : ∀ c stage, p = .opening c stage → stage ≠ .isInactive → v.inactive c = false
  clearing : ∀ c clientClose, p = .closing c .clearProvider clientClose → v.inactive c = true
  left : ∀ which c, p.Left which c → (v.refs which).ref.userClient ≠ some c ∧
    (which = .gSocketFilter → ∀ u, ((v.refs .gSocketFilter).threads u).confirmed ≠ some c)
  /-- It does not leave the end of `terminate` before the client is inactive. -/
  terminating : ∀ c, ((v.programs t).Left .gServiceUserClient c ∨
    ∃ clientClose, v.programs t = .closing c .unregisterService clientClose) →
    v.inactive c = true ∨ p.Left .gServiceUserClient c

theorem Sessions.move (hS : Sessions v h) (hp : Moves v t p) : Sessions (v.setProgram t p) h where
  within which u := by
    by_cases hut : u = t
    · subst hut
      rw [SessionView.setProgram_self]
      exact hp.within which
    · rw [SessionView.setProgram_of_ne hut]
      exact hS.within which u
  apart u u' c hu hu' := by
    have hother : ∀ w, w ≠ t → (v.programs w).calling = some c → p.calling = some c → False := by
      intro w hwt hw hc
      rcases hp.calling c hc with ht | hnone
      · exact hwt (hS.apart w t c hw ht)
      · exact hnone w hw
    by_cases hut : u = t
    · subst hut
      rw [SessionView.setProgram_self] at hu
      by_cases hu't : u' = u
      · exact hu't.symm
      · rw [SessionView.setProgram_of_ne hu't] at hu'
        exact (hother u' hu't hu' hu).elim
    · rw [SessionView.setProgram_of_ne hut] at hu
      by_cases hu't : u' = t
      · subst hu't
        rw [SessionView.setProgram_self] at hu'
        exact (hother u hut hu hu').elim
      · rw [SessionView.setProgram_of_ne hu't] at hu'
        exact hS.apart u u' c hu hu'
  active u c stage hu hne := by
    by_cases hut : u = t
    · subst hut
      rw [SessionView.setProgram_self] at hu
      exact hp.active c stage hu hne
    · rw [SessionView.setProgram_of_ne hut] at hu
      exact hS.active u c stage hu hne
  clearing u c clientClose hu := by
    by_cases hut : u = t
    · subst hut
      rw [SessionView.setProgram_self] at hu
      exact hp.clearing c clientClose hu
    · rw [SessionView.setProgram_of_ne hut] at hu
      exact hS.clearing u c clientClose hu
  fProvider := hS.fProvider
  handedOut := hS.handedOut
  once := hS.once
  steady := hS.steady
  accounted := hS.accounted
  left which c hl := (SessionView.left_of_setProgram hl).elim (hS.left which c) fun hl => (hp.left which c hl).1
  handedBack c hl := (SessionView.left_of_setProgram hl).elim (hS.handedBack c) fun hl => (hp.left _ c hl).2 rfl
  service c hmem := by
    rcases hS.service c hmem with hplace | (hinactive | ⟨u, hu⟩) | ⟨u, clientClose, hu⟩
    · exact .inl hplace
    · exact .inr (.inl (.inl hinactive))
    · by_cases hut : u = t
      · subst hut
        rcases hp.terminating c (.inl hu) with hinactive | hl
        · exact .inr (.inl (.inl hinactive))
        · exact .inr (.inl (.inr ⟨u, by rwa [SessionView.setProgram_self]⟩))
      · exact .inr (.inl (.inr ⟨u, by rwa [SessionView.setProgram_of_ne hut]⟩))
    · by_cases hut : u = t
      · subst hut
        rcases hp.terminating c (.inr ⟨clientClose, hu⟩) with hinactive | hl
        · exact .inr (.inl (.inl hinactive))
        · exact .inr (.inl (.inr ⟨u, by rwa [SessionView.setProgram_self]⟩))
      · exact .inr (.inr ⟨u, clientClose, by rwa [SessionView.setProgram_of_ne hut]⟩)
  both := hS.both

omit [DecidableEq C] in
/-- A thread that does not come to a registration. -/
theorem Fresh.move (hF : Fresh v h) (hp : ∀ c, ¬ (v.setProgram t p).Registering t c) :
    Fresh (v.setProgram t p) h := by
  intro u c hr
  by_cases hut : u = t
  · subst hut
    exact absurd hr (hp c)
  · refine hF u c ?_
    unfold SessionView.Registering at hr
    rwa [SessionView.setProgram_of_ne hut] at hr

end Move

/-! ### One step of a reference -/

section Ref
variable {ref : UserClientState T C} {l : UserClientLabel T C} {e : List (UserClientEvent C)}
  {r r' : NkeIOUserClientRef C} {a a' : UserClientAccess C}

omit [DecidableEq C] in
/-- Only the swap registers. -/
theorem AccessEffect.swapIn_of_registered (heff : AccessEffect r a a' r' e) (hmem : .registered c ∈ e) :
    a = .swapIn c ∧ a' = .retain c ∧ r.userClient = none ∧ r' = { r with userClient := some c } ∧
      e = [.registered c] := by
  cases heff with
  | swapIn hnone =>
    obtain rfl := UserClientEvent.registered.inj (List.mem_singleton.1 hmem)
    exact ⟨rfl, rfl, hnone, rfl, rfl⟩
  | quiet _ _ hnot => exact absurd hmem (hnot c)
  | leave _ _ _ hnot => exact absurd hmem (hnot c)
  | _ => cases hmem

omit [DecidableEq C] in
/-- Where the client that is in place comes from and goes to. -/
theorem AccessEffect.userClient_cases (heff : AccessEffect r a a' r' e) :
    r'.userClient = r.userClient ∨
      (∃ c, a = .swapIn c ∧ a' = .retain c ∧ r.userClient = none ∧ r'.userClient = some c) ∨
      ∃ c, a = .swapOut c ∧ a' = .waitInvocations c ∧ r.userClient = some c ∧ r'.userClient = none := by
  cases heff with
  | swapIn hnone => exact .inr (.inl ⟨_, rfl, rfl, hnone, rfl⟩)
  | swapOut hsome => exact .inr (.inr ⟨_, rfl, rfl, hsome, rfl⟩)
  | _ => exact .inl rfl

omit [DecidableEq C] in
/-- Who has a client had it before, or it is in place. -/
theorem AccessEffect.confirmed_cases (heff : AccessEffect r a a' r' e) (hc : a'.confirmed = some c) :
    a.confirmed = some c ∨ r.userClient = some c := by
  cases heff with
  | quiet hk => exact .inl (hk.confirmed c hc)
  | leave hk => exact .inl (hk.confirmed c hc)
  | confirm hsome =>
    obtain rfl := Option.some.inj hc
    exact .inr hsome
  | _ => cases hc

theorem RegisteredOnce.append {h e : List (UserClientEvent C)} (ho : RegisteredOnce h)
    (he : (∀ c, .registered c ∉ e) ∨ ∃ c, e = [.registered c] ∧ .registered c ∉ h) :
    RegisteredOnce (h ++ e) := by
  intro c
  have hle := ho c
  rw [List.count_append]
  rcases he with hnot | ⟨c', rfl, hnot⟩
  · rw [List.count_eq_zero.2 (hnot c)]
    exact hle
  · by_cases heq : c' = c
    · subst heq
      rw [List.count_eq_zero.2 hnot, List.count_singleton_self]
    · rw [List.count_singleton, if_neg (by simpa using heq)]
      exact hle

variable [DecidableEq T]

/-- A step is a call or an access of one thread. -/
theorem UserClientState.step_cases {s : UserClientState T C}
    (hs : (userClientMachine T C).step s l = some (ref, e)) :
    ∃ a' r', ref = ⟨r', Function.update s.threads l.thread a'⟩ ∧
      AccessEffect s.ref (s.threads l.thread) a' r' e ∧
      ((r' = s.ref ∧ e = [] ∧ ∃ call : UserClientCall C, call.enter (s.threads l.thread) = some a') ∨
        s.ref.access (s.threads l.thread) = some (a', r', e)) := by
  cases l with
  | call thread call =>
    obtain ⟨a', henter, heq⟩ := Option.map_eq_some_iff.1 hs
    obtain ⟨rfl, rfl⟩ := Prod.mk.inj heq
    obtain ⟨hk, hi⟩ := enter_keeps henter
    exact ⟨a', s.ref, rfl, .move hk hi (by simp), .inl ⟨rfl, rfl, call, henter⟩⟩
  | access thread =>
    obtain ⟨⟨a', r', e'⟩, haccess, heq⟩ := Option.map_eq_some_iff.1 hs
    obtain ⟨rfl, rfl⟩ := Prod.mk.inj heq
    exact ⟨a', r', rfl, access_inv haccess, .inr haccess⟩

omit [DecidableEq T] in
/-- Nobody else is in a call of the client that a thread registers or unregisters. -/
theorem Sessions.alone (hS : Sessions v h) {u : T} {which' : ClientRefName} {call call' : UserClientCall C}
    (ht : ((v.refs which).threads t).registration = some call)
    (hu : ((v.refs which').threads u).registration = some call')
    (hcall : call = .registerUserClient c ∨ call = .unregisterUserClient c)
    (hcall' : call' = .registerUserClient c ∨ call' = .unregisterUserClient c) : t = u :=
  hS.apart t u c (ClientProgram.calling_of_refCall ((hS.within which t).refCall ht) hcall)
    (ClientProgram.calling_of_refCall ((hS.within which' u).refCall hu) hcall')

/-- The threads of a reference keep what they rely on. -/
theorem Sessions.steady_step (hS : Sessions v h)
    (hs : (userClientMachine T C).step (v.refs which) l = some (ref, e))
    (u : T) : (ref.threads u).Steady ref.ref := by
  obtain ⟨a', r', rfl, heff, hkind⟩ := UserClientState.step_cases hs
  by_cases hul : u = l.thread
  · subst hul
    simp only [Function.update_self]
    rcases hkind with ⟨rfl, -, call, henter⟩ | haccess
    · exact UserClientAccess.enter_steady henter
    · exact UserClientAccess.access_steady (hS.steady which l.thread) haccess
  · simp only [Function.update_of_ne hul]
    refine (hS.steady which u).of_other ?_
    intro c hu hplace
    rcases heff.userClient_cases with hsame | ⟨c', -, -, hnone, -⟩ | ⟨c', ha, -, hsome, -⟩
    · exact hsame.trans hplace
    · rw [hnone] at hplace
      cases hplace
    · -- the client would be taken out by the only thread that is in a call of it
      obtain rfl := Option.some.inj (hsome.symm.trans hplace)
      have ht : ((v.refs which).threads l.thread).registration = some (.unregisterUserClient c') := by rw [ha]; rfl
      rcases hu with hu | hu
      · exact absurd (hS.alone ht hu (.inr rfl) (.inl rfl)).symm hul
      · exact absurd (hS.alone ht hu (.inr rfl) (.inr rfl)).symm hul

/-- While somebody has the client, the thread that took it out does not get behind its wait. -/
theorem Sessions.accounted_step (hS : Sessions v h)
    (hs : (userClientMachine T C).step (v.refs .gSocketFilter) l = some (ref, e)) (u : T)
    (hc : (ref.threads u).confirmed = some c) :
    ref.ref.userClient = some c ∨ ∃ w, ref.threads w = .waitInvocations c := by
  obtain ⟨a', r', rfl, heff, hkind⟩ := UserClientState.step_cases hs
  have hbefore : (v.refs .gSocketFilter).ref.userClient = some c ∨
      (∃ w, (v.refs .gSocketFilter).threads w = .waitInvocations c) ∧
        ∃ w, ((v.refs .gSocketFilter).threads w).confirmed = some c := by
    have hhad : ∀ w, ((v.refs .gSocketFilter).threads w).confirmed = some c →
        (v.refs .gSocketFilter).ref.userClient = some c ∨
          (∃ w, (v.refs .gSocketFilter).threads w = .waitInvocations c) ∧
            ∃ w, ((v.refs .gSocketFilter).threads w).confirmed = some c :=
      fun w hw => (hS.accounted w c hw).imp id fun hwait => ⟨hwait, w, hw⟩
    by_cases hul : u = l.thread
    · subst hul
      simp only [Function.update_self] at hc
      rcases heff.confirmed_cases hc with hc | hplace
      · exact hhad _ hc
      · exact .inl hplace
    · simp only [Function.update_of_ne hul] at hc
      exact hhad u hc
  rcases hbefore with hplace | ⟨⟨w, hw⟩, x, hx⟩
  · rcases heff.userClient_cases with hsame | ⟨c', -, -, hnone, -⟩ | ⟨c', -, ha', hsome, -⟩
    · exact .inl (hsame.trans hplace)
    · rw [hnone] at hplace
      cases hplace
    · obtain rfl := Option.some.inj (hsome.symm.trans hplace)
      exact .inr ⟨l.thread, (Function.update_self ..).trans ha'⟩
  · by_cases hwl : w = l.thread
    · subst hwl
      rcases hkind with ⟨-, -, call, henter⟩ | haccess
      · rw [hw] at henter
        cases call <;> cases henter
      · rw [hw] at haccess
        rcases UserClientAccess.access_waitInvocations haccess with rfl | hzero
        · exact .inr ⟨l.thread, Function.update_self ..⟩
        · -- the counter is zero, but somebody has the client
          have hH := hS.handedOut .gSocketFilter
          have hcount := hH.counted.toNat_eq hH.few
          have hpos := hH.counted.pos_of_invoking (UserClientAccess.invoking_of_confirmed hx)
          rw [hzero] at hcount
          have : invocations (v.refs .gSocketFilter) = 0 := hcount.symm
          omega
    · exact .inr ⟨w, (Function.update_of_ne hwl ..).trans hw⟩

theorem Sessions.left_step (hS : Sessions v h)
    (hs : (userClientMachine T C).step (v.refs which) l = some (ref, e))
    (hl : v.Left which c) : ref.ref.userClient ≠ some c := by
  obtain ⟨a', r', rfl, heff, -⟩ := UserClientState.step_cases hs
  rcases heff.userClient_cases with hsame | ⟨c', ha, -, -, hsome⟩ | ⟨c', -, -, -, hnone⟩
  · rw [hsame]
    exact hS.left which c hl
  · intro heq
    obtain rfl := Option.some.inj (hsome.symm.trans heq)
    exact hS.not_left_of_swapIn ha hl
  · rw [hnone]
    exact (Option.some_ne_none c).symm

theorem Sessions.handedBack_step (hS : Sessions v h)
    (hs : (userClientMachine T C).step (v.refs .gSocketFilter) l = some (ref, e)) (hl : v.Left .gSocketFilter c)
    (u : T) : (ref.threads u).confirmed ≠ some c := by
  obtain ⟨a', r', rfl, heff, -⟩ := UserClientState.step_cases hs
  intro hc
  by_cases hul : u = l.thread
  · subst hul
    simp only [Function.update_self] at hc
    rcases heff.confirmed_cases hc with hc | hplace
    · exact hS.handedBack c hl _ hc
    · exact hS.left _ c hl hplace
  · simp only [Function.update_of_ne hul] at hc
    exact hS.handedBack c hl u hc

theorem Sessions.service_step (hS : Sessions v h)
    (hs : (userClientMachine T C).step (v.refs .gServiceUserClient) l = some (ref, e))
    (hmem : .registered c ∈ eventsOf .gServiceUserClient h ++ e) :
    ref.ref.userClient = some c ∨ v.Left .gServiceUserClient c ∨
      ∃ t clientClose, v.programs t = .closing c .unregisterService clientClose := by
  obtain ⟨a', r', rfl, heff, -⟩ := UserClientState.step_cases hs
  rcases List.mem_append.1 hmem with hmem | hmem
  · rcases hS.service c hmem with hplace | hrest
    · rcases heff.userClient_cases with hsame | ⟨c', -, -, hnone, -⟩ | ⟨c', ha, -, hsome, -⟩
      · exact .inl (hsame.trans hplace)
      · rw [hnone] at hplace
        cases hplace
      · obtain rfl := Option.some.inj (hsome.symm.trans hplace)
        have hcall := (hS.within .gServiceUserClient l.thread).refCall (congrArg UserClientAccess.registration ha)
        obtain ⟨clientClose, hp⟩ := ClientProgram.closing_of_refCall hcall
        exact .inr (.inr ⟨l.thread, clientClose, hp⟩)
    · exact .inr hrest
  · obtain ⟨-, -, -, rfl, -⟩ := heff.swapIn_of_registered hmem
    exact .inl rfl

/-- What was registered stays registered once. -/
theorem Sessions.once_step (hS : Sessions v h) (hF : Fresh v h)
    (hs : (userClientMachine T C).step (v.refs which) l = some (ref, e)) :
    RegisteredOnce (eventsOf which h ++ e) := by
  obtain ⟨a', r', rfl, heff, -⟩ := UserClientState.step_cases hs
  refine (hS.once which).append ?_
  by_cases hsome : ∃ c, .registered c ∈ e
  · obtain ⟨c, hmem⟩ := hsome
    obtain ⟨ha, -, hnone, -, rfl⟩ := heff.swapIn_of_registered hmem
    exact .inr ⟨c, rfl, hS.not_registered hF ha hnone⟩
  · exact .inl fun c hmem => hsome ⟨c, hmem⟩

theorem Sessions.stepRef (hS : Sessions v h) (hF : Fresh v h) (hfew : FewInvocations (v.refs which) l)
    (hwithin : (v.programs l.thread).Within which (ref.threads l.thread))
    (hs : (userClientMachine T C).step (v.refs which) l = some (ref, e)) :
    Sessions (v.setRef which ref) (h ++ e.map fun event => (which, event)) := by
  have hself : eventsOf which (h ++ e.map fun event => (which, event)) = eventsOf which h ++ e := by
    rw [eventsOf_append, eventsOf_self]
  have hother : ∀ which', which' ≠ which →
      eventsOf which' (h ++ e.map fun event => (which, event)) = eventsOf which' h := by
    intro which' hne
    rw [eventsOf_append, eventsOf_other hne.symm, List.append_nil]
  have hthreads : ∀ u, u ≠ l.thread → ref.threads u = (v.refs which).threads u := by
    obtain ⟨a', r', rfl, -⟩ := UserClientState.step_cases hs
    exact fun u hul => Function.update_of_ne hul ..
  refine ⟨?_, hS.apart, hS.active, hS.clearing, hS.fProvider, ?_, ?_, ?_, ?_, ?_, ?_, ?_, ?_⟩
  · intro which' u
    by_cases hw : which' = which
    · subst hw
      rw [SessionView.setRef_self]
      by_cases hul : u = l.thread
      · subst hul
        exact hwithin
      · rw [hthreads u hul]
        exact hS.within which' u
    · rw [SessionView.setRef_of_ne hw]
      exact hS.within which' u
  · intro which'
    by_cases hw : which' = which
    · subst hw
      rw [SessionView.setRef_self, hself]
      exact (hS.handedOut which').step hfew (hS.once_step hF hs) hs
    · rw [SessionView.setRef_of_ne hw, hother which' hw]
      exact hS.handedOut which'
  · intro which'
    by_cases hw : which' = which
    · subst hw
      rw [hself]
      exact hS.once_step hF hs
    · rw [hother which' hw]
      exact hS.once which'
  · intro which'
    by_cases hw : which' = which
    · subst hw
      rw [SessionView.setRef_self]
      exact hS.steady_step hs
    · rw [SessionView.setRef_of_ne hw]
      exact hS.steady which'
  · by_cases hw : ClientRefName.gSocketFilter = which
    · subst hw
      rw [SessionView.setRef_self]
      exact fun u c => hS.accounted_step hs u
    · rw [SessionView.setRef_of_ne hw]
      exact hS.accounted
  · intro which' c hl
    by_cases hw : which' = which
    · subst hw
      rw [SessionView.setRef_self]
      exact hS.left_step hs hl
    · rw [SessionView.setRef_of_ne hw]
      exact hS.left which' c hl
  · by_cases hw : ClientRefName.gSocketFilter = which
    · subst hw
      rw [SessionView.setRef_self]
      exact fun c hl => hS.handedBack_step hs hl
    · rw [SessionView.setRef_of_ne hw]
      exact hS.handedBack
  · intro c hmem
    by_cases hw : ClientRefName.gServiceUserClient = which
    · subst hw
      rw [SessionView.setRef_self]
      rw [hself] at hmem
      exact hS.service_step hs hmem
    · rw [hother _ hw] at hmem
      rw [SessionView.setRef_of_ne hw]
      exact hS.service c hmem
  · intro c hmem
    have hold : .registered c ∈ eventsOf .gSocketFilter h → .registered c ∈
        eventsOf .gServiceUserClient (h ++ e.map fun event => (which, event)) := by
      intro hmem
      rw [eventsOf_append]
      exact List.mem_append_left _ (hS.both c hmem)
    by_cases hw : ClientRefName.gSocketFilter = which
    · subst hw
      rw [hself] at hmem
      rcases List.mem_append.1 hmem with hmem | hmem
      · exact hold hmem
      · obtain ⟨a', r', rfl, heff, -⟩ := UserClientState.step_cases hs
        obtain ⟨ha, -, -, -, -⟩ := heff.swapIn_of_registered hmem
        rcases hS.opening_of_swapIn ha with ⟨-, heq⟩ | ⟨hp, -⟩
        · cases heq
        · rw [hother _ (by decide)]
          exact (hF l.thread c (.inr ⟨hp, .inr (.inr ha)⟩)).2
    · rw [hother _ hw] at hmem
      exact hold hmem

/-- Nobody but the thread that moves comes to a registration, and nobody else registers its client. -/
theorem Fresh.stepRef (hS : Sessions v h) (hF : Fresh v h)
    (hs : (userClientMachine T C).step (v.refs which) l = some (ref, e)) {p : ClientProgram C}
    (hmine : ∀ c, ((v.setRef which ref).setProgram l.thread p).Registering l.thread c →
      (v.Registering l.thread c ∧ ∀ c, .registered c ∉ e) ∨ (which = .gServiceUserClient ∧
        (v.refs which).threads l.thread = .swapIn c ∧ e = [.registered c] ∧
          (v.refs which).ref.userClient = none)) :
    Fresh ((v.setRef which ref).setProgram l.thread p) (h ++ e.map fun event => (which, event)) := by
  have hmem : ∀ c, .registered c ∈ eventsOf .gServiceUserClient h → .registered c ∈
      eventsOf .gServiceUserClient (h ++ e.map fun event => (which, event)) := by
    intro c hmem
    rw [eventsOf_append]
    exact List.mem_append_left _ hmem
  have hnot : ∀ c, .registered c ∉ eventsOf .gSocketFilter h → (which = .gSocketFilter → .registered c ∉ e) →
      .registered c ∉ eventsOf .gSocketFilter (h ++ e.map fun event => (which, event)) := by
    intro c hnot he
    rw [eventsOf_append, List.mem_append, not_or]
    refine ⟨hnot, ?_⟩
    by_cases hw : which = .gSocketFilter
    · subst hw
      rw [eventsOf_self]
      exact he rfl
    · rw [eventsOf_other hw]
      exact List.not_mem_nil
  intro u c hr
  by_cases hul : u = l.thread
  · subst hul
    rcases hmine c hr with ⟨hr, he⟩ | ⟨rfl, ha, rfl, hnone⟩
    · obtain ⟨hfresh, hserv⟩ := hF l.thread c hr
      exact ⟨hnot c hfresh fun _ => he c, hmem c hserv⟩
    · refine ⟨hnot c ?_ (fun hw => by cases hw), ?_⟩
      · exact fun hsock => hS.not_registered hF ha hnone (hS.both c hsock)
      · rw [eventsOf_append, eventsOf_self]
        exact List.mem_append_right _ (List.mem_singleton_self _)
  · have hthreads : ∀ which', ((v.setRef which ref).refs which').threads u = (v.refs which').threads u := by
      intro which'
      by_cases hw : which' = which
      · subst hw
        rw [SessionView.setRef_self]
        obtain ⟨a', r', rfl, -⟩ := UserClientState.step_cases hs
        exact Function.update_of_ne hul ..
      · rw [SessionView.setRef_of_ne hw]
    have hold : v.Registering u c := by
      unfold SessionView.Registering at hr ⊢
      rw [SessionView.setProgram_of_ne hul] at hr
      rwa [show (((v.setRef which ref).setProgram l.thread p).refs .gServiceUserClient).threads u =
          (v.refs .gServiceUserClient).threads u from hthreads _,
        show (((v.setRef which ref).setProgram l.thread p).refs .gSocketFilter).threads u =
          (v.refs .gSocketFilter).threads u from hthreads _] at hr
    obtain ⟨hfresh, hserv⟩ := hF u c hold
    refine ⟨hnot c hfresh fun _ he => ?_, hmem c hserv⟩
    obtain ⟨a', r', rfl, heff, -⟩ := UserClientState.step_cases hs
    obtain ⟨ha, -⟩ := heff.swapIn_of_registered he
    have hopen : (v.programs l.thread).calling = some c := by
      rcases hS.opening_of_swapIn ha with ⟨hp, -⟩ | ⟨hp, -⟩ <;> exact congrArg ClientProgram.calling hp
    exact hul (hS.apart u l.thread c (SessionView.calling_of_registering hold) hopen)

theorem Fresh.stepRef_stay (hS : Sessions v h) (hF : Fresh v h)
    (hs : (userClientMachine T C).step (v.refs which) l = some (ref, e))
    (hmine : ∀ c, (v.setRef which ref).Registering l.thread c →
      (v.Registering l.thread c ∧ ∀ c, .registered c ∉ e) ∨ (which = .gServiceUserClient ∧
        (v.refs which).threads l.thread = .swapIn c ∧ e = [.registered c] ∧
          (v.refs which).ref.userClient = none)) :
    Fresh (v.setRef which ref) (h ++ e.map fun event => (which, event)) := by
  have hstay : (v.setRef which ref).setProgram l.thread (v.programs l.thread) = v.setRef which ref := by
    rw [SessionView.setProgram, show (v.setRef which ref).programs = v.programs from rfl, Function.update_eq_self]
    rfl
  have hstep := Fresh.stepRef hS hF hs (p := v.programs l.thread)
  rw [hstay] at hstep
  exact hstep hmine

/-- An unregistration that returns leaves the client out of the reference, and nobody has it. -/
theorem Sessions.unregistered (hS : Sessions v h) {RC : RegistrationResult}
    (hcall : ((v.refs which).threads t).registration = some (.unregisterUserClient c))
    (hs : (userClientMachine T C).step (v.refs which) (.access t) = some (ref, e))
    (hresult : e.findSome? UserClientEvent.result = some RC) :
    ref.ref.userClient ≠ some c ∧
      (which = .gSocketFilter → ∀ u, (ref.threads u).confirmed ≠ some c) := by
  obtain ⟨a', r', rfl, heff, hkind⟩ := UserClientState.step_cases hs
  have haccess : (v.refs which).ref.access ((v.refs which).threads t) = some (a', r', e) := by
    rcases hkind with ⟨-, rfl, -⟩ | haccess
    · cases hresult
    · exact haccess
  have hidle : a' = .idle := by
    rcases UserClientAccess.access_registration hcall haccess with ⟨hnone, -⟩ | ⟨-, -, hidle⟩
    · rw [hresult] at hnone
      cases hnone
    · exact hidle
  obtain ⟨hsame, hwhy⟩ := UserClientAccess.access_unregistered hcall (hS.steady which t) haccess hresult
  have hout : (v.refs which).ref.userClient ≠ some c := by
    rcases hwhy with hwaited | ⟨-, hout⟩
    · exact ((hS.handedOut which).takenOut t c (UserClientAccess.takenOut_of_waited hwaited)).2
    · exact hout
  refine ⟨fun heq => hout (hsame.symm.trans heq), ?_⟩
  rintro rfl u hu
  have hut : u ≠ t := by
    rintro rfl
    simp only [UserClientLabel.thread, Function.update_self, hidle] at hu
    cases hu
  simp only [UserClientLabel.thread, Function.update_of_ne hut] at hu
  rcases hwhy with hwaited | ⟨hnot, -⟩
  · exact (hS.handedOut .gSocketFilter).waited t c hwaited u hu
  · -- somebody who still waits would be in a call of the client too
    rcases hS.accounted u c hu with hplace | ⟨w, hw⟩
    · exact hout hplace
    · have hwcall : ((v.refs .gSocketFilter).threads w).registration = some (.unregisterUserClient c) := by
        rw [hw]
        rfl
      have hwt := hS.alone hwcall hcall (.inr rfl) (.inr rfl)
      subst hwt
      rw [hw] at hnot
      cases hnot

end Ref

end Sessions

end NkeFilter
