import NkeFilter.UserClientRef

/-!
# Sessions of user clients

`open`, `close` and `clientClose` of any number of `NkeIOUserClient` objects, one call at a time, with the
owner of the provider and the two references a client is registered in. `close` gives only the provider
back; `startLogging` undoes a failed registration in `gSocketFilter` alone. So a call is all-or-nothing
exactly as long as nobody opens the provider while a client that closed it is still registered
(`allOrNothing_iff`).
-/

namespace NkeFilter
open Lib

/-! ### Registration with no other thread -/

namespace NkeIOUserClientRef
variable {C : Type*} [DecidableEq C]

def registerUserClient (ref : NkeIOUserClientRef C) (client : C) :
    RegistrationResult × NkeIOUserClientRef C :=
  if ref.pendingUnregistration then (.kIOReturnError, ref)
  else
    let (registered, ref) := ref.compareAndSwap none (some client)
    (if registered then .kIOReturnSuccess else .kIOReturnError, ref)

/-- No invocation of the client is in flight, so the wait for them ends at once. -/
def unregisterUserClient (ref : NkeIOUserClientRef C) (client : C) :
    RegistrationResult × NkeIOUserClientRef C :=
  if ref.userClient ≠ some client then (.kIOReturnError, ref)
  else
    let ref := { ref with pendingUnregistration := true }
    let (unregistered, ref) := ref.compareAndSwap (some client) none
    (if unregistered then .kIOReturnSuccess else .kIOReturnError, { ref with pendingUnregistration := false })

end NkeIOUserClientRef

section Alone
variable {T C : Type*} [DecidableEq T] [DecidableEq C] {s : UserClientState T C} {t : T} {c : C}

/-- A thread that runs alone gets from `a` back to `idle`. -/
def Returns (s : UserClientState T C) (t : T) (a : UserClientAccess C) (ref : NkeIOUserClientRef C)
    (event : UserClientEvent C) : Prop :=
  ∃ as e, (userClientMachine T C).run { s with threads := Function.update s.threads t a } as =
    some (⟨ref, Function.update s.threads t .idle⟩, e ++ [event])

theorem Returns.last {a : UserClientAccess C} {ref : NkeIOUserClientRef C} {e : List (UserClientEvent C)}
    {event : UserClientEvent C} (ha : s.ref.access a = some (.idle, ref, e ++ [event])) :
    Returns s t a ref event := by
  refine ⟨[.access t], e, Machine.run_single ?_⟩
  simp [userClientMachine, UserClientState.step, ha]

theorem Returns.step {a a' : UserClientAccess C} {ref ref' : NkeIOUserClientRef C}
    {e : List (UserClientEvent C)} {event : UserClientEvent C} (ha : s.ref.access a = some (a', ref', e))
    (hr : Returns { s with ref := ref' } t a' ref event) : Returns s t a ref event := by
  obtain ⟨as, e', hr⟩ := hr
  refine ⟨.access t :: as, e ++ e', Machine.run_cons.2 ⟨_, e, e' ++ [event], ?_, hr, List.append_assoc ..⟩⟩
  simp [userClientMachine, UserClientState.step, ha]

/-- `registerUserClient` as above is what a thread does that runs alone. -/
theorem registerUserClient_returns (s : UserClientState T C) (t : T) (c : C) :
    Returns s t (.checkPending c) (s.ref.registerUserClient c).2
      (.registerReturned c (s.ref.registerUserClient c).1) := by
  unfold NkeIOUserClientRef.registerUserClient
  by_cases hp : s.ref.pendingUnregistration
  · rw [if_pos hp]
    have hfail : s.ref.access (.checkPending c) =
        some (.idle, s.ref, [] ++ [.registerReturned c .kIOReturnError]) := by
      simp [NkeIOUserClientRef.access, hp]
    exact .last hfail
  · rw [if_neg hp]
    have hcheck : s.ref.access (.checkPending c) = some (.swapIn c, s.ref, []) := by
      simp [NkeIOUserClientRef.access, hp]
    refine .step hcheck ?_
    by_cases hc : s.ref.userClient = none
    · have hswap : s.ref.access (.swapIn c) =
          some (.retain c, { s.ref with userClient := some c }, [.registered c]) := by
        simp [NkeIOUserClientRef.access, NkeIOUserClientRef.compareAndSwap, hc]
      simp only [NkeIOUserClientRef.compareAndSwap, hc, if_true]
      refine .step hswap ?_
      exact .last (e := [.retained c]) rfl
    · have hswap : s.ref.access (.swapIn c) =
          some (.idle, s.ref, [] ++ [.registerReturned c .kIOReturnError]) := by
        simp [NkeIOUserClientRef.access, NkeIOUserClientRef.compareAndSwap, hc]
      simp only [NkeIOUserClientRef.compareAndSwap, hc, if_false]
      exact .last hswap

/-- So is `unregisterUserClient`, when no invocation is in flight. -/
theorem unregisterUserClient_returns (s : UserClientState T C) (t : T) (c : C)
    (hinv : s.ref.clientInvocations = 0) :
    Returns s t (.readRegistered c) (s.ref.unregisterUserClient c).2
      (.unregisterReturned c (s.ref.unregisterUserClient c).1) := by
  unfold NkeIOUserClientRef.unregisterUserClient
  by_cases hc : s.ref.userClient = some c
  · rw [if_neg (not_not.2 hc)]
    have hread : s.ref.access (.readRegistered c) = some (.setPending c, s.ref, []) := by
      simp [NkeIOUserClientRef.access, hc]
    have hswap : { s.ref with pendingUnregistration := true }.access (.swapOut c) =
        some (.waitInvocations c, { s.ref with pendingUnregistration := true, userClient := none }, []) := by
      simp [NkeIOUserClientRef.access, NkeIOUserClientRef.compareAndSwap, hc]
    have hwait : { s.ref with pendingUnregistration := true, userClient := none }.access (.waitInvocations c) =
        some (.release c, { s.ref with pendingUnregistration := true, userClient := none }, []) := by
      simp [NkeIOUserClientRef.access, hinv]
    simp only [NkeIOUserClientRef.compareAndSwap, hc, if_true]
    refine .step hread (.step rfl (.step hswap (.step hwait (.step rfl ?_))))
    exact .last (e := []) rfl
  · rw [if_pos hc]
    have hread : s.ref.access (.readRegistered c) =
        some (.idle, s.ref, [] ++ [.unregisterReturned c .kIOReturnError]) := by
      simp [NkeIOUserClientRef.access, hc]
    exact .last hread

end Alone

/-! ### The client objects -/

inductive SessionReturn where
  | kIOReturnSuccess
  | kIOReturnError
  | kIOReturnNotAttached
  | kIOReturnExclusiveAccess
  deriving DecidableEq, Repr

def RegistrationResult.toSessionReturn : RegistrationResult → SessionReturn
  | kIOReturnSuccess => .kIOReturnSuccess
  | kIOReturnError => .kIOReturnError

/-- What `open`, `close` and `clientClose` read of their object; `fProvider` is whether it is not `NULL`. -/
structure NkeIOUserClient where
  inactive : Bool
  fProvider : Bool
  clientClosedItself : Bool
  deriving DecidableEq, Repr

/-- The owner of the provider, the two references, and the client objects. -/
structure ClientSession (C : Type*) where
  owner : Option C
  gServiceUserClient : NkeIOUserClientRef C
  gSocketFilter : NkeIOUserClientRef C
  clients : C → NkeIOUserClient

namespace ClientSession
variable {C : Type*}

def start : ClientSession C where
  owner := none
  gServiceUserClient := .init
  gSocketFilter := .init
  clients := fun _ => ⟨false, true, false⟩

variable [DecidableEq C]

def setClient (s : ClientSession C) (c : C) (client : NkeIOUserClient) : ClientSession C :=
  { s with clients := Function.update s.clients c client }

/-- `fProvider->close( this )`, for a provider that is open for the client. -/
def closeProvider (s : ClientSession C) (c : C) : ClientSession C :=
  if (s.clients c).fProvider ∧ s.owner = some c then { s with owner := none } else s

def startLogging (s : ClientSession C) (c : C) : SessionReturn × ClientSession C :=
  let (RC, gServiceUserClient) := s.gServiceUserClient.registerUserClient c
  let s := { s with gServiceUserClient }
  if RC ≠ .kIOReturnSuccess then
    (RC.toSessionReturn, { s with gSocketFilter := (s.gSocketFilter.unregisterUserClient c).2 })
  else
    let (RC, gSocketFilter) := s.gSocketFilter.registerUserClient c
    let s := { s with gSocketFilter }
    if RC ≠ .kIOReturnSuccess then
      (RC.toSessionReturn, { s with gSocketFilter := (s.gSocketFilter.unregisterUserClient c).2 })
    else (RC.toSessionReturn, s)

def stopLogging (s : ClientSession C) (c : C) : ClientSession C :=
  { s with
    gSocketFilter := (s.gSocketFilter.unregisterUserClient c).2
    gServiceUserClient := (s.gServiceUserClient.unregisterUserClient c).2 }

def close (s : ClientSession C) (c : C) : SessionReturn × ClientSession C :=
  if !(s.clients c).fProvider then (.kIOReturnNotAttached, s)
  else
    let s := s.closeProvider c
    (.kIOReturnSuccess, s.setClient c { s.clients c with clientClosedItself := true })

/-- With `super::terminate`, which makes the object inactive. -/
def terminate (s : ClientSession C) (c : C) : ClientSession C :=
  let s := (s.closeProvider c).stopLogging c
  s.setClient c { s.clients c with inactive := true }

def clientClose (s : ClientSession C) (c : C) : SessionReturn × ClientSession C :=
  let s := if !(s.clients c).clientClosedItself then ((s.closeProvider c).close c).2 else s
  let s := s.terminate c
  (.kIOReturnSuccess, s.setClient c { s.clients c with fProvider := false })

end ClientSession

/-- `fProvider->open( this )` succeeds when the provider has no owner. -/
def ClientSession.open {C : Type*} [DecidableEq C] (s : ClientSession C) (c : C) :
    SessionReturn × ClientSession C :=
  if (s.clients c).inactive then (.kIOReturnNotAttached, s)
  else if s.owner ≠ none then (.kIOReturnExclusiveAccess, s)
  else ClientSession.startLogging { s with owner := some c } c

inductive SessionCall (C : Type*) where
  | callOpen (c : C)
  | callClose (c : C)
  | callClientClose (c : C)
  deriving DecidableEq, Repr

def ClientSession.call {C : Type*} [DecidableEq C] (s : ClientSession C) :
    SessionCall C → SessionReturn × ClientSession C
  | .callOpen c => s.open c
  | .callClose c => s.close c
  | .callClientClose c => s.clientClose c

/-- The calls, one at a time; what a call returned is observed. -/
def sessionMachine (C : Type*) [DecidableEq C] : Machine (ClientSession C) (SessionCall C) SessionReturn where
  step s a := some ((s.call a).2, [(s.call a).1])

/-! ### All or nothing -/

variable {C : Type*} [DecidableEq C] {s : ClientSession C} {a : SessionCall C} {c : C}

/-- After the call both references hold the same client or none, and an `open` that failed left the owner
and both registrations as they were. -/
structure AllOrNothing (s : ClientSession C) (a : SessionCall C) : Prop where
  agree : (s.call a).2.gServiceUserClient.userClient = (s.call a).2.gSocketFilter.userClient
  unchanged : ∀ c, a = .callOpen c → (s.call a).1 ≠ .kIOReturnSuccess →
    (s.call a).2.owner = s.owner ∧
      (s.call a).2.gServiceUserClient.userClient = s.gServiceUserClient.userClient ∧
      (s.call a).2.gSocketFilter.userClient = s.gSocketFilter.userClient

/-- An active client that opens a provider without owner finds nobody registered. -/
def OpensUnregistered (s : ClientSession C) (a : SessionCall C) : Prop :=
  ∀ c, a = .callOpen c → (s.clients c).inactive = false → s.owner = none →
    s.gServiceUserClient.userClient = none ∧ s.gSocketFilter.userClient = none

/-- Between two calls that were all-or-nothing. -/
structure Agreed (s : ClientSession C) : Prop where
  userClient : s.gServiceUserClient.userClient = s.gSocketFilter.userClient
  servicePending : s.gServiceUserClient.pendingUnregistration = false
  filterPending : s.gSocketFilter.pendingUnregistration = false

omit [DecidableEq C] in
theorem agreed_start : Agreed (ClientSession.start : ClientSession C) := ⟨rfl, rfl, rfl⟩

namespace NkeIOUserClientRef
variable {ref : NkeIOUserClientRef C}

theorem registerUserClient_empty (hp : ref.pendingUnregistration = false) (h : ref.userClient = none) :
    ref.registerUserClient c = (.kIOReturnSuccess, { ref with userClient := some c }) := by
  simp [registerUserClient, compareAndSwap, hp, h]

theorem registerUserClient_taken (h : ref.userClient ≠ none) :
    ref.registerUserClient c = (.kIOReturnError, ref) := by
  simp [registerUserClient, compareAndSwap, h]

theorem unregisterUserClient_userClient :
    (ref.unregisterUserClient c).2.userClient = if ref.userClient = some c then none else ref.userClient := by
  unfold unregisterUserClient compareAndSwap
  by_cases h : ref.userClient = some c <;> simp [h]

theorem unregisterUserClient_pending (hp : ref.pendingUnregistration = false) :
    (ref.unregisterUserClient c).2.pendingUnregistration = false := by
  unfold unregisterUserClient
  split
  · exact hp
  · rfl

end NkeIOUserClientRef

namespace ClientSession

theorem closeProvider_refs : (s.closeProvider c).gServiceUserClient = s.gServiceUserClient ∧
    (s.closeProvider c).gSocketFilter = s.gSocketFilter := by
  unfold closeProvider
  split <;> exact ⟨rfl, rfl⟩

theorem close_refs : (s.close c).2.gServiceUserClient = s.gServiceUserClient ∧
    (s.close c).2.gSocketFilter = s.gSocketFilter := by
  unfold close
  split
  · exact ⟨rfl, rfl⟩
  · exact closeProvider_refs

/-- Before it terminates the object, `clientClose` touches the provider only. -/
theorem clientClose_refs :
    (s.clientClose c).2.gServiceUserClient = (s.gServiceUserClient.unregisterUserClient c).2 ∧
    (s.clientClose c).2.gSocketFilter = (s.gSocketFilter.unregisterUserClient c).2 := by
  have hterminate : ∀ t : ClientSession C, t.gServiceUserClient = s.gServiceUserClient →
      t.gSocketFilter = s.gSocketFilter →
      (t.terminate c).gServiceUserClient = (s.gServiceUserClient.unregisterUserClient c).2 ∧
        (t.terminate c).gSocketFilter = (s.gSocketFilter.unregisterUserClient c).2 := by
    intro t hsvc hflt
    obtain ⟨hsvc', hflt'⟩ := closeProvider_refs (s := t) (c := c)
    simp only [terminate, stopLogging, setClient, hsvc', hflt', hsvc, hflt, and_self]
  unfold clientClose
  split
  · obtain ⟨hsvc, hflt⟩ := closeProvider_refs (s := s) (c := c)
    obtain ⟨hsvc', hflt'⟩ := close_refs (s := s.closeProvider c) (c := c)
    exact hterminate _ (hsvc'.trans hsvc) (hflt'.trans hflt)
  · exact hterminate s rfl rfl

/-- How `open` can end, from a state in which the references agree. -/
inductive OpenEnd (s : ClientSession C) (c : C) : SessionReturn × ClientSession C → Prop
  | refused {result : SessionReturn} : (s.clients c).inactive ∨ s.owner ≠ none → result ≠ .kIOReturnSuccess →
      OpenEnd s c (result, s)
  | opened : s.gServiceUserClient.userClient = none →
      OpenEnd s c (.kIOReturnSuccess,
        { s with
          owner := some c
          gServiceUserClient := { s.gServiceUserClient with userClient := some c }
          gSocketFilter := { s.gSocketFilter with userClient := some c } })
  /-- somebody is still registered -/
  | stuck {gSocketFilter : NkeIOUserClientRef C} : (s.clients c).inactive = false → s.owner = none →
      s.gServiceUserClient.userClient ≠ none →
      OpenEnd s c (.kIOReturnError, { s with owner := some c, gSocketFilter })

theorem open_spec (h : Agreed s) : OpenEnd s c (s.open c) := by
  unfold ClientSession.open
  by_cases hin : (s.clients c).inactive
  · rw [if_pos hin]
    exact .refused (.inl hin) nofun
  · rw [if_neg hin]
    by_cases how : s.owner = none
    · rw [if_neg (not_not.2 how)]
      by_cases hsvc : s.gServiceUserClient.userClient = none
      · have hreg := NkeIOUserClientRef.registerUserClient_empty (c := c) h.servicePending hsvc
        have hflt := NkeIOUserClientRef.registerUserClient_empty (c := c) h.filterPending
          (h.userClient.symm.trans hsvc)
        simp only [startLogging, hreg, hflt]
        exact .opened hsvc
      · have hreg := NkeIOUserClientRef.registerUserClient_taken (c := c) hsvc
        simp only [startLogging, hreg]
        exact .stuck (by simpa using hin) how hsvc
    · rw [if_pos how]
      exact .refused (.inr how) nofun

end ClientSession

theorem Agreed.of_unregistered {t : ClientSession C} (h : Agreed s)
    (hsvc : t.gServiceUserClient = (s.gServiceUserClient.unregisterUserClient c).2)
    (hflt : t.gSocketFilter = (s.gSocketFilter.unregisterUserClient c).2) : Agreed t := by
  refine ⟨?_, ?_, ?_⟩
  · rw [hsvc, hflt, NkeIOUserClientRef.unregisterUserClient_userClient,
      NkeIOUserClientRef.unregisterUserClient_userClient, h.userClient]
  · rw [hsvc]
    exact NkeIOUserClientRef.unregisterUserClient_pending h.servicePending
  · rw [hflt]
    exact NkeIOUserClientRef.unregisterUserClient_pending h.filterPending

omit [DecidableEq C] in
theorem Agreed.of_refs {t : ClientSession C} (h : Agreed s) (hsvc : t.gServiceUserClient = s.gServiceUserClient)
    (hflt : t.gSocketFilter = s.gSocketFilter) : Agreed t :=
  ⟨by rw [hsvc, hflt, h.userClient], by rw [hsvc, h.servicePending], by rw [hflt, h.filterPending]⟩

/-- One call: it is all-or-nothing exactly when it meets the condition, and then the references agree on. -/
theorem Agreed.call (h : Agreed s) (a : SessionCall C) :
    (AllOrNothing s a ↔ OpensUnregistered s a) ∧ (AllOrNothing s a → Agreed (s.call a).2) := by
  cases a with
  | callOpen c =>
    have hend := ClientSession.open_spec (c := c) h
    have hcall : s.call (.callOpen c) = s.open c := rfl
    generalize s.open c = r at hend hcall
    cases hend with
    | @refused result hwhy hne =>
      have hgood : AllOrNothing s (.callOpen c) := by
        refine ⟨?_, ?_⟩
        · rw [hcall]
          exact h.userClient
        · rw [hcall]
          exact fun _ _ _ => ⟨rfl, rfl, rfl⟩
      refine ⟨⟨fun _ c' hc hin how => ?_, fun _ => hgood⟩, fun _ => by rw [hcall]; exact h⟩
      obtain rfl := SessionCall.callOpen.inj hc
      rcases hwhy with hwhy | hwhy
      · rw [hin] at hwhy
        cases hwhy
      · exact absurd how hwhy
    | opened hnone =>
      have hnext : Agreed (s.call (.callOpen c)).2 := by
        rw [hcall]
        exact ⟨rfl, h.servicePending, h.filterPending⟩
      refine ⟨⟨fun _ _ _ _ _ => ⟨hnone, h.userClient.symm.trans hnone⟩, fun _ => ⟨hnext.userClient, ?_⟩⟩,
        fun _ => hnext⟩
      intro c' _ hfail
      rw [hcall] at hfail
      exact absurd rfl hfail
    | stuck hin how htaken =>
      -- the owner has changed although the call failed
      have hbad : ¬ AllOrNothing s (.callOpen c) := by
        intro hgood
        have hsame := (hgood.unchanged c rfl (by rw [hcall]; exact nofun)).1
        rw [hcall, how] at hsame
        cases hsame
      exact ⟨⟨fun hgood => absurd hgood hbad, fun hcond => absurd (hcond c rfl hin how).1 htaken⟩,
        fun hgood => absurd hgood hbad⟩
  | callClose c =>
    have hnext : Agreed (s.call (.callClose c)).2 :=
      h.of_refs ClientSession.close_refs.1 ClientSession.close_refs.2
    exact ⟨⟨fun _ => nofun, fun _ => ⟨hnext.userClient, nofun⟩⟩, fun _ => hnext⟩
  | callClientClose c =>
    have hnext : Agreed (s.call (.callClientClose c)).2 :=
      h.of_unregistered ClientSession.clientClose_refs.1 ClientSession.clientClose_refs.2
    exact ⟨⟨fun _ => nofun, fun _ => ⟨hnext.userClient, nofun⟩⟩, fun _ => hnext⟩

/-- For every sequence of calls by any clients: all of them are all-or-nothing exactly when nobody opens the
provider while somebody is still registered. -/
theorem allOrNothing_iff (as : List (SessionCall C)) :
    (sessionMachine C).Along AllOrNothing ClientSession.start as ↔
      (sessionMachine C).Along OpensUnregistered ClientSession.start as := by
  refine Machine.along_congr agreed_start (fun _ a h => (h.call a).1) ?_
  intro s a s' e h hgood hs
  obtain ⟨rfl, -⟩ := Prod.mk.inj (Option.some.inj hs)
  exact (h.call a).2 hgood

/-- A client opens, closes and opens again: the second `open` fails, and the client owns the provider. -/
theorem reopen_notAllOrNothing : ¬ (sessionMachine Nat).Along AllOrNothing ClientSession.start
    [.callOpen 0, .callClose 0, .callOpen 0] := by
  intro h
  have hlast := ((h.2 _ _ rfl).2 _ _ rfl).1.unchanged 0 rfl (by decide)
  exact absurd hlast.1 (by decide)

end NkeFilter
