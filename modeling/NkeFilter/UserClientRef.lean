import NkeFilter.Lib.Machine
import NkeFilter.Lib.Tally

/-!
# The reference to the user client

`NkeIOUserClientRef` with any number of threads in its functions, one step for each read, write,
compare-and-swap and atomic increment or decrement. A thread that gets the client announces itself in
`clientInvocations` before it reads the client; a thread that unregisters the client takes it out before it
waits for the counter to become zero.
-/

namespace NkeFilter
open Lib

structure NkeIOUserClientRef (C : Type*) where
  pendingUnregistration : Bool
  clientInvocations : UInt32
  userClient : Option C
  deriving DecidableEq, Repr

inductive RegistrationResult where
  | kIOReturnSuccess
  | kIOReturnError
  deriving DecidableEq, Repr

/-- What a thread does next. -/
inductive UserClientAccess (C : Type*) where
  /-- outside, without a client -/
  | idle
  -- `getUserClient`
  | readUserClient
  | readPending
  | increment
  | readCurrentClient
  | exchange (currentClient : C)
  | compareNull (currentClient : C)
  /-- the decrement after a failed exchange -/
  | giveUp
  /-- outside, with the client that `getUserClient` returned -/
  | holding (currentClient : C)
  -- `releaseUserClient`
  | decrement (currentClient : C)
  | readForWakeup
  -- `registerUserClient`
  | checkPending (client : C)
  | swapIn (client : C)
  | retain (client : C)
  -- `unregisterUserClient`
  | readRegistered (client : C)
  | setPending (client : C)
  | swapOut (client : C)
  | swapFailed (client : C)
  | waitInvocations (client : C)
  | release (client : C)
  | clearPending (client : C)
  deriving DecidableEq, Repr

inductive UserClientEvent (C : Type*) where
  /-- `getUserClient` returned. -/
  | got (client : Option C)
  /-- The swap of `registerUserClient` put the client in. -/
  | registered (client : C)
  | registerReturned (client : C) (result : RegistrationResult)
  | unregisterReturned (client : C) (result : RegistrationResult)
  | retained (client : C)
  | released (client : C)
  | wakeup
  deriving DecidableEq, Repr

/-- The calls a thread can make. -/
inductive UserClientCall (C : Type*) where
  | getUserClient
  | releaseUserClient
  | registerUserClient (client : C)
  | unregisterUserClient (client : C)
  deriving DecidableEq, Repr

namespace UserClientCall
variable {C : Type*}

/-- Where a call starts; only a thread that was given the client releases it. -/
def enter : UserClientCall C → UserClientAccess C → Option (UserClientAccess C)
  | getUserClient, .idle => some .readUserClient
  | releaseUserClient, .holding client => some (.decrement client)
  | registerUserClient client, .idle => some (.checkPending client)
  | unregisterUserClient client, .idle => some (.readRegistered client)
  | _, _ => none

end UserClientCall

namespace NkeIOUserClientRef
variable {C : Type*}

def init : NkeIOUserClientRef C := ⟨false, 0, none⟩

/-- `OSDecrementAtomic`, and whether it returned `1`: that was the last invocation. -/
def decrementInvocations (ref : NkeIOUserClientRef C) : Bool × NkeIOUserClientRef C :=
  (ref.clientInvocations == 1, { ref with clientInvocations := ref.clientInvocations - 1 })

variable [DecidableEq C]

/-- `OSCompareAndSwapPtr`: the outcome and the reference after it. -/
def compareAndSwap (ref : NkeIOUserClientRef C) (oldValue newValue : Option C) : Bool × NkeIOUserClientRef C :=
  if ref.userClient = oldValue then (true, { ref with userClient := newValue }) else (false, ref)

/-- One access of a thread: what the thread does after it, the reference, and what happened. -/
def access (ref : NkeIOUserClientRef C) :
    UserClientAccess C → Option (UserClientAccess C × NkeIOUserClientRef C × List (UserClientEvent C))
  | .idle | .holding _ => none
  | .readUserClient =>
    if ref.userClient = none then some (.idle, ref, [.got none]) else some (.readPending, ref, [])
  | .readPending =>
    if ref.pendingUnregistration then some (.idle, ref, [.got none]) else some (.increment, ref, [])
  | .increment =>
    some (.readCurrentClient, { ref with clientInvocations := ref.clientInvocations + 1 }, [])
  | .readCurrentClient => match ref.userClient with
    | none => some (.giveUp, ref, [])
    | some currentClient => some (.exchange currentClient, ref, [])
  | .exchange currentClient =>
    let (exchanged, ref) := ref.compareAndSwap (some currentClient) (some currentClient)
    some (if exchanged then .compareNull currentClient else .giveUp, ref, [])
  | .compareNull currentClient =>
    let (exchanged, ref) := ref.compareAndSwap none none
    if exchanged then some (.giveUp, ref, [])
    else some (.holding currentClient, ref, [.got (some currentClient)])
  | .giveUp =>
    let (last, ref) := ref.decrementInvocations
    some (.idle, ref, (if last then [.wakeup] else []) ++ [.got none])
  | .decrement _ =>
    let (last, ref) := ref.decrementInvocations
    some (if last then .readForWakeup else .idle, ref, [])
  | .readForWakeup => some (.idle, ref, if ref.userClient = none then [.wakeup] else [])
  | .checkPending client =>
    if ref.pendingUnregistration then some (.idle, ref, [.registerReturned client .kIOReturnError])
    else some (.swapIn client, ref, [])
  | .swapIn client =>
    let (registered, ref) := ref.compareAndSwap none (some client)
    if registered then some (.retain client, ref, [.registered client])
    else some (.idle, ref, [.registerReturned client .kIOReturnError])
  | .retain client => some (.idle, ref, [.retained client, .registerReturned client .kIOReturnSuccess])
  | .readRegistered client =>
    if ref.userClient = some client then some (.setPending client, ref, [])
    else some (.idle, ref, [.unregisterReturned client .kIOReturnError])
  | .setPending client => some (.swapOut client, { ref with pendingUnregistration := true }, [])
  | .swapOut client =>
    let (unregistered, ref) := ref.compareAndSwap (some client) none
    some (if unregistered then .waitInvocations client else .swapFailed client, ref, [])
  | .swapFailed client =>
    some (.idle, { ref with pendingUnregistration := false }, [.unregisterReturned client .kIOReturnError])
  -- `msleep` has returned
  | .waitInvocations client =>
    some (if ref.clientInvocations ≠ 0 then .waitInvocations client else .release client, ref, [])
  | .release client => some (.clearPending client, ref, [.released client])
  | .clearPending client =>
    some (.idle, { ref with pendingUnregistration := false }, [.unregisterReturned client .kIOReturnSuccess])

end NkeIOUserClientRef

/-- The reference and what each thread does next. -/
structure UserClientState (T C : Type*) where
  ref : NkeIOUserClientRef C
  threads : T → UserClientAccess C

inductive UserClientLabel (T C : Type*) where
  | call (thread : T) (call : UserClientCall C)
  | access (thread : T)
  deriving DecidableEq, Repr

namespace UserClientState
variable {T C : Type*}

def start : UserClientState T C := ⟨.init, fun _ => .idle⟩

variable [DecidableEq T] [DecidableEq C]

def step (s : UserClientState T C) :
    UserClientLabel T C → Option (UserClientState T C × List (UserClientEvent C))
  | .call thread call =>
    (call.enter (s.threads thread)).map fun next =>
      ({ s with threads := Function.update s.threads thread next }, [])
  | .access thread => (s.ref.access (s.threads thread)).map fun (next, ref, events) =>
    (⟨ref, Function.update s.threads thread next⟩, events)

end UserClientState

/-- Any interleaving of any number of threads `T`. A thread of the kernel that gets the client while it has
it already is another one here. -/
def userClientMachine (T C : Type*) [DecidableEq T] [DecidableEq C] :
    Machine (UserClientState T C) (UserClientLabel T C) (UserClientEvent C) where
  step := UserClientState.step

/-! ### What an access can do -/

namespace UserClientAccess
variable {C : Type*}

/-- Between the increment and the decrement. -/
def invoking : UserClientAccess C → Bool
  | readCurrentClient | exchange _ | compareNull _ | giveUp | holding _ | decrement _ => true
  | _ => false

/-- The client that was still in place when the thread, already counted, exchanged it. -/
def confirmed : UserClientAccess C → Option C
  | compareNull client | holding client | decrement client => some client
  | _ => none

/-- The client the thread has taken out. -/
def takenOut : UserClientAccess C → Option C
  | waitInvocations client | release client | clearPending client => some client
  | _ => none

/-- The client the thread has taken out and waited for. -/
def waited : UserClientAccess C → Option C
  | release client | clearPending client => some client
  | _ => none

variable {a : UserClientAccess C} {client : C}

theorem invoking_of_confirmed (h : a.confirmed = some client) : a.invoking := by
  cases a with
  | compareNull | holding | decrement => rfl
  | _ => cases h

theorem takenOut_of_waited (h : a.waited = some client) : a.takenOut = some client := by
  cases a with
  | release | clearPending => exact h
  | _ => cases h

theorem not_confirmed_of_waited (h : a.waited = some client) : a.confirmed ≠ some client := by
  cases a with
  | release | clearPending => exact nofun
  | _ => cases h

end UserClientAccess

section Access
variable {C : Type*}

/-- A thread does not gain anything by moving from `a` to `a'`. -/
structure Keeps (a a' : UserClientAccess C) : Prop where
  confirmed : ∀ client, a'.confirmed = some client → a.confirmed = some client
  takenOut : ∀ client, a'.takenOut = some client → a.takenOut = some client
  waited : ∀ client, a'.waited = some client → a.waited = some client

/-- The accesses by what they do to the reference and to what the thread knows. -/
inductive AccessEffect (ref : NkeIOUserClientRef C) :
    UserClientAccess C → UserClientAccess C → NkeIOUserClientRef C → List (UserClientEvent C) → Prop
  | quiet {a a' : UserClientAccess C} {pending : Bool} {e : List (UserClientEvent C)} :
      Keeps a a' → a'.invoking = a.invoking → (∀ client, .registered client ∉ e) →
      AccessEffect ref a a' { ref with pendingUnregistration := pending } e
  | increment : AccessEffect ref .increment .readCurrentClient
      { ref with clientInvocations := ref.clientInvocations + 1 } []
  | confirm {client : C} : ref.userClient = some client →
      AccessEffect ref (.exchange client) (.compareNull client) ref []
  | leave {a a' : UserClientAccess C} {e : List (UserClientEvent C)} :
      Keeps a a' → a.invoking → a'.invoking = false → (∀ client, .registered client ∉ e) →
      AccessEffect ref a a' { ref with clientInvocations := ref.clientInvocations - 1 } e
  | swapIn {client : C} : ref.userClient = none →
      AccessEffect ref (.swapIn client) (.retain client) { ref with userClient := some client }
        [.registered client]
  | swapOut {client : C} : ref.userClient = some client →
      AccessEffect ref (.swapOut client) (.waitInvocations client) { ref with userClient := none } []
  | waited {client : C} : ref.clientInvocations = 0 →
      AccessEffect ref (.waitInvocations client) (.release client) ref []

variable {ref ref' : NkeIOUserClientRef C} {a a' : UserClientAccess C} {e : List (UserClientEvent C)}
  {client : C}

theorem Keeps.refl (a : UserClientAccess C) : Keeps a a := ⟨fun _ h => h, fun _ h => h, fun _ h => h⟩

theorem keeps_of_none (hc : a'.confirmed = none) (ht : a'.takenOut = none) : Keeps a a' := by
  refine ⟨?_, ?_, ?_⟩
  · intro client h
    rw [hc] at h
    cases h
  · intro client h
    rw [ht] at h
    cases h
  · intro client h
    rw [UserClientAccess.takenOut_of_waited h] at ht
    cases ht

theorem AccessEffect.move (hk : Keeps a a') (hi : a'.invoking = a.invoking)
    (he : ∀ client, .registered client ∉ e) : AccessEffect ref a a' ref e :=
  @AccessEffect.quiet _ ref a a' ref.pendingUnregistration e hk hi he

theorem enter_keeps {call : UserClientCall C} (h : call.enter a = some a') :
    Keeps a a' ∧ a'.invoking = a.invoking := by
  cases call <;> cases a <;> cases h
  · exact ⟨keeps_of_none rfl rfl, rfl⟩
  · exact ⟨⟨fun _ h => h, fun _ h => h, fun _ h => h⟩, rfl⟩
  · exact ⟨keeps_of_none rfl rfl, rfl⟩
  · exact ⟨keeps_of_none rfl rfl, rfl⟩

variable [DecidableEq C]

theorem compareAndSwap_of_eq {oldValue newValue : Option C} (h : ref.userClient = oldValue) :
    ref.compareAndSwap oldValue newValue = (true, { ref with userClient := newValue }) := if_pos h

theorem compareAndSwap_of_ne {oldValue newValue : Option C} (h : ref.userClient ≠ oldValue) :
    ref.compareAndSwap oldValue newValue = (false, ref) := if_neg h

/-- The exchange of a value with itself changes nothing. -/
theorem compareAndSwap_self {value : Option C} : (ref.compareAndSwap value value).2 = ref := by
  by_cases h : ref.userClient = value
  · rw [compareAndSwap_of_eq h, ← h]
  · rw [compareAndSwap_of_ne h]

/-! The four accesses that compare and swap. -/

theorem access_exchange (hs : ref.access (.exchange client) = some (a', ref', e)) :
    (ref.userClient = some client ∧ a' = .compareNull client ∨ ref.userClient ≠ some client ∧ a' = .giveUp) ∧
      ref' = ref ∧ e = [] := by
  simp only [NkeIOUserClientRef.access, compareAndSwap_self] at hs
  by_cases hc : ref.userClient = some client
  · rw [compareAndSwap_of_eq hc, if_pos rfl] at hs
    cases hs
    exact ⟨.inl ⟨hc, rfl⟩, rfl, rfl⟩
  · rw [compareAndSwap_of_ne hc, if_neg Bool.false_ne_true] at hs
    cases hs
    exact ⟨.inr ⟨hc, rfl⟩, rfl, rfl⟩

theorem access_compareNull (hs : ref.access (.compareNull client) = some (a', ref', e)) :
    (ref.userClient = none ∧ a' = .giveUp ∧ e = [] ∨
      ref.userClient ≠ none ∧ a' = .holding client ∧ e = [.got (some client)]) ∧ ref' = ref := by
  simp only [NkeIOUserClientRef.access, compareAndSwap_self] at hs
  by_cases hc : ref.userClient = none
  · rw [compareAndSwap_of_eq hc, if_pos rfl] at hs
    cases hs
    exact ⟨.inl ⟨hc, rfl, rfl⟩, rfl⟩
  · rw [compareAndSwap_of_ne hc, if_neg Bool.false_ne_true] at hs
    cases hs
    exact ⟨.inr ⟨hc, rfl, rfl⟩, rfl⟩

theorem access_swapIn (hs : ref.access (.swapIn client) = some (a', ref', e)) :
    (ref.userClient = none ∧ a' = .retain client ∧ ref' = { ref with userClient := some client } ∧
      e = [.registered client]) ∨
    (a' = .idle ∧ ref' = ref ∧ e = [.registerReturned client .kIOReturnError]) := by
  simp only [NkeIOUserClientRef.access] at hs
  by_cases hc : ref.userClient = none
  · rw [compareAndSwap_of_eq hc, if_pos rfl] at hs
    cases hs
    exact .inl ⟨hc, rfl, rfl, rfl⟩
  · rw [compareAndSwap_of_ne hc, if_neg Bool.false_ne_true] at hs
    cases hs
    exact .inr ⟨rfl, rfl, rfl⟩

theorem access_swapOut (hs : ref.access (.swapOut client) = some (a', ref', e)) :
    (ref.userClient = some client ∧ a' = .waitInvocations client ∧ ref' = { ref with userClient := none } ∨
      ref.userClient ≠ some client ∧ a' = .swapFailed client ∧ ref' = ref) ∧ e = [] := by
  simp only [NkeIOUserClientRef.access] at hs
  by_cases hc : ref.userClient = some client
  · rw [compareAndSwap_of_eq hc, if_pos rfl] at hs
    cases hs
    exact ⟨.inl ⟨hc, rfl, rfl⟩, rfl⟩
  · rw [compareAndSwap_of_ne hc, if_neg Bool.false_ne_true] at hs
    cases hs
    exact ⟨.inr ⟨hc, rfl, rfl⟩, rfl⟩

theorem access_inv (hs : ref.access a = some (a', ref', e)) : AccessEffect ref a a' ref' e := by
  cases a with
  | idle => cases hs
  | holding => cases hs
  | readUserClient =>
    simp only [NkeIOUserClientRef.access] at hs
    split at hs <;> cases hs <;> exact .move (keeps_of_none rfl rfl) rfl (by simp)
  | readPending =>
    simp only [NkeIOUserClientRef.access] at hs
    split at hs <;> cases hs <;> exact .move (keeps_of_none rfl rfl) rfl (by simp)
  | increment =>
    cases hs
    exact .increment
  | readCurrentClient =>
    simp only [NkeIOUserClientRef.access] at hs
    split at hs <;> cases hs <;> exact .move (keeps_of_none rfl rfl) rfl (by simp)
  | exchange currentClient =>
    obtain ⟨⟨hc, rfl⟩ | ⟨-, rfl⟩, rfl, rfl⟩ := access_exchange hs
    · exact .confirm hc
    · exact .move (keeps_of_none rfl rfl) rfl (by simp)
  | compareNull currentClient =>
    obtain ⟨⟨-, rfl, rfl⟩ | ⟨-, rfl, rfl⟩, rfl⟩ := access_compareNull hs
    · exact .move (keeps_of_none rfl rfl) rfl (by simp)
    · exact .move ⟨fun _ h => h, fun _ h => h, fun _ h => h⟩ rfl (by simp)
  | giveUp =>
    cases hs
    refine .leave (keeps_of_none rfl rfl) rfl rfl ?_
    intro client
    split <;> simp
  | decrement client =>
    cases hs
    split
    · exact .leave (keeps_of_none rfl rfl) rfl rfl (by simp)
    · exact .leave (keeps_of_none rfl rfl) rfl rfl (by simp)
  | readForWakeup =>
    simp only [NkeIOUserClientRef.access] at hs
    split at hs <;> cases hs <;> exact .move (keeps_of_none rfl rfl) rfl (by simp)
  | checkPending client =>
    simp only [NkeIOUserClientRef.access] at hs
    split at hs <;> cases hs <;> exact .move (keeps_of_none rfl rfl) rfl (by simp)
  | swapIn client =>
    obtain ⟨hc, rfl, rfl, rfl⟩ | ⟨rfl, rfl, rfl⟩ := access_swapIn hs
    · exact .swapIn hc
    · exact .move (keeps_of_none rfl rfl) rfl (by simp)
  | retain client =>
    cases hs
    exact .move (keeps_of_none rfl rfl) rfl (by simp)
  | readRegistered client =>
    simp only [NkeIOUserClientRef.access] at hs
    split at hs <;> cases hs <;> exact .move (keeps_of_none rfl rfl) rfl (by simp)
  | setPending client =>
    cases hs
    exact .quiet (keeps_of_none rfl rfl) rfl (by simp)
  | swapOut client =>
    obtain ⟨⟨hc, rfl, rfl⟩ | ⟨-, rfl, rfl⟩, rfl⟩ := access_swapOut hs
    · exact .swapOut hc
    · exact .move (keeps_of_none rfl rfl) rfl (by simp)
  | swapFailed client =>
    cases hs
    exact .quiet (keeps_of_none rfl rfl) rfl (by simp)
  | waitInvocations client =>
    simp only [NkeIOUserClientRef.access] at hs
    by_cases hc : ref.clientInvocations = 0
    · simp only [hc, ne_eq, not_true, if_false] at hs
      cases hs
      exact .waited hc
    · rw [if_pos hc] at hs
      cases hs
      exact .move (.refl _) rfl (by simp)
  | release client =>
    cases hs
    exact .move ⟨fun _ h => h, fun _ h => h, fun _ h => h⟩ rfl (by simp)
  | clearPending client =>
    cases hs
    exact .quiet (keeps_of_none rfl rfl) rfl (by simp)

/-- Only a thread that has waited releases the client and returns success. -/
theorem access_waited (hs : ref.access a = some (a', ref', e))
    (he : .released client ∈ e ∨ .unregisterReturned client .kIOReturnSuccess ∈ e) :
    a.waited = some client := by
  cases a with
  | release client' =>
    cases hs
    simp only [List.mem_singleton, UserClientEvent.released.injEq, reduceCtorEq, or_false] at he
    rw [he]
    rfl
  | clearPending client' =>
    cases hs
    simp only [List.mem_singleton, UserClientEvent.unregisterReturned.injEq, reduceCtorEq, false_or,
      and_true] at he
    rw [he]
    rfl
  | _ =>
    simp only [NkeIOUserClientRef.access] at hs
    repeat' split at hs
    all_goals cases hs
    all_goals simp at he

end Access

/-! ### The threads together -/

section Threads
variable {T C : Type*} {s s' : UserClientState T C} {t : T}
  {l : UserClientLabel T C} {as : List (UserClientLabel T C)} {h e : List (UserClientEvent C)}

def UserClientLabel.thread : UserClientLabel T C → T
  | .call thread _ => thread
  | .access thread => thread

/-- The number of threads between the increment and the decrement. -/
noncomputable def invocations (s : UserClientState T C) : ℕ :=
  total (indicator fun a => a.invoking = true) s.threads

/-- The counter is the number of invocations as far as its 32 bits go. -/
structure Counted (s : UserClientState T C) : Prop where
  finite : FinitelyMany (indicator fun a => a.invoking = true) s.threads
  counter : s.ref.clientInvocations = UInt32.ofNat (invocations s)

/-- The increment does not wrap. -/
def FewInvocations (s : UserClientState T C) (l : UserClientLabel T C) : Prop :=
  s.threads l.thread = .increment → s.ref.clientInvocations.toNat + 1 < 2 ^ 32

instance FewInvocations.instDecidable [DecidableEq C] (s : UserClientState T C) (l : UserClientLabel T C) :
    Decidable (FewInvocations s l) := inferInstanceAs (Decidable (_ → _))

/-- Whoever has exchanged a client has it for itself: nobody has waited for its invocations. -/
structure HandedOut (s : UserClientState T C) (h : List (UserClientEvent C)) : Prop where
  counted : Counted s
  few : invocations s < 2 ^ 32
  present : ∀ client, s.ref.userClient = some client → .registered client ∈ h
  takenOut : ∀ thread client, (s.threads thread).takenOut = some client →
    .registered client ∈ h ∧ s.ref.userClient ≠ some client
  waited : ∀ thread client, (s.threads thread).waited = some client →
    ∀ thread', (s.threads thread').confirmed ≠ some client

theorem invocations_start : invocations (UserClientState.start : UserClientState T C) = 0 :=
  total_of_zero fun _ => rfl

theorem counted_start : Counted (UserClientState.start : UserClientState T C) :=
  ⟨finitelyMany_of_zero fun _ => rfl, invocations_start ▸ rfl⟩

theorem Counted.toNat_eq (hc : Counted s) (hfew : invocations s < 2 ^ 32) :
    s.ref.clientInvocations.toNat = invocations s := by
  rw [hc.counter, UInt32.toNat_ofNat_of_lt' hfew]

theorem Counted.pos_of_invoking (hc : Counted s) (hi : (s.threads t).invoking) :
    0 < invocations s :=
  total_pos hc.finite hi

theorem invoking_ncard (hc : Counted s) : invocations s = {t | (s.threads t).invoking}.ncard :=
  total_indicator hc.finite

theorem handedOut_start : HandedOut (UserClientState.start : UserClientState T C) [] where
  counted := counted_start
  few := invocations_start ▸ by decide
  present := by
    intro client h
    cases h
  takenOut := by
    intro thread client h
    cases h
  waited := by
    intro thread client h
    cases h

variable [DecidableEq T]

theorem invocations_update {a' : UserClientAccess C} {ref' : NkeIOUserClientRef C} (hc : Counted s) :
    invocations (⟨ref', Function.update s.threads t a'⟩ : UserClientState T C) +
      (if (s.threads t).invoking then 1 else 0) = invocations s + if a'.invoking then 1 else 0 :=
  total_update hc.finite t a'

/-- One thread moves to `a'`: what it then knows agrees with what the others know. -/
theorem HandedOut.move {a' : UserClientAccess C} (hH : HandedOut s h) (hc : Counted s')
    (hfew : invocations s' < 2 ^ 32) (hthreads : s'.threads = Function.update s.threads t a')
    (hpresent : ∀ client, s'.ref.userClient = some client → .registered client ∈ h ++ e)
    (htakenOut : ∀ client, a'.takenOut = some client →
      .registered client ∈ h ++ e ∧ s'.ref.userClient ≠ some client)
    (hothers : ∀ u client, (s.threads u).takenOut = some client → s'.ref.userClient ≠ some client)
    (hwaited : ∀ client, a'.waited = some client → ∀ u, (s.threads u).confirmed ≠ some client)
    (hconfirmed : ∀ client, a'.confirmed = some client → ∀ u, (s.threads u).waited ≠ some client) :
    HandedOut s' (h ++ e) := by
  refine ⟨hc, hfew, hpresent, ?_, ?_⟩
  · intro u client hu
    rw [hthreads] at hu
    by_cases hut : u = t
    · subst hut
      rw [Function.update_self] at hu
      exact htakenOut client hu
    · rw [Function.update_of_ne hut] at hu
      exact ⟨List.mem_append_left _ (hH.takenOut u client hu).1, hothers u client hu⟩
  · intro u client hu v hv
    rw [hthreads] at hu hv
    by_cases hut : u = t
    · subst hut
      rw [Function.update_self] at hu
      by_cases hvu : v = u
      · subst hvu
        rw [Function.update_self] at hv
        exact UserClientAccess.not_confirmed_of_waited hu hv
      · rw [Function.update_of_ne hvu] at hv
        exact hwaited client hu v hv
    · rw [Function.update_of_ne hut] at hu
      by_cases hvt : v = t
      · subst hvt
        rw [Function.update_self] at hv
        exact hconfirmed client hv u hu
      · rw [Function.update_of_ne hvt] at hv
        exact hH.waited u client hu v hv

/-- The thread gains nothing and the client stays where it is. -/
theorem HandedOut.keep {a' : UserClientAccess C} (hH : HandedOut s h) (hc : Counted s')
    (hfew : invocations s' < 2 ^ 32) (hthreads : s'.threads = Function.update s.threads t a')
    (hclient : s'.ref.userClient = s.ref.userClient) (hk : Keeps (s.threads t) a') :
    HandedOut s' (h ++ e) := by
  refine hH.move hc hfew hthreads ?_ ?_ ?_ ?_ ?_
  · intro client hp
    exact List.mem_append_left _ (hH.present client (hclient ▸ hp))
  · intro client ht
    obtain ⟨hmem, hne⟩ := hH.takenOut t client (hk.takenOut client ht)
    exact ⟨List.mem_append_left _ hmem, hclient ▸ hne⟩
  · intro u client hu
    exact hclient ▸ (hH.takenOut u client hu).2
  · intro client ht
    exact hH.waited t client (hk.waited client ht)
  · intro client ht u hu
    exact hH.waited u client hu t (hk.confirmed client ht)

variable [DecidableEq C]

theorem UserClientState.step_inv (hs : (userClientMachine T C).step s l = some (s', e)) :
    ∃ a' ref', AccessEffect s.ref (s.threads l.thread) a' ref' e ∧
      s' = ⟨ref', Function.update s.threads l.thread a'⟩ := by
  cases l with
  | call thread call =>
    obtain ⟨a', henter, heq⟩ := Option.map_eq_some_iff.1 hs
    obtain ⟨rfl, rfl⟩ := Prod.mk.inj heq
    obtain ⟨hk, hi⟩ := enter_keeps henter
    exact ⟨a', s.ref, .move hk hi (by simp), rfl⟩
  | access thread =>
    obtain ⟨⟨a', ref', e'⟩, haccess, heq⟩ := Option.map_eq_some_iff.1 hs
    obtain ⟨rfl, rfl⟩ := Prod.mk.inj heq
    exact ⟨a', ref', access_inv haccess, rfl⟩

theorem UserClientState.waited_of_released {client : C}
    (hs : (userClientMachine T C).step s l = some (s', e))
    (he : .released client ∈ e ∨ .unregisterReturned client .kIOReturnSuccess ∈ e) :
    (s.threads l.thread).waited = some client := by
  cases l with
  | call thread call =>
    obtain ⟨a', _, heq⟩ := Option.map_eq_some_iff.1 hs
    obtain ⟨-, rfl⟩ := Prod.mk.inj heq
    simp at he
  | access thread =>
    obtain ⟨⟨a', ref', e'⟩, haccess, heq⟩ := Option.map_eq_some_iff.1 hs
    obtain ⟨-, rfl⟩ := Prod.mk.inj heq
    exact access_waited haccess he

theorem Counted.step (hc : Counted s) (hs : (userClientMachine T C).step s l = some (s', e)) :
    Counted s' := by
  obtain ⟨a', ref', heff, rfl⟩ := UserClientState.step_inv hs
  refine ⟨hc.finite.update _ _, ?_⟩
  have hupd := @invocations_update _ _ s l.thread _ a' ref' hc
  generalize s.threads l.thread = a at heff hupd
  cases heff with
  | quiet _ hi _ =>
    rw [hi] at hupd
    rw [Nat.add_right_cancel hupd]
    exact hc.counter
  | increment =>
    simp only [UserClientAccess.invoking, Bool.false_eq_true, if_false, if_true, Nat.add_zero] at hupd
    rw [hupd, UInt32.ofNat_add, ← hc.counter]
    rfl
  | confirm _ =>
    rw [Nat.add_right_cancel hupd]
    exact hc.counter
  | leave _ hi hi' _ =>
    simp only [hi, hi', Bool.false_eq_true, if_false, if_true, Nat.add_zero] at hupd
    show s.ref.clientInvocations - 1 = _
    rw [hc.counter, ← hupd, UInt32.ofNat_add]
    exact UInt32.add_sub_cancel ..
  | swapIn _ =>
    rw [Nat.add_right_cancel hupd]
    exact hc.counter
  | swapOut _ =>
    rw [Nat.add_right_cancel hupd]
    exact hc.counter
  | waited _ =>
    rw [Nat.add_right_cancel hupd]
    exact hc.counter

/-- Each client is put in at most once. -/
def RegisteredOnce (h : List (UserClientEvent C)) : Prop := ∀ client, h.count (.registered client) ≤ 1

theorem RegisteredOnce.of_append (ho : RegisteredOnce (h ++ e)) : RegisteredOnce h := by
  intro client
  have := ho client
  rw [List.count_append] at this
  omega

theorem RegisteredOnce.not_mem {client : C} (ho : RegisteredOnce (h ++ [.registered client])) :
    .registered client ∉ h := by
  intro hmem
  have hpos := List.count_pos_iff.2 hmem
  have := ho client
  rw [List.count_append, List.count_singleton_self] at this
  omega

theorem HandedOut.step (hH : HandedOut s h) (hfew : FewInvocations s l) (ho : RegisteredOnce (h ++ e))
    (hs : (userClientMachine T C).step s l = some (s', e)) : HandedOut s' (h ++ e) := by
  have hc' := hH.counted.step hs
  obtain ⟨a', ref', heff, rfl⟩ := UserClientState.step_inv hs
  have hupd := @invocations_update _ _ s l.thread _ a' ref' hH.counted
  have hle := hH.few
  generalize ha : s.threads l.thread = a at heff hupd
  cases heff with
  | quiet hk hi _ =>
    rw [hi] at hupd
    exact hH.keep hc' (by omega) rfl rfl (ha ▸ hk)
  | increment =>
    have hlt := hfew ha
    rw [hH.counted.toNat_eq hle] at hlt
    simp only [UserClientAccess.invoking, Bool.false_eq_true, if_false, if_true, Nat.add_zero] at hupd
    exact hH.keep hc' (by omega) rfl rfl (keeps_of_none rfl rfl)
  | leave hk _ hi' _ =>
    simp only [hi', Bool.false_eq_true, if_false] at hupd
    exact hH.keep hc' (by omega) rfl rfl (ha ▸ hk)
  | @confirm client hclient =>
    refine hH.move hc' (by rw [Nat.add_right_cancel hupd]; exact hle) rfl ?_ ?_ ?_ ?_ ?_
    · intro client' hp
      exact List.mem_append_left _ (hH.present client' hp)
    · intro client' ht
      cases ht
    · intro u client' hu
      exact (hH.takenOut u client' hu).2
    · intro client' ht
      cases ht
    · -- the client is in place, so nobody has taken it out
      intro client' ht u hu
      obtain rfl := Option.some.inj ht
      exact (hH.takenOut u _ (UserClientAccess.takenOut_of_waited hu)).2 hclient
  | @swapIn client _ =>
    refine hH.move hc' (by rw [Nat.add_right_cancel hupd]; exact hle) rfl ?_ ?_ ?_ ?_ ?_
    · intro client' hp
      obtain rfl := Option.some.inj hp
      exact List.mem_append_right _ (List.mem_singleton_self _)
    · intro client' ht
      cases ht
    · -- what was taken out was registered before, and this client was not
      intro u client' hu heq
      obtain rfl := Option.some.inj heq
      exact ho.not_mem (hH.takenOut u _ hu).1
    · intro client' ht
      cases ht
    · intro client' ht
      cases ht
  | @swapOut client hclient =>
    refine hH.move hc' (by rw [Nat.add_right_cancel hupd]; exact hle) rfl ?_ ?_ ?_ ?_ ?_
    · intro client' hp
      cases hp
    · intro client' ht
      obtain rfl := Option.some.inj ht
      exact ⟨List.mem_append_left _ (hH.present _ hclient), nofun⟩
    · intro u client' _
      exact nofun
    · intro client' ht
      cases ht
    · intro client' ht
      cases ht
  | @waited client hzero =>
    have hnobody : invocations s = 0 := by
      rw [← hH.counted.toNat_eq hle, hzero]
      rfl
    refine hH.move hc' (by rw [Nat.add_right_cancel hupd]; exact hle) rfl ?_ ?_ ?_ ?_ ?_
    · intro client' hp
      exact List.mem_append_left _ (hH.present client' hp)
    · intro client' ht
      obtain ⟨hmem, hne⟩ := hH.takenOut l.thread client' (ha ▸ ht)
      exact ⟨List.mem_append_left _ hmem, hne⟩
    · intro u client' hu
      exact (hH.takenOut u client' hu).2
    · intro client' _ u hu
      have hpos := hH.counted.pos_of_invoking (UserClientAccess.invoking_of_confirmed hu)
      omega
    · intro client' ht
      cases ht

theorem counted_of_run (hr : (userClientMachine T C).run .start as = some (s, h)) : Counted s :=
  Machine.run_induction (fun s _ => Counted s) [] counted_start (fun _ _ _ _ _ hc _ hs => hc.step hs)
    Machine.along_true hr

theorem handedOut_of_run (hr : (userClientMachine T C).run .start as = some (s, h))
    (hfew : (userClientMachine T C).Along FewInvocations .start as) (ho : RegisteredOnce h) :
    HandedOut s h := by
  have hinv := Machine.run_induction (fun s h => RegisteredOnce h → HandedOut s h) []
    (fun _ => handedOut_start)
    (fun _ _ _ _ _ hH hfew hs ho => (hH ho.of_append).step hfew ho hs) hfew hr
  exact hinv ho

/-- While each client is put in at most once and no increment wraps, the counter is the number of threads
between the increment and the decrement, and no step releases a client that a thread has or returns success
from its unregistration. -/
theorem userClient_kept (hr : (userClientMachine T C).run .start as = some (s, h))
    (hfew : (userClientMachine T C).Along FewInvocations .start as) (ho : RegisteredOnce h) :
    {t | (s.threads t).invoking}.Finite ∧
      s.ref.clientInvocations.toNat = {t | (s.threads t).invoking}.ncard ∧
      (∀ t, (s.threads t).invoking → 0 < s.ref.clientInvocations.toNat) ∧
      ∀ t client, s.threads t = .holding client →
        ∀ l s' e, (userClientMachine T C).step s l = some (s', e) →
          .released client ∉ e ∧ .unregisterReturned client .kIOReturnSuccess ∉ e := by
  have hH := handedOut_of_run hr hfew ho
  have hcount := hH.counted.toNat_eq hH.few
  refine ⟨?_, ?_, ?_, ?_⟩
  · exact hH.counted.finite.finite
  · rw [hcount, invoking_ncard hH.counted]
  · intro t hi
    rw [hcount]
    exact hH.counted.pos_of_invoking hi
  · intro t client ht l s' e hs
    have hconfirmed : (s.threads t).confirmed = some client := ht ▸ rfl
    have hnone : ¬ (.released client ∈ e ∨ .unregisterReturned client .kIOReturnSuccess ∈ e) := fun he =>
      hH.waited l.thread client (UserClientState.waited_of_released hs he) t hconfirmed
    exact not_or.1 hnone

end Threads

def register (thread client : ℕ) : List (UserClientLabel ℕ ℕ) :=
  .call thread (.registerUserClient client) :: List.replicate 3 (.access thread)

def getClient (thread : ℕ) : List (UserClientLabel ℕ ℕ) :=
  .call thread .getUserClient :: List.replicate 6 (.access thread)

/-- `unregisterUserClient` up to the end of its wait. -/
def unregister (thread client : ℕ) : List (UserClientLabel ℕ ℕ) :=
  .call thread (.unregisterUserClient client) :: List.replicate 4 (.access thread)

/-- One thread has the client while another waits for it. -/
theorem waiting_kept : ∃ h s,
    (userClientMachine ℕ ℕ).run .start (register 0 7 ++ getClient 1 ++ unregister 2 7) = some (s, h) ∧
      s.threads 1 = .holding 7 ∧ s.threads 2 = .waitInvocations 7 ∧ s.ref.clientInvocations = 1 ∧
      ∀ l s' e, (userClientMachine ℕ ℕ).step s l = some (s', e) → .released 7 ∉ e := by
  refine ⟨_, _, rfl, rfl, rfl, rfl, ?_⟩
  intro l s' e hs
  have hrun : (userClientMachine ℕ ℕ).run .start (register 0 7 ++ getClient 1 ++ unregister 2 7) =
      some (_, [.registered 7, .retained 7, .registerReturned 7 .kIOReturnSuccess, .got (some 7)]) := rfl
  have hone : RegisteredOnce [.registered 7, .retained 7, .registerReturned 7 .kIOReturnSuccess,
      .got (some 7)] := by
    intro client
    by_cases hc : client = 7
    · subst hc
      decide
    · simp [Ne.symm hc]
  obtain ⟨-, -, -, hkept⟩ := userClient_kept hrun (by decide) hone
  exact (hkept 1 7 rfl l s' e hs).1

/-! ### More threads than the counter counts -/

section Wrap
variable {threads : ℕ → UserClientAccess ℕ} {thread client : ℕ} {n : UInt32}

theorem run_register : (userClientMachine ℕ ℕ).run .start (register 0 client) =
    some (⟨⟨false, 0, some client⟩, fun _ => .idle⟩,
      [.registered client, .retained client, .registerReturned client .kIOReturnSuccess]) := by
  simp [register, List.replicate, Machine.run, userClientMachine, UserClientState.step, UserClientState.start,
    UserClientCall.enter, NkeIOUserClientRef.init, NkeIOUserClientRef.access,
    NkeIOUserClientRef.compareAndSwap]

theorem run_getClient (hidle : threads thread = .idle) :
    (userClientMachine ℕ ℕ).run ⟨⟨false, n, some client⟩, threads⟩ (getClient thread) =
      some (⟨⟨false, n + 1, some client⟩, Function.update threads thread (.holding client)⟩,
        [.got (some client)]) := by
  simp [getClient, List.replicate, Machine.run, userClientMachine, UserClientState.step,
    UserClientCall.enter, hidle, NkeIOUserClientRef.access, NkeIOUserClientRef.compareAndSwap]

theorem run_unregister (hidle : threads thread = .idle) :
    (userClientMachine ℕ ℕ).run ⟨⟨false, 0, some client⟩, threads⟩ (unregister thread client) =
      some (⟨⟨true, 0, none⟩, Function.update threads thread (.release client)⟩, []) := by
  simp [unregister, List.replicate, Machine.run, userClientMachine, UserClientState.step,
    UserClientCall.enter, hidle, NkeIOUserClientRef.access, NkeIOUserClientRef.compareAndSwap]

/-- The threads `1`, ..., `n` can all have the client at once. -/
theorem all_holding (n : ℕ) : ∃ as h threads,
    (userClientMachine ℕ ℕ).run .start as = some (⟨⟨false, UInt32.ofNat n, some 7⟩, threads⟩, h) ∧
      RegisteredOnce h ∧ (∀ t, 1 ≤ t → t ≤ n → threads t = .holding 7) ∧
      ∀ t, t = 0 ∨ n < t → threads t = .idle := by
  induction n with
  | zero =>
    refine ⟨_, _, _, run_register, ?_, ?_, fun _ _ => rfl⟩
    · intro client
      by_cases hc : client = 7
      · subst hc
        decide
      · simp [Ne.symm hc]
    · intro t hpos hle
      omega
  | succ n ih =>
    obtain ⟨as, h, threads, hr, ho, hin, hout⟩ := ih
    have hget := @run_getClient threads (n + 1) 7 (.ofNat n) (hout (n + 1) (.inr (Nat.lt_succ_self n)))
    have hn : UInt32.ofNat n + 1 = UInt32.ofNat (n + 1) := (UInt32.ofNat_add n 1).symm
    rw [hn] at hget
    refine ⟨_, _, _, Machine.run_append.2 ⟨_, _, _, hr, hget, rfl⟩, ?_, ?_, ?_⟩
    · intro client
      simpa [List.count_append] using ho client
    · intro t hpos hle
      rcases Nat.lt_or_eq_of_le hle with hlt | rfl
      · rw [Function.update_of_ne (by omega)]
        exact hin t hpos (by omega)
      · rw [Function.update_self]
    · intro t ht
      rw [Function.update_of_ne (by omega)]
      exact hout t (by omega)

/-- With `2 ^ 32` threads at once that have the client the counter is zero, and it is released. -/
theorem userClient_not_kept : ∃ as h s, (userClientMachine ℕ ℕ).run .start as = some (s, h) ∧
    RegisteredOnce h ∧ s.ref.clientInvocations.toNat ≠ {t | (s.threads t).invoking}.ncard ∧
    ∃ t client l s' e, s.threads t = .holding client ∧
      (userClientMachine ℕ ℕ).step s l = some (s', e) ∧ .released client ∈ e := by
  obtain ⟨as, h, threads, hr, ho, hin, hout⟩ := all_holding (2 ^ 32)
  have hun := @run_unregister threads 0 7 (hout 0 (.inl rfl))
  have hrun := Machine.run_append.2 ⟨_, _, _, hr, hun, rfl⟩
  have hone : Function.update threads 0 (.release 7) 1 = .holding 7 := by
    rw [Function.update_of_ne (by decide)]
    exact hin 1 le_rfl (by decide)
  refine ⟨_, _, _, hrun, ?_, ?_, 1, 7, .access 0, _, _, hone, rfl, List.mem_singleton_self _⟩
  · rw [List.append_nil]
    exact ho
  · have hc := counted_of_run hrun
    rw [← invoking_ncard hc]
    exact Nat.ne_of_lt (hc.pos_of_invoking (t := 1) (congrArg UserClientAccess.invoking hone))

end Wrap

end NkeFilter
