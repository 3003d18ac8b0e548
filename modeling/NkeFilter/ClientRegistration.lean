import NkeFilter.ClientLifetime

/-!
# The accesses of a registration

A function of a reference goes on until it returns a result. What it relies on stays while nobody else is in a
call of the same client, and then the second swap of `unregisterUserClient` cannot fail
(`UserClientAccess.access_steady`).
-/

namespace NkeFilter
open Lib

namespace UserClientAccess
variable {C : Type*} {ref ref' : NkeIOUserClientRef C} {a a' : UserClientAccess C} {call : UserClientCall C}
  {client : C} {e : List (UserClientEvent C)} {RC : RegistrationResult}

/-- The registration or unregistration the thread is in. -/
def registration : UserClientAccess C → Option (UserClientCall C)
  | checkPending client | swapIn client | retain client => some (.registerUserClient client)
  | readRegistered client | setPending client | swapOut client | swapFailed client | waitInvocations client
  | release client | clearPending client => some (.unregisterUserClient client)
  | _ => none

/-- With nobody else in a call of the client it stays in place, and the second swap cannot fail. -/
def Steady (ref : NkeIOUserClientRef C) : UserClientAccess C → Prop
  | retain client | setPending client | swapOut client => ref.userClient = some client
  | swapFailed _ => False
  | _ => True

theorem steady_of_registration_none (h : a.registration = none) : a.Steady ref := by
  cases a with
  | retain | setPending | swapOut | swapFailed => cases h
  | _ => trivial

/-- A steady thread relies on the client it registers or unregisters. -/
theorem Steady.of_other (hs : a.Steady ref)
    (hsame : ∀ client, a.registration = some (.registerUserClient client) ∨
        a.registration = some (.unregisterUserClient client) →
      ref.userClient = some client → ref'.userClient = some client) : a.Steady ref' := by
  cases a with
  | retain client => exact hsame client (.inl rfl) hs
  | setPending client | swapOut client => exact hsame client (.inr rfl) hs
  | swapFailed => exact hs.elim
  | _ => trivial

theorem enter_registration (h : call.enter .idle = some a) :
    (call = .getUserClient ∧ a.registration = none) ∨ a.registration = some call := by
  cases call with
  | getUserClient =>
    cases h
    exact .inl ⟨rfl, rfl⟩
  | releaseUserClient => cases h
  | registerUserClient | unregisterUserClient =>
    cases h
    exact .inr rfl

theorem enter_steady (h : call.enter a = some a') : a'.Steady ref := by
  cases call <;> cases a <;> cases h <;> trivial

variable [DecidableEq C]

theorem access_registration_none (hnone : a.registration = none) (hs : ref.access a = some (a', ref', e)) :
    a'.registration = none := by
  cases a with
  | checkPending | swapIn | retain | readRegistered | setPending | swapOut | swapFailed | waitInvocations
  | release | clearPending => cases hnone
  | exchange =>
    obtain ⟨⟨-, rfl⟩ | ⟨-, rfl⟩, -, -⟩ := access_exchange hs <;> rfl
  | compareNull =>
    obtain ⟨⟨-, rfl, -⟩ | ⟨-, rfl, -⟩, -⟩ := access_compareNull hs <;> rfl
  | decrement =>
    cases hs
    split <;> rfl
  | _ =>
    simp only [NkeIOUserClientRef.access] at hs
    repeat' split at hs
    all_goals cases hs
    all_goals rfl

/-- A function of the reference goes on until it returns a result. -/
theorem access_registration (hcall : a.registration = some call) (hs : ref.access a = some (a', ref', e)) :
    (e.findSome? UserClientEvent.result = none ∧ a'.registration = some call) ∨
      ∃ RC, e.findSome? UserClientEvent.result = some RC ∧ a' = .idle := by
  cases a with
  | swapIn client =>
    obtain ⟨-, rfl, -, rfl⟩ | ⟨rfl, -, rfl⟩ := access_swapIn hs
    · exact .inl ⟨rfl, hcall⟩
    · exact .inr ⟨_, rfl, rfl⟩
  | swapOut client =>
    obtain ⟨⟨-, rfl, -⟩ | ⟨-, rfl, -⟩, rfl⟩ := access_swapOut hs
    · exact .inl ⟨rfl, hcall⟩
    · exact .inl ⟨rfl, hcall⟩
  | checkPending client | readRegistered client =>
    simp only [NkeIOUserClientRef.access] at hs
    split at hs <;> cases hs
    · first
        | exact .inl ⟨rfl, hcall⟩
        | exact .inr ⟨_, rfl, rfl⟩
    · first
        | exact .inl ⟨rfl, hcall⟩
        | exact .inr ⟨_, rfl, rfl⟩
  | waitInvocations client =>
    simp only [NkeIOUserClientRef.access] at hs
    split at hs <;> cases hs <;> exact .inl ⟨rfl, hcall⟩
  | setPending | release =>
    cases hs
    exact .inl ⟨rfl, hcall⟩
  | retain | swapFailed | clearPending =>
    cases hs
    exact .inr ⟨_, rfl, rfl⟩
  | _ => cases hcall

theorem access_steady (h : a.Steady ref) (hs : ref.access a = some (a', ref', e)) : a'.Steady ref' := by
  cases hcall : a.registration with
  | none => exact steady_of_registration_none (access_registration_none hcall hs)
  | some call =>
    cases a with
    | swapIn client =>
      obtain ⟨-, rfl, rfl, -⟩ | ⟨rfl, -, -⟩ := access_swapIn hs
      · exact rfl
      · trivial
    | swapOut client =>
      obtain ⟨⟨-, rfl, -⟩ | ⟨hne, -, -⟩, -⟩ := access_swapOut hs
      · trivial
      · exact absurd h hne
    | readRegistered client =>
      simp only [NkeIOUserClientRef.access] at hs
      split at hs <;> cases hs
      · assumption
      · trivial
    | checkPending client | waitInvocations client =>
      simp only [NkeIOUserClientRef.access] at hs
      split at hs <;> cases hs <;> trivial
    | setPending =>
      cases hs
      exact h
    | retain | swapFailed | release | clearPending =>
      cases hs
      trivial
    | _ => cases hcall

/-- An unregistration returns when it has waited for the client it took out, or when it did not find it. -/
theorem access_unregistered (hcall : a.registration = some (.unregisterUserClient client)) (h : a.Steady ref)
    (hs : ref.access a = some (a', ref', e)) (hresult : e.findSome? UserClientEvent.result = some RC) :
    ref'.userClient = ref.userClient ∧
      (a.waited = some client ∨ a.takenOut = none ∧ ref.userClient ≠ some client) := by
  cases a with
  | readRegistered client' =>
    obtain rfl := UserClientCall.unregisterUserClient.inj (Option.some.inj hcall)
    simp only [NkeIOUserClientRef.access] at hs
    split at hs <;> cases hs
    · cases hresult
    · exact ⟨rfl, .inr ⟨rfl, by assumption⟩⟩
  | clearPending client' =>
    cases hs
    exact ⟨rfl, .inl (congrArg some (UserClientCall.unregisterUserClient.inj (Option.some.inj hcall)))⟩
  | swapFailed => exact h.elim
  | swapOut client' =>
    obtain ⟨-, rfl⟩ := access_swapOut hs
    cases hresult
  | waitInvocations client' =>
    simp only [NkeIOUserClientRef.access] at hs
    split at hs <;> cases hs <;> cases hresult
  | setPending | release =>
    cases hs
    cases hresult
  | _ => cases hcall

/-- A registration succeeds behind its swap. -/
theorem access_registered (hcall : a.registration = some (.registerUserClient client))
    (hs : ref.access a = some (a', ref', e))
    (hresult : e.findSome? UserClientEvent.result = some .kIOReturnSuccess) :
    a = .retain client ∧ ∀ client, .registered client ∉ e := by
  cases a with
  | retain client' =>
    cases hs
    exact ⟨congrArg retain (UserClientCall.registerUserClient.inj (Option.some.inj hcall)), by simp⟩
  | checkPending client' =>
    simp only [NkeIOUserClientRef.access] at hs
    split at hs <;> cases hs <;> cases hresult
  | swapIn client' =>
    obtain ⟨-, -, -, rfl⟩ | ⟨-, -, rfl⟩ := access_swapIn hs <;> cases hresult
  | _ => cases hcall

theorem access_retain (hs : ref.access a = some (.retain client, ref', e)) :
    a = .swapIn client ∧ ref.userClient = none ∧ e = [.registered client] := by
  cases a with
  | swapIn client' =>
    obtain ⟨hnone, heq, -, rfl⟩ | ⟨heq, -, -⟩ := access_swapIn hs
    · cases heq
      exact ⟨rfl, hnone, rfl⟩
    · cases heq
  | exchange =>
    obtain ⟨⟨-, heq⟩ | ⟨-, heq⟩, -, -⟩ := access_exchange hs <;> cases heq
  | compareNull =>
    obtain ⟨⟨-, heq, -⟩ | ⟨-, heq, -⟩, -⟩ := access_compareNull hs <;> cases heq
  | swapOut =>
    obtain ⟨⟨-, heq, -⟩ | ⟨-, heq, -⟩, -⟩ := access_swapOut hs <;> cases heq
  | decrement | giveUp =>
    simp only [NkeIOUserClientRef.access, Option.some.injEq, Prod.mk.injEq] at hs
    obtain ⟨heq, -⟩ := hs
    first
      | cases heq
      | (split at heq <;> cases heq)
  | _ =>
    simp only [NkeIOUserClientRef.access] at hs
    repeat' split at hs
    all_goals cases hs

theorem access_swapIn_inv (hs : ref.access a = some (.swapIn client, ref', e)) :
    a = .checkPending client ∧ e = [] := by
  cases a with
  | checkPending client' =>
    simp only [NkeIOUserClientRef.access] at hs
    split at hs <;> cases hs
    exact ⟨rfl, rfl⟩
  | swapIn =>
    obtain ⟨-, heq, -, -⟩ | ⟨heq, -, -⟩ := access_swapIn hs <;> cases heq
  | exchange =>
    obtain ⟨⟨-, heq⟩ | ⟨-, heq⟩, -, -⟩ := access_exchange hs <;> cases heq
  | compareNull =>
    obtain ⟨⟨-, heq, -⟩ | ⟨-, heq, -⟩, -⟩ := access_compareNull hs <;> cases heq
  | swapOut =>
    obtain ⟨⟨-, heq, -⟩ | ⟨-, heq, -⟩, -⟩ := access_swapOut hs <;> cases heq
  | decrement | giveUp =>
    simp only [NkeIOUserClientRef.access, Option.some.injEq, Prod.mk.injEq] at hs
    obtain ⟨heq, -⟩ := hs
    first
      | cases heq
      | (split at heq <;> cases heq)
  | _ =>
    simp only [NkeIOUserClientRef.access] at hs
    repeat' split at hs
    all_goals cases hs

theorem access_checkPending_ne : ref.access a ≠ some (.checkPending client, ref', e) := by
  intro hs
  cases a with
  | swapIn =>
    obtain ⟨-, heq, -, -⟩ | ⟨heq, -, -⟩ := access_swapIn hs <;> cases heq
  | exchange =>
    obtain ⟨⟨-, heq⟩ | ⟨-, heq⟩, -, -⟩ := access_exchange hs <;> cases heq
  | compareNull =>
    obtain ⟨⟨-, heq, -⟩ | ⟨-, heq, -⟩, -⟩ := access_compareNull hs <;> cases heq
  | swapOut =>
    obtain ⟨⟨-, heq, -⟩ | ⟨-, heq, -⟩, -⟩ := access_swapOut hs <;> cases heq
  | decrement | giveUp =>
    simp only [NkeIOUserClientRef.access, Option.some.injEq, Prod.mk.injEq] at hs
    obtain ⟨heq, -⟩ := hs
    first
      | cases heq
      | (split at heq <;> cases heq)
  | _ =>
    simp only [NkeIOUserClientRef.access] at hs
    repeat' split at hs
    all_goals cases hs

/-- The wait for the invocations ends when there are none. -/
theorem access_waitInvocations (hs : ref.access (.waitInvocations client) = some (a', ref', e)) :
    a' = .waitInvocations client ∨ ref.clientInvocations = 0 := by
  by_cases hzero : ref.clientInvocations = 0
  · exact .inr hzero
  · simp only [NkeIOUserClientRef.access, ne_eq, hzero, not_false_eq_true, if_true] at hs
    cases hs
    exact .inl rfl

end UserClientAccess

end NkeFilter
