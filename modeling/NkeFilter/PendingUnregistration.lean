import NkeFilter.UserClientRef

/-!
# The assertion of `getUserClient`

`getUserClient` asserts `pendingUnregistration` where it gives up after its increment. A call that has seen the
client is safe as long as the client it relies on is in place or the flag is set. Nothing makes a thread that
unregisters the client wait for such a call before the increment, so the client can be gone and the flag
cleared again when the call reads the client. The condition says which steps keep the calls safe, and any other
step leads to a failed assertion.
-/

namespace NkeFilter
open Lib

namespace UserClientAccess
variable {C : Type*}

/-- What a call of `getUserClient` still has to find in place in order not to give up. -/
def InPlace (ref : NkeIOUserClientRef C) : UserClientAccess C → Prop
  | readPending | increment | readCurrentClient | compareNull _ => ref.userClient ≠ none
  | exchange currentClient => ref.userClient = some currentClient
  | giveUp => False
  | _ => True

/-- In `getUserClient` behind its first read. -/
def asked : UserClientAccess C → Bool
  | readPending | increment | readCurrentClient | exchange _ | compareNull _ | giveUp => true
  | _ => false

/-- About to clear the flag. -/
def clears : UserClientAccess C → Bool
  | swapFailed _ | clearPending _ => true
  | _ => false

variable {ref ref' : NkeIOUserClientRef C} {a : UserClientAccess C}

theorem inPlace_of_not_asked (h : a.asked = false) : a.InPlace ref := by
  cases a with
  | readPending | increment | readCurrentClient | exchange | compareNull | giveUp => cases h
  | _ => trivial

/-- Without a client nobody is safe who is behind the first read. -/
theorem not_asked_of_none (hnone : ref.userClient = none) (h : a.InPlace ref) : a.asked = false := by
  cases a with
  | readPending | increment | readCurrentClient | compareNull => exact absurd hnone h
  | exchange currentClient =>
    have hc : ref.userClient = some currentClient := h
    rw [hnone] at hc
    cases hc
  | giveUp => exact h.elim
  | _ => rfl

theorem InPlace.congr (heq : ref'.userClient = ref.userClient) (h : a.InPlace ref) : a.InPlace ref' := by
  cases a with
  | readPending | increment | readCurrentClient | compareNull => exact fun h' => h (heq ▸ h')
  | exchange currentClient => exact heq.trans h
  | giveUp => exact h.elim
  | _ => trivial

theorem not_asked_of_clears (h : a.clears) : a.asked = false := by
  cases a with
  | swapFailed | clearPending => rfl
  | _ => cases h

end UserClientAccess

section Access
variable {C : Type*}

/-- The accesses by what they do to the client and to the flag. -/
inductive PendingEffect (ref : NkeIOUserClientRef C) :
    UserClientAccess C → UserClientAccess C → NkeIOUserClientRef C → Prop
  | keep {a a' : UserClientAccess C} {n : UInt32} : (a.InPlace ref → a'.InPlace ref) →
      PendingEffect ref a a' { ref with clientInvocations := n }
  | announce {client : C} :
      PendingEffect ref (.setPending client) (.swapOut client) { ref with pendingUnregistration := true }
  | clear {a : UserClientAccess C} : a.clears →
      PendingEffect ref a .idle { ref with pendingUnregistration := false }
  | swapIn {client : C} : ref.userClient = none →
      PendingEffect ref (.swapIn client) (.retain client) { ref with userClient := some client }
  | swapOut {client : C} : ref.userClient = some client →
      PendingEffect ref (.swapOut client) (.waitInvocations client) { ref with userClient := none }

variable {ref ref' : NkeIOUserClientRef C} {a a' : UserClientAccess C} {e : List (UserClientEvent C)}

theorem PendingEffect.stay (h : a.InPlace ref → a'.InPlace ref) : PendingEffect ref a a' ref :=
  @PendingEffect.keep _ ref a a' ref.clientInvocations h

theorem enter_pending {call : UserClientCall C} (h : call.enter a = some a') : PendingEffect ref a a' ref := by
  cases call <;> cases a <;> cases h <;> exact .stay fun _ => trivial

variable [DecidableEq C]

theorem access_pending (hs : ref.access a = some (a', ref', e)) : PendingEffect ref a a' ref' := by
  cases a with
  | idle => cases hs
  | holding => cases hs
  | readUserClient =>
    simp only [NkeIOUserClientRef.access] at hs
    split at hs
    · cases hs
      exact .stay fun _ => trivial
    · rename_i hclient
      cases hs
      exact .stay fun _ => hclient
  | readPending =>
    simp only [NkeIOUserClientRef.access] at hs
    split at hs
    · cases hs
      exact .stay fun _ => trivial
    · cases hs
      exact .stay fun h => h
  | increment =>
    cases hs
    exact .keep fun h => h
  | readCurrentClient =>
    simp only [NkeIOUserClientRef.access] at hs
    split at hs
    · rename_i hnone
      cases hs
      exact .stay fun h => absurd hnone h
    · rename_i currentClient hclient
      cases hs
      exact .stay fun _ => hclient
  | exchange currentClient =>
    obtain ⟨⟨hc, rfl⟩ | ⟨hc, rfl⟩, rfl, -⟩ := access_exchange hs
    · exact .stay fun _ hnone => Option.some_ne_none _ (hc.symm.trans hnone)
    · exact .stay fun h => absurd h hc
  | compareNull currentClient =>
    obtain ⟨⟨hc, rfl, -⟩ | ⟨-, rfl, -⟩, rfl⟩ := access_compareNull hs
    · exact .stay fun h => absurd hc h
    · exact .stay fun _ => trivial
  | giveUp =>
    cases hs
    exact .keep fun h => h.elim
  | decrement client =>
    cases hs
    split
    · exact .keep fun _ => trivial
    · exact .keep fun _ => trivial
  | swapIn client =>
    obtain ⟨hc, rfl, rfl, -⟩ | ⟨rfl, rfl, -⟩ := access_swapIn hs
    · exact .swapIn hc
    · exact .stay fun _ => trivial
  | setPending client =>
    cases hs
    exact .announce
  | swapOut client =>
    obtain ⟨⟨hc, rfl, rfl⟩ | ⟨-, rfl, rfl⟩, -⟩ := access_swapOut hs
    · exact .swapOut hc
    · exact .stay fun _ => trivial
  | swapFailed client =>
    cases hs
    exact .clear rfl
  | clearPending client =>
    cases hs
    exact .clear rfl
  | waitInvocations client =>
    simp only [NkeIOUserClientRef.access] at hs
    cases hs
    split <;> exact .stay fun _ => trivial
  | retain | release =>
    cases hs
    exact .stay fun _ => trivial
  | readForWakeup | checkPending | readRegistered =>
    simp only [NkeIOUserClientRef.access] at hs
    split at hs <;> cases hs <;> exact .stay fun _ => trivial

end Access

/-! ### The threads together -/

section Threads
variable {T C : Type*} {s s' : UserClientState T C} {t : T} {l : UserClientLabel T C}
  {as : List (UserClientLabel T C)} {h e : List (UserClientEvent C)}

/-- Wherever a call has been counted and gives up, the assertion holds. -/
def AssertionHolds (s : UserClientState T C) : Prop :=
  ∀ t, s.threads t = .giveUp → s.ref.pendingUnregistration = true

/-- The flag is set, or no call in `getUserClient` has lost its client. -/
def Announced (s : UserClientState T C) : Prop :=
  s.ref.pendingUnregistration = true ∨ ∀ t, (s.threads t).InPlace s.ref

/-- The step does not clear the flag while a call has lost its client, and does not take the client out with
the flag cleared while a call is behind its first read. -/
structure Announces (s : UserClientState T C) (l : UserClientLabel T C) : Prop where
  clear : (s.threads l.thread).clears → ∀ t, (s.threads t).InPlace s.ref
  takeOut : ∀ client, s.threads l.thread = .swapOut client → s.ref.userClient = some client →
    s.ref.pendingUnregistration = true ∨ ∀ t, (s.threads t).asked = false

theorem announced_start : Announced (UserClientState.start : UserClientState T C) := .inr fun _ => trivial

theorem Announced.assertionHolds (hA : Announced s) : AssertionHolds s := by
  intro t ht
  rcases hA with hpending | hplace
  · exact hpending
  · have := hplace t
    rw [ht] at this
    exact this.elim

variable [DecidableEq T]

/-- What all threads rely on after one of them has moved to `a'`. -/
theorem inPlace_update {a' : UserClientAccess C} {ref' : NkeIOUserClientRef C} (ha' : a'.InPlace ref')
    (hothers : ∀ u, (s.threads u).InPlace ref') (u : T) :
    (Function.update s.threads t a' u).InPlace ref' := by
  by_cases hut : u = t
  · subst hut
    rwa [Function.update_self]
  · rw [Function.update_of_ne hut]
    exact hothers u

variable [DecidableEq C]

theorem UserClientState.step_pending (hs : (userClientMachine T C).step s l = some (s', e)) :
    ∃ a' ref', PendingEffect s.ref (s.threads l.thread) a' ref' ∧
      s' = ⟨ref', Function.update s.threads l.thread a'⟩ := by
  cases l with
  | call thread call =>
    obtain ⟨a', henter, heq⟩ := Option.map_eq_some_iff.1 hs
    obtain ⟨rfl, -⟩ := Prod.mk.inj heq
    exact ⟨a', s.ref, enter_pending henter, rfl⟩
  | access thread =>
    obtain ⟨⟨a', ref', e'⟩, haccess, heq⟩ := Option.map_eq_some_iff.1 hs
    obtain ⟨rfl, -⟩ := Prod.mk.inj heq
    exact ⟨a', ref', access_pending haccess, rfl⟩

theorem Announced.step (hA : Announced s) (hl : Announces s l)
    (hs : (userClientMachine T C).step s l = some (s', e)) : Announced s' := by
  obtain ⟨a', ref', heff, rfl⟩ := UserClientState.step_pending hs
  obtain ⟨hclear, htakeOut⟩ := hl
  have hplace : s.ref.pendingUnregistration = true ∨ (s.threads l.thread).InPlace s.ref :=
    hA.imp_right fun h => h l.thread
  generalize ha : s.threads l.thread = a at heff hclear htakeOut hplace
  cases heff with
  | keep hk =>
    rcases hA with hpending | hall
    · exact .inl hpending
    · refine .inr (inPlace_update ?_ ?_)
      · exact (hk (ha ▸ hall l.thread)).congr rfl
      · exact fun u => (hall u).congr rfl
  | announce => exact .inl rfl
  | clear hc =>
    refine .inr (inPlace_update trivial ?_)
    exact fun u => (hclear hc u).congr rfl
  | swapIn hnone =>
    rcases hA with hpending | hall
    · exact .inl hpending
    · refine .inr (inPlace_update trivial ?_)
      exact fun u => UserClientAccess.inPlace_of_not_asked (UserClientAccess.not_asked_of_none hnone (hall u))
  | swapOut hclient =>
    rcases htakeOut _ rfl hclient with hpending | hnobody
    · exact .inl hpending
    · refine .inr (inPlace_update trivial ?_)
      exact fun u => UserClientAccess.inPlace_of_not_asked (hnobody u)

/-! ### What other steps lead to -/

/-- From the state some run leads to a failed assertion. -/
def CanFail (s : UserClientState T C) : Prop :=
  ∃ as s' h, (userClientMachine T C).run s as = some (s', h) ∧ ¬ AssertionHolds s'

theorem canFail_of_giveUp (hpending : s.ref.pendingUnregistration = false) (ht : s.threads t = .giveUp) :
    CanFail s := by
  refine ⟨[], s, [], rfl, ?_⟩
  intro hholds
  rw [hholds t ht] at hpending
  cases hpending

theorem CanFail.of_access {a' : UserClientAccess C} {ref' : NkeIOUserClientRef C}
    (hs : s.ref.access (s.threads t) = some (a', ref', e))
    (hnext : CanFail (⟨ref', Function.update s.threads t a'⟩ : UserClientState T C)) : CanFail s := by
  obtain ⟨as, s', h, hr, hfailed⟩ := hnext
  have hstep : (userClientMachine T C).step s (.access t) =
      some (⟨ref', Function.update s.threads t a'⟩, e) := by
    show (s.ref.access (s.threads t)).map _ = _
    rw [hs]
    rfl
  exact ⟨.access t :: as, s', _, Machine.run_cons.2 ⟨_, _, _, hstep, hr, rfl⟩, hfailed⟩

theorem canFail_of_readCurrentClient (hpending : s.ref.pendingUnregistration = false)
    (hnone : s.ref.userClient = none) (ht : s.threads t = .readCurrentClient) : CanFail s := by
  have haccess : s.ref.access (s.threads t) = some (.giveUp, s.ref, []) := by
    simp only [ht, NkeIOUserClientRef.access, hnone]
  exact .of_access haccess (canFail_of_giveUp hpending (Function.update_self t _ _))

theorem canFail_of_increment (hpending : s.ref.pendingUnregistration = false)
    (hnone : s.ref.userClient = none) (ht : s.threads t = .increment) : CanFail s := by
  have haccess : s.ref.access (s.threads t) =
      some (.readCurrentClient, { s.ref with clientInvocations := s.ref.clientInvocations + 1 }, []) := by
    rw [ht]
    rfl
  exact .of_access haccess (canFail_of_readCurrentClient hpending hnone (Function.update_self t _ _))

/-- A call that has lost its client while the flag is cleared can go on to the assertion. -/
theorem canFail_of_lost (hpending : s.ref.pendingUnregistration = false)
    (hlost : ¬ (s.threads t).InPlace s.ref) : CanFail s := by
  cases ht : s.threads t with
  | readPending =>
    rw [ht] at hlost
    have haccess : s.ref.access (s.threads t) = some (.increment, s.ref, []) := by
      rw [ht]
      exact if_neg (by rw [hpending]; exact Bool.false_ne_true)
    exact .of_access haccess (canFail_of_increment hpending (not_not.1 hlost) (Function.update_self t _ _))
  | increment =>
    rw [ht] at hlost
    exact canFail_of_increment hpending (not_not.1 hlost) ht
  | readCurrentClient =>
    rw [ht] at hlost
    exact canFail_of_readCurrentClient hpending (not_not.1 hlost) ht
  | exchange currentClient =>
    rw [ht] at hlost
    have haccess : s.ref.access (s.threads t) = some (.giveUp, s.ref, []) := by
      simp only [ht, NkeIOUserClientRef.access, compareAndSwap_of_ne hlost, Bool.false_eq_true, if_false]
    exact .of_access haccess (canFail_of_giveUp hpending (Function.update_self t _ _))
  | compareNull currentClient =>
    rw [ht] at hlost
    have hswap : s.ref.compareAndSwap none none = (true, s.ref) :=
      Prod.ext (by rw [compareAndSwap_of_eq (not_not.1 hlost)]) compareAndSwap_self
    have haccess : s.ref.access (s.threads t) = some (.giveUp, s.ref, []) := by
      simp only [ht, NkeIOUserClientRef.access, hswap, if_true]
    exact .of_access haccess (canFail_of_giveUp hpending (Function.update_self t _ _))
  | giveUp => exact canFail_of_giveUp hpending ht
  | _ =>
    rw [ht] at hlost
    exact absurd trivial hlost

/-- Another thread's step leaves the call where it is. -/
theorem canFail_of_update {u : T} {a' : UserClientAccess C} {ref' : NkeIOUserClientRef C} (hne : t ≠ u)
    (hpending : ref'.pendingUnregistration = false) (hlost : ¬ (s.threads t).InPlace ref') :
    CanFail (⟨ref', Function.update s.threads u a'⟩ : UserClientState T C) := by
  have hsame : Function.update s.threads u a' t = s.threads t := Function.update_of_ne hne ..
  refine canFail_of_lost (t := t) hpending fun hplace => hlost ?_
  rw [← hsame]
  exact hplace

theorem UserClientState.step_clears (hc : (s.threads l.thread).clears)
    (hs : (userClientMachine T C).step s l = some (s', e)) :
    s' = ⟨{ s.ref with pendingUnregistration := false }, Function.update s.threads l.thread .idle⟩ := by
  cases l with
  | call thread call =>
    obtain ⟨a', henter, -⟩ := Option.map_eq_some_iff.1 hs
    change (s.threads thread).clears at hc
    cases hat : s.threads thread with
    | swapFailed | clearPending =>
      rw [hat] at henter
      cases call <;> cases henter
    | _ =>
      rw [hat] at hc
      cases hc
  | access thread =>
    obtain ⟨r, haccess, heq⟩ := Option.map_eq_some_iff.1 hs
    change (s.threads thread).clears at hc
    cases hat : s.threads thread with
    | swapFailed | clearPending =>
      rw [hat] at haccess
      cases haccess
      cases heq
      rfl
    | _ =>
      rw [hat] at hc
      cases hc

theorem UserClientState.step_takesOut {client : C} (hat : s.threads l.thread = .swapOut client)
    (hclient : s.ref.userClient = some client) (hs : (userClientMachine T C).step s l = some (s', e)) :
    s' = ⟨{ s.ref with userClient := none }, Function.update s.threads l.thread (.waitInvocations client)⟩ := by
  cases l with
  | call thread call =>
    obtain ⟨a', henter, -⟩ := Option.map_eq_some_iff.1 hs
    rw [show s.threads thread = .swapOut client from hat] at henter
    cases call <;> cases henter
  | access thread =>
    obtain ⟨⟨a', ref', e'⟩, haccess, heq⟩ := Option.map_eq_some_iff.1 hs
    obtain ⟨rfl, -⟩ := Prod.mk.inj heq
    rw [show s.threads thread = .swapOut client from hat] at haccess
    obtain ⟨⟨-, rfl, rfl⟩ | ⟨hne, -⟩, -⟩ := access_swapOut haccess
    · rfl
    · exact absurd hclient hne

/-- After a step that does not meet the condition the assertion can fail. -/
theorem canFail_of_not_announces (hl : ¬ Announces s l)
    (hs : (userClientMachine T C).step s l = some (s', e)) : CanFail s' := by
  by_contra hsafe
  refine hl ⟨?_, ?_⟩
  · intro hc t
    by_contra hlost
    have ht : t ≠ l.thread := by
      rintro rfl
      exact hlost (UserClientAccess.inPlace_of_not_asked (UserClientAccess.not_asked_of_clears hc))
    obtain rfl := UserClientState.step_clears hc hs
    exact hsafe (canFail_of_update ht rfl fun hplace => hlost (hplace.congr rfl))
  · intro client hat hclient
    by_contra hboth
    obtain ⟨hpending, hasked⟩ := not_or.1 hboth
    obtain ⟨t, ht⟩ := not_forall.1 hasked
    have hne : t ≠ l.thread := by
      rintro rfl
      rw [hat] at ht
      exact ht rfl
    obtain rfl := UserClientState.step_takesOut hat hclient hs
    refine hsafe (canFail_of_update hne (Bool.eq_false_iff.2 hpending) ?_)
    exact fun hplace => ht (UserClientAccess.not_asked_of_none rfl hplace)

theorem announced_of_run (hr : (userClientMachine T C).run .start as = some (s, h))
    (hC : (userClientMachine T C).Along Announces .start as) : Announced s :=
  Machine.run_induction (fun s _ => Announced s) [] announced_start (fun _ _ _ _ _ hA hl hs => hA.step hl hs)
    hC hr

/-- In every run whose steps meet the condition the assertion holds in every state, and after any other step a
few accesses of one thread lead to a state where it fails. -/
theorem assertion_of_run (hr : (userClientMachine T C).run .start as = some (s, h))
    (hC : (userClientMachine T C).Along Announces .start as) :
    AssertionHolds s ∧ ∀ l s' e, ¬ Announces s l → (userClientMachine T C).step s l = some (s', e) →
      ∃ as' s'' h', (userClientMachine T C).run s' as' = some (s'', h') ∧ ¬ AssertionHolds s'' :=
  ⟨(announced_of_run hr hC).assertionHolds, fun _ _ _ hl hs => canFail_of_not_announces hl hs⟩

end Threads

/-! ### Two runs -/

/-- The flag is not cleared, and the client is taken out with the flag set. -/
def KeepsPending (s : UserClientState ℕ ℕ) (l : UserClientLabel ℕ ℕ) : Prop :=
  (s.threads l.thread).clears = false ∧
    (s.ref.pendingUnregistration = true ∨
      ∀ client ∈ s.ref.userClient, s.threads l.thread ≠ .swapOut client)

instance KeepsPending.instDecidable (s : UserClientState ℕ ℕ) (l : UserClientLabel ℕ ℕ) :
    Decidable (KeepsPending s l) := inferInstanceAs (Decidable (_ ∧ _))

theorem KeepsPending.announces {s : UserClientState ℕ ℕ} {l : UserClientLabel ℕ ℕ} (hk : KeepsPending s l) :
    Announces s l where
  clear := by
    intro hc
    rw [hk.1] at hc
    cases hc
  takeOut := by
    intro client hat hclient
    rcases hk.2 with hpending | hne
    · exact .inl hpending
    · exact absurd hat (hne client hclient)

/-- `getUserClient` up to its increment, which is the next step. -/
def seesClient (thread : ℕ) : List (UserClientLabel ℕ ℕ) :=
  .call thread .getUserClient :: List.replicate 2 (.access thread)

/-- The increment and the read of a client that is gone. -/
def losesClient (thread : ℕ) : List (UserClientLabel ℕ ℕ) := List.replicate 2 (.access thread)

/-- The client is taken out while a call is in between, and the flag is not cleared yet. -/
theorem overtaken_holds : ∃ s h,
    (userClientMachine ℕ ℕ).run .start
      (register 0 7 ++ seesClient 1 ++ unregister 2 7 ++ losesClient 1) = some (s, h) ∧
      s.threads 1 = .giveUp ∧ AssertionHolds s := by
  obtain ⟨s, h, hr, ht⟩ : ∃ s h, (userClientMachine ℕ ℕ).run .start
      (register 0 7 ++ seesClient 1 ++ unregister 2 7 ++ losesClient 1) = some (s, h) ∧
      s.threads 1 = .giveUp := ⟨_, _, rfl, rfl⟩
  have hkeeps : (userClientMachine ℕ ℕ).Along KeepsPending .start
      (register 0 7 ++ seesClient 1 ++ unregister 2 7 ++ losesClient 1) := by decide
  exact ⟨s, h, hr, ht, (assertion_of_run hr (hkeeps.imp fun _ _ => KeepsPending.announces)).1⟩

/-- A whole unregistration between the check and the increment: the call gives up with the flag cleared. -/
theorem overtaken_fails : ∃ s h,
    (userClientMachine ℕ ℕ).run .start (register 0 7 ++ seesClient 1 ++
      (unregister 2 7 ++ List.replicate 2 (.access 2)) ++ losesClient 1) = some (s, h) ∧
      s.threads 1 = .giveUp ∧ s.ref.clientInvocations = 1 ∧ s.ref.userClient = none ∧
      s.ref.pendingUnregistration = false := ⟨_, _, rfl, rfl, rfl, rfl, rfl⟩

end NkeFilter
