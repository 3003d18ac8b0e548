import NkeFilter.ClientSessions

/-!
# Every step keeps the sessions

One lemma for each kind of step: calls and returns, the stages of `open` and `terminate`, and what threads do in
the references (`Sessions.step`).
-/

namespace NkeFilter
open Lib

section Step
variable {T C : Type*} [DecidableEq C] {v v' : SessionView T C} {h e : List (ClientRefName × UserClientEvent C)}
  {t : T} {c : C} {which : ClientRefName} [DecidableEq T] {p : ClientProgram C}

omit [DecidableEq C] [DecidableEq T] in
theorem ClientProgram.within_idle (hp : ∀ c stage, p ≠ .notifying c stage) : p.Within which .idle := by
  cases p with
  | outside => simp [ClientProgram.Within, UserClientAccess.registration]
  | notifying c stage => exact absurd rfl (hp c stage)
  | opening | closing => exact .inl rfl

omit [DecidableEq C] [DecidableEq T] in
theorem ClientProgram.within_refCall {call : UserClientCall C} {a : UserClientAccess C}
    (hcall : p.refCall = some (which, call)) (ha : a.registration = some call) : p.Within which a := by
  cases p with
  | outside | notifying => cases hcall
  | opening | closing => exact .inr ⟨call, hcall, ha⟩

omit [DecidableEq C] [DecidableEq T] in
/-- A thread in `open` or `clientClose` that is in no function of this reference. -/
theorem ClientProgram.Within.idle {a : UserClientAccess C} (h : p.Within which a) (hp : p.calling ≠ none)
    (hcall : ∀ call, p.refCall ≠ some (which, call)) : a = .idle := by
  cases p with
  | outside | notifying => exact absurd rfl hp
  | opening | closing => exact h.resolve_right fun ⟨call, heq, _⟩ => hcall call heq

omit [DecidableEq T] in
theorem Sessions.idle_of_outside (hS : Sessions v h) (hp : v.programs t = .outside)
    (hidle : (v.refs .gSocketFilter).threads t = .idle) (which : ClientRefName) :
    (v.refs which).threads t = .idle := by
  cases which with
  | gSocketFilter => exact hidle
  | gServiceUserClient =>
    have hw := hS.within .gServiceUserClient t
    rw [hp] at hw
    exact hw

omit [DecidableEq C] in
theorem SessionView.not_registering (hp : ∀ c, p ≠ .opening c .registerSocket)
    (hidle : (v.refs .gServiceUserClient).threads t = .idle) (c : C) :
    ¬ (v.setProgram t p).Registering t c := by
  rintro (⟨-, hr⟩ | ⟨hr, -⟩)
  · have hr : (v.refs .gServiceUserClient).threads t = .retain c := hr
    rw [hidle] at hr
    cases hr
  · rw [setProgram_self] at hr
    exact hp c hr

/-- A thread that is in no function of a reference goes on to `p`. -/
theorem Sessions.moveIdle (hS : Sessions v h) (hF : Fresh v h)
    (hidle : ∀ which, (v.refs which).threads t = .idle)
    (hp : ∀ c stage, p ≠ .notifying c stage) (hsocket : ∀ c, p ≠ .opening c .registerSocket)
    (hcalling : ∀ c, p.calling = some c → (v.programs t).calling = some c ∨
      ∀ u, (v.programs u).calling ≠ some c)
    (hactive : ∀ c stage, p = .opening c stage → stage ≠ .isInactive → v.inactive c = false)
    (hclearing : ∀ c clientClose, p = .closing c .clearProvider clientClose → v.inactive c = true)
    (hleft : ∀ which c, ¬ p.Left which c)
    (hterminating : ∀ c, ((v.programs t).Left .gServiceUserClient c ∨
      ∃ clientClose, v.programs t = .closing c .unregisterService clientClose) → v.inactive c = true) :
    Sessions (v.setProgram t p) h ∧ Fresh (v.setProgram t p) h := by
  constructor
  · refine hS.move ⟨?_, hcalling, hactive, hclearing, fun which c hl => absurd hl (hleft which c),
      fun c hc => .inl (hterminating c hc)⟩
    intro which
    rw [hidle which]
    exact ClientProgram.within_idle hp
  · exact hF.move (SessionView.not_registering hsocket (hidle _))

omit [DecidableEq T] in
theorem Sessions.holding_of_notifying (hS : Sessions v h) {stage : NotifyStage}
    (hp : v.programs t = .notifying c stage) :
    (v.refs .gServiceUserClient).threads t = .idle ∧ (v.refs .gSocketFilter).threads t = .holding c := by
  have hservice := hS.within .gServiceUserClient t
  have hsocket := hS.within .gSocketFilter t
  rw [hp] at hservice hsocket
  exact ⟨hservice, hsocket⟩

theorem Sessions.notifying (hS : Sessions v h) (hF : Fresh v h)
    (hservice : (v.refs .gServiceUserClient).threads t = .idle)
    (hsocket : (v.refs .gSocketFilter).threads t = .holding c)
    (hp : v.programs t = .outside ∨ ∃ stage, v.programs t = .notifying c stage)
    (hnext : p = .outside ∨ ∃ stage, p = .notifying c stage) :
    Sessions (v.setProgram t p) h ∧ Fresh (v.setProgram t p) h := by
  have hbefore : ∀ which c, ¬ (v.programs t).Left which c := by
    rcases hp with hp | ⟨stage, hp⟩ <;> rw [hp] <;> exact fun _ _ hl => hl
  have hterminating : ∀ c clientClose, v.programs t ≠ .closing c .unregisterService clientClose := by
    rcases hp with hp | ⟨stage, hp⟩ <;> rw [hp] <;> exact fun _ _ heq => by cases heq
  constructor
  · refine hS.move ⟨?_, ?_, ?_, ?_, ?_, ?_⟩
    · rintro (_ | _)
      · rw [hservice]
        rcases hnext with rfl | ⟨stage, rfl⟩ <;> rfl
      · rw [hsocket]
        rcases hnext with rfl | ⟨stage, rfl⟩ <;> rfl
    · rcases hnext with rfl | ⟨stage, rfl⟩ <;> exact fun _ hc => by cases hc
    · rcases hnext with rfl | ⟨stage, rfl⟩ <;> exact fun _ _ heq => by cases heq
    · rcases hnext with rfl | ⟨stage, rfl⟩ <;> exact fun _ _ heq => by cases heq
    · rcases hnext with rfl | ⟨stage, rfl⟩ <;> exact fun _ _ hl => hl.elim
    · rintro c (hl | ⟨clientClose, heq⟩)
      · exact absurd hl (hbefore _ c)
      · exact absurd heq (hterminating c clientClose)
  · refine hF.move (SessionView.not_registering ?_ hservice)
    rcases hnext with rfl | ⟨stage, rfl⟩ <;> exact fun _ heq => by cases heq

omit [DecidableEq T] in
theorem Sessions.idle_of_refCall (hS : Sessions v h) (hcalling : (v.programs t).calling ≠ none)
    (hcall : ∀ call, (v.programs t).refCall ≠ some (which, call)) : (v.refs which).threads t = .idle :=
  (hS.within which t).idle hcalling hcall

omit [DecidableEq C] [DecidableEq T] in
theorem ClientProgram.refCall_of_early {stage : CloseStage} (h : stage.early) (c : C) (clientClose : Bool) :
    (closing c stage clientClose).refCall = none ∧ ∀ which c', ¬
    (closing c stage clientClose).Left which c' := by
  cases stage with
  | close | closeProvider | clearPort => exact ⟨rfl, fun _ _ hl => hl⟩
  | _ => cases h

/-- The next stage of `clientClose`, up to the first reference. -/
theorem Sessions.closing (hS : Sessions v h) (hF : Fresh v h)
    (hidle : ∀ which, (v.refs which).threads t = .idle)
    {stage : CloseStage} {clientClose : Bool} (hstage : stage.early ∨ stage = .unregisterSocket)
    (hcalling : (v.programs t).calling = some c ∨ ∀ u, (v.programs u).calling ≠ some c)
    (hbefore : ∀ which c, ¬ (v.programs t).Left which c)
    (hterminating : ∀ c clientClose, v.programs t ≠ .closing c .unregisterService clientClose) :
    Sessions (v.setProgram t (.closing c stage clientClose)) h ∧
      Fresh (v.setProgram t (.closing c stage clientClose)) h := by
  refine hS.moveIdle hF hidle (fun _ _ heq => by cases heq) (fun _ heq => by cases heq) ?_
    (fun _ _ heq => by cases heq) ?_ ?_ ?_
  · intro c' hc
    obtain rfl := Option.some.inj hc
    exact hcalling
  · intro c' clientClose' heq
    cases heq
    rcases hstage with h | h <;> cases h
  · intro which c' hl
    rcases hstage with h | rfl
    · exact (ClientProgram.refCall_of_early h c clientClose).2 which c' hl
    · exact hl
  · rintro c' (hl | ⟨clientClose', heq⟩)
    · exact absurd hl (hbefore _ c')
    · exact absurd heq (hterminating c' clientClose')

/-- The next stage of `open`, or its end. -/
theorem Sessions.opening (hS : Sessions v h) (hF : Fresh v h) {stage : OpenStage}
    (hp : v.programs t = .opening c stage)
    (hcall : (v.programs t).refCall = none) (hnext : p = .outside ∨ ∃ stage', p = .opening c stage' ∧
      stage' ≠ .registerSocket ∧ v.inactive c = false) :
    Sessions (v.setProgram t p) h ∧ Fresh (v.setProgram t p) h := by
  have hidle : ∀ which, (v.refs which).threads t = .idle := by
    intro which
    refine hS.idle_of_refCall (by rw [hp]; exact Option.some_ne_none c) ?_
    rw [hcall]
    exact fun _ heq => by cases heq
  refine hS.moveIdle hF hidle ?_ ?_ ?_ ?_ ?_ ?_ ?_
  · rcases hnext with rfl | ⟨stage', rfl, -, -⟩ <;> exact fun _ _ heq => by cases heq
  · rcases hnext with rfl | ⟨stage', rfl, hne, -⟩
    · exact fun _ heq => by cases heq
    · exact fun _ heq => hne (ClientProgram.opening.inj heq).2
  · rcases hnext with rfl | ⟨stage', rfl, -, -⟩
    · exact fun _ hc => by cases hc
    · exact fun _ hc => .inl ((congrArg ClientProgram.calling hp).trans hc)
  · rcases hnext with rfl | ⟨stage', rfl, -, hactive⟩
    · exact fun _ _ heq => by cases heq
    · intro c' stage heq _
      obtain ⟨rfl, -⟩ := ClientProgram.opening.inj heq
      exact hactive
  · rcases hnext with rfl | ⟨stage', rfl, -, -⟩ <;> exact fun _ _ heq => by cases heq
  · rcases hnext with rfl | ⟨stage', rfl, -, -⟩ <;> exact fun _ _ hl => hl
  · rintro c' (hl | ⟨clientClose, heq⟩)
    · rw [hp] at hl
      exact hl.elim
    · rw [hp] at heq
      cases heq

theorem Sessions.terminated (hS : Sessions v h) (hF : Fresh v h) {clientClose : Bool}
    (hp : v.programs t = .closing c .superTerminate clientClose)
    (hnext : p = .outside ∨ ∃ clientClose, p = .closing c .clearProvider clientClose) :
    Sessions ((v.terminate c).setProgram t p) h ∧ Fresh ((v.terminate c).setProgram t p) h := by
  have hidle : ∀ which, (v.refs which).threads t = .idle := by
    intro which
    refine hS.idle_of_refCall (by rw [hp]; exact Option.some_ne_none c) ?_
    rw [hp]
    exact fun _ heq => by cases heq
  refine (hS.terminate hp).moveIdle (v := v.terminate c) hF hidle ?_ ?_ ?_ ?_ ?_ ?_ ?_
  · rcases hnext with rfl | ⟨_, rfl⟩ <;> exact fun _ _ heq => by cases heq
  · rcases hnext with rfl | ⟨_, rfl⟩ <;> exact fun _ heq => by cases heq
  · rcases hnext with rfl | ⟨_, rfl⟩
    · exact fun _ hc => by cases hc
    · exact fun _ hc => .inl ((congrArg ClientProgram.calling hp).trans hc)
  · rcases hnext with rfl | ⟨_, rfl⟩ <;> exact fun _ _ heq => by cases heq
  · rcases hnext with rfl | ⟨_, rfl⟩
    · exact fun _ _ heq => by cases heq
    · intro c' _ heq
      obtain ⟨rfl, -⟩ := ClientProgram.closing.inj heq
      exact SessionView.terminate_self
  · rcases hnext with rfl | ⟨_, rfl⟩ <;> exact fun _ _ hl => hl
  · rintro c' (hl | ⟨clientClose, heq⟩)
    · have hl : (v.programs t).Left .gServiceUserClient c' := hl
      rw [hp] at hl
      exact (show c = c' from hl) ▸ SessionView.terminate_self
    · have heq : v.programs t = .closing c' .unregisterService clientClose := heq
      rw [hp] at heq
      cases heq

theorem Sessions.closed (hS : Sessions v h) (hF : Fresh v h) {clientClose : Bool}
    (hp : v.programs t = .closing c .clearProvider clientClose) :
    Sessions ((v.clearProvider c).setProgram t .outside) h ∧
      Fresh ((v.clearProvider c).setProgram t .outside) h := by
  have hidle : ∀ which, (v.refs which).threads t = .idle := by
    intro which
    refine hS.idle_of_refCall (by rw [hp]; exact Option.some_ne_none c) ?_
    rw [hp]
    exact fun _ heq => by cases heq
  refine (hS.clearProvider hp).moveIdle (v := v.clearProvider c) hF hidle (fun _ _ heq => by cases heq)
    (fun _ heq => by cases heq) (fun _ hc => by cases hc) (fun _ _ heq => by cases heq)
    (fun _ _ heq => by cases heq) (fun _ _ hl => hl) ?_
  rintro c' (hl | ⟨clientClose, heq⟩)
  · have hl : (v.programs t).Left .gServiceUserClient c' := hl
    rw [hp] at hl
    exact hl.elim
  · have heq : v.programs t = .closing c' .unregisterService clientClose := heq
    rw [hp] at heq
    cases heq

/-- A thread takes or gives back a client. -/
theorem Sessions.borrow (hS : Sessions v h) (hF : Fresh v h) {l : UserClientLabel T C}
    {ref : UserClientState T C}
    {e : List (UserClientEvent C)} (hp : v.programs l.thread = .outside)
    (hl : ∀ t call, l = .call t call → call = .getUserClient ∨ call = .releaseUserClient)
    (hfew : FewInvocations (v.refs .gSocketFilter) l)
    (hs : (userClientMachine T C).step (v.refs .gSocketFilter) l = some (ref, e)) :
    Sessions (v.setRef .gSocketFilter ref) (h ++ e.map fun event => (.gSocketFilter, event)) ∧
      Fresh (v.setRef .gSocketFilter ref) (h ++ e.map fun event => (.gSocketFilter, event)) := by
  have hwithin := hS.within .gSocketFilter l.thread
  rw [hp] at hwithin
  have hnone : ((v.refs .gSocketFilter).threads l.thread).registration = none := hwithin
  constructor
  · refine hS.stepRef hF hfew ?_ hs
    rw [hp]
    show (ref.threads l.thread).registration = none
    cases l with
    | call t call =>
      obtain ⟨a', henter, heq⟩ := Option.map_eq_some_iff.1 hs
      obtain ⟨rfl, -⟩ := Prod.mk.inj heq
      simp only [UserClientLabel.thread, Function.update_self]
      rcases hl t call rfl with rfl | rfl
      · cases ha : (v.refs .gSocketFilter).threads t with
        | idle =>
          rw [ha] at henter
          cases henter
          rfl
        | _ =>
          rw [ha] at henter
          cases henter
      · cases ha : (v.refs .gSocketFilter).threads t with
        | holding =>
          rw [ha] at henter
          cases henter
          rfl
        | _ =>
          rw [ha] at henter
          cases henter
    | access t =>
      obtain ⟨⟨a', r', e'⟩, haccess, heq⟩ := Option.map_eq_some_iff.1 hs
      obtain ⟨rfl, -⟩ := Prod.mk.inj heq
      simp only [UserClientLabel.thread, Function.update_self]
      exact UserClientAccess.access_registration_none hnone haccess
  · refine Fresh.stepRef_stay hS hF hs ?_
    rintro c (⟨heq, -⟩ | ⟨heq, -⟩)
    · cases hp.symm.trans heq
    · cases hp.symm.trans heq

omit [DecidableEq T] [DecidableEq C] in
/-- The calls of `startLogging` and `stopLogging`. -/
theorem ClientProgram.registers_of_refCall {call : UserClientCall C} (h : p.refCall = some (which, call)) :
    ∃ c, p.calling = some c ∧ (call = .registerUserClient c ∨ call = .unregisterUserClient c) := by
  cases p with
  | outside | notifying => cases h
  | opening c stage =>
    cases stage with
    | isInactive | openProvider => cases h
    | registerService | registerSocket =>
      cases h
      exact ⟨c, rfl, .inl rfl⟩
    | unregisterSocket =>
      cases h
      exact ⟨c, rfl, .inr rfl⟩
  | closing c stage =>
    cases stage with
    | unregisterSocket | unregisterService =>
      cases h
      exact ⟨c, rfl, .inr rfl⟩
    | _ => cases h

theorem Sessions.enter (hS : Sessions v h) (hF : Fresh v h) {call : UserClientCall C}
    {ref : UserClientState T C}
    {e : List (UserClientEvent C)} (hcall : (v.programs t).refCall = some (which, call))
    (hidle : (v.refs which).threads t = .idle)
    (hs : (userClientMachine T C).step (v.refs which) (.call t call) = some (ref, e)) :
    Sessions (v.setRef which ref) (h ++ e.map fun event => (which, event)) ∧
      Fresh (v.setRef which ref) (h ++ e.map fun event => (which, event)) := by
  have hfew := LifetimeState.few_of_call hs
  have hs' := hs
  obtain ⟨a', henter, heq⟩ := Option.map_eq_some_iff.1 hs
  obtain ⟨rfl, rfl⟩ := Prod.mk.inj heq
  rw [hidle] at henter
  have ha' : a'.registration = some call := by
    rcases UserClientAccess.enter_registration henter with ⟨rfl, -⟩ | ha'
    · obtain ⟨c, -, hc⟩ := ClientProgram.registers_of_refCall hcall
      rcases hc with hc | hc <;> cases hc
    · exact ha'
  have hretain : ∀ c, a' ≠ .retain c := by
    rintro c rfl
    cases call <;> cases henter
  constructor
  · refine hS.stepRef hF hfew ?_ hs'
    simp only [UserClientLabel.thread, Function.update_self]
    exact ClientProgram.within_refCall hcall ha'
  · refine Fresh.stepRef_stay hS hF hs' ?_
    rintro c (⟨hp, hthread⟩ | ⟨hp, -⟩)
    · obtain ⟨rfl, -⟩ := Prod.mk.inj (Option.some.inj ((congrArg ClientProgram.refCall hp).symm.trans hcall))
      simp only [SessionView.setRef_self, UserClientLabel.thread, Function.update_self] at hthread
      exact absurd hthread (hretain c)
    · obtain ⟨rfl, -⟩ := Prod.mk.inj (Option.some.inj ((congrArg ClientProgram.refCall hp).symm.trans hcall))
      exact .inl ⟨.inr ⟨hp, .inl hidle⟩, fun _ hmem => by cases hmem⟩

/-- An access in a function of a reference. -/
theorem Sessions.access (hS : Sessions v h) {call : UserClientCall C} {ref : UserClientState T C}
    {e : List (UserClientEvent C)} (hcall : (v.programs t).refCall = some (which, call))
    (hs : (userClientMachine T C).step (v.refs which) (.access t) = some (ref, e)) :
    ((v.refs which).threads t).registration = some call ∧
      ∃ a' r', ref = ⟨r', Function.update (v.refs which).threads t a'⟩ ∧
      (v.refs which).ref.access ((v.refs which).threads t) = some (a', r', e) := by
  obtain ⟨⟨a', r', e'⟩, haccess, heq⟩ := Option.map_eq_some_iff.1 hs
  obtain ⟨rfl, rfl⟩ := Prod.mk.inj heq
  refine ⟨?_, a', r', rfl, haccess⟩
  have hnot : (v.refs which).threads t ≠ .idle := by
    intro hidle
    rw [hidle] at haccess
    cases haccess
  have hwithin := hS.within which t
  cases hp : v.programs t with
  | outside | notifying =>
    rw [hp] at hcall
    cases hcall
  | opening | closing =>
    rw [hp] at hwithin hcall
    obtain ⟨call', hcall', hreg⟩ := hwithin.resolve_left hnot
    obtain ⟨-, rfl⟩ := Prod.mk.inj (Option.some.inj (hcall.symm.trans hcall'))
    exact hreg

theorem Sessions.inside (hS : Sessions v h) (hF : Fresh v h) {call : UserClientCall C}
    {ref : UserClientState T C}
    {e : List (UserClientEvent C)} (hcall : (v.programs t).refCall = some (which, call))
    (hfew : FewInvocations (v.refs which) (.access t))
    (hs : (userClientMachine T C).step (v.refs which) (.access t) = some (ref, e))
    (hresult : e.findSome? UserClientEvent.result = none) :
    Sessions (v.setRef which ref) (h ++ e.map fun event => (which, event)) ∧
      Fresh (v.setRef which ref) (h ++ e.map fun event => (which, event)) := by
  have hs' := hs
  obtain ⟨hreg, a', r', rfl, haccess⟩ := hS.access hcall hs
  have ha' : a'.registration = some call := by
    rcases UserClientAccess.access_registration hreg haccess with ⟨-, ha'⟩ | ⟨RC, hsome, -⟩
    · exact ha'
    · rw [hresult] at hsome
      cases hsome
  constructor
  · refine hS.stepRef hF hfew ?_ hs'
    simp only [UserClientLabel.thread, Function.update_self]
    exact ClientProgram.within_refCall hcall ha'
  · refine Fresh.stepRef_stay hS hF hs' ?_
    rintro c (⟨hp, hthread⟩ | ⟨hp, hthread⟩)
    · obtain ⟨rfl, -⟩ := Prod.mk.inj (Option.some.inj ((congrArg ClientProgram.refCall hp).symm.trans hcall))
      simp only [SessionView.setRef_self, UserClientLabel.thread, Function.update_self] at hthread
      subst hthread
      obtain ⟨ha, hnone, rfl⟩ := UserClientAccess.access_retain haccess
      exact .inr ⟨rfl, ha, rfl, hnone⟩
    · obtain ⟨rfl, -⟩ := Prod.mk.inj (Option.some.inj ((congrArg ClientProgram.refCall hp).symm.trans hcall))
      simp only [SessionView.setRef_self, UserClientLabel.thread, Function.update_self] at hthread
      rcases hthread with rfl | rfl | rfl
      · cases ha'
      · exact absurd haccess UserClientAccess.access_checkPending_ne
      · obtain ⟨ha, rfl⟩ := UserClientAccess.access_swapIn_inv haccess
        exact .inl ⟨.inr ⟨hp, .inr (.inl ha)⟩, fun _ hmem => by cases hmem⟩

omit [DecidableEq T] in
/-- `startLogging` goes on, or returns. -/
theorem Sessions.moves_opening (hS : Sessions v h) (hidle : ∀ which, (v.refs which).threads t = .idle)
    {stage : OpenStage} (hp : v.programs t = .opening c stage) (hne : stage ≠ .isInactive)
    (hnext : p = .outside ∨ ∃ stage', p = .opening c stage') : Moves v t p where
  within which := by
    rw [hidle which]
    refine ClientProgram.within_idle ?_
    rcases hnext with rfl | ⟨_, rfl⟩ <;> exact fun _ _ heq => by cases heq
  calling := by
    rcases hnext with rfl | ⟨_, rfl⟩
    · exact fun _ hc => by cases hc
    · exact fun _ hc => .inl ((congrArg ClientProgram.calling hp).trans hc)
  active := by
    rcases hnext with rfl | ⟨_, rfl⟩
    · exact fun _ _ heq => by cases heq
    · intro c' _ heq _
      obtain ⟨rfl, -⟩ := ClientProgram.opening.inj heq
      exact hS.active t c stage hp hne
  clearing := by
    rcases hnext with rfl | ⟨_, rfl⟩ <;> exact fun _ _ heq => by cases heq
  left := by
    rcases hnext with rfl | ⟨_, rfl⟩ <;> exact fun _ _ hl => hl.elim
  terminating := by
    rintro c' (hl | ⟨clientClose, heq⟩)
    · rw [hp] at hl
      exact hl.elim
    · rw [hp] at heq
      cases heq

omit [DecidableEq T] [DecidableEq C] in
/-- `stopLogging` goes on when the client is out of the reference. -/
theorem SessionView.moves_closing (hidle : ∀ which, (v.refs which).threads t = .idle)
    {stage stage' : CloseStage} {clientClose : Bool} (hp : v.programs t = .closing c stage clientClose)
    (hnext : (stage = .unregisterSocket ∧ stage' = .unregisterService) ∨
      (stage = .unregisterService ∧ stage' = .superTerminate))
    (hsocket : (v.refs .gSocketFilter).ref.userClient ≠ some c)
    (hservice : stage = .unregisterService → (v.refs .gServiceUserClient).ref.userClient ≠ some c)
    (hback : ∀ u, ((v.refs .gSocketFilter).threads u).confirmed ≠ some c) :
    Moves v t (.closing c stage' clientClose) where
  within which := by
    rw [hidle which]
    exact ClientProgram.within_idle fun _ _ heq => by cases heq
  calling _ hc := .inl ((congrArg ClientProgram.calling hp).trans hc)
  active _ _ heq := by cases heq
  clearing _ _ heq := by
    cases heq
    rcases hnext with ⟨-, heq⟩ | ⟨-, heq⟩ <;> cases heq
  left which c' hl := by
    have hc : c = c' := Option.some.inj (ClientProgram.calling_of_left hl)
    subst hc
    refine ⟨?_, fun _ => hback⟩
    cases which with
    | gSocketFilter => exact hsocket
    | gServiceUserClient =>
      rcases hnext with ⟨-, rfl⟩ | ⟨hstage, -⟩
      · cases hl.2
      · exact hservice hstage
  terminating c' hc := by
    rcases hnext with ⟨rfl, rfl⟩ | ⟨rfl, rfl⟩
    · rcases hc with hl | ⟨_, heq⟩
      · rw [hp] at hl
        exact hl.elim
      · rw [hp] at heq
        cases heq
    · rcases hc with hl | ⟨_, heq⟩
      · rw [hp] at hl
        cases hl.2
      · rw [hp] at heq
        cases heq
        exact .inr rfl

theorem Sessions.returned (hS : Sessions v h) (hF : Fresh v h) {call : UserClientCall C}
    {ref : UserClientState T C}
    {e : List (UserClientEvent C)} {RC : RegistrationResult}
    (hcall : (v.programs t).refCall = some (which, call))
    (hfew : FewInvocations (v.refs which) (.access t))
    (hs : (userClientMachine T C).step (v.refs which) (.access t) = some (ref, e))
    (hresult : e.findSome? UserClientEvent.result = some RC) :
    Sessions ((v.setRef which ref).setProgram t ((v.programs t).returned RC).1)
        (h ++ e.map fun event => (which, event)) ∧
      Fresh ((v.setRef which ref).setProgram t ((v.programs t).returned RC).1)
        (h ++ e.map fun event => (which, event)) := by
  obtain ⟨hreg, a', r', href, haccess⟩ := hS.access hcall hs
  have ha' : a' = .idle := by
    rcases UserClientAccess.access_registration hreg haccess with ⟨hnone, -⟩ | ⟨-, -, ha'⟩
    · rw [hresult] at hnone
      cases hnone
    · exact ha'
  have hcalling : (v.programs t).calling ≠ none := by
    obtain ⟨c, hc, -⟩ := ClientProgram.registers_of_refCall hcall
    rw [hc]
    exact Option.some_ne_none c
  have hthread : ref.threads t = .idle := by
    rw [href]
    exact (Function.update_self ..).trans ha'
  have hidle : ∀ which', ((v.setRef which ref).refs which').threads t = .idle := by
    intro which'
    by_cases hw : which' = which
    · subst hw
      rw [SessionView.setRef_self]
      exact hthread
    · rw [SessionView.setRef_of_ne hw]
      refine hS.idle_of_refCall hcalling ?_
      rw [hcall]
      exact fun _ heq => hw (Prod.mk.inj (Option.some.inj heq)).1.symm
  have hS' : Sessions (v.setRef which ref) (h ++ e.map fun event => (which, event)) := by
    refine hS.stepRef hF hfew ?_ hs
    rw [show ref.threads (UserClientLabel.access t : UserClientLabel T C).thread = .idle from hthread]
    refine ClientProgram.within_idle fun c stage heq => ?_
    have heq : v.programs t = .notifying c stage := heq
    rw [heq] at hcall
    cases hcall
  -- a thread comes to a registration in `gSocketFilter` only behind one in the service
  have hfresh : (∀ c, ((v.programs t).returned RC).1 = .opening c .registerSocket →
      v.Registering t c ∧ ∀ c, .registered c ∉ e) →
      Fresh ((v.setRef which ref).setProgram t ((v.programs t).returned RC).1)
        (h ++ e.map fun event => (which, event)) := by
    intro hnext
    refine Fresh.stepRef hS hF hs ?_
    rintro c (⟨-, hr⟩ | ⟨hp, -⟩)
    · have hr : ((v.setRef which ref).refs .gServiceUserClient).threads t = .retain c := hr
      rw [hidle] at hr
      cases hr
    · have hp : ((v.setRef which ref).setProgram t ((v.programs t).returned RC).1).programs t = _ := hp
      rw [SessionView.setProgram_self] at hp
      exact .inl (hnext c hp)
  cases hp : v.programs t with
  | outside | notifying =>
    rw [hp] at hcall
    cases hcall
  | opening c stage =>
    rw [hp] at hcall hfresh
    cases stage with
    | isInactive | openProvider => cases hcall
    | registerService =>
      cases hcall
      cases RC with
      | kIOReturnSuccess =>
        obtain ⟨ha, hnot⟩ := UserClientAccess.access_registered hreg haccess hresult
        refine ⟨hS'.move (hS'.moves_opening hidle hp (by decide) (.inr ⟨_, rfl⟩)), hfresh ?_⟩
        intro c' heq
        cases heq
        exact ⟨.inl ⟨hp, ha⟩, hnot⟩
      | kIOReturnError =>
        exact ⟨hS'.move (hS'.moves_opening hidle hp (by decide) (.inr ⟨_, rfl⟩)),
          hfresh fun _ heq => by cases heq⟩
    | registerSocket =>
      cases RC with
      | kIOReturnSuccess =>
        exact ⟨hS'.move (hS'.moves_opening hidle hp (by decide) (.inl rfl)), hfresh fun _ heq => by cases heq⟩
      | kIOReturnError =>
        exact ⟨hS'.move (hS'.moves_opening hidle hp (by decide) (.inr ⟨_, rfl⟩)),
          hfresh fun _ heq => by cases heq⟩
    | unregisterSocket =>
      exact ⟨hS'.move (hS'.moves_opening hidle hp (by simp) (.inl rfl)), hfresh fun _ heq => by cases heq⟩
  | closing c stage clientClose =>
    rw [hp] at hcall hfresh
    cases stage with
    | unregisterSocket =>
      cases hcall
      obtain ⟨hout, hback⟩ := hS.unregistered hreg hs hresult
      refine ⟨hS'.move (SessionView.moves_closing hidle hp (.inl ⟨rfl, rfl⟩) ?_ (fun heq => by cases heq) ?_),
        hfresh fun _ heq => by cases heq⟩
      · rw [SessionView.setRef_self]
        exact hout
      · rw [SessionView.setRef_self]
        exact hback rfl
    | unregisterService =>
      cases hcall
      obtain ⟨hout, -⟩ := hS.unregistered hreg hs hresult
      have hleft : v.Left .gSocketFilter c := .inr ⟨t, hp ▸ ⟨rfl, rfl⟩⟩
      refine ⟨hS'.move (SessionView.moves_closing hidle hp (.inr ⟨rfl, rfl⟩) ?_ (fun _ => ?_) ?_),
        hfresh fun _ heq => by cases heq⟩
      · exact hS.left _ c hleft
      · rw [SessionView.setRef_self]
        exact hout
      · exact hS.handedBack c hleft
    | _ => cases hcall

/-- Every step keeps the sessions apart. -/
theorem Sessions.step (hS : Sessions v h) (hF : Fresh v h) (hs : SessionStep v v' e) :
    Sessions v' (h ++ e) ∧ Fresh v' (h ++ e) := by
  cases hs with
  | stutter => exact ⟨by rwa [List.append_nil], by rwa [List.append_nil]⟩
  | borrow hp hl hfew hs => exact hS.borrow hF hp hl hfew hs
  | enter hcall hidle hs => exact hS.enter hF hcall hidle hs
  | inside hcall hfew hs hresult => exact hS.inside hF hcall hfew hs hresult
  | returned hcall hfew hs hresult => exact hS.returned hF hcall hfew hs hresult
  | callOpen hout hidle hapart =>
    rw [List.append_nil]
    refine hS.moveIdle hF (hS.idle_of_outside hout hidle) (fun _ _ heq => by cases heq) (fun _ heq => by cases heq)
      ?_ ?_ (fun _ _ heq => by cases heq) (fun _ _ hl => hl) ?_
    · intro c' hc
      obtain rfl := Option.some.inj hc
      exact .inr hapart
    · intro _ _ heq hne
      cases heq
      exact absurd rfl hne
    · rintro c' (hl | ⟨clientClose, heq⟩)
      · rw [hout] at hl
        exact hl.elim
      · rw [hout] at heq
        cases heq
  | callClose hout hidle hapart hearly =>
    rw [List.append_nil]
    refine hS.closing hF (hS.idle_of_outside hout hidle) (.inl hearly) (.inr hapart) ?_ ?_
    · rw [hout]
      exact fun _ _ hl => hl
    · rw [hout]
      exact fun _ _ heq => by cases heq
  | @notify t c hout hhas =>
    rw [List.append_nil]
    have hservice := hS.within .gServiceUserClient t
    rw [hout] at hservice
    exact hS.notifying hF hservice hhas (.inl hout) (.inr ⟨_, rfl⟩)
  | notifying hp =>
    rw [List.append_nil]
    obtain ⟨hservice, hsocket⟩ := hS.holding_of_notifying hp
    exact hS.notifying hF hservice hsocket (.inr ⟨_, hp⟩) (.inr ⟨_, rfl⟩)
  | notified hp =>
    rw [List.append_nil]
    obtain ⟨hservice, hsocket⟩ := hS.holding_of_notifying hp
    exact hS.notifying hF hservice hsocket (.inr ⟨_, hp⟩) (.inl rfl)
  | isActive hp hactive =>
    rw [List.append_nil]
    exact hS.opening hF hp (congrArg ClientProgram.refCall hp) (.inr ⟨_, rfl, by decide, hactive⟩)
  | providerOpened hp =>
    rw [List.append_nil]
    exact hS.opening hF hp (congrArg ClientProgram.refCall hp)
      (.inr ⟨_, rfl, by decide, hS.active _ _ _ hp (by decide)⟩)
  | openFailed hp hcall =>
    rw [List.append_nil]
    exact hS.opening hF hp hcall (.inl rfl)
  | @closing t c stage stage' clientClose hp hearly hnext =>
    rw [List.append_nil]
    obtain ⟨hcall, hleft⟩ := ClientProgram.refCall_of_early hearly c clientClose
    have hidle : ∀ which, (v.refs which).threads t = .idle := by
      intro which
      refine hS.idle_of_refCall (by rw [hp]; exact Option.some_ne_none c) ?_
      rw [hp, hcall]
      exact fun _ heq => by cases heq
    refine hS.closing hF hidle hnext (.inl (congrArg ClientProgram.calling hp)) ?_ ?_
    · rw [hp]
      exact hleft
    · rw [hp]
      intro _ _ heq
      cases heq
      cases hearly
  | @terminated t c clientClose hp =>
    rw [List.append_nil]
    refine hS.terminated hF hp ?_
    split
    · exact .inr ⟨_, rfl⟩
    · exact .inl rfl
  | closed hp =>
    rw [List.append_nil]
    exact hS.closed hF hp

omit [DecidableEq T] in
theorem sessions_start : Sessions (LifetimeState.start : LifetimeState T C).view [] where
  within which _ := ClientProgram.within_idle fun _ _ heq => by cases heq
  apart _ _ _ hc := by cases hc
  active _ _ _ heq := by cases heq
  clearing _ _ _ heq := by cases heq
  fProvider _ heq := by cases heq
  handedOut _ := handedOut_start
  once _ _ := Nat.zero_le _
  steady _ _ := trivial
  accounted _ _ hc := by cases hc
  left _ _ _ hc := by cases hc
  handedBack _ _ _ hc := by cases hc
  service _ hmem := by cases hmem
  both _ hmem := by cases hmem

omit [DecidableEq C] [DecidableEq T] in
theorem fresh_start : Fresh (LifetimeState.start : LifetimeState T C).view [] := by
  rintro _ _ (⟨heq, -⟩ | ⟨heq, -⟩) <;> cases heq

end Step

/-- In every run whose calls do not overlap. -/
theorem sessions_step {T C : Type*} [DecidableEq T] [DecidableEq C] {s s' : LifetimeState T C}
    {h e : List (LifetimeEvent C)} {l : LifetimeLabel T C}
    (hS : Sessions s.view (h.filterMap LifetimeEvent.refEvent) ∧
      Fresh s.view (h.filterMap LifetimeEvent.refEvent))
    (hapart : CallsApart s l) (hfew : FewClientInvocations s l)
    (hs : (lifetimeMachine T C).step s l = some (s', e)) :
    Sessions s'.view ((h ++ e).filterMap LifetimeEvent.refEvent) ∧
      Fresh s'.view ((h ++ e).filterMap LifetimeEvent.refEvent) := by
  rw [List.filterMap_append]
  exact hS.1.step hS.2 (LifetimeState.isSession_of_step hapart hfew hs)

end NkeFilter
