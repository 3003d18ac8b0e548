import NkeFilter.ClientKept

/-!
# Threads use what is there

While the calls of one client do not overlap, a client that can be called is not freed, and whoever has one has
one that is started. So the functions of the references and what the threads do in a client use nothing that is
not there (`Kept.run`).
-/

namespace NkeFilter
open Lib RefHeap

section Kept
variable {T C : Type*} [DecidableEq T] [DecidableEq C] {s s' : LifetimeState T C} {h e : List (LifetimeEvent C)}
  {t : T} {c : C} {which : ClientRefName}

/-! ### Steps of a reference -/

omit [DecidableEq T] in
/-- Who registers a client first is in a call of it, and nobody takes a reference that the client has not. -/
theorem Kept.unretained_le (hK : Kept s h) (hS : Sessions s.view (h.filterMap LifetimeEvent.refEvent))
    (which : ClientRefName) (c : C) :
    (s.refs which).unretained c ≤ UserClientAccess.place (s.refs which).ref c := by
  by_cases hsome : ∃ t, (s.refs which).threads t = .retain c
  · obtain ⟨t, ht⟩ := hsome
    have hplace : (s.refs which).ref.userClient = some c := by
      have hsteady : ((s.refs which).threads t).Steady (s.refs which).ref := hS.steady which t
      rw [ht] at hsteady
      exact hsteady
    rw [UserClientAccess.place, if_pos hplace, UserClientState.unretained,
      total_indicator ((hK.few which).retaining c), Set.ncard_le_one ((hK.few which).retaining c).finite]
    intro u hu w hw
    have hu : (s.view.refs which).threads u = .retain c := hu
    have hw : (s.view.refs which).threads w = .retain c := hw
    exact hS.alone (congrArg UserClientAccess.registration hu)
      (congrArg UserClientAccess.registration hw) (.inl rfl) (.inl rfl)
  · rw [UserClientState.unretained, total_of_zero]
    · exact Nat.zero_le _
    · intro t
      exact if_neg fun ht => hsome ⟨t, ht⟩

omit [DecidableEq T] in
/-- A client that can be called is not freed. -/
theorem Kept.retainCount_pos (hK : Kept s h) (hS : Sessions s.view (h.filterMap LifetimeEvent.refEvent))
    (hc : s.Callable c) : 0 < (s.clients c).retainCount := by
  have hcount := hK.count c
  have hservice := hK.unretained_le hS .gServiceUserClient c
  have hsocket := hK.unretained_le hS .gSocketFilter c
  rw [if_pos hc] at hcount
  simp only [LifetimeState.unretained, LifetimeState.owing, UserClientState.owing] at hcount
  omega

omit [DecidableEq T] in
/-- A thread that is about to release a client does not release the reference of IOKit. -/
theorem Kept.two_le (hK : Kept s h) (hS : Sessions s.view (h.filterMap LifetimeEvent.refEvent))
    (hc : s.Callable c) (ha : (s.refs which).threads t = .release c) : 2 ≤ (s.clients c).retainCount := by
  have hcount := hK.count c
  rw [if_pos hc] at hcount
  have hreg : ((s.view.refs which).threads t).registration = some (.unregisterUserClient c) :=
    congrArg UserClientAccess.registration ha
  have hunregister := (hS.within which t).refCall hreg
  have hnone : ∀ which', (s.refs which').unretained c = 0 := by
    intro which'
    refine total_of_zero fun u => if_neg ?_
    intro hu
    have hu : (s.view.refs which').threads u = .retain c := hu
    have hreg' := congrArg UserClientAccess.registration hu
    have hut := hS.alone hreg hreg' (.inr rfl) (.inl rfl)
    subst hut
    have hregister := (hS.within which' t).refCall hreg'
    cases hunregister.symm.trans hregister
  have hwaiting : 1 ≤ (s.refs which).owing c := by
    have hpos := total_pos (p := UserClientAccess.Waiting c) ((hK.few which).waiting c) (t := t) (.inr ha)
    rw [UserClientState.owing]
    omega
  simp only [LifetimeState.unretained, LifetimeState.owing, hnone] at hcount
  cases which <;> omega

variable {l : UserClientLabel T C} {ref : UserClientState T C} {events : List (UserClientEvent C)}

omit [DecidableEq T] in
theorem count_map_ref (which : ClientRefName) (events : List (UserClientEvent C)) (c : C) :
    (events.map (LifetimeEvent.ref which)).count (.freed c) = 0 :=
  List.count_eq_zero.2 (by simp)

omit [DecidableEq T] [DecidableEq C] in
theorem refEvent_map (which : ClientRefName) (events : List (UserClientEvent C)) :
    (events.map (LifetimeEvent.ref which)).filterMap LifetimeEvent.refEvent =
      events.map fun event => (which, event) := by
  rw [List.filterMap_map, ← List.filterMap_eq_map]
  rfl

/-- One step of a reference, with what it does to the reference counts. -/
theorem Kept.ofRef (hK : Kept s h) (hS : Sessions s.view (h.filterMap LifetimeEvent.refEvent))
    (hs : (userClientMachine T C).step (s.refs which) l = some (ref, events))
    (hrefs : s'.refs = Function.update s.refs which ref) (hprograms : s'.programs = s.programs)
    (hheap : s'.heap = s.heap) (hmappings : s'.mappings = s.mappings)
    (hclients : ∀ c, (s.clients c).Keeps (s'.clients c))
    (hholder : ∀ c, (s'.clients c).lockHolder = (s.clients c).lockHolder)
    (hcount : ∀ c, (s'.clients c).retainCount + events.count (.released c) =
      (s.clients c).retainCount + events.count (.retained c)) :
    Kept s' (h ++ events.map (.ref which)) where
  noPanic := by
    rw [List.mem_append, not_or]
    exact ⟨hK.noPanic, by simp⟩
  callable t c hc := by
    rw [hprograms] at hc
    exact (callable_congr (hclients c).stage).2 (hK.callable t c hc)
  created which' c hmem := by
    rw [(hclients c).stage]
    rw [List.filterMap_append, refEvent_map, eventsOf_append, List.mem_append] at hmem
    rcases hmem with hmem | hmem
    · exact hK.created which' c hmem
    · -- the client is registered by `open`
      by_cases hw : which = which'
      · subst hw
        rw [eventsOf_self] at hmem
        obtain ⟨a', r', rfl, heff, -⟩ := UserClientState.step_cases hs
        obtain ⟨ha, -⟩ := heff.swapIn_of_registered hmem
        have hcalling : (s.programs l.thread).calling = some c := by
          have ha : (s.view.refs which).threads l.thread = .swapIn c := ha
          rcases hS.opening_of_swapIn ha with ⟨hp, -⟩ | ⟨hp, -⟩ <;>
            exact congrArg ClientProgram.calling hp
        exact (ClientStage.ne_of_callable (hK.callable l.thread c hcalling)).1
      · rw [eventsOf_other hw] at hmem
        cases hmem
  stopped c hpresent hc := by
    rw [(hclients c).stage] at hpresent hc
    exact (hclients c).inactive (hK.stopped c hpresent hc)
  ready c hc type hne := by
    rw [(hclients c).stage] at hc
    exact ((hclients c).queues type).ready (hK.ready c hc type hne)
  cleared c type := by
    rw [(hclients c).stage]
    exact ((hclients c).queues type).cleared (hK.cleared c type)
  few which' := by
    rw [hrefs]
    by_cases hw : which' = which
    · subst hw
      rw [Function.update_self]
      exact (hK.few which').step hs
    · rw [Function.update_of_ne hw]
      exact hK.few which'
  count c := by
    have hc := hK.count c
    have hbalance := UserClientState.step_balance (hK.few which) hs c
    have hretain := hcount c
    simp only [LifetimeState.unretained, LifetimeState.owing, hrefs, callable_congr (hclients c).stage] at hc ⊢
    cases which with
    | gServiceUserClient =>
      rw [Function.update_self, Function.update_of_ne (by decide)]
      omega
    | gSocketFilter =>
      rw [Function.update_self, Function.update_of_ne (by decide)]
      omega
  lock c t := by
    rw [hholder, hprograms]
    exact hK.lock c t
  finite id := finite_congr (fun c => (hclients c).held) (hK.finite id)
  ledger := by
    rw [hheap, hmappings, held_congr fun c => (hclients c).held]
    exact hK.ledger
  freed c := by
    rw [List.count_append, count_map_ref, (hclients c).stage]
    exact hK.freed c

section SetClient
variable {client : ClientObject T}

omit [DecidableEq T] in
theorem keeps_setClient (hkeep : (s.clients c).Keeps client) :
    ∀ c', (s.clients c').Keeps ((s.setClient c client).clients c') :=
  (Function.forall_update_iff s.clients fun c' client' => (s.clients c').Keeps client').2
    ⟨hkeep, fun _ _ => .refl⟩

omit [DecidableEq T] in
theorem lockHolder_setClient (hsame : client.lockHolder = (s.clients c).lockHolder) :
    ∀ c', ((s.setClient c client).clients c').lockHolder = (s.clients c').lockHolder :=
  (Function.forall_update_iff s.clients fun c' client' => client'.lockHolder = (s.clients c').lockHolder).2
    ⟨hsame, fun _ _ => rfl⟩

omit [DecidableEq T] in
theorem retainCount_setClient (hsame : client.retainCount = (s.clients c).retainCount) :
    ∀ c', ((s.setClient c client).clients c').retainCount = (s.clients c').retainCount :=
  (Function.forall_update_iff s.clients fun c' client' => client'.retainCount = (s.clients c').retainCount).2
    ⟨hsame, fun _ _ => rfl⟩

end SetClient

namespace LifetimeState

omit [DecidableEq T] in
theorem retain_pos (hpos : 0 < (s.clients c).retainCount) :
    s.retain c = (s.setClient c { s.clients c with retainCount := (s.clients c).retainCount + 1 }, []) :=
  if_neg (by omega)

omit [DecidableEq T] in
theorem release_more (htwo : 2 ≤ (s.clients c).retainCount) :
    s.release c = (s.setClient c { s.clients c with retainCount := (s.clients c).retainCount - 1 }, []) := by
  rw [release, if_neg (by omega)]
  simp only [setClient_self]
  rw [if_pos (by omega)]

omit [DecidableEq T] in
theorem release_last (hone : (s.clients c).retainCount = 1)
    (hfree : (s.setClient c { s.clients c with retainCount := 0 }).freeAllocatedResources c = some s') :
    s.release c = (s', [.freed c]) := by
  rw [release, if_neg (by omega)]
  simp only [setClient_self, hone, Nat.sub_self, ne_eq, not_true_eq_false, if_false, hfree]

end LifetimeState

omit [DecidableEq T] in
theorem handle_quiet (hnone : ∀ c, .retained c ∉ events ∧ .released c ∉ events) :
    s.handle events = (s, []) := by
  induction events with
  | nil => rfl
  | cons event events ih =>
    have hrest := ih fun c => ⟨fun hmem => (hnone c).1 (List.mem_cons_of_mem _ hmem),
      fun hmem => (hnone c).2 (List.mem_cons_of_mem _ hmem)⟩
    have hhead : s.handleEvent event = (s, []) := by
      cases event with
      | retained c => exact absurd (List.mem_cons_self ..) (hnone c).1
      | released c => exact absurd (List.mem_cons_self ..) (hnone c).2
      | _ => rfl
    rw [LifetimeState.handle, hhead]
    simp [hrest]

/-- Only the reference and the reference count of one client change. -/
theorem Kept.stepRef (hK : Kept s h) (hS : Sessions s.view (h.filterMap LifetimeEvent.refEvent))
    (hs : s.stepRef which l = some (s', events, e)) : Kept s' (h ++ e) ∧ s'.programs = s.programs := by
  obtain ⟨⟨ref, events'⟩, href, heq⟩ := Option.map_eq_some_iff.1 hs
  have href' : (userClientMachine T C).step (s.refs which) l = some (ref, events') := href
  have hdone : ∀ {s₁ : LifetimeState T C}, (s.setRef which ref).handle events' = (s₁, []) →
      s' = s₁ ∧ e = events'.map (.ref which) := by
    intro s₁ hhandle
    simp only [hhandle, List.append_nil] at heq
    obtain ⟨rfl, hevents⟩ := Prod.mk.inj heq
    obtain ⟨-, rfl⟩ := Prod.mk.inj hevents
    exact ⟨rfl, rfl⟩
  have hquiet : (∀ c, .retained c ∉ events' ∧ .released c ∉ events') →
      Kept s' (h ++ e) ∧ s'.programs = s.programs := by
    intro hnone
    obtain ⟨rfl, rfl⟩ := hdone (handle_quiet hnone)
    refine ⟨hK.ofRef hS href' rfl rfl rfl rfl (fun _ => .refl) (fun _ => rfl) fun c => ?_, rfl⟩
    rw [List.count_eq_zero.2 (hnone c).1, List.count_eq_zero.2 (hnone c).2]
    rfl
  obtain ⟨a', r', hrefeq, -, hkind⟩ := UserClientState.step_cases href'
  rcases hkind with ⟨-, rfl, -⟩ | haccess
  · exact hquiet fun c => ⟨List.not_mem_nil, List.not_mem_nil⟩
  · have hcall : ∀ c call, ((s.refs which).threads l.thread).registration = some call →
        call = .registerUserClient c ∨ call = .unregisterUserClient c → s.Callable c := by
      intro c call hreg hcall
      have hp := (hS.within which l.thread).refCall hreg
      exact hK.callable l.thread c (ClientProgram.calling_of_refCall hp hcall)
    rcases UserClientAccess.access_events haccess with hnone | ⟨c, ha, rfl⟩ | ⟨c, ha, rfl⟩
    · exact hquiet hnone
    · have hpos := hK.retainCount_pos hS (hcall c _ (congrArg UserClientAccess.registration ha) (.inl rfl))
      have hhandle : (s.setRef which ref).handle [.retained c, .registerReturned c .kIOReturnSuccess] =
          ((s.setRef which ref).setClient c
            { s.clients c with retainCount := (s.clients c).retainCount + 1 }, []) := by
        have hretain := LifetimeState.retain_pos (s := s.setRef which ref) (c := c) hpos
        simp only [LifetimeState.handle, LifetimeState.handleEvent, hretain]
        rfl
      obtain ⟨rfl, rfl⟩ := hdone hhandle
      refine ⟨hK.ofRef hS href' rfl rfl rfl rfl (keeps_setClient ⟨rfl, id, fun _ => .refl⟩)
        (lockHolder_setClient rfl) fun c' => ?_, rfl⟩
      by_cases hc : c' = c
      · subst hc
        simp
      · rw [LifetimeState.setClient_of_ne _ _ hc]
        simp [LifetimeState.setRef, Ne.symm hc]
    · have hreg : ((s.refs which).threads l.thread).registration = some (.unregisterUserClient c) := by
        rw [ha]
        rfl
      have htwo := hK.two_le hS (hcall c _ hreg (.inr rfl)) ha
      have hhandle : (s.setRef which ref).handle [.released c] =
          ((s.setRef which ref).setClient c
            { s.clients c with retainCount := (s.clients c).retainCount - 1 }, []) := by
        have hrelease := LifetimeState.release_more (s := s.setRef which ref) (c := c) htwo
        simp only [LifetimeState.handle, LifetimeState.handleEvent, hrelease]
        rfl
      obtain ⟨rfl, rfl⟩ := hdone hhandle
      refine ⟨hK.ofRef hS href' rfl rfl rfl rfl (keeps_setClient ⟨rfl, id, fun _ => .refl⟩)
        (lockHolder_setClient rfl) fun c' => ?_, rfl⟩
      by_cases hc : c' = c
      · subst hc
        simp
        omega
      · rw [LifetimeState.setClient_of_ne _ _ hc]
        simp [LifetimeState.setRef, Ne.symm hc]

/-! ### Steps of a thread -/

/-- The clients keep what they have and their locks, and only `owner` may be another one. -/
structure SameRest (s s' : LifetimeState T C) : Prop where
  clients : ∀ c, (s.clients c).Keeps (s'.clients c)
  lockHolder : ∀ c, (s'.clients c).lockHolder = (s.clients c).lockHolder
  retainCount : ∀ c, (s'.clients c).retainCount = (s.clients c).retainCount
  refs : s'.refs = s.refs
  programs : s'.programs = s.programs
  heap : s'.heap = s.heap
  mappings : s'.mappings = s.mappings

namespace SameRest

omit [DecidableEq T] [DecidableEq C] in
theorem refl : SameRest s s := ⟨fun _ => .refl, fun _ => rfl, fun _ => rfl, rfl, rfl, rfl, rfl⟩

omit [DecidableEq T] [DecidableEq C] in
theorem trans {s'' : LifetimeState T C} (h : SameRest s s') (h' : SameRest s' s'') : SameRest s s'' where
  clients c := (h.clients c).trans (h'.clients c)
  lockHolder c := (h'.lockHolder c).trans (h.lockHolder c)
  retainCount c := (h'.retainCount c).trans (h.retainCount c)
  refs := h'.refs.trans h.refs
  programs := h'.programs.trans h.programs
  heap := h'.heap.trans h.heap
  mappings := h'.mappings.trans h.mappings

omit [DecidableEq T] in
theorem setClient {client : ClientObject T} (hkeep : (s.clients c).Keeps client)
    (hholder : client.lockHolder = (s.clients c).lockHolder)
    (hcount : client.retainCount = (s.clients c).retainCount) : SameRest s (s.setClient c client) :=
  ⟨keeps_setClient hkeep, lockHolder_setClient hholder, retainCount_setClient hcount, rfl, rfl, rfl, rfl⟩

omit [DecidableEq T] in
theorem closeProvider : SameRest s (s.closeProvider c) := by
  unfold LifetimeState.closeProvider
  split
  · exact ⟨fun _ => .refl, fun _ => rfl, fun _ => rfl, rfl, rfl, rfl, rfl⟩
  · exact refl

omit [DecidableEq T] in
theorem close : SameRest s (s.close c) := by
  unfold LifetimeState.close
  split
  · exact refl
  · exact closeProvider.trans (setClient ⟨rfl, id, fun _ => .refl⟩ rfl rfl)

end SameRest

/-- A thread keeps the lock it has and takes none. -/
theorem Kept.setProgram (hK : Kept s h) {s₁ : LifetimeState T C} {p : ClientProgram C} (he : Quiet e)
    (hsame : SameRest s s₁)
    (hcalling : ∀ c, p.calling = some c → (s.programs t).calling = some c ∨ s.Callable c)
    (hlock : p.locked = (s.programs t).locked) : Kept (s₁.setProgram t p) (h ++ e) := by
  refine hK.frame he hsame.clients hsame.retainCount hsame.refs hsame.heap hsame.mappings ?_ ?_
  · intro u c hc
    have hc : (Function.update s₁.programs t p u).calling = some c := hc
    rw [hsame.programs] at hc
    by_cases hut : u = t
    · subst hut
      rw [Function.update_self] at hc
      exact hcalling c hc
    · rw [Function.update_of_ne hut] at hc
      exact .inl hc
  · intro c u
    show (s₁.clients c).lockHolder = some u ↔ (Function.update s₁.programs t p u).locked = some c
    rw [hsame.lockHolder, hsame.programs, hK.lock c u]
    by_cases hut : u = t
    · subst hut
      rw [Function.update_self, hlock]
    · rw [Function.update_of_ne hut]

omit [DecidableEq T] in
/-- Whoever has the client has one that is started. -/
theorem Kept.started_of_confirmed (hK : Kept s h) (hS : Sessions s.view (h.filterMap LifetimeEvent.refEvent))
    (hc : ((s.refs .gSocketFilter).threads t).confirmed = some c) : (s.clients c).stage = .started := by
  have hmem : .registered c ∈ eventsOf .gSocketFilter (h.filterMap LifetimeEvent.refEvent) := by
    rcases hS.accounted t c hc with hplace | ⟨w, hw⟩
    · exact (hS.handedOut .gSocketFilter).present c hplace
    · exact ((hS.handedOut .gSocketFilter).takenOut w c (congrArg UserClientAccess.takenOut hw)).1
  have hactive : ¬ (s.clients c).inactive = true := fun hinactive => hS.handedBack c (.inl hinactive) t hc
  by_contra hover
  exact hactive (hK.stopped c (hK.created _ c hmem) hover)

omit [DecidableEq T] in
theorem Kept.started_of_notifying (hK : Kept s h) (hS : Sessions s.view (h.filterMap LifetimeEvent.refEvent))
    {stage : NotifyStage} (hp : s.programs t = .notifying c stage) : (s.clients c).stage = .started := by
  obtain ⟨-, hsocket⟩ := hS.holding_of_notifying hp
  have hsocket : (s.refs .gSocketFilter).threads t = .holding c := hsocket
  exact hK.started_of_confirmed hS (t := t) (congrArg UserClientAccess.confirmed hsocket)

omit [DecidableEq T] in
/-- What a client holds is there. -/
theorem Kept.held_pos (hK : Kept s h) (c : C) (type : NkeNotifyType) {id : ℕ}
    (hpos : 0 < ((s.clients c).owned type).held id) : 0 < (s.held + s.mappings) id := by
  have hqueue := ClientQueues.held_le (s.clients c).owned type id
  have hclient := le_total (hK.finite id) c
  simp only [Pi.add_apply, LifetimeState.held]
  omega

omit [DecidableEq T] in
theorem Kept.lock_usable (hK : Kept s h) (hc : (s.clients c).stage = .started) :
    (s.clients c).socketQueue.fLock.bind s.heap.deref = some () := by
  have hready := hK.ready c hc .kt_NkeNotifyTypeSocketFilter (by decide)
  obtain ⟨id, hid⟩ := Option.ne_none_iff_exists'.1 hready.fLock
  have hid' : (s.clients c).socketQueue.fLock = some id := hid
  rw [hid']
  refine hK.ledger.deref (hK.held_pos c .kt_NkeNotifyTypeSocketFilter ?_)
  rw [ClientObject.owned_of_started hc]
  simp only [NotifyQueue.held, Pi.add_apply, hid, one_self]
  omega

omit [DecidableEq T] in
theorem Kept.queue_usable (hK : Kept s h) (hc : (s.clients c).stage = .started) :
    (s.clients c).socketQueue.fDataQueue.bind s.heap.deref = some () := by
  have hready := hK.ready c hc .kt_NkeNotifyTypeSocketFilter (by decide)
  obtain ⟨id, hid⟩ := Option.ne_none_iff_exists'.1 hready.fDataQueue
  have hid' : (s.clients c).socketQueue.fDataQueue = some id := hid
  rw [hid']
  refine hK.ledger.deref (hK.held_pos c .kt_NkeNotifyTypeSocketFilter ?_)
  rw [ClientObject.owned_of_started hc]
  simp only [NotifyQueue.held, Pi.add_apply, hid, one_self]
  omega

omit [DecidableEq T] [DecidableEq C] in
theorem Quiet.openReturned {result : SessionReturn} : Quiet [LifetimeEvent.openReturned c result] :=
  ⟨by simp, by simp, rfl⟩

omit [DecidableEq T] [DecidableEq C] in
theorem Quiet.notificationReturned : Quiet [LifetimeEvent.notificationReturned c] := ⟨by simp, by simp, rfl⟩

/-- A thread takes or drops the lock of a client, and nobody else has it. -/
theorem Kept.setLock (hK : Kept s h) {holder : Option T} {p : ClientProgram C} (he : Quiet e)
    (hcalling : p.calling = none) (hholder : ∀ u, holder = some u ↔ u = t ∧ p.locked = some c)
    (hothers : ∀ u, u ≠ t → (s.programs u).locked ≠ some c)
    (hone : ∀ c', c' ≠ c → p.locked ≠ some c' ∧ (s.programs t).locked ≠ some c') :
    Kept ((s.setClient c { s.clients c with lockHolder := holder }).setProgram t p) (h ++ e) := by
  refine hK.frame he (keeps_setClient ⟨rfl, id, fun _ => .refl⟩) (retainCount_setClient rfl) rfl rfl rfl ?_ ?_
  · intro u c' hc
    have hc : (Function.update s.programs t p u).calling = some c' := hc
    by_cases hut : u = t
    · subst hut
      rw [Function.update_self, hcalling] at hc
      cases hc
    · rw [Function.update_of_ne hut] at hc
      exact .inl hc
  · intro c' u
    show ((s.setClient c _).clients c').lockHolder = some u ↔
      (Function.update s.programs t p u).locked = some c'
    by_cases hc : c' = c
    · subst hc
      rw [LifetimeState.setClient_self, hholder]
      by_cases hut : u = t
      · subst hut
        rw [Function.update_self]
        exact and_iff_right rfl
      · rw [Function.update_of_ne hut]
        exact iff_of_false (fun hand => hut hand.1) (hothers u hut)
    · rw [LifetimeState.setClient_of_ne _ _ hc, hK.lock c' u]
      by_cases hut : u = t
      · subst hut
        rw [Function.update_self]
        exact iff_of_false (hone c' hc).2 (hone c' hc).1
      · rw [Function.update_of_ne hut]

theorem Kept.runNotification (hK : Kept s h) (hS : Sessions s.view (h.filterMap LifetimeEvent.refEvent))
    {stage : NotifyStage} (hp : s.programs t = .notifying c stage)
    (hs : s.runNotification t c stage = some (s', e)) :
    Kept s' (h ++ e) := by
  have hstarted := hK.started_of_notifying hS hp
  have hlocked := congrArg ClientProgram.locked hp
  cases stage with
  | checkPort =>
    simp only [LifetimeState.runNotification] at hs
    split at hs <;> cases hs
    · exact hK.setProgram .notificationReturned .refl (fun _ hc => by cases hc) hlocked.symm
    · exact hK.setProgram .nil .refl (fun _ hc => by cases hc) hlocked.symm
  | lock =>
    simp only [LifetimeState.runNotification, hK.lock_usable hstarted] at hs
    split at hs
    · cases hs
    · next hheld =>
      cases hs
      refine hK.setLock .nil rfl (fun u => ?_) (fun u _ hu => ?_) fun c' hne => ?_
      · rw [Option.some.injEq, eq_comm]
        exact (and_iff_left rfl).symm
      · exact hheld (Option.ne_none_iff_exists'.2 ⟨u, (hK.lock c u).2 hu⟩)
      · rw [hlocked]
        exact ⟨fun heq => hne (Option.some.inj heq).symm, fun heq => by cases heq⟩
  | enqueue =>
    simp only [LifetimeState.runNotification, hK.queue_usable hstarted] at hs
    cases hs
    exact hK.setProgram ⟨by simp, by simp, rfl⟩ .refl (fun _ hc => by cases hc) hlocked.symm
  | unlock =>
    have hmine : (s.clients c).lockHolder = some t := (hK.lock c t).2 hlocked
    simp only [LifetimeState.runNotification, hK.lock_usable hstarted] at hs
    cases hs
    refine hK.setLock .notificationReturned rfl (fun u => ?_) (fun u hne hu => ?_) fun c' hne => ?_
    · exact iff_of_false (fun heq => by cases heq) fun hand => by cases hand.2
    · have hother := (hK.lock c u).2 hu
      rw [hmine] at hother
      exact hne (Option.some.inj hother).symm
    · rw [hlocked]
      exact ⟨fun heq => (by cases heq), fun heq => hne (Option.some.inj heq).symm⟩

theorem Kept.runOpen (hK : Kept s h) (hS : Sessions s.view (h.filterMap LifetimeEvent.refEvent))
    {stage : OpenStage} (hp : s.programs t = .opening c stage) (hs : s.runOpen t c stage = some (s', e)) :
    Kept s' (h ++ e) := by
  have hlocked := congrArg ClientProgram.locked hp
  have hleft : ∀ {result : SessionReturn}, Kept (s.setProgram t .outside) (h ++ [.openReturned c result]) :=
    hK.setProgram .openReturned .refl (fun _ hc => by cases hc) hlocked.symm
  have hnext : ∀ (s₁ : LifetimeState T C) (stage' : OpenStage), SameRest s s₁ →
      Kept (s₁.setProgram t (.opening c stage')) (h ++ []) := by
    intro s₁ stage' hsame
    refine hK.setProgram .nil hsame ?_ hlocked.symm
    rw [hp]
    exact fun _ hc => .inl hc
  cases stage with
  | isInactive =>
    simp only [LifetimeState.runOpen] at hs
    split at hs <;> cases hs
    · exact hleft
    · exact hnext s _ .refl
  | openProvider =>
    -- the provider is cleared only when the client is inactive
    have hactive : (s.clients c).inactive = false := hS.active t c _ hp (by decide)
    have hprovider : (s.clients c).fProvider = true := by
      cases hcleared : (s.clients c).fProvider with
      | true => rfl
      | false =>
        have hinactive : (s.clients c).inactive = true := hS.fProvider c hcleared
        rw [hactive] at hinactive
        cases hinactive
    simp only [LifetimeState.runOpen, hprovider, Bool.not_true, Bool.false_eq_true, if_false] at hs
    split at hs <;> cases hs
    · exact hleft
    · exact hnext { s with owner := some c } _ ⟨fun _ => .refl, fun _ => rfl, fun _ => rfl, rfl, rfl, rfl, rfl⟩
  | registerService | registerSocket | unregisterSocket => cases hs

theorem Kept.runClose (hK : Kept s h) {stage : CloseStage} {clientClose : Bool}
    (hp : s.programs t = .closing c stage clientClose) (hs : s.runClose t c clientClose stage = some (s', e)) :
    Kept s' (h ++ e) := by
  have hlocked := congrArg ClientProgram.locked hp
  have hnext : ∀ {s₁ : LifetimeState T C} {stage' : CloseStage}, SameRest s s₁ →
      Kept (s₁.setProgram t (.closing c stage' clientClose)) (h ++ []) := by
    intro s₁ stage' hsame
    refine hK.setProgram .nil hsame ?_ hlocked.symm
    rw [hp]
    exact fun _ hc => .inl hc
  have hleft : ∀ {s₁ : LifetimeState T C}, SameRest s s₁ → Kept (s₁.setProgram t .outside) (h ++ []) := by
    intro s₁ hsame
    exact hK.setProgram .nil hsame (fun _ hc => by cases hc) hlocked.symm
  cases stage with
  | close =>
    cases hs
    refine hnext ?_
    split
    · exact SameRest.closeProvider.trans .close
    · exact .refl
  | closeProvider =>
    cases hs
    exact hnext .closeProvider
  | clearPort =>
    cases hs
    exact hnext (.setClient ⟨rfl, id, NotifyQueue.same_setPort 0⟩ rfl rfl)
  | superTerminate =>
    have hsame : SameRest s (s.setClient c { s.clients c with inactive := true }) :=
      .setClient ⟨rfl, fun _ => rfl, fun _ => .refl⟩ rfl rfl
    cases hs
    split
    · exact hnext hsame
    · exact hleft hsame
  | clearProvider =>
    cases hs
    exact hleft (.setClient ⟨rfl, id, fun _ => .refl⟩ rfl rfl)
  | unregisterSocket | unregisterService => cases hs

omit [DecidableEq T] [DecidableEq C] in
/-- A function of a reference returns to a thread that has no lock, and goes on in the same client. -/
theorem ClientProgram.returned_spec {p : ClientProgram C} {which : ClientRefName} {call : UserClientCall C}
    (hcall : p.refCall = some (which, call)) (RC : RegistrationResult) :
    Quiet (p.returned RC).2 ∧ (∀ c, (p.returned RC).1.calling = some c → p.calling = some c) ∧
      (p.returned RC).1.locked = p.locked := by
  cases p with
  | outside | notifying => cases hcall
  | opening client stage =>
    cases stage with
    | isInactive | openProvider => cases hcall
    | registerService => cases RC <;> exact ⟨.nil, fun _ hc => hc, rfl⟩
    | registerSocket =>
      cases RC with
      | kIOReturnSuccess => exact ⟨.openReturned, fun _ hc => (by cases hc), rfl⟩
      | _ => exact ⟨.nil, fun _ hc => hc, rfl⟩
    | unregisterSocket => exact ⟨.openReturned, fun _ hc => (by cases hc), rfl⟩
  | closing client stage =>
    cases stage with
    | unregisterSocket | unregisterService => exact ⟨.nil, fun _ hc => hc, rfl⟩
    | _ => cases hcall

theorem Kept.runRef (hK : Kept s h) (hS : Sessions s.view (h.filterMap LifetimeEvent.refEvent))
    {call : UserClientCall C} (hcall : (s.programs t).refCall = some (which, call))
    (hs : s.runRef t which call = some (s', e)) : Kept s' (h ++ e) := by
  unfold LifetimeState.runRef at hs
  split at hs
  · obtain ⟨⟨s₁, events, e₁⟩, hstep, heq⟩ := Option.map_eq_some_iff.1 hs
    cases heq
    exact (hK.stepRef hS hstep).1
  · obtain ⟨⟨s₁, events, e₁⟩, hstep, heq⟩ := Option.map_eq_some_iff.1 hs
    obtain ⟨hK₁, hprograms⟩ := hK.stepRef hS hstep
    cases hresult : events.findSome? UserClientEvent.result with
    | none =>
      simp only [hresult] at heq
      cases heq
      exact hK₁
    | some RC =>
      simp only [hresult] at heq
      cases heq
      rw [← hprograms] at hcall
      obtain ⟨hquiet, hcalling, hlocked⟩ := ClientProgram.returned_spec hcall RC
      rw [← List.append_assoc]
      exact hK₁.setProgram hquiet .refl (fun c hc => .inl (hcalling c hc)) hlocked

/-- A thread is never in a function of a freed client. -/
theorem Kept.run (hK : Kept s h) (hS : Sessions s.view (h.filterMap LifetimeEvent.refEvent))
    (hs : s.run t = some (s', e)) : Kept s' (h ++ e) := by
  have hthere : ¬ ∃ c ∈ (s.programs t).client, (s.clients c).retainCount = 0 := by
    rintro ⟨c, hc, hzero⟩
    have hcallable : s.Callable c := by
      cases hp : s.programs t with
      | outside =>
        rw [hp] at hc
        cases hc
      | notifying client stage =>
        rw [hp] at hc
        cases hc
        exact callable_of_started (hK.started_of_notifying hS hp)
      | opening client stage | closing client stage =>
        rw [hp] at hc
        cases hc
        exact hK.callable t c (congrArg ClientProgram.calling hp)
    have hpos := hK.retainCount_pos hS hcallable
    omega
  unfold LifetimeState.run at hs
  rw [if_neg hthere] at hs
  split at hs
  · next hcall => exact hK.runRef hS hcall hs
  · split at hs
    · obtain ⟨⟨s₁, events, e₁⟩, hstep, heq⟩ := Option.map_eq_some_iff.1 hs
      cases heq
      exact (hK.stepRef hS hstep).1
    · next hp => exact hK.runNotification hS hp hs
    · next hp => exact hK.runOpen hS hp hs
    · next hp => exact hK.runClose hp hs

end Kept

end NkeFilter
