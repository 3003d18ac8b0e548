import NkeFilter.ClientObjects

/-!
# Clients leave nothing behind

The steps that take and give resources: creating clients, what a task maps, the accesses of `stop`, and the end of
a client. Whoever has a client can use its lock and its queue until it gives the client back, a client is freed
once, and then it leaves nothing behind but what its task has mapped (`clients_kept`).
-/

namespace NkeFilter
open Lib RefHeap

section Kept
variable {T C : Type*} [DecidableEq T] [DecidableEq C] {s s' : LifetimeState T C} {h e : List (LifetimeEvent C)}
  {t : T} {c : C}

/-! ### One client among the others -/

namespace LifetimeState

omit [DecidableEq T] in
/-- The other clients and the tasks hold all but what the client holds. -/
theorem exists_rest (hf : ∀ id, FinitelyMany (fun client : ClientObject T => client.owned.held id) s.clients)
    (c : C) :
    ∃ others, s.held + s.mappings = others + (s.clients c).owned.held ∧
      ∀ client, (s.setClient c client).held + s.mappings = others + client.owned.held := by
  refine ⟨fun id => s.held id - (s.clients c).owned.held id + s.mappings id, ?_, ?_⟩
  · funext id
    have hle := le_total (hf id) c
    simp only [Pi.add_apply, held]
    omega
  · intro client
    funext id
    have hle := le_total (hf id) c
    have hupdate := total_update (hf id) c client
    simp only [Pi.add_apply, held, setClient]
    omega

omit [DecidableEq T] in
theorem finite_setClient {client : ClientObject T}
    (hf : ∀ id, FinitelyMany (fun client : ClientObject T => client.owned.held id) s.clients) (id : ℕ) :
    FinitelyMany (fun client : ClientObject T => client.owned.held id) (s.setClient c client).clients :=
  (hf id).update c client

omit [DecidableEq T] in
theorem setClient_setClient {client client' : ClientObject T} :
    (s.setClient c client).setClient c client' = s.setClient c client' := by
  simp only [setClient, Function.update_idem]

omit [DecidableEq T] in
/-- A client whose lock is free gives back all it holds. -/
theorem freeAllocatedResources_spec
    (hf : ∀ id, FinitelyMany (fun client : ClientObject T => client.owned.held id) s.clients)
    (hl : Ledger s.heap (s.held + s.mappings)) (howned : (s.clients c).owned = (s.clients c).queues)
    (hfree : (s.clients c).lockHolder = none) :
    ∃ queues heap, s.freeAllocatedResources c = some { s.setClient c { s.clients c with queues } with heap } ∧
      queues.Unallocated ∧
      ∀ client : ClientObject T, client.queues = queues →
        Ledger heap ((s.setClient c client).held + s.mappings) := by
  obtain ⟨others, hheld, hset⟩ := exists_rest hf c
  rw [hheld, howned] at hl
  obtain ⟨queues, heap, hqueues, hledger, hnone⟩ := ClientQueues.freeAllocatedResources_spec hl
  refine ⟨queues, heap, ?_, hnone, ?_⟩
  · rw [freeAllocatedResources, if_neg (not_not.2 hfree), hqueues]
    rfl
  · rintro client rfl
    rwa [hset, ClientObject.owned_of_unallocated hnone, hnone.held, add_zero]

end LifetimeState

omit [DecidableEq T] in
/-- One client changes its stage and what it holds. -/
theorem Kept.setClient (hK : Kept s h) {client : ClientObject T} {heap : RefHeap}
    (hledger : Ledger heap ((s.setClient c client).held + s.mappings))
    (hholder : client.lockHolder = (s.clients c).lockHolder)
    (hpresent : client.stage ≠ .absent)
    (hready : client.stage = .started → ∀ type, type ≠ .kt_NkeNotifyTypeUnknown → (client.queues type).Ready)
    (hcleared : ∀ type, (client.queues type).Cleared (client.stage.access type))
    (hstopped : client.stage ≠ .started → client.inactive = true)
    (hcalled : client.stage.callable = true ∨ ∀ t, (s.programs t).calling ≠ some c)
    (hcount : client.retainCount + s.unretained c = (if client.stage.callable then 1 else 0) + s.owing c)
    (hpanic : .panic ∉ e) (hrefs : e.filterMap LifetimeEvent.refEvent = [])
    (hfreed : h.count (.freed c) + e.count (.freed c) = if client.stage = .finalized then 1 else 0)
    (hothers : ∀ c', c' ≠ c → .freed c' ∉ e) : Kept { s.setClient c client with heap } (h ++ e) where
  noPanic := List.mem_append.not.2 (not_or.2 ⟨hK.noPanic, hpanic⟩)
  callable t :=
    (Function.forall_update_iff s.clients fun c' client' => (s.programs t).calling = some c' →
      client'.stage.callable = true).2
        ⟨fun hc => hcalled.resolve_right fun hnone => hnone t hc, fun c' _ => hK.callable t c'⟩
  created which := by
    rw [List.filterMap_append, hrefs, List.append_nil]
    exact (Function.forall_update_iff s.clients fun c' client' =>
      .registered c' ∈ eventsOf which (h.filterMap LifetimeEvent.refEvent) → client'.stage ≠ .absent).2
        ⟨fun _ => hpresent, fun c' _ => hK.created which c'⟩
  stopped := (Function.forall_update_iff s.clients fun _ client' =>
    client'.stage ≠ .absent → client'.stage ≠ .started → client'.inactive = true).2
      ⟨fun _ => hstopped, fun c' _ => hK.stopped c'⟩
  ready := (Function.forall_update_iff s.clients fun _ client' => client'.stage = .started →
    ∀ type : NkeNotifyType, type ≠ .kt_NkeNotifyTypeUnknown → (client'.queues type).Ready).2
      ⟨hready, fun c' _ => hK.ready c'⟩
  cleared := (Function.forall_update_iff s.clients fun _ client' => ∀ type : NkeNotifyType,
    (client'.queues type).Cleared (client'.stage.access type)).2 ⟨hcleared, fun c' _ => hK.cleared c'⟩
  few := hK.few
  count := (Function.forall_update_iff s.clients fun c' client' => client'.retainCount + s.unretained c' =
    (if client'.stage.callable then 1 else 0) + s.owing c').2 ⟨hcount, fun c' _ => hK.count c'⟩
  lock c' t := by
    show ((s.setClient c client).clients c').lockHolder = some t ↔ _
    rw [lockHolder_setClient hholder]
    exact hK.lock c' t
  finite := LifetimeState.finite_setClient hK.finite
  ledger := hledger
  freed := by
    refine (Function.forall_update_iff s.clients fun c' client' =>
      (h ++ e).count (.freed c') = if client'.stage = .finalized then 1 else 0).2 ⟨?_, fun c' hne => ?_⟩
    · rw [List.count_append]
      exact hfreed
    · rw [List.count_append, List.count_eq_zero.2 (hothers c' hne)]
      exact hK.freed c'

omit [DecidableEq T] in
theorem Kept.unallocated (hK : Kept s h) (hnone : ∀ type, (s.clients c).stage.access type = none) :
    (s.clients c).queues.Unallocated := by
  refine ⟨fun type => ?_⟩
  have hcleared := hK.cleared c type
  rw [hnone] at hcleared
  exact hcleared

/-! ### Memory -/

omit [DecidableEq T] in
/-- Objects are allocated, mapped and unmapped. -/
theorem Kept.setHeap (hK : Kept s h) {heap : RefHeap} {mappings : ℕ → ℕ} (he : Quiet e)
    (hledger : Ledger heap (s.held + mappings)) : Kept { s with heap, mappings } (h ++ e) where
  noPanic := List.mem_append.not.2 (not_or.2 ⟨hK.noPanic, he.noPanic⟩)
  callable := hK.callable
  created which c hmem := by
    rw [List.filterMap_append, he.noRef, List.append_nil] at hmem
    exact hK.created which c hmem
  stopped := hK.stopped
  ready := hK.ready
  cleared := hK.cleared
  few := hK.few
  count := hK.count
  lock := hK.lock
  finite := hK.finite
  ledger := hledger
  freed c := by
    rw [List.count_append, List.count_eq_zero.2 (he.notFreed c)]
    exact hK.freed c

omit [DecidableEq T] in
theorem Kept.same (hK : Kept s h) (hsame : SameRest s s') : Kept s' (h ++ []) := by
  refine hK.frame .nil hsame.clients hsame.retainCount hsame.refs hsame.heap hsame.mappings ?_ ?_
  · rw [hsame.programs]
    exact fun _ _ hc => .inl hc
  · intro c t
    rw [hsame.lockHolder, hsame.programs]
    exact hK.lock c t

/-- Nothing of a client that was never returned is left. -/
theorem Kept.newUserClient (hK : Kept s h) (hS : Sessions s.view (h.filterMap LifetimeEvent.refEvent))
    {outcome : NewUserClientOutcome} (hs : s.step (.newUserClient c outcome) = some (s', e)) :
    Kept s' (h ++ e) := by
  have hquiet : ∀ {result : NewUserClientReturn}, Quiet [LifetimeEvent.newUserClientReturned c result] :=
    ⟨by simp, by simp, rfl⟩
  simp only [LifetimeState.step] at hs
  split at hs
  · cases hs
  · next hnew =>
    have habsent : (s.clients c).stage = .absent := not_not.1 hnew
    obtain ⟨r, hr, hend⟩ := newUserClient_spec outcome hK.ledger
    rw [hr] at hs
    cases hend with
    | failed _ hledger =>
      cases hs
      exact hK.setHeap hquiet hledger
    | @created queues heap hledger hready =>
      cases hs
      -- nobody has taken a reference to a client that is not there yet
      have howing : ∀ which, (s.refs which).owing c = 0 := by
        intro which
        have hnever : .registered c ∉ eventsOf which (h.filterMap LifetimeEvent.refEvent) :=
          fun hmem => hK.created which c hmem habsent
        have hplace : (s.refs which).ref.userClient ≠ some c :=
          fun hplace => hnever ((hS.handedOut which).present c hplace)
        rw [UserClientState.owing, UserClientAccess.place, if_neg hplace, Nat.zero_add]
        refine total_of_zero fun t => ?_
        refine if_neg fun hwaiting => hnever ?_
        refine ((hS.handedOut which).takenOut t c ?_).1
        show ((s.refs which).threads t).takenOut = some c
        rcases hwaiting with heq | heq <;> rw [heq] <;> rfl
      have hbefore := hK.count c
      have hnot : ¬ s.Callable c := fun hcallable => (ClientStage.ne_of_callable hcallable).1 habsent
      have hzero : s.owing c = 0 := by
        rw [LifetimeState.owing, howing, howing]
      rw [if_neg hnot, hzero] at hbefore
      refine hK.setClient ?_ rfl (fun heq => by cases heq) (fun _ => hready) (fun _ => trivial)
        (fun hne => absurd rfl hne) (.inl rfl) ?_ hquiet.noPanic hquiet.noRef ?_ fun c' _ => hquiet.notFreed c'
      · obtain ⟨others, hheld, hset⟩ := LifetimeState.exists_rest hK.finite c
        have hnone : (s.clients c).queues.Unallocated := hK.unallocated fun _ => by rw [habsent]; rfl
        rw [ClientObject.owned_of_unallocated hnone, hnone.held, add_zero] at hheld
        rw [hset, ← hheld, ClientObject.owned_of_started rfl]
        exact hledger
      · show 1 + s.unretained c = 1 + s.owing c
        omega
      · rw [hK.freed c, habsent, List.count_eq_zero.2 (hquiet.notFreed c)]
        rfl

omit [DecidableEq T] in
/-- One more reference to the object, or one fewer. -/
theorem update_add_one (held : ℕ → ℕ) (id : ℕ) :
    Function.update held id (held id + 1) = held + one (some id) := by
  funext id'
  by_cases hid : id' = id
  · subst hid
    simp
  · simp [hid, one_of_ne hid]

theorem eq_update_add_one {held : ℕ → ℕ} {id : ℕ} (hpos : held id ≠ 0) :
    held = Function.update held id (held id - 1) + one (some id) := by
  funext id'
  by_cases hid : id' = id
  · subst hid
    simp
    omega
  · simp [hid, one_of_ne hid]

theorem Kept.clientMemoryForType (hK : Kept s h) {type : NkeNotifyType}
    (hapart : (s.clients c).stage ≠ .stopping type .clearSharedMemory)
    (hs : s.step (.clientMemoryForType c type) = some (s', e)) : Kept s' (h ++ e) := by
  simp only [LifetimeState.step] at hs
  split at hs
  · cases hs
  · split at hs
    · cases hs
      exact hK.same .refl
    · split at hs
      · cases hs
        exact hK.same .refl
      · next fSharedMemory hmemory =>
        have hheld : 0 < ((s.clients c).owned type).held fSharedMemory := by
          have howned : ((s.clients c).owned type).fSharedMemory = some fSharedMemory := by
            rw [← hmemory]
            exact NotifyQueue.owned_fSharedMemory fun haccess =>
              hapart (ClientStage.stopping_of_access haccess (by decide))
          simp only [NotifyQueue.held, Pi.add_apply, howned, one_self]
          omega
        obtain ⟨heap, hretain, hledger⟩ := hK.ledger.retain (hK.held_pos c type hheld)
        rw [hretain] at hs
        cases hs
        refine hK.setHeap ⟨by simp, by simp, rfl⟩ ?_
        rw [update_add_one, ← add_assoc]
        exact hledger

theorem Kept.unmap (hK : Kept s h) {id : ℕ} (hs : s.step (.unmap id) = some (s', e)) : Kept s' (h ++ e) := by
  simp only [LifetimeState.step] at hs
  split at hs
  · cases hs
  · next hmapped =>
    have hheld := hK.ledger
    rw [eq_update_add_one hmapped, ← add_assoc] at hheld
    obtain ⟨heap, hrelease, hledger⟩ := hheld.release
    rw [hrelease] at hs
    cases hs
    exact hK.setHeap .nil hledger

theorem Kept.registerNotificationPort (hK : Kept s h) {port : ℕ} {type : NkeNotifyType}
    (hapart : (s.clients c).stage ≠ .stopping type .clearDataQueue)
    (hs : s.step (.registerNotificationPort c port type) = some (s', e)) : Kept s' (h ++ e) := by
  simp only [LifetimeState.step] at hs
  split at hs
  · cases hs
  · split at hs
    · cases hs
      exact hK.same .refl
    · next hgiven =>
      obtain ⟨fDataQueue, hqueue⟩ := Option.ne_none_iff_exists'.1 (not_or.1 (not_or.1 hgiven).2).2
      have hthere : ((s.clients c).queues type).fDataQueue.bind s.heap.deref = some () := by
        have howned : ((s.clients c).owned type).fDataQueue = some fDataQueue := by
          rw [← hqueue]
          exact NotifyQueue.owned_fDataQueue fun haccess =>
            hapart (ClientStage.stopping_of_access haccess (by decide))
        rw [hqueue]
        refine hK.ledger.deref (hK.held_pos c type ?_)
        simp only [NotifyQueue.held, Pi.add_apply, howned, one_self]
        omega
      rw [hthere] at hs
      cases hs
      exact hK.same (.setClient ⟨rfl, id, NotifyQueue.same_setPort port⟩ rfl rfl)

/-! ### The end of a client -/

omit [DecidableEq T] in
/-- Nobody holds the lock of a client that is terminated. -/
theorem Kept.unlocked (hK : Kept s h) (hS : Sessions s.view (h.filterMap LifetimeEvent.refEvent))
    (hinactive : (s.clients c).inactive = true) : (s.clients c).lockHolder = none := by
  rw [Option.eq_none_iff_forall_ne_some]
  intro t heq
  obtain ⟨stage, hp⟩ := ClientProgram.notifying_of_locked ((hK.lock c t).1 heq)
  have hholding : (s.refs .gSocketFilter).threads t = .holding c := (hS.holding_of_notifying hp).2
  exact hS.handedBack c (.inl hinactive) t (congrArg UserClientAccess.confirmed hholding)

theorem ClientStage.access_afterAccess (type : NkeNotifyType) (access : FreeAccess) :
    (afterAccess type access).access type = access.next := by
  cases type <;> cases access <;> rfl

/-- The other types have been or will be as before. -/
theorem ClientStage.access_afterAccess_of_ne {type type' : NkeNotifyType} (access : FreeAccess) (hne : type' ≠ type) :
    (afterAccess type access).access type' = (stopping type access).access type' := by
  cases type <;> cases type' <;> first | exact absurd rfl hne | cases access <;> rfl

/-- The client can still be called. -/
theorem ClientStage.afterAccess_callable (type : NkeNotifyType) (access : FreeAccess) :
    (afterAccess type access).callable = true ∧ afterAccess type access ≠ started := by
  cases type <;> cases access <;> decide

omit [DecidableEq T] in
theorem ClientObject.owned_afterAccess {client : ClientObject T} {type : NkeNotifyType} {access : FreeAccess}
    (hstopping : client.stage = .stopping type access) (queue : NotifyQueue) :
    ClientObject.owned { client with
      queues := Function.update client.queues type queue, stage := .afterAccess type access } =
        Function.update client.owned type (queue.owned access.next) := by
  funext type'
  show (Function.update client.queues type queue type').owned ((ClientStage.afterAccess type access).access type') =
    Function.update client.owned type (queue.owned access.next) type'
  by_cases htype : type' = type
  · subst htype
    rw [Function.update_self, Function.update_self, ClientStage.access_afterAccess]
  · rw [Function.update_of_ne htype, Function.update_of_ne htype, ClientObject.owned, hstopping,
      ClientStage.access_afterAccess_of_ne access htype]

omit [DecidableEq T] in
/-- One access of `stop`: the client gives back what it holds, and keeps the rest. -/
theorem Kept.freeAccess (hK : Kept s h) (hS : Sessions s.view (h.filterMap LifetimeEvent.refEvent))
    {type : NkeNotifyType} {access : FreeAccess} (hstopping : (s.clients c).stage = .stopping type access) :
    ∃ s', s.freeAccess c type access = some s' ∧ Kept s' (h ++ []) := by
  have hinactive : (s.clients c).inactive = true :=
    hK.stopped c (by rw [hstopping]; exact fun heq => by cases heq) (by rw [hstopping]; exact fun heq => by cases heq)
  have haccess : (s.clients c).stage.access type = some access := by
    rw [hstopping]
    exact if_pos rfl
  obtain ⟨others, hheld, hset⟩ := LifetimeState.exists_rest hK.finite c
  obtain ⟨rest, howned, hupdate⟩ := ClientQueues.exists_rest (s.clients c).owned type
  have hfreeing : NotifyQueue.Freeing (others + rest) ((s.clients c).queues type) s.heap (some access) := by
    rw [← haccess]
    refine ⟨?_, hK.cleared c type⟩
    have hledger := hK.ledger
    rwa [hheld, howned, ← add_assoc] at hledger
  obtain ⟨queue, heap, hfree, hnext⟩ := NotifyQueue.freeAccess_spec hfreeing
  have hunlocked : ¬ (access = .freeLock ∧ type = .kt_NkeNotifyTypeSocketFilter ∧
      (s.clients c).lockHolder ≠ none) := fun hlocked => hlocked.2.2 (hK.unlocked hS hinactive)
  obtain ⟨hcallable, hover⟩ := ClientStage.afterAccess_callable type access
  refine ⟨_, by rw [LifetimeState.freeAccess, if_neg hunlocked, hfree]; rfl, ?_⟩
  refine hK.setClient ?_ rfl (ClientStage.ne_of_callable hcallable).1 (fun heq => absurd heq hover) ?_
    (fun _ => hinactive) (.inl hcallable) ?_ List.not_mem_nil rfl ?_ fun _ _ => List.not_mem_nil
  · rw [hset, ClientObject.owned_afterAccess hstopping, hupdate, ← add_assoc]
    exact hnext.ledger
  · intro type'
    show (Function.update (s.clients c).queues type queue type').Cleared _
    by_cases htype : type' = type
    · subst htype
      rw [Function.update_self, ClientStage.access_afterAccess]
      exact hnext.cleared
    · rw [Function.update_of_ne htype, ClientStage.access_afterAccess_of_ne access htype, ← hstopping]
      exact hK.cleared c type'
  · have hcount := hK.count c
    rw [if_pos (by unfold LifetimeState.Callable; rw [hstopping]; rfl)] at hcount
    rw [if_pos hcallable]
    exact hcount
  · rw [hK.freed c, hstopping, if_neg fun heq => (by cases heq), if_neg (ClientStage.ne_of_callable hcallable).2]
    rfl

theorem Kept.stop (hK : Kept s h) (hS : Sessions s.view (h.filterMap LifetimeEvent.refEvent))
    (hs : s.step (.stop c) = some (s', e)) : Kept s' (h ++ e) := by
  simp only [LifetimeState.step] at hs
  split at hs
  · next hstarted =>
    split at hs
    · next hinactive =>
      cases hs
      have hsame : ClientObject.owned { s.clients c with
          stage := .stopping .kt_NkeNotifyTypeUnknown .enqueue } = (s.clients c).owned := by
        rw [ClientObject.owned_of_started hstarted]
        funext type
        cases type <;> rfl
      obtain ⟨others, hheld, hset⟩ := LifetimeState.exists_rest hK.finite c
      have hcount := hK.count c
      rw [if_pos (callable_of_started hstarted)] at hcount
      refine hK.setClient ?_ rfl (fun heq => by cases heq) (fun heq => by cases heq) ?_ (fun _ => hinactive)
        (.inl rfl) hcount List.not_mem_nil rfl ?_ fun _ _ => List.not_mem_nil
      · rw [hset, hsame, ← hheld]
        exact hK.ledger
      · intro type
        cases type <;> trivial
      · rw [hK.freed c, hstarted]
        rfl
    · cases hs
  · next type access hstopping =>
    obtain ⟨s₁, hfree, hK₁⟩ := hK.freeAccess hS hstopping
    simp only [hfree] at hs
    cases hs
    exact hK₁
  · cases hs

omit [DecidableEq T] in
/-- Neither reference keeps a terminated client that nobody calls. -/
theorem settled_of_inactive (hS : Sessions s.view (h.filterMap LifetimeEvent.refEvent))
    (hinactive : (s.clients c).inactive = true) (hapart : ∀ t, (s.programs t).calling ≠ some c) :
    s.owing c = 0 ∧ s.unretained c = 0 := by
  have hnocall : ∀ which t call, call = .registerUserClient c ∨ call = .unregisterUserClient c →
      ((s.refs which).threads t).registration ≠ some call := by
    intro which t call hcall hreg
    exact hapart t (ClientProgram.calling_of_refCall ((hS.within which t).refCall hreg) hcall)
  have hunretained : ∀ which, (s.refs which).unretained c = 0 := by
    intro which
    refine total_of_zero fun t => if_neg fun hretaining => hnocall which t _ (.inl rfl) ?_
    rw [show (s.refs which).threads t = .retain c from hretaining]
    rfl
  have howing : ∀ which, (s.refs which).owing c = 0 := by
    intro which
    have hplace : (s.refs which).ref.userClient ≠ some c := hS.left which c (.inl hinactive)
    rw [UserClientState.owing, UserClientAccess.place, if_neg hplace, Nat.zero_add]
    refine total_of_zero fun t => if_neg fun hwaiting => hnocall which t _ (.inr rfl) ?_
    rcases hwaiting with heq | heq <;> rw [heq] <;> rfl
  constructor
  · rw [LifetimeState.owing, howing, howing]
  · rw [LifetimeState.unretained, hunretained, hunretained]

theorem Kept.finalize (hK : Kept s h) (hS : Sessions s.view (h.filterMap LifetimeEvent.refEvent))
    (hapart : ∀ t, (s.programs t).calling ≠ some c) (hs : s.step (.finalize c) = some (s', e)) :
    Kept s' (h ++ e) := by
  simp only [LifetimeState.step] at hs
  split at hs
  · next hstopped =>
    have hinactive : (s.clients c).inactive = true :=
      hK.stopped c (by rw [hstopped]; decide) (by rw [hstopped]; decide)
    have hempty : (s.clients c).queues.Unallocated := hK.unallocated fun _ => by rw [hstopped]; rfl
    obtain ⟨howing, hunretained⟩ := settled_of_inactive hS hinactive hapart
    -- so the reference that IOKit drops is the last
    have hone : (s.clients c).retainCount = 1 := by
      have hcount := hK.count c
      rw [if_pos (by unfold LifetimeState.Callable; rw [hstopped]; rfl), howing, hunretained] at hcount
      exact hcount
    have hset : ((s.setClient c { s.clients c with stage := .finalized }).setClient c
          { (s.setClient c { s.clients c with stage := .finalized }).clients c with retainCount := 0 }) =
        s.setClient c { s.clients c with stage := .finalized, retainCount := 0 } := by
      rw [LifetimeState.setClient_setClient, LifetimeState.setClient_self]
    have howned : ClientObject.owned { s.clients c with stage := .finalized, retainCount := 0 } =
        (s.clients c).owned :=
      funext fun type => (hempty.unallocated type).owned.trans (hempty.unallocated type).owned.symm
    have hheld : ∀ c', ((s.setClient c { s.clients c with stage := .finalized, retainCount := 0 }).clients
        c').owned.held = (s.clients c').owned.held :=
      (Function.forall_update_iff s.clients fun c' client' => client'.owned.held = (s.clients c').owned.held).2
        ⟨congrArg ClientQueues.held howned, fun _ _ => rfl⟩
    obtain ⟨queues, heap, hfree, hnone, hledger⟩ := LifetimeState.freeAllocatedResources_spec (c := c)
      (s := s.setClient c { s.clients c with stage := .finalized, retainCount := 0 })
      (LifetimeState.finite_setClient hK.finite) (by rw [held_congr hheld]; exact hK.ledger)
      (by rw [LifetimeState.setClient_self]; exact ClientObject.owned_of_unallocated hempty)
      (by rw [LifetimeState.setClient_self]; exact hK.unlocked hS hinactive)
    rw [LifetimeState.setClient_setClient, LifetimeState.setClient_self] at hfree
    have hrelease :=
      LifetimeState.release_last (s := s.setClient c { s.clients c with stage := .finalized }) (c := c)
      (by rw [LifetimeState.setClient_self]; exact hone) (by rw [hset]; exact hfree)
    rw [hrelease] at hs
    cases hs
    refine hK.setClient ?_ rfl (fun heq => by cases heq) (fun heq => by cases heq)
      (fun type => (hnone.unallocated type).cleared) (fun _ => hinactive) (.inr hapart) ?_ (by simp) rfl ?_ ?_
    · have hl := hledger { s.clients c with stage := .finalized, retainCount := 0, queues } rfl
      rwa [LifetimeState.setClient_setClient] at hl
    · rw [howing, hunretained]
      rfl
    · rw [hK.freed c, hstopped]
      simp
    · intro c' hne
      simpa using hne
  · cases hs

/-! ### Every step -/

theorem Kept.call (hK : Kept s h) {p : ClientProgram C} (hp : p.calling = some c)
    (hfree : p.locked = none) (hs : s.call t c p = some (s', e)) : Kept s' (h ++ e) := by
  obtain ⟨hout, -, hcallable, heq⟩ := LifetimeState.call_inv hs
  cases heq
  refine hK.setProgram .nil .refl (fun c' hc => .inr ?_) ?_
  · cases hp.symm.trans hc
    exact hcallable
  · rw [hfree, hout]
    rfl

/-- Every step whose calls do not overlap. -/
theorem Kept.step (hK : Kept s h) (hS : Sessions s.view (h.filterMap LifetimeEvent.refEvent))
    {l : LifetimeLabel T C} (hapart : CallsApart s l) (hs : (lifetimeMachine T C).step s l = some (s', e)) :
    Kept s' (h ++ e) := by
  have hs : s.step l = some (s', e) := hs
  cases l with
  | newUserClient c outcome => exact hK.newUserClient hS hs
  | callOpen t c => exact hK.call (p := .opening c .isInactive) rfl rfl hs
  | callClientClose t c => exact hK.call (p := .closing c .close true) rfl rfl hs
  | callTerminate t c => exact hK.call (p := .closing c .closeProvider false) rfl rfl hs
  | callClose c =>
    simp only [LifetimeState.step] at hs
    split at hs <;> cases hs
    exact hK.same .close
  | registerNotificationPort c port type => exact hK.registerNotificationPort hapart hs
  | clientMemoryForType c type => exact hK.clientMemoryForType hapart hs
  | unmap id => exact hK.unmap hs
  | getUserClient t | releaseUserClient t =>
    simp only [LifetimeState.step] at hs
    split at hs
    · obtain ⟨⟨s₁, events, e₁⟩, hstep, heq⟩ := Option.map_eq_some_iff.1 hs
      cases heq
      exact (hK.stepRef hS hstep).1
    · cases hs
  | socketFilterNotification t =>
    simp only [LifetimeState.step] at hs
    split at hs
    · next hout hhas =>
      cases hs
      exact hK.setProgram .nil .refl (fun _ hc => by cases hc) (congrArg ClientProgram.locked hout).symm
    · cases hs
  | run t => exact hK.run hS hs
  | stop c => exact hK.stop hS hs
  | finalize c => exact hK.finalize hS hapart hs

/-! ### Every run -/

theorem kept_of_run {as : List (LifetimeLabel T C)} (hr : (lifetimeMachine T C).run .start as = some (s, h))
    (hapart : (lifetimeMachine T C).Along CallsApart .start as)
    (hfew : (lifetimeMachine T C).Along FewClientInvocations .start as) :
    Kept s h ∧ Sessions s.view (h.filterMap LifetimeEvent.refEvent) := by
  have hinv := Machine.run_induction
    (fun s h => Kept s h ∧ Sessions s.view (h.filterMap LifetimeEvent.refEvent) ∧
      Fresh s.view (h.filterMap LifetimeEvent.refEvent)) [] ⟨kept_start, sessions_start, fresh_start⟩
    (fun _ _ _ _ _ ⟨hK, hS⟩ hC hs => ⟨hK.step hS.1 hC.1 hs, sessions_step hS hC.1 hC.2 hs⟩)
    (hapart.and hfew) hr
  exact ⟨hinv.1, hinv.2.1⟩

omit [DecidableEq T] in
/-- Nothing of a freed client is left. -/
theorem Kept.finalized (hK : Kept s h) (hS : Sessions s.view (h.filterMap LifetimeEvent.refEvent))
    (hfinal : (s.clients c).stage = .finalized) :
    (s.clients c).retainCount = 0 ∧ (s.clients c).queues.Unallocated ∧
      (∀ which, (s.refs which).ref.userClient ≠ some c) ∧
      ∀ t, (s.programs t).client ≠ some c ∧ ((s.refs .gSocketFilter).threads t).confirmed ≠ some c := by
  have hinactive : (s.clients c).inactive = true :=
    hK.stopped c (by rw [hfinal]; decide) (by rw [hfinal]; decide)
  have hnot : ¬ s.Callable c := fun hcallable => (ClientStage.ne_of_callable hcallable).2 hfinal
  have hnocall : ∀ t, (s.programs t).calling ≠ some c := fun t hc => hnot (hK.callable t c hc)
  obtain ⟨howing, hunretained⟩ := settled_of_inactive hS hinactive hnocall
  have hcount := hK.count c
  rw [if_neg hnot, howing, hunretained] at hcount
  refine ⟨hcount, hK.unallocated fun _ => (by rw [hfinal]; rfl), fun which => hS.left which c (.inl hinactive), ?_⟩
  intro t
  refine ⟨fun hc => ?_, hS.handedBack c (.inl hinactive) t⟩
  cases hp : s.programs t with
  | outside =>
    rw [hp] at hc
    cases hc
  | notifying client stage =>
    rw [hp] at hc
    cases hc
    have hstarted := hK.started_of_notifying hS hp
    rw [hfinal] at hstarted
    cases hstarted
  | opening client stage | closing client stage =>
    rw [hp] at hc
    cases hc
    exact hnocall t (congrArg ClientProgram.calling hp)

/-- Any number of clients, their tasks and threads, in every run in which the calls of one client do not overlap
and no increment wraps: nothing is used that is not there. Whoever has a client can use its lock and its queue,
which has between 16 Kb and 1 Mb, one thread at most is between the lock and the unlock, and a client is freed
once, when nobody has it or is in it and neither reference has it. What is left is what the clients that `stop` has
not come to the end of and the tasks hold. -/
theorem clients_kept {as : List (LifetimeLabel T C)} (hr : (lifetimeMachine T C).run .start as = some (s, h))
    (hapart : (lifetimeMachine T C).Along CallsApart .start as)
    (hfew : (lifetimeMachine T C).Along FewClientInvocations .start as) :
    .panic ∉ h ∧
      (∀ t c, ((s.refs .gSocketFilter).threads t).confirmed = some c →
        0 < (s.clients c).retainCount ∧ (s.clients c).socketQueue.Ready ∧
          (s.clients c).socketQueue.fLock.bind s.heap.deref = some () ∧
          (s.clients c).socketQueue.fDataQueue.bind s.heap.deref = some ()) ∧
      (∀ c t u, (s.programs t).locked = some c → (s.programs u).locked = some c → t = u) ∧
      (∀ c, h.count (.freed c) = if (s.clients c).stage = .finalized then 1 else 0) ∧
      (∀ c, (s.clients c).stage = .finalized →
        (s.clients c).retainCount = 0 ∧ (s.clients c).queues.Unallocated ∧
          (∀ which, (s.refs which).ref.userClient ≠ some c) ∧
          ∀ t, (s.programs t).client ≠ some c ∧ ((s.refs .gSocketFilter).threads t).confirmed ≠ some c) ∧
      ∀ id, ∃ clients : Finset C,
        (∀ c ∉ clients, (s.clients c).owned.held id = 0) ∧
        (∀ c ∈ clients, ∃ type, (s.clients c).stage.access type ≠ none) ∧
        s.heap.refs id = ∑ c ∈ clients, (s.clients c).owned.held id + s.mappings id := by
  obtain ⟨hK, hS⟩ := kept_of_run hr hapart hfew
  refine ⟨hK.noPanic, ?_, ?_, hK.freed, fun c hfinal => hK.finalized hS hfinal, ?_⟩
  · intro t c hc
    have hstarted := hK.started_of_confirmed hS hc
    exact ⟨hK.retainCount_pos hS (callable_of_started hstarted), hK.ready c hstarted _ (by decide), hK.lock_usable hstarted,
      hK.queue_usable hstarted⟩
  · intro c t u ht hu
    have hholder := (hK.lock c t).2 ht
    rw [(hK.lock c u).2 hu] at hholder
    exact (Option.some.inj hholder).symm
  · intro id
    obtain ⟨clients, hnone, hsum⟩ := total_eq_sum (hK.finite id)
    have hheld : ∀ c, (¬ ∃ type, (s.clients c).stage.access type ≠ none) → (s.clients c).owned.held id = 0 := by
      intro c hover
      have hempty := hK.unallocated fun type => not_not.1 (not_exists.1 hover type)
      rw [ClientObject.owned_of_unallocated hempty, hempty.held]
      rfl
    refine ⟨clients.filter fun c => ∃ type, (s.clients c).stage.access type ≠ none, ?_, ?_, ?_⟩
    · intro c hc
      by_cases hleft : ∃ type, (s.clients c).stage.access type ≠ none
      · exact hnone c fun hmem => hc (Finset.mem_filter.2 ⟨hmem, hleft⟩)
      · exact hheld c hleft
    · exact fun c hc => (Finset.mem_filter.1 hc).2
    · rw [hK.ledger.refs id, Pi.add_apply, LifetimeState.held, hsum, Finset.sum_filter_of_ne]
      intro c _ hne
      by_contra hover
      exact hne (hheld c hover)

instance CallsApart.instDecidable [Fintype T] (s : LifetimeState T C) : ∀ l, Decidable (CallsApart s l)
  | .callOpen _ c | .callClientClose _ c | .callTerminate _ c | .finalize c =>
    inferInstanceAs (Decidable (∀ t, (s.programs t).calling ≠ some c))
  | .clientMemoryForType c type =>
    inferInstanceAs (Decidable ((s.clients c).stage ≠ .stopping type .clearSharedMemory))
  | .registerNotificationPort c _ type =>
    inferInstanceAs (Decidable ((s.clients c).stage ≠ .stopping type .clearDataQueue))
  | .newUserClient .. | .callClose .. | .unmap .. | .getUserClient .. | .releaseUserClient .. |
    .socketFilterNotification .. | .run .. | .stop .. => isTrue trivial

instance FewClientInvocations.instDecidable (s : LifetimeState T C) : ∀ l, Decidable (FewClientInvocations s l)
  | .run t => decidable_of_iff (∀ which, FewInvocations (s.refs which) (.access t))
    ⟨fun h u heq => by cases heq; exact h, fun h => h t rfl⟩
  | .newUserClient .. | .callOpen .. | .callClose .. | .callClientClose .. | .callTerminate .. |
    .registerNotificationPort .. | .clientMemoryForType .. | .unmap .. | .getUserClient .. |
    .releaseUserClient .. | .socketFilterNotification .. | .stop .. | .finalize .. =>
    isTrue fun _ heq => by cases heq

/-- Every allocation succeeds. -/
def allocated : NewUserClientOutcome :=
  ⟨true, true, true, true, ⟨true, fun _ => true, fun _ _ => true, fun _ => true⟩⟩

/-- A thread opens the client and closes it while another one has it, and IOKit frees it. -/
def lifetimeRun : List (LifetimeLabel Bool Unit) := List.flatten [
  [.newUserClient () allocated, .registerNotificationPort () 1 .kt_NkeNotifyTypeSocketFilter,
    .clientMemoryForType () .kt_NkeNotifyTypeSocketFilter],
  [.callOpen false ()], List.replicate 10 (.run false), [.getUserClient true], List.replicate 6 (.run true),
  [.socketFilterNotification true], List.replicate 4 (.run true), [.callClientClose false ()],
  List.replicate 8 (.run false), [.releaseUserClient true], List.replicate 2 (.run true),
  List.replicate 12 (.run false), List.replicate 15 (.stop ()), [.finalize ()]]

theorem lifetimeRun_kept :
    ∃ s h, (lifetimeMachine Bool Unit).run .start lifetimeRun = some (s, h) ∧ .enqueued () ∈ h ∧
      (s.clients ()).stage = .finalized ∧ .panic ∉ h ∧
      (∀ t c, ((s.refs .gSocketFilter).threads t).confirmed = some c →
        0 < (s.clients c).retainCount ∧ (s.clients c).socketQueue.Ready ∧
          (s.clients c).socketQueue.fLock.bind s.heap.deref = some () ∧
          (s.clients c).socketQueue.fDataQueue.bind s.heap.deref = some ()) ∧
      (∀ c t u, (s.programs t).locked = some c → (s.programs u).locked = some c → t = u) ∧
      (∀ c, h.count (.freed c) = if (s.clients c).stage = .finalized then 1 else 0) ∧
      (∀ c, (s.clients c).stage = .finalized →
        (s.clients c).retainCount = 0 ∧ (s.clients c).queues.Unallocated ∧
          (∀ which, (s.refs which).ref.userClient ≠ some c) ∧
          ∀ t, (s.programs t).client ≠ some c ∧ ((s.refs .gSocketFilter).threads t).confirmed ≠ some c) ∧
      ∀ id, ∃ clients : Finset Unit,
        (∀ c ∉ clients, (s.clients c).owned.held id = 0) ∧
        (∀ c ∈ clients, ∃ type, (s.clients c).stage.access type ≠ none) ∧
        s.heap.refs id = ∑ c ∈ clients, (s.clients c).owned.held id + s.mappings id := by
  obtain ⟨⟨s, h⟩, hr, hqueued, hfinal⟩ : ∃ r ∈ (lifetimeMachine Bool Unit).run .start lifetimeRun,
      .enqueued () ∈ r.2 ∧ (r.1.clients ()).stage = .finalized := by decide +kernel
  exact ⟨s, h, hr, hqueued, hfinal, clients_kept hr (by decide +kernel) (by decide +kernel)⟩

/-- A thread calls `clientClose` while another one is in `open`. -/
def overlappingRun : List (LifetimeLabel Bool Unit) := List.flatten [
  [.newUserClient () allocated, .callOpen false (), .run false, .callClientClose true ()],
  List.replicate 9 (.run true), [.run false]]

/-- The calls have to stay apart: `clientClose` clears the provider that `open` is about to use. -/
theorem overlappingRun_panics :
    ∃ r ∈ (lifetimeMachine Bool Unit).run .start overlappingRun, .panic ∈ r.2 := by
  decide +kernel

/-- The task maps the queue after `stop` has released the descriptor and before it clears the pointer. -/
def releasedRun : List (LifetimeLabel Bool Unit) := List.flatten [
  [.newUserClient () allocated, .callTerminate false ()], List.replicate 7 (.run false),
  List.replicate 10 (.stop ()), [.clientMemoryForType () .kt_NkeNotifyTypeSocketFilter]]

/-- It has to stay away from there: `clientMemoryForType` retains a descriptor that is freed. -/
theorem releasedRun_panics : ∃ r ∈ (lifetimeMachine Bool Unit).run .start releasedRun, .panic ∈ r.2 := by
  decide +kernel

end Kept

end NkeFilter
