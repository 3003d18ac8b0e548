import NkeFilter.ClientSessionSteps

/-!
# What every state keeps of the clients

The reference count of a client is the number of the references to it, a client has all of its resources until
`stop` gives them back one by one, and who has its lock is between the lock and the unlock (`Kept`). Steps that
move threads and change no resource keep that (`Kept.frame`).
-/

namespace NkeFilter
open Lib RefHeap

/-! ### References to a client -/

namespace UserClientAccess
variable {C : Type*} [DecidableEq C] {ref ref' : NkeIOUserClientRef C} {a a' : UserClientAccess C}
  {e : List (UserClientEvent C)} {c : C}

/-- The thread has taken the client out, and with it the reference that `registerUserClient` took. -/
def Waiting (c : C) (a : UserClientAccess C) : Prop := a = .waitInvocations c ∨ a = .release c

instance Waiting.instDecidable (c : C) : DecidablePred (Waiting c) := fun a =>
  inferInstanceAs (Decidable (a = _ ∨ a = _))

/-- The client is in place, and the thread has not retained it yet. -/
def Retaining (c : C) (a : UserClientAccess C) : Prop := a = .retain c

instance Retaining.instDecidable (c : C) : DecidablePred (Retaining c) := fun a =>
  inferInstanceAs (Decidable (a = _))

/-- The reference to the client that is in place. -/
def place (ref : NkeIOUserClientRef C) (c : C) : ℕ := if ref.userClient = some c then 1 else 0

/-- An access retains or releases a client, or neither. -/
theorem access_events (hs : ref.access a = some (a', ref', e)) :
    (∀ c, .retained c ∉ e ∧ .released c ∉ e) ∨
      (∃ c, a = .retain c ∧ e = [.retained c, .registerReturned c .kIOReturnSuccess]) ∨
      ∃ c, a = .release c ∧ e = [.released c] := by
  cases a with
  | retain c =>
    cases hs
    exact .inr (.inl ⟨c, rfl, rfl⟩)
  | release c =>
    cases hs
    exact .inr (.inr ⟨c, rfl, rfl⟩)
  | giveUp =>
    cases hs
    refine .inl fun c => ?_
    split <;> simp
  | _ =>
    simp only [NkeIOUserClientRef.access] at hs
    repeat' split at hs
    all_goals cases hs
    all_goals exact .inl fun c => by simp

/-- What an access does to the references, it does to the reference count. -/
theorem access_balance (c : C) (hs : ref.access a = some (a', ref', e)) :
    place ref' c + indicator (Waiting c) a' + indicator (Retaining c) a + e.count (.released c) =
      place ref c + indicator (Waiting c) a + indicator (Retaining c) a' + e.count (.retained c) := by
  cases a with
  | swapIn client =>
    obtain ⟨hnone, rfl, rfl, rfl⟩ | ⟨rfl, rfl, rfl⟩ := access_swapIn hs
    · simp [place, indicator, Waiting, Retaining, hnone]
    · simp [place, indicator, Waiting, Retaining]
  | swapOut client =>
    obtain ⟨⟨hsome, rfl, rfl⟩ | ⟨-, rfl, rfl⟩, rfl⟩ := access_swapOut hs
    · simp [place, indicator, Waiting, Retaining, hsome]
    · simp [place, indicator, Waiting, Retaining]
  | exchange =>
    obtain ⟨⟨-, rfl⟩ | ⟨-, rfl⟩, rfl, rfl⟩ := access_exchange hs <;>
      simp [place, indicator, Waiting, Retaining]
  | compareNull =>
    obtain ⟨⟨-, rfl, rfl⟩ | ⟨-, rfl, rfl⟩, rfl⟩ := access_compareNull hs <;>
      simp [place, indicator, Waiting, Retaining]
  | giveUp =>
    cases hs
    split <;> simp [place, indicator, Waiting, Retaining]
  | decrement =>
    cases hs
    split <;> simp [place, indicator, Waiting, Retaining]
  | _ =>
    simp only [NkeIOUserClientRef.access] at hs
    repeat' split at hs
    all_goals cases hs
    all_goals simp [place, indicator, Waiting, Retaining, List.count_cons]

theorem enter_balance (c : C) {call : UserClientCall C} (henter : call.enter a = some a') :
    indicator (Waiting c) a = 0 ∧ indicator (Waiting c) a' = 0 ∧ indicator (Retaining c) a = 0 ∧
      indicator (Retaining c) a' = 0 := by
  cases call <;> cases a <;> cases henter <;> simp [indicator, Waiting, Retaining]

end UserClientAccess

section Kept
variable {T C : Type*} [DecidableEq T] [DecidableEq C]

namespace UserClientState

/-- The references to the client that the reference has or is about to give up. -/
noncomputable def owing (ref : UserClientState T C) (c : C) : ℕ :=
  UserClientAccess.place ref.ref c + total (indicator (UserClientAccess.Waiting c)) ref.threads

/-- Those of them that it has not taken yet. -/
noncomputable def unretained (ref : UserClientState T C) (c : C) : ℕ :=
  total (indicator (UserClientAccess.Retaining c)) ref.threads

structure Few (ref : UserClientState T C) : Prop where
  waiting : ∀ c, FinitelyMany (indicator (UserClientAccess.Waiting c)) ref.threads
  retaining : ∀ c, FinitelyMany (indicator (UserClientAccess.Retaining c)) ref.threads

variable {ref ref' : UserClientState T C} {l : UserClientLabel T C} {e : List (UserClientEvent C)}

theorem step_balance (hf : ref.Few) (hs : (userClientMachine T C).step ref l = some (ref', e)) (c : C) :
    ref'.owing c + ref.unretained c + e.count (.released c) =
      ref.owing c + ref'.unretained c + e.count (.retained c) := by
  obtain ⟨a', r', rfl, -, hkind⟩ := step_cases hs
  have hwaiting := total_update (hf.waiting c) l.thread a'
  have hretaining := total_update (hf.retaining c) l.thread a'
  simp only [owing, unretained]
  rcases hkind with ⟨rfl, rfl, call, henter⟩ | haccess
  · obtain ⟨h₁, h₂, h₃, h₄⟩ := UserClientAccess.enter_balance c henter
    simp only [List.count_nil]
    omega
  · have hbalance := UserClientAccess.access_balance c haccess
    omega

theorem Few.step (hf : ref.Few) (hs : (userClientMachine T C).step ref l = some (ref', e)) : ref'.Few := by
  obtain ⟨a', r', rfl, -, -⟩ := step_cases hs
  exact ⟨fun c => (hf.waiting c).update _ _, fun c => (hf.retaining c).update _ _⟩

end UserClientState

/-! ### What every state keeps -/

/-- The client whose lock the thread has between `IOLockLock` and `IOLockUnlock`. -/
def ClientProgram.locked : ClientProgram C → Option C
  | notifying client .enqueue | notifying client .unlock => some client
  | _ => none

omit [DecidableEq C] in
theorem ClientProgram.notifying_of_locked {p : ClientProgram C} {c : C} (hp : p.locked = some c) :
    ∃ stage, p = .notifying c stage := by
  cases p with
  | notifying client stage =>
    cases stage with
    | enqueue | unlock =>
      cases hp
      exact ⟨_, rfl⟩
    | _ => cases hp
  | _ => cases hp

/-- The access of the loop of `freeAllocatedResources` that is next for a type, none after the last. -/
def ClientStage.access : ClientStage → NkeNotifyType → Option FreeAccess
  | started, _ => some .enqueue
  | stopping type access, type' =>
    if type' = type then some access else if type.next = some type' then some .enqueue else none
  | absent, _ | stopped, _ | finalized, _ => none

/-- The resources the client has not given back. -/
def ClientObject.owned (client : ClientObject T) : ClientQueues :=
  fun type => (client.queues type).owned (client.stage.access type)

namespace LifetimeState

/-- The references to kernel objects that the clients hold. -/
noncomputable def held (s : LifetimeState T C) (id : ℕ) : ℕ :=
  total (fun client : ClientObject T => client.owned.held id) s.clients

noncomputable def owing (s : LifetimeState T C) (c : C) : ℕ :=
  (s.refs .gServiceUserClient).owing c + (s.refs .gSocketFilter).owing c

noncomputable def unretained (s : LifetimeState T C) (c : C) : ℕ :=
  (s.refs .gServiceUserClient).unretained c + (s.refs .gSocketFilter).unretained c

end LifetimeState

structure Kept (s : LifetimeState T C) (h : List (LifetimeEvent C)) : Prop where
  noPanic : .panic ∉ h
  callable : ∀ t c, (s.programs t).calling = some c → s.Callable c
  created : ∀ which c, .registered c ∈ eventsOf which (h.filterMap LifetimeEvent.refEvent) →
    (s.clients c).stage ≠ .absent
  stopped : ∀ c, (s.clients c).stage ≠ .absent → (s.clients c).stage ≠ .started →
    (s.clients c).inactive = true
  ready : ∀ c, (s.clients c).stage = .started → ∀ type, type ≠ .kt_NkeNotifyTypeUnknown →
    ((s.clients c).queues type).Ready
  cleared : ∀ c type, ((s.clients c).queues type).Cleared ((s.clients c).stage.access type)
  few : ∀ which, (s.refs which).Few
  /-- IOKit has a reference to a client that can be called, and the two references have theirs. -/
  count : ∀ c, (s.clients c).retainCount + s.unretained c = (if s.Callable c then 1 else 0) + s.owing c
  lock : ∀ c t, (s.clients c).lockHolder = some t ↔ (s.programs t).locked = some c
  finite : ∀ id, FinitelyMany (fun client : ClientObject T => client.owned.held id) s.clients
  ledger : Ledger s.heap (s.held + s.mappings)
  freed : ∀ c, h.count (.freed c) = if (s.clients c).stage = .finalized then 1 else 0

variable {s s' : LifetimeState T C} {h e : List (LifetimeEvent C)} {t : T} {c : C} {which : ClientRefName}

omit [DecidableEq T] in
theorem kept_start : Kept (LifetimeState.start : LifetimeState T C) [] := by
  have hempty : ClientQueues.withTask.Unallocated :=
    ⟨fun type => (ClientQueues.withTask_sized type).unallocated⟩
  have hzero : ∀ id, ClientQueues.withTask.held id = 0 := fun id => congrFun hempty.held id
  have hheld : (LifetimeState.start : LifetimeState T C).held = 0 := by
    funext id
    exact total_of_zero fun _ => hzero id
  have hnone : ∀ c, ¬ (LifetimeState.start : LifetimeState T C).Callable c := fun _ heq => by cases heq
  refine ⟨List.not_mem_nil, fun _ _ hc => (by cases hc), fun _ _ hmem => (by cases hmem),
    fun _ hpresent => absurd rfl hpresent, fun _ heq => (by cases heq), fun _ => hempty.unallocated, ?_, ?_, ?_,
    fun id => finitelyMany_of_zero fun _ => hzero id, ?_, fun _ => rfl⟩
  · exact fun _ => ⟨fun _ => finitelyMany_of_zero fun _ => rfl, fun _ => finitelyMany_of_zero fun _ => rfl⟩
  · intro c
    have hwaiting : total (indicator (UserClientAccess.Waiting c)) (fun _ : T => UserClientAccess.idle) = 0 :=
      total_of_zero fun _ => rfl
    have hretaining : total (indicator (UserClientAccess.Retaining c)) (fun _ : T => UserClientAccess.idle) = 0 :=
      total_of_zero fun _ => rfl
    rw [if_neg (hnone c)]
    simp [LifetimeState.unretained, LifetimeState.owing, UserClientState.unretained, UserClientState.owing,
      LifetimeState.start, UserClientState.start, hwaiting, hretaining, UserClientAccess.place,
      NkeIOUserClientRef.init]
  · exact fun _ _ => ⟨fun heq => (by cases heq), fun heq => (by cases heq)⟩
  · rw [hheld]
    exact .empty

/-! ### Steps that change no resource -/

/-- The same lock, queue and memory; the port may be another one. -/
structure NotifyQueue.Same (queue queue' : NotifyQueue) : Prop where
  fLock : queue'.fLock = queue.fLock
  fDataQueue : queue'.fDataQueue = queue.fDataQueue
  fSharedMemory : queue'.fSharedMemory = queue.fSharedMemory
  capacity : queue'.capacity = queue.capacity

/-- The client keeps its references and what it has; it may be terminated. -/
structure ClientObject.Keeps (client client' : ClientObject T) : Prop where
  stage : client'.stage = client.stage
  inactive : client.inactive = true → client'.inactive = true
  queues : ∀ type, (client.queues type).Same (client'.queues type)

section Same
variable {client client' : ClientObject T} {queue queue' : NotifyQueue}

theorem NotifyQueue.Same.refl : queue.Same queue := ⟨rfl, rfl, rfl, rfl⟩

theorem NotifyQueue.Same.trans {queue'' : NotifyQueue} (h : queue.Same queue') (h' : queue'.Same queue'') :
    queue.Same queue'' :=
  ⟨h'.fLock.trans h.fLock, h'.fDataQueue.trans h.fDataQueue, h'.fSharedMemory.trans h.fSharedMemory,
    h'.capacity.trans h.capacity⟩

theorem NotifyQueue.Same.held (h : queue.Same queue') : queue'.held = queue.held := by
  rw [NotifyQueue.held, NotifyQueue.held, h.fLock, h.fDataQueue, h.fSharedMemory]

theorem NotifyQueue.Same.ready (h : queue.Same queue') (hr : queue.Ready) : queue'.Ready :=
  ⟨by rw [h.fLock]; exact hr.fLock, by rw [h.fDataQueue]; exact hr.fDataQueue,
    by rw [h.fSharedMemory]; exact hr.fSharedMemory, by rw [h.capacity]; exact hr.capacity⟩

theorem NotifyQueue.Same.unallocated (h : queue.Same queue') (hr : queue.Unallocated) : queue'.Unallocated :=
  ⟨h.fLock.trans hr.fLock, h.fDataQueue.trans hr.fDataQueue, h.fSharedMemory.trans hr.fSharedMemory⟩

theorem NotifyQueue.Same.owned (h : queue.Same queue') (access : Option FreeAccess) :
    (queue.owned access).Same (queue'.owned access) := by
  rcases access with _ | _ | _ | _ | _ | _ | _ | _
  · exact h
  · exact h
  · exact h
  · exact ⟨h.fLock, h.fDataQueue, rfl, h.capacity⟩
  · exact h
  · exact ⟨h.fLock, rfl, h.fSharedMemory, h.capacity⟩
  · exact h
  · exact ⟨rfl, h.fDataQueue, h.fSharedMemory, h.capacity⟩

theorem NotifyQueue.Same.cleared (h : queue.Same queue') {access : Option FreeAccess} (hc : queue.Cleared access) :
    queue'.Cleared access := by
  rcases access with _ | _ | _ | _ | _ | _ | _ | _
  · exact h.unallocated hc
  · trivial
  · trivial
  · trivial
  · exact h.fSharedMemory.trans hc
  · exact h.fSharedMemory.trans hc
  · exact ⟨h.fSharedMemory.trans hc.1, h.fDataQueue.trans hc.2⟩
  · exact ⟨h.fSharedMemory.trans hc.1, h.fDataQueue.trans hc.2⟩

theorem NotifyQueue.same_setPort {queues : ClientQueues} {type : NkeNotifyType} (port : ℕ)
    (type' : NkeNotifyType) :
    (queues type').Same (Function.update queues type { queues type with fNotificationPort := port } type') := by
  by_cases htype : type' = type
  · subst htype
    rw [Function.update_self]
    exact ⟨rfl, rfl, rfl, rfl⟩
  · rw [Function.update_of_ne htype]
    exact .refl

omit [DecidableEq T] in
theorem ClientObject.owned_of_started (hstage : client.stage = .started) : client.owned = client.queues := by
  unfold ClientObject.owned
  rw [hstage]
  rfl

omit [DecidableEq T] in
theorem ClientObject.owned_of_unallocated (hnone : client.queues.Unallocated) : client.owned = client.queues :=
  funext fun type => (hnone.unallocated type).owned

/-- The loop is past the first access of a type. -/
theorem ClientStage.stopping_of_access {stage : ClientStage} {type : NkeNotifyType} {access : FreeAccess}
    (haccess : stage.access type = some access) (hne : access ≠ .enqueue) : stage = .stopping type access := by
  cases stage with
  | absent | stopped | finalized => cases haccess
  | started =>
    cases haccess
    exact absurd rfl hne
  | stopping type' access' =>
    simp only [ClientStage.access] at haccess
    split at haccess
    · next htype =>
      cases haccess
      rw [htype]
    · split at haccess <;> cases haccess
      exact absurd rfl hne

omit [DecidableEq T] in
theorem ClientObject.Keeps.refl : client.Keeps client := ⟨rfl, id, fun _ => .refl⟩

omit [DecidableEq T] in
theorem ClientObject.Keeps.trans {client'' : ClientObject T} (h : client.Keeps client')
    (h' : client'.Keeps client'') :
    client.Keeps client'' :=
  ⟨h'.stage.trans h.stage, fun hi => h'.inactive (h.inactive hi),
    fun type => (h.queues type).trans (h'.queues type)⟩

omit [DecidableEq T] in
theorem ClientObject.Keeps.held (h : client.Keeps client') : client'.owned.held = client.owned.held := by
  funext id
  refine finsum_congr fun type => ?_
  unfold ClientObject.owned
  rw [h.stage]
  exact congrFun ((h.queues type).owned _).held id

end Same

omit [DecidableEq T] [DecidableEq C] in
theorem held_congr (hclients : ∀ c, (s'.clients c).owned.held = (s.clients c).owned.held) :
    s'.held = s.held := by
  funext id
  exact finsum_congr fun c => congrFun (hclients c) id

omit [DecidableEq T] [DecidableEq C] in
theorem finite_congr (hclients : ∀ c, (s'.clients c).owned.held = (s.clients c).owned.held) {id : ℕ}
    (hf : FinitelyMany (fun client : ClientObject T => client.owned.held id) s.clients) :
    FinitelyMany (fun client : ClientObject T => client.owned.held id) s'.clients := by
  have hsame : (fun c => (s'.clients c).owned.held id) = fun c => (s.clients c).owned.held id :=
    funext fun c => congrFun (hclients c) id
  unfold FinitelyMany
  rw [hsame]
  exact hf

omit [DecidableEq T] [DecidableEq C] in
theorem callable_of_started (hstage : (s.clients c).stage = .started) : s.Callable c := by
  unfold LifetimeState.Callable
  rw [hstage]
  rfl

theorem ClientStage.ne_of_callable {stage : ClientStage} (hcallable : stage.callable = true) :
    stage ≠ .absent ∧ stage ≠ .finalized := by
  constructor
  · rintro rfl
    cases hcallable
  · rintro rfl
    cases hcallable

omit [DecidableEq T] [DecidableEq C] in
theorem callable_congr (hstage : (s'.clients c).stage = (s.clients c).stage) :
    s'.Callable c ↔ s.Callable c := by
  unfold LifetimeState.Callable
  rw [hstage]

/-- The events are no panic, no end of a client and none of a reference. -/
structure Quiet (e : List (LifetimeEvent C)) : Prop where
  noPanic : .panic ∉ e
  notFreed : ∀ c, .freed c ∉ e
  noRef : e.filterMap LifetimeEvent.refEvent = []

omit [DecidableEq C] in
theorem Quiet.nil : Quiet ([] : List (LifetimeEvent C)) := ⟨List.not_mem_nil, fun _ => List.not_mem_nil, rfl⟩

omit [DecidableEq T] in
/-- The clients keep what they have, and threads move. -/
theorem Kept.frame (hK : Kept s h) (he : Quiet e) (hclients : ∀ c, (s.clients c).Keeps (s'.clients c))
    (hcount : ∀ c, (s'.clients c).retainCount = (s.clients c).retainCount) (hrefs : s'.refs = s.refs)
    (hheap : s'.heap = s.heap) (hmappings : s'.mappings = s.mappings)
    (hcalling : ∀ t c, (s'.programs t).calling = some c → (s.programs t).calling = some c ∨ s.Callable c)
    (hlock : ∀ c t, (s'.clients c).lockHolder = some t ↔ (s'.programs t).locked = some c) :
    Kept s' (h ++ e) where
  noPanic := List.mem_append.not.2 (not_or.2 ⟨hK.noPanic, he.noPanic⟩)
  callable t c hc := (callable_congr (hclients c).stage).2 ((hcalling t c hc).elim (hK.callable t c) id)
  created which c hmem := by
    rw [List.filterMap_append, he.noRef, List.append_nil] at hmem
    rw [(hclients c).stage]
    exact hK.created which c hmem
  stopped c hpresent hc := by
    rw [(hclients c).stage] at hpresent hc
    exact (hclients c).inactive (hK.stopped c hpresent hc)
  ready c hc type hne := by
    rw [(hclients c).stage] at hc
    exact ((hclients c).queues type).ready (hK.ready c hc type hne)
  cleared c type := by
    rw [(hclients c).stage]
    exact ((hclients c).queues type).cleared (hK.cleared c type)
  few := by
    rw [hrefs]
    exact hK.few
  count c := by
    have hc := hK.count c
    simp only [LifetimeState.unretained, LifetimeState.owing, hrefs, hcount,
      callable_congr (hclients c).stage] at hc ⊢
    exact hc
  lock := hlock
  finite id := finite_congr (fun c => (hclients c).held) (hK.finite id)
  ledger := by
    rw [hheap, hmappings, held_congr fun c => (hclients c).held]
    exact hK.ledger
  freed c := by
    rw [List.count_append, List.count_eq_zero.2 (he.notFreed c), (hclients c).stage]
    exact hK.freed c

end Kept

end NkeFilter
