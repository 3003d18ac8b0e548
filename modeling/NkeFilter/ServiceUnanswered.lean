import NkeFilter.ServiceBuffers

/-!
# What the client has not answered

The driver never takes the buffers of a notification back by itself: until the client answers, the
notification is in the ring or with the client, the bytes in its buffers stay as they are, and none of them
is free. A client that stops answering with all the buffers leaves the pool empty for good.
-/

namespace NkeFilter
open Lib NkeSocketObject NkeSocketFilter

/-! ### The number of buffers -/

namespace NkeSocketFilter
variable {f f' : NkeSocketFilter} {buffer : Option NkeDataBuffer} {mbuf : MbufChain} {error : Errno}
  {slots i residual offset k : Nat} {arr arr' : List Nat}

theorem dataBuffers_acquire (ha : acquireSocketDataBufferForIO f = .ok (buffer, f')) :
    f'.dataBuffers = f.dataBuffers := by
  unfold acquireSocketDataBufferForIO at ha
  simp only at ha
  split at ha
  · cases ha
    rfl
  · split at ha
    · cases ha
    · split at ha
      · cases ha
      · cases ha
        rfl

/-- No buffer is made or lost by a copy. -/
theorem length_copyLoop (hr : copyLoop mbuf slots i residual offset f arr = .ok (error, k, arr', f')) :
    f'.dataBuffers.length = f.dataBuffers.length := by
  induction slots generalizing f i residual offset arr with
  | zero =>
    unfold copyLoop at hr
    split at hr
    · cases hr
      rfl
    · split at hr
      · cases hr
      · rename_i hacquire
        cases hr
        rw [dataBuffers_acquire hacquire]
      · rename_i hacquire
        simp only at hr
        split at hr
        · cases hr
          rw [dataBuffers_release, setBuffer, List.length_set, dataBuffers_acquire hacquire]
        · cases hr
  | succ slots ih =>
    unfold copyLoop at hr
    split at hr
    · cases hr
      rfl
    · split at hr
      · cases hr
      · rename_i hacquire
        cases hr
        rw [dataBuffers_acquire hacquire]
      · rename_i hacquire
        simp only at hr
        split at hr
        · cases hr
          rw [dataBuffers_release, setBuffer, List.length_set, dataBuffers_acquire hacquire]
        · rw [ih hr, setBuffer, List.length_set, dataBuffers_acquire hacquire]

theorem length_copyDataToBuffers (hr : copyDataToBuffers f mbuf arr = .ok (error, arr', f')) :
    f'.dataBuffers.length = f.dataBuffers.length := by
  unfold copyDataToBuffers at hr
  simp only at hr
  split at hr
  · cases hr
    rfl
  · split at hr
    · cases hr
    · rename_i hloop
      split at hr
      · cases hr
        rw [dataBuffers_releaseDataBuffers, length_copyLoop hloop]
      · cases hr
        exact length_copyLoop hloop

end NkeSocketFilter

namespace Service
open UserToKernel

/-! ### The notifications in the ring -/

section Ring
variable {q q' : IODataQueueMemory} {ns ns' : List UserToKernel.NkeSocketFilterNotification}

/-- The memory of the ring says which notifications it holds. -/
theorem ring_unique (hq : Notified q ns) (hq' : Notified q ns') : ns = ns' := by
  induction ns generalizing q ns' with
  | nil => exact (notified_unique hq' hq).symm
  | cons n ns ih =>
    obtain ⟨q₁, hr, hq₁⟩ := hq.receive_cons fun _ => 0
    cases ns' with
    | nil =>
      have hnil := (hq'.receive_nil fun _ => 0).1
      rw [hr] at hnil
      cases hnil
    | cons n' ns' =>
      obtain ⟨q₂, hr', hq₂⟩ := hq'.receive_cons fun _ => 0
      obtain ⟨rfl, rfl⟩ : n = n' ∧ q₁ = q₂ := by simpa [hr] using hr'
      rw [ih hq₁ hq₂]

theorem notify_appends {client : ClientState} {n : UserToKernel.NkeSocketFilterNotification}
    {result : Option Errno} (hq : Notified q ns) (hsize : 92 ≤ q.queueSize.toNat)
    (hn : notify q client n = (result, q')) :
    q'.queueSize = q.queueSize ∧ ∃ ms, Notified q' (ns ++ ms) := by
  obtain ⟨hsame, ⟨-, hq'⟩ | ⟨-, hq'⟩⟩ := notify_spec hq hsize hn
  · exact ⟨hsame, [n], hq'⟩
  · exact ⟨hsame, [], by rwa [List.append_nil]⟩

theorem serve_appends {so : NkeSocketObject} {pkt : PendingPktQueueItem} {client : ClientState} {now : UInt64}
    {f f' : NkeSocketFilter} {o : ReportOutcome} (hq : Notified q ns) (hsize : 92 ≤ q.queueSize.toNat)
    (hs : serve so pkt client now f q = .ok (o, f', q')) :
    f'.dataBuffers.length = f.dataBuffers.length ∧ q'.queueSize = q.queueSize ∧
      ∃ ms, Notified q' (ns ++ ms) := by
  unfold serve at hs
  simp only at hs
  split at hs
  · cases hs
  · rename_i hcopy
    split at hs
    · cases hs
      exact ⟨length_copyDataToBuffers hcopy, rfl, [], by rwa [List.append_nil]⟩
    · cases hs
      exact ⟨length_copyDataToBuffers hcopy, notify_appends hq hsize rfl⟩

/-- A delivery puts notifications behind those that are in the ring. -/
theorem serveLoop_appends {so : NkeSocketObject} {queue : List PendingPktQueueItem}
    {client : Nat → ClientState} {now : Nat → UInt64} {error : Errno} {f f' : NkeSocketFilter}
    {os : List ReportOutcome} (hq : Notified q ns) (hsize : 92 ≤ q.queueSize.toNat)
    (hs : serveLoop so client now queue error f q = .ok (os, f', q')) :
    f'.dataBuffers.length = f.dataBuffers.length ∧ q'.queueSize = q.queueSize ∧
      ∃ ms, Notified q' (ns ++ ms) := by
  induction queue generalizing client now error f q ns os with
  | nil =>
    cases hs
    exact ⟨rfl, rfl, [], by rwa [List.append_nil]⟩
  | cons pkt rest ih =>
    have hlater : ∀ {error f₁ q₁ o ms}, f₁.dataBuffers.length = f.dataBuffers.length →
        q₁.queueSize = q.queueSize → Notified q₁ (ns ++ ms) →
        (serveLoop so (fun i => client (i + 1)) (fun i => now (i + 1)) rest error f₁ q₁).map
          (fun r => (o :: r.1, r.2)) = .ok (os, f', q') →
        f'.dataBuffers.length = f.dataBuffers.length ∧ q'.queueSize = q.queueSize ∧
          ∃ ms, Notified q' (ns ++ ms) := by
      intro error f₁ q₁ o ms hlen hsame hq₁ hs
      cases hrest : serveLoop so (fun i => client (i + 1)) (fun i => now (i + 1)) rest error f₁ q₁ with
      | error => simp [hrest, Except.map] at hs
      | ok r =>
        simp only [hrest, Except.map, Except.ok.injEq, Prod.mk.injEq] at hs
        obtain ⟨-, hr⟩ := hs
        obtain ⟨hlen', hsame', ms', hq'⟩ := ih hq₁ (by rwa [hsame]) (hrest.trans (by rw [← hr]))
        rw [List.append_assoc] at hq'
        exact ⟨hlen'.trans hlen, hsame'.trans hsame, _, hq'⟩
    have hstay : Notified q (ns ++ []) := by rwa [List.append_nil]
    unfold serveLoop at hs
    simp only at hs
    split at hs
    · exact hlater rfl rfl hstay hs
    · split at hs
      · cases hs
      · rename_i o f₁ q₁ hturn
        have hserved : f₁.dataBuffers.length = f.dataBuffers.length ∧ q₁.queueSize = q.queueSize ∧
            ∃ ms, Notified q₁ (ns ++ ms) := by
          split at hturn
          · cases hturn
            exact ⟨rfl, rfl, [], hstay⟩
          · exact serve_appends hq hsize hturn
        obtain ⟨hlen, hsame, ms, hq₁⟩ := hserved
        generalize (if pkt.data = [] then error else o.error) = error' at hs
        split at hs
        · cases hs
          exact ⟨hlen, hsame, ms, hq₁⟩
        · exact hlater hlen hsame hq₁ hs

end Ring

/-! ### What a step leaves alone -/

variable {s s' : ServiceState} {a : ServiceLabel} {h e : List ServiceEvent} {calls : List (Nat × Nat)}
  {ns : List UserToKernel.NkeSocketFilterNotification} {n : UserToKernel.NkeSocketFilterNotification}
  {free : List Nat} {socketIds : Nat → NkeSocketID} {sizes : Nat → Nat}

/-- In the ring or with the client. -/
def Unanswered (s : ServiceState) (n : UserToKernel.NkeSocketFilterNotification) : Prop :=
  ∃ ns, Notified s.dataQueue ns ∧ n ∈ ns ++ s.received

theorem Unanswered.mem (hn : Unanswered s n) (hq : Notified s.dataQueue ns) : n ∈ ns ++ s.received := by
  obtain ⟨ns', hq', hn⟩ := hn
  rwa [ring_unique hq hq']

theorem Unanswered.appends {ms : List UserToKernel.NkeSocketFilterNotification} (hn : Unanswered s n)
    (hq : Notified s.dataQueue ns) (hq' : Notified s'.dataQueue (ns ++ ms))
    (hreceived : s'.received = s.received) : Unanswered s' n := by
  refine ⟨ns ++ ms, hq', ?_⟩
  have hmem := hn.mem hq
  rw [hreceived]
  simp only [List.mem_append] at hmem ⊢
  tauto

theorem ServiceState.length_step (hsize : 92 ≤ s.dataQueue.queueSize.toNat) (hq : Notified s.dataQueue ns)
    (hs : serviceMachine.step s a = some (s', e)) :
    s'.filter.dataBuffers.length = s.filter.dataBuffers.length := by
  cases ServiceState.step_inv hs with
  | copy _ hcopy _ =>
    unfold FltDataCall.copy at hcopy
    split at hcopy
    · cases hcopy
      rfl
    · exact length_copyDataToBuffers hcopy
  | deliver hserve => exact (serveLoop_appends hq hsize hserve).1
  | release => exact congrArg List.length (dataBuffers_releaseDataBuffers ..)
  | respond => exact congrArg List.length (dataBuffers_releaseDataBuffers ..)
  | _ => rfl

/-- Only an answer to it ends the wait for one. -/
theorem Unanswered.step (hn : Unanswered s n) (hsize : 92 ≤ s.dataQueue.queueSize.toNat)
    (hs : serviceMachine.step s a = some (s', e)) (hno : ∀ response, .responded n response ∉ e) :
    Unanswered s' n := by
  have hstay : s'.dataQueue = s.dataQueue → s'.received = s.received → Unanswered s' n := by
    intro hqueue hreceived
    rwa [Unanswered, hqueue, hreceived]
  obtain ⟨ns, hq, hmem⟩ := hn
  have hput : ∀ {ms}, Notified s'.dataQueue (ns ++ ms) → s'.received = s.received → Unanswered s' n :=
    fun hq' hreceived => Unanswered.appends ⟨ns, hq, hmem⟩ hq hq' hreceived
  cases ServiceState.step_inv hs with
  | send _ _ hnotify =>
    obtain ⟨-, ms, hq'⟩ := notify_appends hq hsize hnotify
    exact hput hq' rfl
  | event hnotify =>
    obtain ⟨-, ms, hq'⟩ := notify_appends hq hsize hnotify
    exact hput hq' rfl
  | deliver hserve =>
    obtain ⟨-, -, ms, hq'⟩ := serveLoop_appends hq hsize hserve
    exact hput hq' rfl
  | @receive notification n' q hr =>
    cases ns with
    | nil =>
      have hret := (hq.receive_nil notification).1
      rw [hr] at hret
      cases hret
    | cons first ns =>
      obtain ⟨q', hr', hq'⟩ := hq.receive_cons notification
      obtain ⟨rfl, rfl⟩ : n' = first ∧ q = q' := by simpa [hr] using hr'
      refine ⟨ns, hq', ?_⟩
      simp only [List.mem_append, List.mem_cons, List.not_mem_nil, or_false] at hmem ⊢
      tauto
  | @underrun notification retVal n' q hr hret =>
    cases ns with
    | nil =>
      have hq' := (hq.receive_nil notification).2
      rw [hr] at hq'
      exact hstay hq' rfl
    | cons first ns =>
      obtain ⟨q', hr', -⟩ := hq.receive_cons notification
      rw [hr] at hr'
      exact absurd (congrArg Prod.fst hr') hret
  | @respond i n' response hi =>
    -- the answer is to another one
    have hne : n' ≠ n := by
      rintro rfl
      exact hno response (List.mem_singleton_self _)
    refine ⟨ns, hq, ?_⟩
    rcases List.mem_append.1 hmem with hmem | hmem
    · exact List.mem_append_left _ hmem
    · obtain ⟨j, hj⟩ := List.mem_iff_getElem?.1 hmem
      refine List.mem_append_right _ (List.mem_eraseIdx_iff_getElem?.2 ⟨j, ?_, hj⟩)
      rintro rfl
      exact hne (Option.some.inj (hi.symm.trans hj))
  | _ => exact hstay rfl rfl

/-- No step writes to a buffer that has an owner. -/
theorem Owned.untouched (hO : Owned socketIds h s calls ns free) (hB : Buffers socketIds sizes s h)
    (ha : Regular s a) (hs : serviceMachine.step s a = some (s', e)) :
    Untouched s.filter s'.filter (owners s calls ns) := by
  cases ServiceState.step_inv hs with
  | @copy object id c error buffers f o e' hc hcopy hstep =>
    have hok := (hB.carries object).calls id c (by rw [hc]; rfl)
    obtain ⟨so, pkt, rfl⟩ := (hB.carries object).fresh id c hc
    obtain ⟨error', arr, f', hcopy', hresult⟩ := hO.pooled.copy
      (FltDataCall.captured so pkt).notification.buffers hok.regular.1 hok.regular.2
      (by simp [FltDataCall.captured, NkeSocketObject.initSocketNotification])
    rw [FltDataCall.copy, if_neg hok.regular.1, hcopy'] at hcopy
    obtain ⟨rfl, rfl, rfl⟩ : error' = error ∧ arr = buffers ∧ f' = f := by simpa using hcopy
    cases hresult with
    | filled _ _ _ _ hu => exact hu
    | failed _ _ hu => exact hu
  | @deliver object client now os f q l o e' hserve hl hstep =>
    obtain ⟨os', f', q', hserve', hserved⟩ := serveLoop_spec (s.objects object).so
      ⟨none, KERN_SUCCESS, false, false⟩ client now hO.pooled hO.ring hB.size
      (fun pkt hp _ => ((hB.carries object).queue pkt hp).2) ha rfl rfl rfl
    obtain ⟨-, rfl, -⟩ : os' = os ∧ f' = f ∧ q' = q := by simpa [hserve] using hserve'.symm
    exact (hserved rfl).untouched
  | release => exact untouched_release _ _ _
  | respond => exact untouched_release _ _ _
  | _ => exact .refl _ _

theorem mem_owners {i : Nat} (hn : n ∈ ns ++ s.received) (hi : i ∈ n.indices) : i ∈ owners s calls ns := by
  simp only [owners, List.mem_append, List.mem_flatMap]
  rcases List.mem_append.1 hn with hn | hn
  · exact .inl (.inr ⟨n, hn, hi⟩)
  · exact .inr ⟨n, hn, hi⟩

/-! ### The result -/

/-- What is unanswered in `s` and `s'` and keeps its bytes. -/
structure Waits (s s' : ServiceState) (n : UserToKernel.NkeSocketFilterNotification) : Prop where
  unanswered : Unanswered s' n
  contents : s'.filter.contents n.indices = s.filter.contents n.indices
  notFree : ∀ i ∈ n.indices, ¬ Reaches s'.filter.freeBuffers UINT8_MAX s'.filter.freeBuffersHead i

theorem Buffers.notFree (hB : Buffers socketIds sizes s h) (hn : Unanswered s n) {i : Nat} (hi : i ∈ n.indices) :
    ¬ Reaches s.filter.freeBuffers UINT8_MAX s.filter.freeBuffersHead i := by
  obtain ⟨calls, ns, free, hO⟩ := hB.owned
  rw [hO.pooled.pool.links.reaches_iff]
  exact hO.pooled.not_free (mem_owners (hn.mem hO.ring) hi)

theorem Waits.step {s₀ : ServiceState} (hw : Waits s₀ s n) (hB : Buffers socketIds sizes s h)
    (ha : Regular s a) (hs : serviceMachine.step s a = some (s', e))
    (hno : ∀ response, .responded n response ∉ e) : Waits s₀ s' n := by
  have hn' := hw.unanswered.step hB.size hs hno
  constructor
  · exact hn'
  · obtain ⟨calls, ns, free, hO⟩ := hB.owned
    have hu := hO.untouched hB ha hs
    have hkept := (hu.mono fun i hi => mem_owners (hw.unanswered.mem hO.ring) hi).contents_eq
    exact hkept.trans hw.contents
  · exact fun i hi => (hB.step ha hs).notFree hn' hi

section Result
variable {withSize : Nat → Bool} {queueSize : UInt32} {queue : Memory} {as bs : List ServiceLabel}
  {h' : List ServiceEvent}

theorem length_of_run (hB : Buffers socketIds sizes s h) (hC : serviceMachine.Along Regular s bs)
    (hr : serviceMachine.run s bs = some (s', h')) :
    Buffers socketIds sizes s' (h ++ h') ∧ s'.filter.dataBuffers.length = s.filter.dataBuffers.length := by
  refine Machine.run_induction (fun s₁ h₁ => Buffers socketIds sizes s₁ h₁ ∧
    s₁.filter.dataBuffers.length = s.filter.dataBuffers.length) h ⟨hB, rfl⟩ ?_ hC hr
  rintro s₁ h₁ a s₂ e ⟨hB₁, hlen⟩ ha hs
  obtain ⟨_, _, _, hO⟩ := hB₁.owned
  exact ⟨hB₁.step ha hs, (ServiceState.length_step hB₁.size hO.ring hs).trans hlen⟩

theorem waits_of_run (hB : Buffers socketIds sizes s h) (hn : Unanswered s n)
    (hC : serviceMachine.Along Regular s bs) (hr : serviceMachine.run s bs = some (s', h'))
    (hno : ∀ response, .responded n response ∉ h') : Waits s s' n := by
  have hend := Machine.run_induction (fun s₁ h₁ => ∃ h₂, h₁ = h ++ h₂ ∧ Buffers socketIds sizes s₁ h₁ ∧
      ((∀ response, .responded n response ∉ h₂) → Waits s s₁ n)) h
    ⟨[], (List.append_nil h).symm, hB, fun _ => ⟨hn, rfl, fun i hi => hB.notFree hn hi⟩⟩ ?_ hC hr
  · obtain ⟨h₂, heq, -, hwaits⟩ := hend
    obtain rfl := List.append_cancel_left heq
    exact hwaits hno
  · rintro s₁ h₁ a s₂ e ⟨h₂, rfl, hB₁, hwaits⟩ ha hs
    refine ⟨h₂ ++ e, List.append_assoc .., hB₁.step ha hs, fun hno => ?_⟩
    simp only [List.mem_append, not_or] at hno
    exact (hwaits fun r => (hno r).1).step hB₁ ha hs fun r => (hno r).2

/-- Whatever happens after `s`: what the client does not answer waits, and when that has all the buffers the
pool is empty at the end. -/
theorem unanswered_kept (hsize : 92 ≤ queueSize.toNat) (hlt : queueSize.toNat < 2 ^ 31)
    (hC : serviceMachine.Along Regular (.start withSize queueSize queue socketIds sizes) as)
    (hr : serviceMachine.run (.start withSize queueSize queue socketIds sizes) as = some (s, h))
    (hC' : serviceMachine.Along Regular s bs) (hr' : serviceMachine.run s bs = some (s', h')) :
    (∀ n, Unanswered s n → (∀ response, .responded n response ∉ h') → Waits s s' n) ∧
      ((∀ i < s.filter.dataBuffers.length, ∃ n, Unanswered s n ∧ i ∈ n.indices ∧
        ∀ response, .responded n response ∉ h') → s'.filter.freeBuffersHead = UINT8_MAX) := by
  have hB := buffers_of_run hsize hlt hC hr
  refine ⟨fun n hn hno => waits_of_run hB hn hC' hr' hno, fun hall => ?_⟩
  obtain ⟨hB', hlen⟩ := length_of_run hB hC' hr'
  obtain ⟨calls, ns, free, hO⟩ := hB'.owned
  by_contra hne
  -- the head of the free list would be a buffer the client has
  obtain ⟨rest, rfl, -⟩ := hO.pooled.pool.links.exists_cons hne
  have hhead := hO.pooled.pool.backed _ (List.mem_cons_self ..)
  rw [hlen] at hhead
  obtain ⟨n, hn, hi, hno⟩ := hall _ hhead
  refine (waits_of_run hB hn hC' hr' hno).notFree _ hi ?_
  rw [hO.pooled.pool.links.reaches_iff]
  exact List.mem_cons_self ..

/-- The client takes a notification and never answers. -/
theorem oneTaken_kept : ∃ n s' h', serviceMachine.run oneNotifiedState [.receive fun _ => 3] = some (s', h') ∧
    Unanswered oneNotifiedState n ∧ Waits oneNotifiedState s' n := by
  obtain ⟨h, n, hr, -, -, hring⟩ := notified_oneNotified
  obtain ⟨q, hreceive, -⟩ := hring.receive_cons fun _ => 3
  have hstep : serviceMachine.step oneNotifiedState (.receive fun _ => 3) =
      some ({ oneNotifiedState with dataQueue := q, received := [ofData n] },
        [.received (ofData n) ((ofData n).visible oneNotifiedState.filter)]) := by
    simp only [serviceMachine, ServiceState.step, hreceive, if_true]
    rfl
  have hr' := Machine.run_single hstep
  have hn : Unanswered oneNotifiedState (ofData n) := ⟨_, hring, List.mem_singleton.2 rfl⟩
  have hregular : serviceMachine.Along Regular oneNotifiedState [.receive fun _ => 3] :=
    ⟨trivial, fun _ _ _ => trivial⟩
  have hkept := unanswered_kept (by decide) (by decide) oneNotified_regular hr hregular hr'
  exact ⟨ofData n, _, _, hr', hn, hkept.1 _ hn fun response hmem => (by cases List.mem_singleton.1 hmem)⟩

end Result

end Service
end NkeFilter
