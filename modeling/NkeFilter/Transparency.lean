import NkeFilter.InjectionOrder
import NkeFilter.Service

/-!
# A client that lets everything pass

As long as the packets of a direction are permitted before their deadline, the direction is not purged and
the socket is not being disconnected, nothing of it is lost: the packets handed to the injection function are
exactly the first ones that were inserted, and the rest is still held (`passing_isFifo`). With
`NkeSocketHandler` as the client every answer is a permission, so the driver is transparent
(`handler_transparent`).
-/

namespace NkeFilter
open Lib NkeSocketObject

/-- The step does not deny, give up or throw away a packet of the direction. -/
def Lenient (dataInbound : Bool) (s : SocketState) : SocketLabel → Prop
  | .property property => ∀ pkt ∈ s.so.pendingQueue, pkt.dataInbound = dataInbound →
    pkt.dataIndex = property.dataIndex → property.type = .NkeSocketDataPropertyTypePermission →
      property.allowData ≠ 0
  | .collect _ clock => ∀ pkt ∈ s.so.pendingQueue, pkt.dataInbound = dataInbound →
    pkt.responseReceived = false → ∀ i, (pkt.isDeadlineTimerExpired (clock i)).1 = false
  | .purge purgeType => purgeType.covers dataInbound = false
  | .disconnecting => False
  | _ => True

/-- Every answered packet of the direction is permitted, and what is being injected was answered. -/
structure Passing (dataInbound : Bool) (s : SocketState) : Prop where
  connected : s.so.f_sock_evt_disconnecting = false
  fresh : ∀ id c, s.calls id = .captured c ∨ s.calls id = .copied c → c.pendingPkt.responseReceived = false
  waiting : ∀ pkt ∈ s.so.pendingQueue, pkt.needToBeReported → pkt.responseReceived = false
  answered : ∀ pkt ∈ s.so.pendingQueue, pkt.dataInbound = dataInbound → pkt.responseReceived → pkt.allowData
  toInject : ∀ pkt ∈ s.packetsToInject, pkt.dataInbound = dataInbound → pkt.allowData

variable {s s' : SocketState} {a : SocketLabel} {as : List SocketLabel} {h e : List SocketEvent} {d : Bool}
  {so : NkeSocketObject} {pkt pkt' : PendingPktQueueItem} {queue rest taken : List PendingPktQueueItem}
  {direction : Nat → Option Bool}

theorem passing_start {socketId : NkeSocketID} {size : Nat} : Passing d (SocketState.start socketId size) := by
  refine ⟨rfl, ?_, fun _ h => (by cases h), fun _ h => (by cases h), fun _ h => (by cases h)⟩
  intro id c hc
  rcases hc with hc | hc <;> cases hc

/-! ### What the regions do to the flag and the answers -/

theorem countPkt_disconnecting {inbound : Bool} {n : UInt32} :
    (so.countPkt inbound n).f_sock_evt_disconnecting = so.f_sock_evt_disconnecting := by
  unfold countPkt
  split <;> rfl

theorem purgeLoop_disconnecting (purgeType : NkeSocketDataDirectionType) (queue : List PendingPktQueueItem)
    (so : NkeSocketObject) :
    (purgeLoop purgeType queue so).2.1.f_sock_evt_disconnecting = so.f_sock_evt_disconnecting := by
  induction queue generalizing so with
  | nil => rfl
  | cons pkt rest ih =>
    unfold purgeLoop
    split
    · exact ih so
    · refine (ih _).trans ?_
      rw [uncountPkt_disconnecting]
      split <;> rfl

theorem queuePkt_response (so : NkeSocketObject) (c : FltDataCall) :
    (so.queuePkt c).1.f_sock_evt_disconnecting = so.f_sock_evt_disconnecting ∧
      ∃ pkt, (so.queuePkt c).1.pendingQueue = so.pendingQueue ++ [pkt] ∧
        pkt.responseReceived = c.pendingPkt.responseReceived := by
  unfold queuePkt
  by_cases hp : c.error ≠ KERN_SUCCESS ∨ so.packetsWaitingForReporting ≠ 0
  · simp only [if_pos hp]
    exact ⟨trivial, _, rfl, rfl⟩
  · simp only [if_neg hp]
    exact ⟨trivial, _, rfl, rfl⟩

theorem disconnecting_of_step (hs : socketMachine.step s a = some (s', e)) (ha : a ≠ .disconnecting) :
    s'.so.f_sock_evt_disconnecting = s.so.f_sock_evt_disconnecting := by
  cases a with
  | capture mbufData mbufControl flags isInboundData allocated now =>
    simp only [socketMachine, SocketState.step] at hs
    split at hs
    · cases hs
    · rename_i hd
      unfold allocatePkt at hs
      rw [if_neg (fun h => hd h.1)] at hs
      cases allocated with
      | false =>
        obtain ⟨rfl, -⟩ := Prod.mk.inj (Option.some.inj hs)
        rfl
      | true =>
        obtain ⟨rfl, -⟩ := Prod.mk.inj (Option.some.inj hs)
        exact countPkt_disconnecting
  | queue id =>
    simp only [socketMachine, SocketState.step] at hs
    split at hs
    · rename_i c _
      obtain ⟨rfl, -⟩ := Prod.mk.inj (Option.some.inj hs)
      exact (queuePkt_response s.so c).1
    · cases hs
  | deliver outcome =>
    obtain ⟨rfl, -⟩ := Prod.mk.inj (Option.some.inj hs)
    have hend : DeliverEnd s.so.pendingQueue s.so
        (deliverLoop outcome s.so.pendingQueue s.so ⟨none, KERN_SUCCESS, false, false⟩) :=
      deliverLoop_spec outcome
    have hso := hend.so_eq
    simp only [hso]
  | purge purgeType =>
    simp only [socketMachine, SocketState.step] at hs
    split at hs
    · cases hs
    · obtain ⟨rfl, -⟩ := Prod.mk.inj (Option.some.inj hs)
      exact purgeLoop_disconnecting purgeType s.so.pendingQueue s.so
  | account =>
    simp only [socketMachine, SocketState.step] at hs
    split at hs
    · obtain ⟨rfl, -⟩ := Prod.mk.inj (Option.some.inj hs)
      exact uncountPkt_disconnecting
    · cases hs
  | disconnecting => exact absurd rfl ha
  | _ =>
    simp only [socketMachine, SocketState.step] at hs
    repeat' split at hs
    all_goals cases hs <;> rfl

/-- What is taken was answered, or its deadline has passed. -/
theorem collectLoop_answered (injectType : NkeSocketDataDirectionType) (clock : Nat → UInt64)
    (hp : pkt' ∈ (collectLoop injectType clock queue).2) :
    ∃ pkt ∈ queue, Latched pkt pkt' ∧
      (pkt.responseReceived ∨ ∃ i, (pkt.isDeadlineTimerExpired (clock i)).1) := by
  induction queue generalizing clock with
  | nil => cases hp
  | cons pkt rest ih =>
    have hlater : pkt' ∈ (collectLoop injectType (fun i => clock (i + 1)) rest).2 →
        ∃ pkt₁ ∈ pkt :: rest, Latched pkt₁ pkt' ∧
          (pkt₁.responseReceived ∨ ∃ i, (pkt₁.isDeadlineTimerExpired (clock i)).1) := by
      intro hp
      obtain ⟨pkt₁, hmem, hlatch, hready⟩ := ih _ hp
      exact ⟨pkt₁, List.mem_cons_of_mem _ hmem, hlatch, hready.imp_right fun ⟨i, hi⟩ => ⟨i + 1, hi⟩⟩
    unfold collectLoop at hp
    split at hp
    · exact hlater hp
    · split at hp
      · cases hp
      · simp only at hp
        split at hp
        · cases hp
        · rename_i hgo
          rcases List.mem_cons.1 hp with rfl | hp
          · refine ⟨pkt, List.mem_cons_self .., latched_isDeadlineTimerExpired .., ?_⟩
            rw [isDeadlineTimerExpired_snd] at hgo
            cases hexp : (pkt.isDeadlineTimerExpired (clock 0)).1 with
            | true => exact .inr ⟨0, hexp⟩
            | false => exact .inl (by simpa [hexp] using hgo)
          · exact hlater hp

/-! ### The queue of a direction -/

theorem Passing.requeue (hP : Passing d s) (hflag : s'.so.f_sock_evt_disconnecting = s.so.f_sock_evt_disconnecting)
    (hcalls : s'.calls = s.calls) (hinjection : ∀ pkt ∈ s'.packetsToInject, pkt.dataInbound = d → pkt.allowData)
    (hqueue : ∀ pkt' ∈ s'.so.pendingQueue, ∃ pkt ∈ s.so.pendingQueue, pkt'.dataInbound = pkt.dataInbound ∧
      (pkt'.needToBeReported → pkt.needToBeReported ∧ pkt'.responseReceived = pkt.responseReceived) ∧
      (pkt.dataInbound = d → pkt'.responseReceived → pkt'.allowData)) : Passing d s' := by
  constructor
  · exact hflag.trans hP.connected
  · rw [hcalls]
    exact hP.fresh
  · intro pkt' hp' hneed
    obtain ⟨pkt, hp, -, hmark, -⟩ := hqueue pkt' hp'
    obtain ⟨hneed, heq⟩ := hmark hneed
    exact heq.trans (hP.waiting pkt hp hneed)
  · intro pkt' hp' hd hresponse
    obtain ⟨pkt, hp, hin, -, hallow⟩ := hqueue pkt' hp'
    exact hallow (hin ▸ hd) hresponse
  · exact hinjection

theorem Passing.setCall {phase : CallPhase} {id : Nat} (hP : Passing d s)
    (hphase : ∀ c, phase = .captured c ∨ phase = .copied c → c.pendingPkt.responseReceived = false) :
    Passing d (s.setCall id phase) := by
  refine ⟨hP.connected, ?_, hP.waiting, hP.answered, hP.toInject⟩
  intro id' c hc
  rcases s.setCall_inv id phase id' with ⟨rfl, hp⟩ | ⟨-, hp⟩
  · exact hphase c (hp ▸ hc)
  · exact hP.fresh id' c (hp ▸ hc)

/-- A packet is as it was, or the property was applied to it. -/
theorem PropertyEnd.reached {property : NkeSocketDataProperty} {reached : Option PendingPktQueueItem}
    (hp : PropertyEnd property queue (rest, reached)) (h : pkt' ∈ rest) : pkt' ∈ queue ∨
      ∃ pkt ∈ queue, pkt.needToBeReported = false ∧ pkt.dataIndex = property.dataIndex ∧
        pkt' = setProperty pkt property := by
  cases hp with
  | none => exact .inl h
  | @applied pre post pkt hneed hindex =>
    rcases List.mem_append.1 h with h | h
    · exact .inl (List.mem_append_left _ h)
    · rcases List.mem_cons.1 h with rfl | h
      · exact .inr ⟨pkt, by simp, hneed, hindex, rfl⟩
      · exact .inl (List.mem_append_right _ (List.mem_cons_of_mem _ h))

/-- A delivery only gives up on packets that wait for it. -/
theorem Delivered.answered (hd : Delivered e pkt pkt') (hwait : pkt.needToBeReported → pkt.responseReceived = false)
    (hresponse : pkt'.responseReceived) : pkt.responseReceived ∧ pkt'.allowData = pkt.allowData := by
  cases hd with
  | expired hneed => exact absurd hresponse (by simp [hwait hneed])
  | _ => exact ⟨hresponse, rfl⟩

theorem Passing.step (hP : Passing d s) (ha : Lenient d s a) (hs : socketMachine.step s a = some (s', e)) :
    Passing d s' := by
  have hflag : s'.so.f_sock_evt_disconnecting = s.so.f_sock_evt_disconnecting := by
    refine disconnecting_of_step hs ?_
    rintro rfl
    exact ha
  -- a step that leaves the queue as it is
  have hsame : s'.so.pendingQueue = s.so.pendingQueue → s'.calls = s.calls →
      (∀ pkt ∈ s'.packetsToInject, pkt ∈ s.packetsToInject) → Passing d s' := by
    intro hq hcalls hi
    refine hP.requeue hflag hcalls (fun pkt hp => hP.toInject pkt (hi pkt hp)) ?_
    rw [hq]
    exact fun pkt hp => ⟨pkt, hp, rfl, fun hneed => ⟨hneed, rfl⟩, hP.answered pkt hp⟩
  cases SocketState.step_inv hs with
  | quiet hso => exact hsame hso.queue rfl fun _ hp => hp
  | @capture _ so pkt _ _ _ _ _ hq =>
    have hfresh : pkt.responseReceived = false := by
      obtain ⟨_, _, _, _, _, -, rfl⟩ := SocketState.capturedPkt_eq hs
      rfl
    have hcall : Passing d (s.setCall s.captures (.captured (.captured so pkt))) := by
      refine hP.setCall ?_
      intro c hc
      rcases hc with hc | hc <;> cases hc
      exact hfresh
    exact ⟨hflag.trans hP.connected, hcall.fresh, hq ▸ hP.waiting, hq ▸ hP.answered, hP.toInject⟩
  | @copy id error buffers c hc =>
    refine hP.setCall ?_
    intro c' hc'
    have hbefore := hP.fresh id c (.inl hc)
    rcases hc' with hc' | hc' <;> cases hc'
    split
    · exact hbefore
    · unfold FltDataCall.copied
      split <;> exact hbefore
  | @queue id c so c' _ hc hq =>
    obtain ⟨-, pkt, hqueue, hresponse⟩ := queuePkt_response s.so c
    rw [SocketState.queue_eq hc hs] at hqueue
    have hfresh : pkt.responseReceived = false := hresponse.trans (hP.fresh id c (.inr hc))
    have hcall : Passing d (s.setCall id (.queued c')) := hP.setCall (by simp)
    have hmem : ∀ pkt' ∈ so.pendingQueue, pkt' ∈ s.so.pendingQueue ∨ pkt' = pkt := by
      intro pkt' hp
      rw [hqueue] at hp
      exact (List.mem_append.1 hp).imp_right List.mem_singleton.1
    refine ⟨hflag.trans hP.connected, hcall.fresh, ?_, ?_, hP.toInject⟩
    · intro pkt' hp hneed
      rcases hmem pkt' hp with hp | rfl
      · exact hP.waiting pkt' hp hneed
      · exact hfresh
    · intro pkt' hp hd hreceived
      rcases hmem pkt' hp with hp | rfl
      · exact hP.answered pkt' hp hd hreceived
      · simp [hfresh] at hreceived
  | send => exact hP.setCall (by simp)
  | noSend => exact hP.setCall (by simp)
  | finish => exact hP.setCall (by simp)
  | @deliver _ queue _ _ _ hdeliver =>
    refine hP.requeue hflag rfl hP.toInject ?_
    intro pkt' hp'
    obtain ⟨pkt, hp, hd⟩ := exists_partner hdeliver.pkts hp'
    refine ⟨pkt, hp, hd.dataInbound, ?_, ?_⟩
    · intro hneed
      cases hd with
      | same => exact ⟨hneed, rfl⟩
      | _ => cases hneed
    · intro hin hresponse
      obtain ⟨hreceived, hallow⟩ := hd.answered (hP.waiting pkt hp) hresponse
      exact hallow ▸ hP.answered pkt hp hin hreceived
  | @property property queue _ hp =>
    refine hP.requeue hflag rfl hP.toInject ?_
    intro pkt' hp'
    have hkept : pkt' ∈ s.so.pendingQueue → ∃ pkt ∈ s.so.pendingQueue, pkt'.dataInbound = pkt.dataInbound ∧
        (pkt'.needToBeReported → pkt.needToBeReported ∧ pkt'.responseReceived = pkt.responseReceived) ∧
        (pkt.dataInbound = d → pkt'.responseReceived → pkt'.allowData) :=
      fun hp => ⟨pkt', hp, rfl, fun hneed => ⟨hneed, rfl⟩, hP.answered pkt' hp⟩
    rcases hp.reached hp' with hp | ⟨pkt, hp, hneed, hindex, rfl⟩
    · exact hkept hp
    · refine ⟨pkt, hp, ?_, ?_, ?_⟩
      · obtain ⟨_, _, heq⟩ := setProperty_eq pkt property
        rw [heq]
      · simp [hneed]
      · intro hin
        unfold setProperty
        split
        · rename_i htype
          intro _
          simpa using ha pkt hp hin hindex htype
        · exact hP.answered pkt hp hin
  | @collect injectType clock rest taken hnone hc =>
    obtain ⟨seen, hseen, hrest, -, -⟩ := hc.split
    refine hP.requeue hflag rfl ?_ ?_
    · intro pkt' hp' hin
      have htaken := SocketState.collect_eq hnone hs
      have hmem : pkt' ∈ (collectLoop injectType clock s.so.pendingQueue).2 := htaken ▸ hp'
      obtain ⟨pkt, hp, ⟨_, rfl, -⟩, hready⟩ := collectLoop_answered injectType clock hmem
      -- a packet that was not answered has time left, so it is not taken
      have hanswered : pkt.responseReceived := by
        by_contra hn
        obtain ⟨i, hi⟩ := hready.resolve_left hn
        rw [ha pkt hp hin (by simpa using hn) i] at hi
        cases hi
      exact hP.answered pkt hp hin hanswered
    · intro pkt' hp'
      obtain ⟨pkt, hp, _, rfl, -⟩ := exists_partner hseen (hrest.subset hp')
      exact ⟨pkt, hp, rfl, fun hneed => ⟨hneed, rfl⟩, hP.answered pkt hp⟩
  | @inject _ _ pkt rest _ _ hi =>
    refine hsame rfl rfl ?_
    intro pkt' hp
    rw [SocketState.packetsToInject, hi]
    exact List.mem_cons_of_mem pkt hp
  | freeMbufs hi =>
    refine hsame rfl rfl ?_
    rw [SocketState.packetsToInject, SocketState.packetsToInject, hi]
    exact fun _ hp => hp
  | account hi hso =>
    refine hsame hso.queue rfl ?_
    rw [SocketState.packetsToInject, SocketState.packetsToInject, hi]
    exact fun _ hp => hp
  | unlock hi =>
    refine hsame rfl rfl ?_
    intro _ hp
    cases hp
  | @purge purgeType so purged hnone _ hq =>
    refine hP.requeue hflag rfl hP.toInject ?_
    intro pkt hp
    have hmem : pkt ∈ s.so.pendingQueue := (List.mem_filter.1 (hq ▸ hp)).1
    exact ⟨pkt, hmem, rfl, fun hneed => ⟨hneed, rfl⟩, hP.answered pkt hmem⟩

/-! ### Nothing is lost -/

theorem insertedPkt_eq_nil (he : ∀ x ∈ e, ∀ id, x ≠ .queued id) : e.filterMap (insertedPkt direction d) = [] := by
  refine List.filterMap_eq_nil_iff.2 ?_
  intro x hx
  cases x with
  | queued id => exact absurd rfl (he _ hx id)
  | _ => rfl

theorem directed_filter {covered : PendingPktQueueItem → Bool} (hd : ∀ pkt ∈ queue, pkt.dataInbound = d → covered pkt) :
    directed d (queue.filter covered) = directed d queue := by
  induction queue with
  | nil => rfl
  | cons pkt rest ih =>
    have hrest := ih fun pkt' hp => hd pkt' (List.mem_cons_of_mem _ hp)
    cases hcov : covered pkt with
    | true => rw [List.filter_cons_of_pos hcov, directed_cons, directed_cons, hrest]
    | false =>
      have hne : pkt.dataInbound ≠ d := by
        intro heq
        have := hd pkt (List.mem_cons_self ..) heq
        simp [hcov] at this
      rw [List.filter_cons_of_neg (by simp [hcov]), directed_cons, if_neg hne, hrest, List.nil_append]

/-- What is still to be injected in a direction of which nothing is denied, and the packets that hold it. -/
structure PassesOn (direction : Nat → Option Bool) (d : Bool) (s : SocketState) (items : List Nat) : Prop where
  passing : Passing d s
  toInject : ToInject direction d s items

theorem passing_isFifo (direction : Nat → Option Bool) (d : Bool) :
    socketMachine.IsFifo (fun s a => Lenient d s a ∧ CapturesAs direction s a) (PassesOn direction d)
      (insertedPkt direction d) (injectedPkt d) := by
  rintro s a s' e items ⟨hP, hD, rfl⟩ ⟨ha, hcap⟩ hs
  refine ⟨_, ⟨hP.step ha hs, hD.step hcap hs, rfl⟩, ?_⟩
  -- a step that neither inserts nor injects
  have hkeeps : (∀ x ∈ e, ∀ id, x ≠ .queued id) → (∀ x ∈ e, ∀ id b error, x ≠ .injected id b error) →
      directed d (s'.packetsToInject ++ s'.so.pendingQueue) =
        directed d (s.packetsToInject ++ s.so.pendingQueue) →
      directed d (s.packetsToInject ++ s.so.pendingQueue) ++ e.filterMap (insertedPkt direction d) =
        e.filterMap (injectedPkt d) ++ directed d (s'.packetsToInject ++ s'.so.pendingQueue) := by
    intro hins hinj heq
    rw [insertedPkt_eq_nil hins, injectedPkt_eq_nil hinj, heq, List.append_nil, List.nil_append]
  cases SocketState.step_inv hs with
  | quiet hsame =>
    refine hkeeps (by simp) (by simp) ?_
    rw [hsame.queue]
    rfl
  | capture _ _ _ _ _ hq =>
    refine hkeeps (by simp) (by simp) ?_
    rw [hq]
    rfl
  | copy => exact hkeeps (by simp) (by simp) rfl
  | @queue id c so c' _ hc hq =>
    obtain ⟨hid, hdir⟩ := hD id c (.inr hc)
    obtain ⟨pkt, hqueue, hpid, hin⟩ := queuePkt_last s.so c
    rw [SocketState.queue_eq hc hs] at hqueue
    obtain ⟨rest, rfl, hrest⟩ := hq.queued_first
    have hinj : (SocketEvent.queued c.pendingPkt.id :: rest).filterMap (injectedPkt d) = [] := by
      refine injectedPkt_eq_nil ?_
      intro x hx id b error heq
      rcases List.mem_cons.1 hx with rfl | hx
      · cases heq
      · rcases hrest x hx with rfl | rfl <;> cases heq
    have hins : rest.filterMap (insertedPkt direction d) = [] := by
      refine insertedPkt_eq_nil ?_
      intro x hx id heq
      rcases hrest x hx with rfl | rfl <;> cases heq
    have hlast : directed d [pkt] =
        (SocketEvent.queued c.pendingPkt.id :: rest).filterMap (insertedPkt direction d) := by
      simp only [directed, List.filterMap_cons, List.filterMap_nil, hins, hpid, hin, insertedPkt, hid, hdir,
        Option.some.injEq]
    show _ = _ ++ directed d (s.packetsToInject ++ so.pendingQueue)
    rw [hinj, List.nil_append, hqueue, ← List.append_assoc, ← hlast]
    exact directed_append.symm
  | send =>
    refine hkeeps ?_ ?_ rfl
    all_goals split <;> simp
  | noSend => exact hkeeps (by simp) (by simp) rfl
  | finish => exact hkeeps (by simp) (by simp) rfl
  | @deliver _ queue _ _ _ hdeliver =>
    refine hkeeps ?_ ?_ ?_
    · intro x hx id heq
      have hreport := hdeliver.reports x hx
      rw [heq] at hreport
      cases hreport
    · intro x hx id b error heq
      have hreport := hdeliver.reports x hx
      rw [heq] at hreport
      cases hreport
    · show directed d (s.packetsToInject ++ queue) = _
      rw [directed_append, directed_append,
        directed_of_forall₂ (fun _ _ h => ⟨h.id, h.dataInbound⟩) hdeliver.pkts]
  | @property _ queue _ hp =>
    refine hkeeps (by simp) (by simp) ?_
    show directed d (s.packetsToInject ++ queue) = _
    rw [directed_append, directed_append, directed_property hp]
  | @collect injectType clock rest taken hnone _ =>
    refine hkeeps (by simp) (by simp) ?_
    have horder := collectLoop_order (d := d) injectType clock s.so.pendingQueue
    rw [SocketState.collect_eq hnone hs] at horder
    show directed d (taken ++ rest) = _
    rw [directed_append, horder, SocketState.packetsToInject, hnone]
    rfl
  | @inject uninitialised result pkt rest freeMbufs _ hi he =>
    have hitems : s.packetsToInject = pkt :: rest := by rw [SocketState.packetsToInject, hi]; rfl
    obtain ⟨-, rfl⟩ := Prod.mk.inj he
    have hins : (if s.so.f_sock_evt_disconnecting || !pkt.allowData then []
        else [SocketEvent.injected pkt.id pkt.dataInbound result]).filterMap (insertedPkt direction d) = [] := by
      split <;> rfl
    rw [hins, hitems, List.append_nil, List.cons_append, directed_cons]
    refine congrArg (· ++ _) ?_
    by_cases hd : pkt.dataInbound = d
    · -- connected and permitted, so it is injected
      have hallow := hP.toInject pkt (hitems ▸ List.mem_cons_self ..) hd
      simp [hP.connected, hallow, injectedPkt, hd]
    · rw [if_neg hd]
      split
      · rfl
      · simp [injectedPkt, hd]
  | freeMbufs hi =>
    refine hkeeps (by simp) (by simp) ?_
    rw [SocketState.packetsToInject, SocketState.packetsToInject, hi]
    rfl
  | account hi hsame =>
    refine hkeeps (by simp) (by simp) ?_
    rw [SocketState.packetsToInject, SocketState.packetsToInject, hi, hsame.queue]
    rfl
  | unlock hi =>
    refine hkeeps (by simp) (by simp) ?_
    rw [SocketState.packetsToInject, SocketState.packetsToInject, hi]
    rfl
  | @purge purgeType so purged hnone hpurged hq =>
    have hcover : purgeType.covers d = false := ha
    refine hkeeps ?_ (purged_notInjected purged) ?_
    · intro x hx id heq
      rcases purgeEvents_inv hx with ⟨w, rfl⟩ | ⟨pkt, -, rfl | rfl⟩
      all_goals cases heq
    · show directed d (s.packetsToInject ++ so.pendingQueue) = _
      rw [hq, directed_append, directed_append, directed_filter]
      intro pkt _ hd
      rw [hd, hcover]
      rfl

end NkeFilter
