import NkeFilter.SocketMachine
import NkeFilter.Lib.Fifo

/-!
# The order of injections

The packets of one direction that are still to be injected, those in `packetsToInject` before those in the
pending queue, form a queue that may lose packets: `reinjectDeferredData` takes a direction out of the pending
queue from its front (`collectLoop_order`), whatever it skips of the other one, and has `injectionMutex` until
the last packet is handled. So in every run the packets of a direction are injected in the order they were
inserted in.
-/

namespace NkeFilter
open Lib NkeSocketObject

/-- The direction of the packet with number `id`, from what was captured. -/
def capturedDirection (as : List SocketLabel) (id : Nat) : Option Bool :=
  (as.filterMap SocketLabel.capturedInbound)[id]?

/-- What is captured next has the direction `direction` gives it. -/
def CapturesAs (direction : Nat → Option Bool) (s : SocketState) (a : SocketLabel) : Prop :=
  ∀ dataInbound, a.capturedInbound = some dataInbound → direction s.captures = some dataInbound

/-- The packet that is inserted in `pendingQueue`, when it has this direction. -/
def insertedPkt (direction : Nat → Option Bool) (dataInbound : Bool) : SocketEvent → Option Nat
  | .queued id => if direction id = some dataInbound then some id else none
  | _ => none

/-- The packet that is passed to the injection function of this direction. -/
def injectedPkt (dataInbound : Bool) : SocketEvent → Option Nat
  | .injected id inbound _ => if inbound = dataInbound then some id else none
  | _ => none

/-- The packets of one direction, in order. -/
def directed (dataInbound : Bool) (l : List PendingPktQueueItem) : List Nat :=
  l.filterMap fun pkt => if pkt.dataInbound = dataInbound then some pkt.id else none

def SocketState.packetsToInject (s : SocketState) : List PendingPktQueueItem :=
  (s.injection.map (·.packetsToInject)).getD []

/-- The packets that are not in the queue yet have the directions they were captured with. -/
def DirectedCalls (direction : Nat → Option Bool) (s : SocketState) : Prop :=
  ∀ id c, s.calls id = .captured c ∨ s.calls id = .copied c →
    c.pendingPkt.id = id ∧ direction id = some c.pendingPkt.dataInbound

variable {s s' : SocketState} {a : SocketLabel} {as : List SocketLabel} {h e : List SocketEvent} {id : Nat}
  {so : NkeSocketObject} {pkt : PendingPktQueueItem} {queue rest taken : List PendingPktQueueItem}
  {d : Bool} {direction : Nat → Option Bool}

theorem along_capturesAs (pre : List Bool) (hpre : pre.length = s.captures) :
    socketMachine.Along (CapturesAs fun id => (pre ++ as.filterMap SocketLabel.capturedInbound)[id]?) s as := by
  induction as generalizing s pre with
  | nil => trivial
  | cons a as ih =>
    refine ⟨?_, ?_⟩
    · intro inbound ha
      simp [ha, ← hpre]
    · intro s' e hs
      rcases SocketState.capture_inv hs with
        ⟨ha, hcap⟩ | ⟨mbufData, mbufControl, flags, inbound, now, rfl, _, rfl⟩
      · have := ih pre (hpre.trans hcap.symm)
        rwa [List.filterMap_cons_none ha]
      · have hlen : (pre ++ [inbound]).length = s.captures + 1 := by simp [hpre]
        have hfirst : (SocketLabel.capture mbufData mbufControl flags inbound true now).capturedInbound =
          some inbound := rfl
        rw [List.filterMap_cons_some hfirst, ← List.singleton_append, ← List.append_assoc]
        exact ih (pre ++ [inbound]) hlen

theorem along_capturedDirection {socketId : NkeSocketID} {size : Nat} :
    socketMachine.Along (CapturesAs (capturedDirection as)) (SocketState.start socketId size) as :=
  along_capturesAs [] rfl

/-! ### Directions -/

@[simp] theorem directed_append : directed d (queue ++ rest) = directed d queue ++ directed d rest :=
  List.filterMap_append

theorem directed_cons :
    directed d (pkt :: rest) = (if pkt.dataInbound = d then [pkt.id] else []) ++ directed d rest := by
  unfold directed
  by_cases hd : pkt.dataInbound = d
  · simp [hd]
  · simp [hd]

theorem directed_sublist (hsub : rest.Sublist queue) : (directed d rest).Sublist (directed d queue) :=
  hsub.filterMap _

theorem directed_of_forall₂ {R : PendingPktQueueItem → PendingPktQueueItem → Prop}
    (hR : ∀ pkt pkt', R pkt pkt' → pkt'.id = pkt.id ∧ pkt'.dataInbound = pkt.dataInbound)
    (hl : List.Forall₂ R queue rest) : directed d rest = directed d queue := by
  induction hl with
  | nil => rfl
  | cons hpkt _ ih =>
    obtain ⟨hid, hin⟩ := hR _ _ hpkt
    rw [directed_cons, directed_cons, hid, hin, ih]

theorem directed_property {property : NkeSocketDataProperty} {reached : Option PendingPktQueueItem}
    (hp : PropertyEnd property queue (rest, reached)) : directed d rest = directed d queue := by
  cases hp with
  | none => rfl
  | @applied pre post pkt =>
    obtain ⟨_, _, heq⟩ := setProperty_eq pkt property
    simp only [directed_append, directed_cons, heq]

theorem directed_eq_nil (hl : ∀ pkt ∈ queue, pkt.dataInbound ≠ d) : directed d queue = [] := by
  refine List.filterMap_eq_nil_iff.2 ?_
  intro pkt hp
  rw [if_neg (hl pkt hp)]

theorem Delivered.dataInbound {pkt' : PendingPktQueueItem} (hd : Delivered e pkt pkt') :
    pkt'.dataInbound = pkt.dataInbound := by
  cases hd <;> rfl

theorem isDeadlineTimerExpired_direction (pkt : PendingPktQueueItem) (now : UInt64) :
    (pkt.isDeadlineTimerExpired now).2.id = pkt.id ∧
      (pkt.isDeadlineTimerExpired now).2.dataInbound = pkt.dataInbound := by
  rw [isDeadlineTimerExpired_snd]
  exact ⟨rfl, rfl⟩

theorem collectLoop_covers (injectType : NkeSocketDataDirectionType) (clock : Nat → UInt64)
    (queue : List PendingPktQueueItem) :
    ∀ pkt ∈ (collectLoop injectType clock queue).2, injectType.covers pkt.dataInbound := by
  induction queue generalizing clock with
  | nil => exact fun _ h => by cases h
  | cons pkt rest ih =>
    unfold collectLoop
    by_cases hcov : injectType.covers pkt.dataInbound
    · simp only [hcov, Bool.not_true, Bool.false_eq_true, if_false]
      split
      · exact fun _ h => by cases h
      · split
        · exact fun _ h => by cases h
        · intro pkt' hp
          rcases List.mem_cons.1 hp with rfl | hp
          · rw [(isDeadlineTimerExpired_direction _ _).2]
            exact hcov
          · exact ih _ pkt' hp
    · simp only [hcov, Bool.not_false, if_true]
      exact ih _

/-- A direction is taken out of the queue from its front. -/
theorem collectLoop_order (injectType : NkeSocketDataDirectionType) (clock : Nat → UInt64)
    (queue : List PendingPktQueueItem) :
    directed d (collectLoop injectType clock queue).2 ++ directed d (collectLoop injectType clock queue).1 =
      directed d queue := by
  induction queue generalizing clock with
  | nil => rfl
  | cons pkt rest ih =>
    have hsame := isDeadlineTimerExpired_direction pkt (clock 0)
    have htaken := collectLoop_covers injectType (fun i => clock (i + 1)) rest
    unfold collectLoop
    by_cases hcov : injectType.covers pkt.dataInbound
    · simp only [hcov, Bool.not_true, Bool.false_eq_true, if_false]
      split
      · rfl
      · split
        · simp only [directed_cons, hsame]
          rfl
        · simp only [directed_cons, hsame, List.append_assoc, ih]
    · simp only [hcov, Bool.not_false, if_true]
      by_cases hd : pkt.dataInbound = d
      · -- of a direction that is passed over nothing is taken
        have hnone : directed d (collectLoop injectType (fun i => clock (i + 1)) rest).2 = [] :=
          directed_eq_nil fun pkt' hp heq => hcov (hd ▸ heq ▸ htaken pkt' hp)
        have := ih fun i => clock (i + 1)
        rw [hnone] at this ⊢
        rw [directed_cons, directed_cons, ← this]
        rfl
      · rw [directed_cons, directed_cons, if_neg hd]
        exact ih _

theorem QueueEnd.queued_first {c c' : FltDataCall} {so' : NkeSocketObject} (hq : QueueEnd so c (so', c', e)) :
    ∃ rest, e = .queued c.pendingPkt.id :: rest ∧ ∀ x ∈ rest, x = .setRcvBuf 1 ∨ x = .enlisted := by
  cases hq with
  | posted => exact ⟨[], rfl, fun _ h => by cases h⟩
  | postponed _ _ _ _ _ _ _ _ _ _ _ hevents => exact ⟨_, rfl, hevents⟩

theorem queuePkt_last (so : NkeSocketObject) (c : FltDataCall) :
    ∃ pkt, (so.queuePkt c).1.pendingQueue = so.pendingQueue ++ [pkt] ∧ pkt.id = c.pendingPkt.id ∧
      pkt.dataInbound = c.pendingPkt.dataInbound := by
  unfold queuePkt
  by_cases hp : c.error ≠ KERN_SUCCESS ∨ so.packetsWaitingForReporting ≠ 0
  · simp only [if_pos hp]
    exact ⟨_, rfl, rfl, rfl⟩
  · simp only [if_neg hp]
    exact ⟨_, rfl, rfl, rfl⟩

/-! ### What a step keeps -/

theorem DirectedCalls.step (hD : DirectedCalls direction s) (ha : CapturesAs direction s a)
    (hs : socketMachine.step s a = some (s', e)) : DirectedCalls direction s' := by
  have hcall : ∀ {id phase}, (∀ c, phase = .captured c ∨ phase = .copied c →
      c.pendingPkt.id = id ∧ direction id = some c.pendingPkt.dataInbound) →
      DirectedCalls direction (s.setCall id phase) := by
    intro id phase hphase id' c hc
    rcases s.setCall_inv id phase id' with ⟨rfl, hp⟩ | ⟨-, hp⟩
    · exact hphase c (hp ▸ hc)
    · exact hD id' c (hp ▸ hc)
  cases SocketState.step_inv hs with
  | capture =>
    obtain ⟨_, _, _, inbound, _, rfl, rfl⟩ := SocketState.capturedPkt_eq hs
    refine hcall ?_
    intro c hc
    rcases hc with hc | hc <;> cases hc
    exact ⟨rfl, ha inbound rfl⟩
  | @copy id error buffers c hc =>
    refine hcall ?_
    intro c' hc'
    have hbefore := hD id c (.inl hc)
    rcases hc' with hc' | hc' <;> cases hc'
    split
    · exact hbefore
    · unfold FltDataCall.copied
      split <;> exact hbefore
  | queue => exact hcall (by simp)
  | send => exact hcall (by simp)
  | noSend => exact hcall (by simp)
  | finish => exact hcall (by simp)
  | _ => exact hD

/-- What is still to be injected in one direction. -/
structure ToInject (direction : Nat → Option Bool) (d : Bool) (s : SocketState) (items : List Nat) : Prop where
  calls : DirectedCalls direction s
  items_eq : items = directed d (s.packetsToInject ++ s.so.pendingQueue)

theorem injectedPkt_eq_nil (he : ∀ x ∈ e, ∀ id b error, x ≠ .injected id b error) :
    e.filterMap (injectedPkt d) = [] := by
  refine List.filterMap_eq_nil_iff.2 ?_
  intro x hx
  cases x with
  | injected id b error => exact absurd rfl (he _ hx id b error)
  | _ => rfl

theorem purged_notInjected (purged : List PendingPktQueueItem) :
    ∀ x ∈ purged.flatMap purgeEvents, ∀ id b error, x ≠ .injected id b error := by
  intro x hx id b error heq
  rcases purgeEvents_inv hx with ⟨w, rfl⟩ | ⟨pkt, -, rfl | rfl⟩
  all_goals cases heq

theorem toInject_isLossyFifo (direction : Nat → Option Bool) (d : Bool) :
    socketMachine.IsLossyFifo (CapturesAs direction) (ToInject direction d) (insertedPkt direction d)
      (injectedPkt d) := by
  rintro s a s' e items ⟨hD, rfl⟩ ha hs
  refine ⟨_, ⟨hD.step ha hs, rfl⟩, ?_⟩
  -- a step that injects nothing and keeps what is to be injected, up to losses
  have hkeeps : (∀ x ∈ e, ∀ id b error, x ≠ .injected id b error) →
      (directed d (s'.packetsToInject ++ s'.so.pendingQueue)).Sublist
        (directed d (s.packetsToInject ++ s.so.pendingQueue)) →
      (e.filterMap (injectedPkt d) ++ directed d (s'.packetsToInject ++ s'.so.pendingQueue)).Sublist
        (directed d (s.packetsToInject ++ s.so.pendingQueue) ++ e.filterMap (insertedPkt direction d)) := by
    intro he hsub
    rw [injectedPkt_eq_nil he, List.nil_append]
    exact hsub.trans (List.sublist_append_left ..)
  cases SocketState.step_inv hs with
  | quiet hsame =>
    refine hkeeps (by simp) ?_
    rw [hsame.queue]
    exact .refl _
  | capture _ _ _ _ _ hq =>
    refine hkeeps (by simp) ?_
    rw [hq]
    exact .refl _
  | copy => exact hkeeps (by simp) (.refl _)
  | @queue id c so c' _ hc hq =>
    obtain ⟨hid, hdir⟩ := hD id c (.inr hc)
    obtain ⟨pkt, hqueue, hpid, hin⟩ := queuePkt_last s.so c
    rw [SocketState.queue_eq hc hs] at hqueue
    obtain ⟨rest, rfl, hrest⟩ := hq.queued_first
    have hout : (SocketEvent.queued c.pendingPkt.id :: rest).filterMap (injectedPkt d) = [] := by
      refine injectedPkt_eq_nil ?_
      intro x hx id b error heq
      rcases List.mem_cons.1 hx with rfl | hx
      · cases heq
      · rcases hrest x hx with rfl | rfl <;> cases heq
    have hins : directed d [pkt] = [SocketEvent.queued c.pendingPkt.id].filterMap (insertedPkt direction d) := by
      simp only [directed, List.filterMap_cons, List.filterMap_nil, hpid, hin, insertedPkt, hid, hdir,
        Option.some.injEq]
    show (_ ++ directed d (s.packetsToInject ++ so.pendingQueue)).Sublist _
    rw [hout, List.nil_append, hqueue, ← List.append_assoc, directed_append]
    refine List.Sublist.append_left ?_ _
    rw [hins]
    exact ((List.nil_sublist rest).cons_cons _).filterMap _
  | send =>
    refine hkeeps ?_ (.refl _)
    split <;> simp
  | noSend => exact hkeeps (by simp) (.refl _)
  | finish => exact hkeeps (by simp) (.refl _)
  | @deliver _ queue _ _ _ hd =>
    refine hkeeps ?_ ?_
    · intro x hx id b error heq
      have hreport := hd.reports x hx
      rw [heq] at hreport
      cases hreport
    · show (directed d (s.packetsToInject ++ queue)).Sublist _
      rw [directed_append, directed_append,
        directed_of_forall₂ (fun _ _ h => ⟨h.id, h.dataInbound⟩) hd.pkts]
  | @property _ queue _ hp =>
    refine hkeeps (by simp) ?_
    show (directed d (s.packetsToInject ++ queue)).Sublist _
    rw [directed_append, directed_append, directed_property hp]
  | @collect injectType clock rest taken hnone _ =>
    refine hkeeps (by simp) ?_
    have horder := collectLoop_order (d := d) injectType clock s.so.pendingQueue
    rw [SocketState.collect_eq hnone hs] at horder
    show (directed d (taken ++ rest)).Sublist _
    rw [directed_append, horder, SocketState.packetsToInject, hnone]
    exact .refl _
  | @inject uninitialised result pkt rest freeMbufs _ hi he =>
    show (_ ++ directed d (rest ++ s.so.pendingQueue)).Sublist _
    rw [SocketState.packetsToInject, hi]
    show List.Sublist _ (directed d (pkt :: (rest ++ s.so.pendingQueue)) ++ _)
    refine List.Sublist.trans ?_ (List.sublist_append_left ..)
    rw [directed_cons]
    refine List.Sublist.append_right ?_ _
    unfold inject at he
    obtain ⟨-, rfl⟩ := Prod.mk.inj he
    split
    · exact List.nil_sublist _
    · by_cases hd : pkt.dataInbound = d
      · simp [injectedPkt, hd]
      · simp [injectedPkt, hd]
  | freeMbufs hi =>
    refine hkeeps (by simp) ?_
    rw [SocketState.packetsToInject, SocketState.packetsToInject, hi]
    exact .refl _
  | account hi hsame =>
    refine hkeeps (by simp) ?_
    rw [SocketState.packetsToInject, SocketState.packetsToInject, hi, hsame.queue]
    exact .refl _
  | unlock hi =>
    refine hkeeps (by simp) ?_
    rw [SocketState.packetsToInject, SocketState.packetsToInject, hi]
    exact .refl _
  | @purge _ so purged _ hpurged hq =>
    refine hkeeps (purged_notInjected purged) ?_
    show (directed d (s.packetsToInject ++ so.pendingQueue)).Sublist _
    rw [hq]
    exact directed_sublist (List.filter_sublist.append_left _)

/-! ### The result -/

/-- In every run of the threads of one socket the packets passed to the injection function of a direction are
a subsequence of the packets of that direction that were inserted in `pendingQueue`. -/
theorem injected_inOrder {socketId : NkeSocketID} {size : Nat}
    (hr : socketMachine.run (SocketState.start socketId size) as = some (s, h)) (dataInbound : Bool) :
    (h.filterMap (injectedPkt dataInbound)).Sublist
      (h.filterMap (insertedPkt (capturedDirection as) dataInbound)) := by
  have hstart : ToInject (capturedDirection as) dataInbound (SocketState.start socketId size) [] := by
    refine ⟨?_, rfl⟩
    intro id c hc
    rcases hc with hc | hc <;> cases hc
  obtain ⟨items, -, hsub⟩ := (toInject_isLossyFifo (capturedDirection as) dataInbound).run hstart
    along_capturedDirection hr
  exact (List.sublist_append_left ..).trans hsub

/-- Two packets of a direction, answered in the other order. -/
def answeredBackwards : List SocketLabel :=
  [.capture [⟨[7], some ⟨1, none, []⟩, none⟩] [] 0 true true 0, .copy 0 KERN_SUCCESS [0], .queue 0,
    .capture [⟨[8], some ⟨1, none, []⟩, none⟩] [] 0 true true 0, .copy 1 KERN_SUCCESS [1], .queue 1,
    .property ⟨.NkeSocketDataPropertyTypePermission, 1, ⟨1, 1⟩, 1⟩,
    .property ⟨.NkeSocketDataPropertyTypePermission, 0, ⟨1, 1⟩, 1⟩,
    .collect .NkeSocketDataAll (fun _ => 0), .inject 0 KERN_SUCCESS, .account, .inject 0 KERN_SUCCESS]

theorem answeredBackwards_inOrder :
    ∃ s h, socketMachine.run (SocketState.start ⟨1, 1⟩ 65536) answeredBackwards = some (s, h) ∧
      h.filterMap (injectedPkt true) = [0, 1] ∧
      (h.filterMap (injectedPkt true)).Sublist
        (h.filterMap (insertedPkt (capturedDirection answeredBackwards) true)) := by
  obtain ⟨s, h, hr, hi⟩ : ∃ s h, socketMachine.run (SocketState.start ⟨1, 1⟩ 65536) answeredBackwards =
      some (s, h) ∧ h.filterMap (injectedPkt true) = [0, 1] := ⟨_, _, rfl, rfl⟩
  exact ⟨s, h, hr, hi, injected_inOrder hr true⟩

end NkeFilter
