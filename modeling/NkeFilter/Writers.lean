import NkeFilter.QueueShape

/-!
# Blocked writers

An outbound `FltData` call whose packet was postponed waits until its `WaitEntry`, which lies on its own
stack, is satisfied. The packet is the only reference to that entry. Over any run every entry a call waits
on is referenced by exactly one packet of the queue, and every reference goes from a marked outbound packet
to a call that has not returned: what leaves `waitEntries` of the queue was woken up
(`deliverLoop_wakeups`, `purged_wakeups`), and what is collected has no entry.
-/

namespace NkeFilter
open Lib NkeSocketObject

/-- The wait entries the packets refer to. -/
def waitEntries (l : List PendingPktQueueItem) : List Nat := l.filterMap (·.waitEntry)

/-- The entry that is satisfied. -/
def SocketEvent.wakes : SocketEvent → Option Nat
  | .wakeup w => some w
  | _ => none

def wakeups (e : List SocketEvent) : List Nat := e.filterMap SocketEvent.wakes

namespace SocketState

/-- The call of `FltData` waits for its entry once its packet is in the queue. -/
def waits (s : SocketState) (id : Nat) : Prop :=
  ∃ c, (s.calls id = .queued c ∨ s.calls id = .sent c) ∧ c.wait

/-- It loops until the entry is satisfied. -/
def blocked (s : SocketState) (id : Nat) : Prop := s.waits id ∧ s.waitSatisfied id = false

/-- The packets of the thread that reinjects. -/
def beingInjected (s : SocketState) : List PendingPktQueueItem := match s.injection with
  | none => []
  | some ⟨rest, none⟩ => rest
  | some ⟨rest, some (.toFree pkt)⟩ | some ⟨rest, some (.toAccount pkt)⟩ => pkt :: rest

end SocketState

/-- Every entry a call loops on is referenced once, and every reference is one to an entry a call loops on. -/
structure Waiting (s : SocketState) : Prop where
  nodup : (waitEntries s.so.pendingQueue).Nodup
  blocked : ∀ w, w ∈ waitEntries s.so.pendingQueue ↔ s.blocked w
  marked : ∀ pkt ∈ s.so.pendingQueue, ∀ w, pkt.waitEntry = some w →
    w = pkt.id ∧ pkt.dataInbound = false ∧ pkt.needToBeReported
  unsatisfied : ∀ id, (s.calls id).published = false → s.waitSatisfied id = false
  unqueued : ∀ id c, s.calls id = .captured c ∨ s.calls id = .copied c →
    c.wait = false ∧ c.pendingPkt.waitEntry = none
  taken : ∀ pkt ∈ s.beingInjected, pkt.waitEntry = none

variable {s s' : SocketState} {a : SocketLabel} {h e : List SocketEvent} {id w : Nat} {so : NkeSocketObject}
  {pkt : PendingPktQueueItem} {queue rest taken : List PendingPktQueueItem}

theorem waiting_start {socketId : NkeSocketID} {size : Nat} : Waiting (SocketState.start socketId size) := by
  refine ⟨List.nodup_nil, ?_, fun _ h => (by cases h), fun _ _ => rfl, ?_, fun _ h => (by cases h)⟩
  · intro w
    refine ⟨fun h => (by cases h), ?_⟩
    rintro ⟨⟨c, hc | hc, -⟩, -⟩ <;> cases hc
  · intro id c hc
    rcases hc with hc | hc <;> cases hc

/-! ### What a region wakes up -/

@[simp] theorem wakeups_append {e' : List SocketEvent} : wakeups (e ++ e') = wakeups e ++ wakeups e' :=
  List.filterMap_append

@[simp] theorem waitEntries_append : waitEntries (queue ++ rest) = waitEntries queue ++ waitEntries rest :=
  List.filterMap_append

theorem waitEntries_cons : waitEntries (pkt :: rest) = pkt.waitEntry.toList ++ waitEntries rest := by
  unfold waitEntries
  cases hw : pkt.waitEntry <;> simp [hw]

theorem mem_waitEntries : w ∈ waitEntries queue ↔ ∃ pkt ∈ queue, pkt.waitEntry = some w :=
  List.mem_filterMap

theorem mem_wakeups : w ∈ wakeups e ↔ .wakeup w ∈ e := by
  unfold wakeups
  rw [List.mem_filterMap]
  constructor
  · rintro ⟨x, hx, hw⟩
    cases x <;> cases hw
    exact hx
  · exact fun hx => ⟨_, hx, rfl⟩

theorem satisfyWait_wakeups (pkt : PendingPktQueueItem) :
    wakeups pkt.satisfyWait.2 = pkt.waitEntry.toList := by
  unfold PendingPktQueueItem.satisfyWait
  split
  · rename_i hw
    rw [hw]
    rfl
  · rename_i w hw
    rw [hw]
    rfl

theorem report_wakeups (so : NkeSocketObject) (pkt : PendingPktQueueItem) (o : ReportOutcome)
    (l : DeliverLocals) : wakeups (so.report pkt o l).2 = [] := by
  unfold report
  split
  · rfl
  · split
    · rfl
    · split <;> rfl

theorem reported_wakeups (so : NkeSocketObject) (pkt : PendingPktQueueItem) :
    wakeups (so.reported pkt).2.2 = pkt.waitEntry.toList := by
  have hrest : wakeups (if pkt.dataInbound then [.setRcvBuf so.origReceiveBufferSize] else []) = [] := by
    split <;> rfl
  simp only [reported, wakeups_append, satisfyWait_wakeups, satisfyWait_fst, hrest, List.append_nil]

/-- A delivery wakes up exactly the entries that are no longer referenced. -/
theorem deliverLoop_wakeups (outcome : Nat → ReportOutcome) (queue : List PendingPktQueueItem)
    (so : NkeSocketObject) (l : DeliverLocals) :
    (wakeups (deliverLoop outcome queue so l).2.2.2 ++ waitEntries (deliverLoop outcome queue so l).1).Perm
      (waitEntries queue) := by
  induction queue generalizing outcome so l with
  | nil => exact .refl _
  | cons pkt rest ih =>
    unfold deliverLoop
    by_cases hneed : pkt.needToBeReported
    · simp only [hneed, Bool.not_true, Bool.false_eq_true, if_false]
      have hsent := report_wakeups so pkt (outcome 0) l
      generalize so.report pkt (outcome 0) l = r at hsent
      obtain ⟨l₁, sent⟩ := r
      -- the packet is reported, as `pkt'`, and the loop goes on
      have hgoes : ∀ pkt', pkt'.waitEntry = pkt.waitEntry →
          (wakeups (sent ++ (so.reported pkt').2.2 ++
            (deliverLoop (fun i => outcome (i + 1)) rest (so.reported pkt').2.1 l₁).2.2.2) ++
          waitEntries ((so.reported pkt').1 ::
            (deliverLoop (fun i => outcome (i + 1)) rest (so.reported pkt').2.1 l₁).1)).Perm
              (waitEntries (pkt :: rest)) := by
        intro pkt' hw
        simp only [wakeups_append, hsent, reported_wakeups, reported_fst, waitEntries_cons, hw,
          Option.toList_none, List.nil_append, List.append_assoc]
        exact (ih _ _ _).append_left _
      by_cases he : l₁.error = KERN_SUCCESS
      · simpa [he] using hgoes pkt rfl
      · cases hexp : (pkt.isDeadlineTimerExpired (outcome 0).now).1
        · simp [he, hexp, isDeadlineTimerExpired_not hexp, hsent]
        · simpa [he, hexp] using
            hgoes { (pkt.isDeadlineTimerExpired (outcome 0).now).2 with allowData := false }
              (by rw [isDeadlineTimerExpired_snd])
    · rw [if_pos (by simpa using hneed)]
      simp only [waitEntries_cons]
      refine (List.perm_append_comm_assoc ..).trans ?_
      exact (ih _ _ _).append_left _

theorem purged_wakeups (purged : List PendingPktQueueItem) :
    wakeups (purged.flatMap purgeEvents) = waitEntries purged := by
  induction purged with
  | nil => rfl
  | cons pkt rest ih =>
    have hpkt : wakeups (purgeEvents pkt) = pkt.waitEntry.toList := by
      rw [purgeEvents, wakeups_append, satisfyWait_wakeups]
      exact List.append_nil _
    rw [List.flatMap_cons, wakeups_append, ih, hpkt, waitEntries_cons]

/-- A postponed outbound packet refers to its call, which waits; nothing else does. -/
theorem queuePkt_waits (so : NkeSocketObject) (c : FltDataCall) (hw : c.wait = false)
    (hnone : c.pendingPkt.waitEntry = none) :
    ∃ pkt, (so.queuePkt c).1.pendingQueue = so.pendingQueue ++ [pkt] ∧
      wakeups (so.queuePkt c).2.2 = [] ∧
      (pkt.waitEntry = none ∧ (so.queuePkt c).2.1.wait = false ∨
        pkt.waitEntry = some c.pendingPkt.id ∧ pkt.id = c.pendingPkt.id ∧ pkt.dataInbound = false ∧
          pkt.needToBeReported ∧ (so.queuePkt c).2.1.wait) := by
  unfold queuePkt
  by_cases hp : c.error ≠ KERN_SUCCESS ∨ so.packetsWaitingForReporting ≠ 0
  · simp only [if_pos hp]
    refine ⟨_, rfl, ?_, ?_⟩
    · rw [wakeups_append, wakeups_append]
      split <;> split <;> rfl
    · cases hin : c.pendingPkt.dataInbound
      · exact .inr ⟨rfl, rfl, rfl, rfl, rfl⟩
      · exact .inl ⟨rfl, rfl⟩
  · simp only [if_neg hp]
    exact ⟨_, rfl, rfl, .inl ⟨hnone, hw⟩⟩

/-! ### What a step keeps -/

theorem published_of_waits (hw : s.waits id) : (s.calls id).published := by
  obtain ⟨c, hc | hc, -⟩ := hw
  · rw [hc]
    rfl
  · rw [hc]
    rfl

theorem waits_congr (hcall : s'.calls w = s.calls w) : s'.waits w ↔ s.waits w := by
  unfold SocketState.waits
  rw [hcall]

theorem Waiting.call {phase : CallPhase} (hW : Waiting s)
    (hblocked : (s.setCall id phase).blocked id ↔ s.blocked id)
    (hsat : phase.published = false → s.waitSatisfied id = false)
    (hphase : ∀ c, phase = .captured c ∨ phase = .copied c → c.wait = false ∧ c.pendingPkt.waitEntry = none) :
    Waiting (s.setCall id phase) := by
  refine ⟨hW.nodup, ?_, hW.marked, ?_, ?_, hW.taken⟩
  · intro w
    refine (hW.blocked w).trans ?_
    by_cases hne : w = id
    · subst hne
      exact hblocked.symm
    · exact and_congr_left' (waits_congr (SocketState.setCall_of_ne hne)).symm
  · intro id' hp
    rcases s.setCall_inv id phase id' with ⟨rfl, hcall⟩ | ⟨-, hcall⟩
    · exact hsat (hcall ▸ hp)
    · exact hW.unsatisfied id' (hcall ▸ hp)
  · intro id' c hc
    rcases s.setCall_inv id phase id' with ⟨-, hcall⟩ | ⟨-, hcall⟩
    · exact hphase c (hcall ▸ hc)
    · exact hW.unqueued id' c (hcall ▸ hc)

/-- The regions on the queue: what they wake up leaves the entries referenced. -/
theorem Waiting.requeue (hW : Waiting s) (hcalls : s'.calls = s.calls)
    (hsat : s'.waitSatisfied = s.woken e)
    (hperm : (wakeups e ++ waitEntries s'.so.pendingQueue).Perm (waitEntries s.so.pendingQueue))
    (hmarked : ∀ pkt' ∈ s'.so.pendingQueue, ∀ w, pkt'.waitEntry = some w → ∃ pkt ∈ s.so.pendingQueue,
      pkt.waitEntry = some w ∧ pkt'.id = pkt.id ∧ pkt'.dataInbound = pkt.dataInbound ∧
        pkt'.needToBeReported = pkt.needToBeReported)
    (htaken : ∀ pkt ∈ s'.beingInjected, pkt.waitEntry = none) : Waiting s' := by
  have hnodup : (wakeups e ++ waitEntries s'.so.pendingQueue).Nodup := hperm.nodup_iff.2 hW.nodup
  have hwoken : ∀ w, s'.waitSatisfied w = false ↔ s.waitSatisfied w = false ∧ w ∉ wakeups e := by
    intro w
    rw [hsat, SocketState.woken, Bool.or_eq_false_iff, decide_eq_false_iff_not, mem_wakeups]
  have hwaits : ∀ w, s'.waits w ↔ s.waits w := fun w => waits_congr (congrFun hcalls w)
  have hmem : ∀ w, w ∈ waitEntries s.so.pendingQueue ↔
      w ∈ wakeups e ∨ w ∈ waitEntries s'.so.pendingQueue := fun w => by
    rw [← hperm.mem_iff, List.mem_append]
  refine ⟨List.Nodup.of_append_right hnodup, ?_, ?_, ?_, hcalls ▸ hW.unqueued, htaken⟩
  · intro w
    rw [SocketState.blocked, hwaits, hwoken]
    constructor
    · intro hw
      obtain ⟨hwaits, hsat⟩ := (hW.blocked w).1 ((hmem w).2 (.inr hw))
      exact ⟨hwaits, hsat, fun hw' => List.disjoint_of_nodup_append hnodup hw' hw⟩
    · rintro ⟨hwaits, hsat, hnot⟩
      exact ((hmem w).1 ((hW.blocked w).2 ⟨hwaits, hsat⟩)).resolve_left hnot
  · intro pkt' hp w hw
    obtain ⟨pkt, hp, hw, hid, hin, hneed⟩ := hmarked pkt' hp w hw
    rw [hid, hin, hneed]
    exact hW.marked pkt hp w hw
  · intro id hp
    rw [hcalls] at hp
    refine (hwoken id).2 ⟨hW.unsatisfied id hp, ?_⟩
    intro hw
    have := published_of_waits ((hW.blocked id).1 ((hmem id).2 (.inl hw))).1
    rw [hp] at this
    cases this

theorem woken_nil (he : wakeups e = []) : s.woken e = s.waitSatisfied := by
  funext w
  have hnot : .wakeup w ∉ e := fun hw => by
    rw [← mem_wakeups, he] at hw
    cases hw
  simp [SocketState.woken, hnot]

/-- A step that leaves the calls and the queue alone. -/
theorem Waiting.same (hW : Waiting s) (hcalls : s'.calls = s.calls)
    (hsat : s'.waitSatisfied = s.waitSatisfied) (hq : s'.so.pendingQueue = s.so.pendingQueue)
    (htaken : ∀ pkt ∈ s'.beingInjected, pkt ∈ s.beingInjected) : Waiting s' := by
  refine hW.requeue (e := []) hcalls (hsat.trans (woken_nil rfl).symm) (by rw [hq]; exact .refl _) ?_ ?_
  · intro pkt hp w hw
    exact ⟨pkt, hq ▸ hp, hw, rfl, rfl, rfl⟩
  · exact fun pkt hp => hW.taken pkt (htaken pkt hp)

theorem Waiting.queuePkt {c c' : FltDataCall} (hW : Waiting s) (hc : s.calls id = .copied c)
    (hid : c.pendingPkt.id = id) (hq : s.so.queuePkt c = (so, c', e)) :
    Waiting { s.setCall id (.queued c') with so } := by
  obtain ⟨hwait, hnone⟩ := hW.unqueued id c (.inr hc)
  have hunsat : s.waitSatisfied id = false := hW.unsatisfied id (by rw [hc]; rfl)
  have hnot : ¬ s.blocked id := by
    rintro ⟨⟨c, hc' | hc', -⟩, -⟩
    · rw [hc] at hc'
      cases hc'
    · rw [hc] at hc'
      cases hc'
  obtain ⟨pkt, hqueue, -, hcases⟩ := queuePkt_waits s.so c hwait hnone
  rw [hq, hid] at hcases
  rw [hq] at hqueue
  simp only at hqueue hcases
  have hself : ({ s.setCall id (.queued c') with so } : SocketState).blocked id ↔ c'.wait := by
    constructor
    · rintro ⟨⟨c₁, hc₁, hw⟩, -⟩
      simp only [SocketState.setCall, Function.update_self] at hc₁
      rcases hc₁ with hc₁ | hc₁ <;> cases hc₁
      exact hw
    · exact fun hw => ⟨⟨c', .inl (Function.update_self ..), hw⟩, hunsat⟩
  have hother : ∀ w, w ≠ id →
      (({ s.setCall id (.queued c') with so } : SocketState).blocked w ↔ s.blocked w) := by
    intro w hne
    exact and_congr_left' (waits_congr (SocketState.setCall_of_ne hne))
  have hentries : waitEntries so.pendingQueue = waitEntries s.so.pendingQueue ++ pkt.waitEntry.toList := by
    rw [hqueue, waitEntries_append, waitEntries_cons]
    exact congrArg _ (List.append_nil _)
  refine ⟨?_, ?_, ?_, ?_, ?_, hW.taken⟩
  · show (waitEntries so.pendingQueue).Nodup
    rw [hentries]
    rcases hcases with ⟨hw, -⟩ | ⟨hw, -⟩
    · rw [hw, Option.toList_none, List.append_nil]
      exact hW.nodup
    · rw [hw]
      refine List.nodup_append'.2 ⟨hW.nodup, List.nodup_singleton _, ?_⟩
      exact List.disjoint_singleton.2 fun hm => hnot ((hW.blocked id).1 hm)
  · intro w
    show w ∈ waitEntries so.pendingQueue ↔ _
    rw [hentries, List.mem_append, hW.blocked w]
    by_cases hne : w = id
    · subst hne
      rw [hself]
      rcases hcases with ⟨hw, hwait'⟩ | ⟨hw, -, -, -, hwait'⟩
      · simp [hw, hwait', hnot]
      · simp [hw, hwait']
    · rw [hother w hne]
      refine or_iff_left ?_
      rcases hcases with ⟨hw, -⟩ | ⟨hw, -⟩
      · simp [hw]
      · simp [hw, hne]
  · intro pkt' hp w hw
    rcases List.mem_append.1 (hqueue ▸ hp : pkt' ∈ s.so.pendingQueue ++ [pkt]) with hp | hp
    · exact hW.marked pkt' hp w hw
    · obtain rfl := List.mem_singleton.1 hp
      rcases hcases with ⟨hnone, -⟩ | ⟨hsome, hpid, hin, hneed, -⟩
      · rw [hnone] at hw
        cases hw
      · rw [hsome] at hw
        exact ⟨(Option.some.inj hw).symm.trans hpid.symm, hin, hneed⟩
  · intro id' hp
    by_cases hne : id' = id
    · exact hne ▸ hunsat
    · exact hW.unsatisfied id' (SocketState.setCall_of_ne hne ▸ hp)
  · intro id' c₁ hc₁
    rcases s.setCall_inv id (.queued c') id' with ⟨-, hcall⟩ | ⟨-, hcall⟩
    · rcases hc₁ with hc₁ | hc₁ <;> cases hcall.symm.trans hc₁
    · exact hW.unqueued id' c₁ (hc₁.imp hcall.symm.trans hcall.symm.trans)

theorem taken_noEntry (hW : Waiting s) (hc : CollectEnd s.so.pendingQueue (rest, taken)) :
    ∀ pkt ∈ taken, pkt.waitEntry = none := by
  obtain ⟨⟨seen, hseen, -, htaken, -⟩, hneeds⟩ := hc
  intro pkt' hp
  obtain ⟨pkt, hmem, b, rfl, -⟩ := exists_partner hseen (htaken.subset hp)
  rw [Option.eq_none_iff_forall_ne_some]
  intro w hw
  have hneed := (hW.marked pkt hmem w hw).2.2
  have hnot : pkt.needToBeReported = false := hneeds { pkt with deadlineTimerExpired := b } hp
  rw [hnot] at hneed
  cases hneed

theorem waitEntries_latched {seen : List PendingPktQueueItem} (hl : List.Forall₂ Latched queue seen) :
    waitEntries seen = waitEntries queue := by
  induction hl with
  | nil => rfl
  | cons hpkt _ ih =>
    obtain ⟨b, rfl, -⟩ := hpkt
    rw [waitEntries_cons, waitEntries_cons, ih]

theorem waitEntries_property {property : NkeSocketDataProperty} {reached : Option PendingPktQueueItem}
    (hp : PropertyEnd property queue (rest, reached)) : waitEntries rest = waitEntries queue := by
  cases hp with
  | none => rfl
  | @applied pre post pkt =>
    obtain ⟨_, _, heq⟩ := setProperty_eq pkt property
    simp only [waitEntries_append, waitEntries_cons, heq]

theorem Waiting.collect (hW : Waiting s) (hc : CollectEnd s.so.pendingQueue (rest, taken)) :
    Waiting { s with
      so := s.so.withQueue rest s.so.packetsWaitingForReporting, injection := some ⟨taken, none⟩ } := by
  have hnone := taken_noEntry hW hc
  obtain ⟨⟨seen, hseen, hrest, -, hperm⟩, -⟩ := hc
  refine hW.requeue (e := []) rfl (woken_nil rfl).symm ?_ ?_ hnone
  · show (waitEntries rest).Perm _
    have hout : waitEntries taken = [] := List.filterMap_eq_nil_iff.2 hnone
    have hpart : (waitEntries (taken ++ rest)).Perm (waitEntries seen) := hperm.filterMap _
    rwa [waitEntries_append, hout, List.nil_append, waitEntries_latched hseen] at hpart
  · intro pkt' hp w hw
    obtain ⟨pkt, hmem, b, rfl, -⟩ := exists_partner hseen (hrest.subset hp)
    exact ⟨pkt, hmem, hw, rfl, rfl, rfl⟩

theorem not_blocked (hp : (s.calls id).published = false) : ¬ s.blocked id := by
  intro hb
  have := published_of_waits hb.1
  rw [hp] at this
  cases this

theorem Waiting.unpublishedCall {phase : CallPhase} (hW : Waiting s) (hbefore : (s.calls id).published = false)
    (hafter : phase.published = false)
    (hphase : ∀ c, phase = .captured c ∨ phase = .copied c → c.wait = false ∧ c.pendingPkt.waitEntry = none) :
    Waiting (s.setCall id phase) := by
  have hself : ((s.setCall id phase).calls id).published = false := by
    simp only [SocketState.setCall, Function.update_self]
    exact hafter
  exact hW.call (iff_of_false (not_blocked hself) (not_blocked hbefore)) (fun _ => hW.unsatisfied id hbefore)
    hphase

/-- `FltData` goes on to send, or not to send, its notification. -/
theorem Waiting.sent {c c' : FltDataCall} (hW : Waiting s) (hc : s.calls id = .queued c)
    (hwait : c'.wait = c.wait) : Waiting (s.setCall id (.sent c')) := by
  refine hW.call ?_ (fun hp => (by cases hp)) (by simp)
  refine and_congr_left fun _ => ?_
  unfold SocketState.waits
  simp only [SocketState.setCall, Function.update_self, hc]
  constructor
  · rintro ⟨c₁, h | h, hw⟩ <;> cases h
    exact ⟨c, .inl rfl, hwait ▸ hw⟩
  · rintro ⟨c₁, h | h, hw⟩ <;> cases h
    exact ⟨c', .inr rfl, hwait ▸ hw⟩

theorem Delivered.waitEntry {pkt' : PendingPktQueueItem} (hd : Delivered e pkt pkt')
    (hw : pkt'.waitEntry = some w) : pkt' = pkt := by
  cases hd with
  | same => rfl
  | _ => cases hw

theorem Waiting.step (hW : Waiting s) (hC : Custody s h) (hs : socketMachine.step s a = some (s', e)) :
    Waiting s' := by
  cases SocketState.step_inv hs with
  | quiet hsame => exact hW.same rfl rfl hsame.queue fun _ h => h
  | @capture _ so pkt _ _ _ _ _ hq =>
    obtain ⟨_, _, _, _, _, -, rfl⟩ := SocketState.capturedPkt_eq hs
    have hnext : Waiting { s with so, captures := s.captures + 1 } := hW.same rfl rfl hq fun _ h => h
    show Waiting (SocketState.setCall { s with so, captures := s.captures + 1 } s.captures _)
    refine hnext.unpublishedCall (congrArg CallPhase.published (hC.fresh s.captures (le_refl _))) rfl ?_
    intro c hc
    rcases hc with hc | hc <;> cases hc
    exact ⟨rfl, rfl⟩
  | @copy id error buffers c hc =>
    obtain ⟨hwait, hnone⟩ := hW.unqueued id c (.inl hc)
    refine hW.unpublishedCall (by rw [hc]; rfl) rfl ?_
    intro c' hc'
    rcases hc' with hc' | hc' <;> cases hc'
    split
    · exact ⟨hwait, hnone⟩
    · unfold FltDataCall.copied
      split <;> exact ⟨hwait, hnone⟩
  | @queue id c _ _ _ hc _ =>
    exact hW.queuePkt hc (hC.captured id c (.inr hc)) (SocketState.queue_eq hc hs)
  | send hc => exact hW.sent hc rfl
  | noSend hc => exact hW.sent hc rfl
  | @finish id c hc hwait =>
    refine hW.call (iff_of_false ?_ ?_) (fun hp => (by cases hp)) (by simp)
    · rintro ⟨⟨c₁, h | h, -⟩, -⟩
      · simp [SocketState.setCall] at h
      · simp [SocketState.setCall] at h
    · rintro ⟨⟨c₁, h | h, hw⟩, hunsat⟩
      · rw [hc] at h
        cases h
      · obtain rfl := CallPhase.sent.inj (hc.symm.trans h)
        rw [hwait hw] at hunsat
        cases hunsat
  | @deliver outcome queue so l _ hd =>
    obtain ⟨hqueue, he⟩ := SocketState.deliver_eq hs
    have hperm := deliverLoop_wakeups outcome s.so.pendingQueue s.so ⟨none, KERN_SUCCESS, false, false⟩
    refine hW.requeue rfl rfl ?_ ?_ hW.taken
    · rw [← hqueue, ← he] at *
      exact hperm
    · intro pkt' hp w hw
      obtain ⟨pkt, hp, hdel⟩ := exists_partner hd.pkts hp
      obtain rfl := hdel.waitEntry hw
      exact ⟨pkt', hp, hw, rfl, rfl, rfl⟩
  | @property property queue reached hp =>
    refine hW.requeue (e := []) rfl (woken_nil rfl).symm ?_ ?_ hW.taken
    · show (waitEntries queue).Perm _
      rw [waitEntries_property hp]
    · intro pkt' hp' w hw
      obtain ⟨pkt, hmem, rfl | hset⟩ := hp.mem hp'
      · exact ⟨_, hmem, hw, rfl, rfl, rfl⟩
      · obtain ⟨_, _, heq⟩ := setProperty_eq pkt property
        obtain rfl := hset.trans heq
        exact ⟨pkt, hmem, hw, rfl, rfl, rfl⟩
  | collect _ hc => exact hW.collect hc
  | @inject _ _ pkt rest freeMbufs _ hi =>
    refine hW.same rfl rfl rfl ?_
    simp only [SocketState.beingInjected, hi]
    cases freeMbufs <;> exact fun _ h => h
  | freeMbufs hi =>
    refine hW.same rfl rfl rfl ?_
    simp only [SocketState.beingInjected, hi]
    exact fun _ h => h
  | account hi hsame =>
    refine hW.same rfl rfl hsame.queue ?_
    simp only [SocketState.beingInjected, hi]
    exact fun _ h => List.mem_cons_of_mem _ h
  | unlock => exact hW.same rfl rfl rfl fun _ h => (by cases h)
  | @purge purgeType so purged _ hpurged hq =>
    refine hW.requeue rfl rfl ?_ ?_ hW.taken
    · rw [purged_wakeups, hpurged, ← waitEntries_append]
      show (waitEntries (_ ++ so.pendingQueue)).Perm _
      rw [hq]
      exact (List.filter_append_perm _ _).filterMap _
    · intro pkt hp w hw
      exact ⟨pkt, List.mem_of_mem_filter (hq ▸ hp : pkt ∈ List.filter _ _), hw, rfl, rfl, rfl⟩

/-! ### Leaving the queue -/

/-- A blocked call stays blocked until its entry is satisfied. -/
theorem blocked_step (hC : Custody s h) (hs : socketMachine.step s a = some (s', e)) (hb : s.blocked w) :
    s'.blocked w ∨ .wakeup w ∈ e := by
  obtain ⟨hwaits, hunsat⟩ := hb
  have hpub := published_of_waits hwaits
  -- a step of another call, or one that wakes nobody up
  have hcall : ∀ {id phase}, (s.calls id).published = false → (s.setCall id phase).blocked w := by
    intro id phase hp
    refine ⟨?_, hunsat⟩
    have hne : w ≠ id := fun heq => by rw [heq, hp] at hpub; cases hpub
    exact (waits_congr (SocketState.setCall_of_ne hne)).2 hwaits
  have hsent : ∀ {id c c'}, s.calls id = .queued c → c'.wait = c.wait →
      (s.setCall id (.sent c')).blocked w := by
    intro id c c' hc hw
    refine ⟨?_, hunsat⟩
    by_cases hne : w = id
    · subst hne
      obtain ⟨c₁, h | h, hw₁⟩ := hwaits
      · obtain rfl := CallPhase.queued.inj (hc.symm.trans h)
        exact ⟨c', .inr SocketState.setCall_self, hw ▸ hw₁⟩
      · rw [hc] at h
        cases h
    · exact (waits_congr (SocketState.setCall_of_ne hne)).2 hwaits
  have hwoken : ∀ {events : List SocketEvent} {so : NkeSocketObject},
      ({ s with so, waitSatisfied := s.woken events } : SocketState).blocked w ∨ .wakeup w ∈ events := by
    intro events so
    by_cases hw : .wakeup w ∈ events
    · exact .inr hw
    · exact .inl ⟨hwaits, by simp [SocketState.woken, hunsat, hw]⟩
  cases SocketState.step_inv hs with
  | capture =>
    have hidle : (s.calls s.captures).published = false := by
      rw [hC.fresh s.captures (le_refl _)]
      rfl
    exact .inl (hcall hidle)
  | copy hc => exact .inl (hcall (by rw [hc]; rfl))
  | queue hc => exact .inl (hcall (by rw [hc]; rfl))
  | send hc => exact .inl (hsent hc rfl)
  | noSend hc => exact .inl (hsent hc rfl)
  | @finish id c hc hwait =>
    refine .inl ⟨?_, hunsat⟩
    have hne : w ≠ id := by
      rintro rfl
      obtain ⟨c₁, h | h, hw₁⟩ := hwaits
      · rw [hc] at h
        cases h
      · obtain rfl := CallPhase.sent.inj (hc.symm.trans h)
        rw [hwait hw₁] at hunsat
        cases hunsat
    exact (waits_congr (SocketState.setCall_of_ne hne)).2 hwaits
  | deliver => exact hwoken
  | purge => exact hwoken
  | _ => exact .inl ⟨hwaits, hunsat⟩

/-- The packet is moved to `packetsToInject`, injected or freed. -/
def SocketEvent.removes (id : Nat) : SocketEvent → Bool
  | .taken id' | .injected id' _ _ | .freedMbufs id' | .freedEntry id' => id' == id
  | _ => false

/-- With an unsatisfied entry a packet leaves the queue only behind the wake-up. -/
structure WokenFirst (s' : SocketState) (e : List SocketEvent) (pkt : PendingPktQueueItem) (w : Nat) : Prop where
  stays : pkt.id ∈ pktIds s'.so.pendingQueue ∨ .wakeup w ∈ e
  first : ∀ before x after, e = before ++ x :: after → x.removes pkt.id → .wakeup w ∈ before

theorem mem_before {α : Type} {l l' before after : List α} {x y : α} (h : l ++ y :: l' = before ++ x :: after)
    (hx : x ∉ l) (hne : x ≠ y) : y ∈ before := by
  rcases List.append_eq_append_iff.1 h with ⟨mid, rfl, hmid⟩ | ⟨mid, rfl, hmid⟩
  · cases mid with
    | nil => exact absurd (List.cons.inj hmid).1.symm hne
    | cons z mid =>
      obtain rfl := (List.cons.inj hmid).1
      simp
  · cases mid with
    | nil => exact absurd (List.cons.inj hmid).1 hne
    | cons z mid =>
      obtain rfl := (List.cons.inj hmid).1
      exact absurd (by simp) hx

theorem mem_of_purged_removes {purged : List PendingPktQueueItem} {x : SocketEvent}
    (hx : x ∈ purged.flatMap purgeEvents) (hr : x.removes id) : id ∈ pktIds purged := by
  rcases purgeEvents_inv hx with ⟨w, rfl⟩ | ⟨pkt, hp, rfl | rfl⟩
  · cases hr
  · exact List.mem_map.2 ⟨pkt, hp, by simpa [SocketEvent.removes] using hr⟩
  · exact List.mem_map.2 ⟨pkt, hp, by simpa [SocketEvent.removes] using hr⟩

/-- A purge signals the entry of a packet before it frees the packet. -/
theorem purged_first {purged : List PendingPktQueueItem} {x : SocketEvent} {before after : List SocketEvent}
    (hnd : (pktIds purged).Nodup) (hp : pkt ∈ purged) (hw : pkt.waitEntry = some w)
    (he : purged.flatMap purgeEvents = before ++ x :: after) (hx : x.removes pkt.id) :
    .wakeup w ∈ before := by
  obtain ⟨pre, post, rfl⟩ := List.append_of_mem hp
  have hpkt : purgeEvents pkt = .wakeup w :: [.freedMbufs pkt.id, .freedEntry pkt.id] := by
    simp [purgeEvents, PendingPktQueueItem.satisfyWait, hw]
  rw [List.flatMap_append, List.flatMap_cons, hpkt, List.cons_append] at he
  refine mem_before he ?_ ?_
  · -- what is purged before is another packet
    intro hmem
    rw [pktIds, List.map_append, List.map_cons] at hnd
    exact List.disjoint_of_nodup_append hnd (mem_of_purged_removes hmem hx) (List.mem_cons_self ..)
  · rintro rfl
    simp [SocketEvent.removes] at hx

theorem wokenFirst_of_silent (hstays : pkt.id ∈ pktIds s'.so.pendingQueue ∨ .wakeup w ∈ e)
    (he : ∀ x ∈ e, x.removes pkt.id = false) : WokenFirst s' e pkt w := by
  refine ⟨hstays, ?_⟩
  intro before x after heq hx
  rw [he x (by rw [heq]; simp)] at hx
  cases hx

/-- The packet is not at the same time in the queue and with the thread that reinjects. -/
theorem Custody.not_taken (hC : Custody s h) (hp : pkt ∈ s.so.pendingQueue) :
    s.inPacketsToInject pkt.id = 0 ∧ s.unfreed pkt.id = 0 ∧ s.unaccounted pkt.id = 0 := by
  have hin : 0 < s.inQueue pkt.id := List.count_pos_iff.2 (List.mem_map_of_mem hp)
  have hone := hC.inserted_le pkt.id
  have hm := hC.mbufs pkt.id
  have hent := hC.entry pkt.id
  omega

theorem Waiting.wokenFirst (hW : Waiting s) (hC : Custody s h) (hs : socketMachine.step s a = some (s', e))
    (hp : pkt ∈ s.so.pendingQueue) (hw : pkt.waitEntry = some w) : WokenFirst s' e pkt w := by
  have hstays : pkt.id ∈ pktIds s'.so.pendingQueue ∨ .wakeup w ∈ e := by
    rcases blocked_step hC hs ((hW.blocked w).1 (mem_waitEntries.2 ⟨pkt, hp, hw⟩)) with hb | hwoken
    · obtain ⟨pkt', hp', hw'⟩ := mem_waitEntries.1 (((hW.step hC hs).blocked w).2 hb)
      have hid' := ((hW.step hC hs).marked pkt' hp' w hw').1
      have hid := (hW.marked pkt hp w hw).1
      exact .inl (List.mem_map.2 ⟨pkt', hp', hid'.symm.trans hid⟩)
    · exact .inr hwoken
  obtain ⟨htoInject, hunfreed, hunaccounted⟩ := hC.not_taken hp
  cases SocketState.step_inv hs with
  | send =>
    refine wokenFirst_of_silent hstays ?_
    split <;> simp [SocketEvent.removes]
  | queue hc hq =>
    refine wokenFirst_of_silent hstays ?_
    cases hq with
    | posted => simp [SocketEvent.removes]
    | postponed _ _ _ _ _ _ _ _ _ _ _ hevents =>
      intro x hx
      rcases List.mem_cons.1 hx with rfl | hx
      · rfl
      · rcases hevents x hx with rfl | rfl <;> rfl
  | deliver hd =>
    refine wokenFirst_of_silent hstays ?_
    intro x hx
    have hreport := hd.reports x hx
    cases x <;> first | rfl | (simp [SocketEvent.isReport] at hreport)
  | @collect _ _ rest taken _ hc =>
    -- what is collected has no entry
    refine wokenFirst_of_silent hstays ?_
    have hnot : pkt.id ∉ pktIds taken := by
      intro hmem
      rcases hstays with hin | hwoken
      · have hcount := count_collected hc pkt.id
        have hone := List.nodup_iff_count_le_one.1 hC.nodup pkt.id
        have hrest : 0 < (pktIds rest).count pkt.id := List.count_pos_iff.2 hin
        have htaken : 0 < (pktIds taken).count pkt.id := List.count_pos_iff.2 hmem
        omega
      · simp at hwoken
    intro x hx
    obtain ⟨pkt', hp', rfl⟩ := List.mem_map.1 hx
    have hne : pkt'.id ≠ pkt.id := fun heq => hnot (heq ▸ List.mem_map_of_mem hp')
    simpa [SocketEvent.removes] using hne
  | @inject _ _ pkt' rest _ _ hi he =>
    refine wokenFirst_of_silent hstays ?_
    have hne : pkt'.id ≠ pkt.id := by
      rw [SocketState.inPacketsToInject, hi] at htoInject
      exact fun heq => List.count_eq_zero.1 htoInject (heq ▸ List.mem_cons_self ..)
    unfold inject at he
    obtain ⟨-, rfl⟩ := Prod.mk.inj he
    split <;> simp [SocketEvent.removes, hne]
  | @freeMbufs pkt' _ hi =>
    refine wokenFirst_of_silent hstays ?_
    have hne : pkt'.id ≠ pkt.id := by
      simp only [SocketState.unfreed, hi] at hunfreed
      exact fun heq => by simp [heq] at hunfreed
    simp [SocketEvent.removes, hne]
  | @account pkt' _ _ hi =>
    refine wokenFirst_of_silent hstays ?_
    have hne : pkt'.id ≠ pkt.id := by
      simp only [SocketState.unaccounted, hi] at hunaccounted
      exact fun heq => by simp [heq] at hunaccounted
    simp [SocketEvent.removes, hne]
  | @purge purgeType so purged _ hpurged hq =>
    refine ⟨hstays, ?_⟩
    intro before x after heq hx
    have hnd : (pktIds purged).Nodup := by
      rw [hpurged]
      exact hC.nodup.sublist (List.filter_sublist.map _)
    have hmem : x ∈ purged.flatMap purgeEvents := by rw [heq]; simp
    obtain ⟨pkt', hp', hid⟩ := List.mem_map.1 (mem_of_purged_removes hmem hx)
    have hqueue : pkt' ∈ s.so.pendingQueue := List.mem_of_mem_filter (hpurged ▸ hp')
    obtain rfl := List.inj_on_of_nodup_map hC.nodup hqueue hp hid
    exact purged_first hnd hp' hw heq hx
  | _ => exact wokenFirst_of_silent hstays (by simp [SocketEvent.removes])

/-! ### The result -/

theorem waiting_of_run {socketId : NkeSocketID} {size : Nat} {as : List SocketLabel}
    (hr : socketMachine.run (SocketState.start socketId size) as = some (s, h)) : Waiting s :=
  (Machine.run_induction (fun s h => Custody s h ∧ Waiting s) [] ⟨custody_start, waiting_start⟩
    (fun _ _ _ _ _ hI _ hs => ⟨hI.1.step hs, hI.2.step hI.1 hs⟩) Machine.along_true hr).2

/-- No writer is stranded and no reference to a wait entry dangles. -/
structure WritersSafe (s : SocketState) : Prop where
  /-- the entry a call loops on is referenced by one packet of the queue -/
  referenced : ∀ w, s.blocked w → s.so.pendingQueue.countP (·.waitEntry == some w) = 1
  /-- a packet with an entry is outbound and marked, and the call is still there -/
  queue : ∀ pkt ∈ s.so.pendingQueue, ∀ w, pkt.waitEntry = some w →
    pkt.dataInbound = false ∧ pkt.needToBeReported ∧ s.waits w
  /-- packets outside the queue have no entry -/
  unqueued : ∀ id c, s.calls id = .captured c ∨ s.calls id = .copied c → c.pendingPkt.waitEntry = none
  taken : ∀ pkt ∈ s.beingInjected, pkt.waitEntry = none
  /-- no step takes a packet out of the queue, or frees it, before it satisfied the entry -/
  leaves : ∀ a s' e, socketMachine.step s a = some (s', e) → ∀ pkt ∈ s.so.pendingQueue, ∀ w,
    pkt.waitEntry = some w → WokenFirst s' e pkt w

/-- In every state of every run of the threads of one socket each blocked writer is referenced by exactly one
packet of the queue, and no packet leaves the queue with an unsatisfied entry. -/
theorem writersSafe_of_run {socketId : NkeSocketID} {size : Nat} {as : List SocketLabel}
    (hr : socketMachine.run (SocketState.start socketId size) as = some (s, h)) : WritersSafe s := by
  have hW := waiting_of_run hr
  refine ⟨?_, ?_, fun id c hc => (hW.unqueued id c hc).2, hW.taken, ?_⟩
  · intro w hb
    have hone := List.count_eq_one_of_mem hW.nodup ((hW.blocked w).2 hb)
    rw [waitEntries, List.count_filterMap] at hone
    simpa using hone
  · intro pkt hp w hw
    obtain ⟨-, hin, hneed⟩ := hW.marked pkt hp w hw
    exact ⟨hin, hneed, ((hW.blocked w).1 (mem_waitEntries.2 ⟨pkt, hp, hw⟩)).1⟩
  · intro a s' e hs pkt hp w hw
    exact hW.wokenFirst (custody_of_run hr) hs hp hw

/-- One outbound packet whose data is not copied: its call waits. -/
def outboundNotCopied : List SocketLabel :=
  [.capture [⟨[7], some ⟨1, none, []⟩, none⟩] [] 0 false true 0, .copy 0 ENOMEM [0], .queue 0, .send 0 none]

theorem outboundNotCopied_safe :
    ∃ s h, socketMachine.run (SocketState.start ⟨1, 1⟩ 65536) outboundNotCopied = some (s, h) ∧
      s.blocked 0 ∧ WritersSafe s := by
  obtain ⟨s, h, hr, hb⟩ : ∃ s h, socketMachine.run (SocketState.start ⟨1, 1⟩ 65536) outboundNotCopied =
      some (s, h) ∧ s.blocked 0 := ⟨_, _, rfl, ⟨_, .inr rfl, rfl⟩, rfl⟩
  exact ⟨s, h, hr, hb, writersSafe_of_run hr⟩

end NkeFilter
