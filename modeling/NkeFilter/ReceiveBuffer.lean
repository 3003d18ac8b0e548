import NkeFilter.Deliver
import NkeFilter.QueueShape

/-!
# The receive buffer

`FltData` collapses the receive buffer of the socket when an inbound packet has to wait for its report,
and a delivery restores it for every inbound packet it is done with. The size tracks the queue as long as
no delivery stops between two such packets and no purge drops one: the first restores the buffer while
data still waits, the second leaves it collapsed with nothing waiting.
-/

namespace NkeFilter
open Lib NkeSocketObject

def PendingPktQueueItem.waitsInbound (pkt : PendingPktQueueItem) : Bool :=
  pkt.dataInbound && pkt.needToBeReported

def waitsInbound (queue : List PendingPktQueueItem) : Bool := queue.any (·.waitsInbound)

/-- `SO_RCVBUF` after the event, when it was `size` before. -/
def SocketEvent.resize (size : Nat) : SocketEvent → Nat
  | .setRcvBuf size' => size'
  | _ => size

def receiveBufferSize (size : Nat) (events : List SocketEvent) : Nat := events.foldl SocketEvent.resize size

/-- The buffer is collapsed exactly while an inbound packet waits for its report. -/
def WindowTracks (s : SocketState) (h : List SocketEvent) : Prop :=
  receiveBufferSize s.so.origReceiveBufferSize h =
    if waitsInbound s.so.pendingQueue then 1 else s.so.origReceiveBufferSize

/-- The packet at `n` waits, its report fails and its deadline has not passed. -/
def StopsAt (outcome : Nat → ReportOutcome) (queue : List PendingPktQueueItem) (n : Nat) : Prop :=
  ∃ pkt, queue[n]? = some pkt ∧ pkt.needToBeReported ∧ (outcome n).error ≠ KERN_SUCCESS ∧
    (pkt.isDeadlineTimerExpired (outcome n).now).1 = false

def FirstStop (outcome : Nat → ReportOutcome) (queue : List PendingPktQueueItem) (n : Nat) : Prop :=
  StopsAt outcome queue n ∧ ∀ m < n, ¬ StopsAt outcome queue m

/-- A delivery does not stop with inbound packets waiting before and behind the stop, and a purge of inbound
data finds none waiting. -/
def KeepsWindow (s : SocketState) (a : SocketLabel) : Prop :=
  s.so.origReceiveBufferSize = 1 ∨ match a with
    | .deliver outcome => ∀ n, FirstStop outcome s.so.pendingQueue n →
        waitsInbound (s.so.pendingQueue.take n) → waitsInbound (s.so.pendingQueue.drop n) = false
    | .purge purgeType => purgeType.covers true → waitsInbound s.so.pendingQueue = false
    | _ => True

/-- `FltData` gets the detaching lock in its region. -/
def DetachingLockTaken (s : SocketState) : SocketLabel → Prop
  | .queue _ => s.so.lockCount ≠ 0
  | _ => True

variable {s s' : SocketState} {a : SocketLabel} {h e events : List SocketEvent} {so : NkeSocketObject}
  {pkt : PendingPktQueueItem} {queue rest taken : List PendingPktQueueItem} {size n id : Nat}
  {outcome : Nat → ReportOutcome}

@[simp] theorem receiveBufferSize_append :
    receiveBufferSize size (h ++ e) = receiveBufferSize (receiveBufferSize size h) e :=
  List.foldl_append

@[simp] theorem receiveBufferSize_nil : receiveBufferSize size [] = size := rfl

theorem receiveBufferSize_silent (hsilent : ∀ event ∈ events, ∀ n, event ≠ .setRcvBuf n) :
    receiveBufferSize size events = size := by
  induction events with
  | nil => rfl
  | cons event events ih =>
    have hfirst : event.resize size = size := by
      cases event with
      | setRcvBuf n => exact absurd rfl (hsilent _ (List.mem_cons_self ..) n)
      | _ => rfl
    show receiveBufferSize (event.resize size) events = size
    rw [hfirst]
    exact ih fun event' hmem => hsilent event' (List.mem_cons_of_mem _ hmem)

/-! ### Inbound packets that wait -/

@[simp] theorem waitsInbound_append :
    waitsInbound (queue ++ rest) = (waitsInbound queue || waitsInbound rest) :=
  List.any_append

@[simp] theorem waitsInbound_cons : waitsInbound (pkt :: rest) = (pkt.waitsInbound || waitsInbound rest) := rfl

@[simp] theorem waitsInbound_nil : waitsInbound [] = false := rfl

theorem waitsInbound_perm (hp : queue.Perm rest) : waitsInbound queue = waitsInbound rest := hp.any_eq

theorem waitsInbound_forall₂ {R : PendingPktQueueItem → PendingPktQueueItem → Prop}
    (hR : ∀ pkt pkt', R pkt pkt' → pkt'.waitsInbound = pkt.waitsInbound) (hl : List.Forall₂ R queue rest) :
    waitsInbound rest = waitsInbound queue := by
  induction hl with
  | nil => rfl
  | cons hpkt _ ih => rw [waitsInbound_cons, waitsInbound_cons, hR _ _ hpkt, ih]

theorem waitsInbound_property {property : NkeSocketDataProperty} {reached : Option PendingPktQueueItem}
    (hp : PropertyEnd property queue (rest, reached)) : waitsInbound rest = waitsInbound queue := by
  cases hp with
  | none => rfl
  | @applied pre post pkt =>
    obtain ⟨_, _, heq⟩ := setProperty_eq pkt property
    rw [heq]
    simp [PendingPktQueueItem.waitsInbound]

theorem waitsInbound_collect (hc : CollectEnd queue (rest, taken)) :
    waitsInbound rest = waitsInbound queue := by
  obtain ⟨⟨seen, hseen, -, -, hperm⟩, htaken⟩ := hc
  have hnone : waitsInbound taken = false := by
    refine List.any_eq_false.2 fun pkt hmem => ?_
    simp [PendingPktQueueItem.waitsInbound, htaken pkt hmem]
  have hsame : waitsInbound seen = waitsInbound queue := by
    refine waitsInbound_forall₂ ?_ hseen
    rintro pkt _ ⟨_, rfl, _⟩
    rfl
  rw [← hsame, ← waitsInbound_perm hperm, waitsInbound_append, hnone, Bool.false_or]

theorem waitsInbound_purge (purgeType : NkeSocketDataDirectionType) :
    waitsInbound (queue.filter fun pkt => !purgeType.covers pkt.dataInbound) =
      (waitsInbound queue && !purgeType.covers true) := by
  induction queue with
  | nil => rfl
  | cons pkt rest ih =>
    rw [List.filter_cons]
    split
    · rename_i hstays
      rw [waitsInbound_cons, waitsInbound_cons, ih]
      cases hin : pkt.dataInbound <;> simp_all [PendingPktQueueItem.waitsInbound]
    · rename_i hgoes
      rw [waitsInbound_cons, ih]
      cases hin : pkt.dataInbound <;> simp_all [PendingPktQueueItem.waitsInbound]

/-! ### What the regions do to the buffer -/

theorem stopsAt_succ : StopsAt outcome (pkt :: rest) (n + 1) ↔ StopsAt (fun i => outcome (i + 1)) rest n := by
  simp [StopsAt]

theorem report_silent (so : NkeSocketObject) (pkt : PendingPktQueueItem) (o : ReportOutcome)
    (l : DeliverLocals) : receiveBufferSize size (so.report pkt o l).2 = size := by
  refine receiveBufferSize_silent ?_
  unfold report
  split
  · simp
  · split
    · simp
    · split <;> simp

theorem reported_size (so : NkeSocketObject) (pkt : PendingPktQueueItem) :
    receiveBufferSize size (so.reported pkt).2.2 =
      if pkt.dataInbound then so.origReceiveBufferSize else size := by
  have hwoken : receiveBufferSize size { pkt with needToBeReported := false }.satisfyWait.2 = size := by
    refine receiveBufferSize_silent ?_
    intro event hmem n
    obtain ⟨w, rfl⟩ := satisfyWait_wakes _ event hmem
    nofun
  have hin : { pkt with needToBeReported := false }.satisfyWait.1.dataInbound = pkt.dataInbound := by
    rw [satisfyWait_fst]
  simp only [reported, receiveBufferSize_append, hwoken, hin]
  cases pkt.dataInbound <;> rfl

/-- The delivery is done with the packets before its first stop, and leaves the others as they are. -/
theorem deliverLoop_window (outcome : Nat → ReportOutcome) (queue : List PendingPktQueueItem)
    (so : NkeSocketObject) (l : DeliverLocals) (size : Nat) (hdata : ∀ pkt ∈ queue, pkt.data ≠ []) :
    ∃ n, (StopsAt outcome queue n ∨ queue.length ≤ n) ∧ (∀ m < n, ¬ StopsAt outcome queue m) ∧
      waitsInbound (deliverLoop outcome queue so l).1 = waitsInbound (queue.drop n) ∧
      receiveBufferSize size (deliverLoop outcome queue so l).2.2.2 =
        if waitsInbound (queue.take n) then so.origReceiveBufferSize else size := by
  induction queue generalizing outcome so l size with
  | nil => exact ⟨0, .inr (Nat.le_refl _), fun _ hm => absurd hm (Nat.not_lt_zero _), rfl, rfl⟩
  | cons pkt rest ih =>
    have hrest : ∀ pkt' ∈ rest, pkt'.data ≠ [] := fun pkt' hmem => hdata pkt' (List.mem_cons_of_mem _ hmem)
    -- the loop goes on behind the packet
    have hbehind : ∀ {n : Nat}, StopsAt (fun i => outcome (i + 1)) rest n ∨ rest.length ≤ n →
        (∀ m < n, ¬ StopsAt (fun i => outcome (i + 1)) rest m) → ¬ StopsAt outcome (pkt :: rest) 0 →
        (StopsAt outcome (pkt :: rest) (n + 1) ∨ (pkt :: rest).length ≤ n + 1) ∧
          ∀ m < n + 1, ¬ StopsAt outcome (pkt :: rest) m := by
      intro n hstop hbefore hfirst
      refine ⟨hstop.imp stopsAt_succ.2 Nat.succ_le_succ, ?_⟩
      intro m hm
      cases m with
      | zero => exact hfirst
      | succ m => exact fun hs => hbefore m (by omega) (stopsAt_succ.1 hs)
    unfold deliverLoop
    by_cases hneed : pkt.needToBeReported
    · have hsent := fun size => @report_silent size so pkt (outcome 0) l
      have herr := report_error so pkt (outcome 0) l
      rw [if_neg (hdata pkt (List.mem_cons_self ..))] at herr
      simp only [hneed, Bool.not_true, Bool.false_eq_true, if_false]
      generalize so.report pkt (outcome 0) l = r at hsent herr
      obtain ⟨l₁, sent⟩ := r
      have hgoes : ∀ pkt', pkt'.dataInbound = pkt.dataInbound → ¬ StopsAt outcome (pkt :: rest) 0 →
          ∃ n, (StopsAt outcome (pkt :: rest) n ∨ (pkt :: rest).length ≤ n) ∧
            (∀ m < n, ¬ StopsAt outcome (pkt :: rest) m) ∧
            waitsInbound ((so.reported pkt').1 ::
              (deliverLoop (fun i => outcome (i + 1)) rest (so.reported pkt').2.1 l₁).1) =
                waitsInbound ((pkt :: rest).drop n) ∧
            receiveBufferSize size (sent ++ (so.reported pkt').2.2 ++
              (deliverLoop (fun i => outcome (i + 1)) rest (so.reported pkt').2.1 l₁).2.2.2) =
                if waitsInbound ((pkt :: rest).take n) then so.origReceiveBufferSize else size := by
        intro pkt' hin hfirst
        obtain ⟨n, hstop, hbefore, hleft, hsize⟩ := ih (fun i => outcome (i + 1)) (so.reported pkt').2.1 l₁
          (if pkt'.dataInbound then so.origReceiveBufferSize else size) hrest
        obtain ⟨hstop, hbefore⟩ := hbehind hstop hbefore hfirst
        have hdone : (so.reported pkt').1.waitsInbound = false := by
          rw [reported_fst]
          simp [PendingPktQueueItem.waitsInbound]
        refine ⟨n + 1, hstop, hbefore, ?_, ?_⟩
        · rw [waitsInbound_cons, hdone, hleft, Bool.false_or, List.drop_succ_cons]
        · rw [receiveBufferSize_append, receiveBufferSize_append, hsent, reported_size, hsize, reported_snd,
            List.take_succ_cons, waitsInbound_cons, PendingPktQueueItem.waitsInbound, hneed, hin]
          cases pkt.dataInbound <;> cases waitsInbound (rest.take n) <;> rfl
      by_cases he : l₁.error = KERN_SUCCESS
      · have hfirst : ¬ StopsAt outcome (pkt :: rest) 0 := by
          rintro ⟨_, _, _, hfail, _⟩
          exact hfail (herr.symm.trans he)
        simpa [he] using hgoes pkt rfl hfirst
      · cases hexp : (pkt.isDeadlineTimerExpired (outcome 0).now).1
        · refine ⟨0, .inl ⟨pkt, rfl, hneed, herr ▸ he, hexp⟩, fun _ hm => absurd hm (Nat.not_lt_zero _), ?_, ?_⟩
          · simp [he, hexp, isDeadlineTimerExpired_not hexp]
          · simp [he, hexp, hsent]
        · have hfirst : ¬ StopsAt outcome (pkt :: rest) 0 := by
            rintro ⟨pkt', hget, -, -, hnot⟩
            obtain rfl : pkt = pkt' := by simpa using hget
            rw [hexp] at hnot
            cases hnot
          simpa [he, hexp] using
            hgoes { (pkt.isDeadlineTimerExpired (outcome 0).now).2 with allowData := false }
              (by rw [isDeadlineTimerExpired_snd]) hfirst
    · rw [if_pos (by simpa using hneed)]
      obtain ⟨n, hstop, hbefore, hleft, hsize⟩ := ih (fun i => outcome (i + 1)) so l size hrest
      have hfirst : ¬ StopsAt outcome (pkt :: rest) 0 := by
        rintro ⟨pkt', hget, hneed', -⟩
        obtain rfl : pkt = pkt' := by simpa using hget
        exact hneed hneed'
      have hnot : pkt.waitsInbound = false := by simp [PendingPktQueueItem.waitsInbound, hneed]
      obtain ⟨hstop, hbefore⟩ := hbehind hstop hbefore hfirst
      refine ⟨n + 1, hstop, hbefore, ?_, ?_⟩
      · rw [waitsInbound_cons, hnot, hleft, Bool.false_or, List.drop_succ_cons]
      · rw [hsize, List.take_succ_cons, waitsInbound_cons, hnot, Bool.false_or]

theorem queuePkt_window {c : FltDataCall} (hfresh : c.pendingPkt.needToBeReported = false)
    (hlock : so.lockCount ≠ 0) :
    waitsInbound (so.queuePkt c).1.pendingQueue =
        (waitsInbound so.pendingQueue || (so.queuePkt c).2.1.pendingPkt.waitsInbound) ∧
      receiveBufferSize size (so.queuePkt c).2.2 =
        if (so.queuePkt c).2.1.pendingPkt.waitsInbound then 1 else size := by
  unfold queuePkt
  split
  · refine ⟨by simp, ?_⟩
    have hlast : ∀ size, receiveBufferSize size (if so.packetsWaitingForReporting = 0 ∧
        (!so.insertedInSocketsListToReport) then [.enlisted] else []) = size := by
      intro size
      split <;> rfl
    rw [receiveBufferSize_append, receiveBufferSize_append, hlast]
    cases hin : c.pendingPkt.dataInbound <;>
      simp [PendingPktQueueItem.waitsInbound, hin, hlock, receiveBufferSize, SocketEvent.resize]
  · have hnot : c.pendingPkt.waitsInbound = false := by simp [PendingPktQueueItem.waitsInbound, hfresh]
    refine ⟨by simp [hnot], ?_⟩
    rw [hnot]
    rfl

theorem purge_silent (purged : List PendingPktQueueItem) :
    receiveBufferSize size (purged.flatMap purgeEvents) = size := by
  refine receiveBufferSize_silent ?_
  intro event hmem n
  rcases purgeEvents_inv hmem with ⟨w, rfl⟩ | ⟨pkt, -, rfl | rfl⟩ <;> nofun

/-! ### What the steps keep -/

/-- The objects agree on what only the attaching and the detaching thread write. -/
structure SameSettings (so so' : NkeSocketObject) : Prop where
  origReceiveBufferSize : so'.origReceiveBufferSize = so.origReceiveBufferSize
  lockCount : so'.lockCount = so.lockCount

theorem SameSettings.trans {so' so'' : NkeSocketObject} (h : SameSettings so so') (h' : SameSettings so' so'') :
    SameSettings so so'' :=
  ⟨h'.origReceiveBufferSize.trans h.origReceiveBufferSize, h'.lockCount.trans h.lockCount⟩

theorem countPkt_settings {inbound : Bool} {bytes : UInt32} : SameSettings so (so.countPkt inbound bytes) := by
  unfold countPkt
  split <;> exact ⟨rfl, rfl⟩

theorem uncountPkt_settings : SameSettings so (so.uncountPkt pkt) := by
  unfold uncountPkt
  split <;> exact ⟨rfl, rfl⟩

theorem purgeLoop_settings (purgeType : NkeSocketDataDirectionType) (queue : List PendingPktQueueItem)
    (so : NkeSocketObject) : SameSettings so (purgeLoop purgeType queue so).2.1 := by
  induction queue generalizing so with
  | nil => exact ⟨rfl, rfl⟩
  | cons pkt rest ih =>
    unfold purgeLoop
    split
    · exact ih so
    · refine SameSettings.trans ?_ (uncountPkt_settings.trans (ih _))
      split <;> exact ⟨rfl, rfl⟩

theorem settings_of_step (hs : socketMachine.step s a = some (s', e)) (ha : a ≠ .beginDetach) :
    SameSettings s.so s'.so := by
  cases a with
  | capture mbufData mbufControl flags isInboundData allocated now =>
    simp only [socketMachine, SocketState.step] at hs
    split at hs
    · cases hs
    · rename_i hd
      unfold allocatePkt at hs
      rw [if_neg (fun h => hd h.1)] at hs
      cases allocated with
      | false => cases hs; exact ⟨rfl, rfl⟩
      | true => cases hs; exact ⟨countPkt_settings.origReceiveBufferSize, countPkt_settings.lockCount⟩
  | queue id =>
    simp only [socketMachine, SocketState.step] at hs
    split at hs
    · rename_i c _
      obtain ⟨rfl, -⟩ := Prod.mk.inj (Option.some.inj hs)
      show SameSettings s.so (s.so.queuePkt c).1
      unfold queuePkt
      split <;> exact ⟨rfl, rfl⟩
    · cases hs
  | deliver outcome =>
    obtain ⟨rfl, -⟩ := Prod.mk.inj (Option.some.inj hs)
    have hso : (deliverLoop outcome s.so.pendingQueue s.so ⟨none, KERN_SUCCESS, false, false⟩).2.1 = _ :=
      (deliverLoop_spec outcome).so_eq
    have horig := congrArg NkeSocketObject.origReceiveBufferSize hso
    have hcount := congrArg NkeSocketObject.lockCount hso
    exact ⟨horig, hcount⟩
  | account =>
    simp only [socketMachine, SocketState.step] at hs
    split at hs
    · obtain ⟨rfl, -⟩ := Prod.mk.inj (Option.some.inj hs)
      exact uncountPkt_settings
    · cases hs
  | purge purgeType =>
    simp only [socketMachine, SocketState.step] at hs
    split at hs
    · cases hs
    · obtain ⟨rfl, -⟩ := Prod.mk.inj (Option.some.inj hs)
      have hsame := purgeLoop_settings purgeType s.so.pendingQueue s.so
      exact ⟨hsame.origReceiveBufferSize, hsame.lockCount⟩
  | beginDetach => exact absurd rfl ha
  | _ =>
    simp only [socketMachine, SocketState.step, SocketState.setCall] at hs
    repeat' split at hs
    all_goals cases hs <;> exact ⟨rfl, rfl⟩

/-- Until the detach begins the lock is there to be taken. -/
theorem lockTaken_of_attached {as : List SocketLabel} (hattached : s.so.lockCount ≠ 0)
    (hnone : .beginDetach ∉ as) : socketMachine.Along DetachingLockTaken s as := by
  induction as generalizing s with
  | nil => trivial
  | cons a as ih =>
    obtain ⟨ha, has⟩ := not_or.1 (mt List.mem_cons.2 hnone)
    refine ⟨?_, fun s' e hs => ih ?_ has⟩
    · cases a with
      | queue id => exact hattached
      | _ => trivial
    · rw [(settings_of_step hs (Ne.symm ha)).lockCount]
      exact hattached

/-- Captured packets have data, and keep it. -/
structure HasData (s : SocketState) : Prop where
  queue : ∀ pkt ∈ s.so.pendingQueue, pkt.data ≠ []
  calls : ∀ id c, s.calls id = .captured c ∨ s.calls id = .copied c → c.pendingPkt.data ≠ []

theorem hasData_start {socketId : NkeSocketID} : HasData (SocketState.start socketId size) := by
  refine ⟨fun _ h => (by cases h), ?_⟩
  intro id c hc
  rcases hc with hc | hc <;> cases hc

namespace HasData

theorem requeue (hD : HasData s) (hcalls : s'.calls = s.calls)
    (hq : ∀ pkt' ∈ s'.so.pendingQueue, ∃ pkt ∈ s.so.pendingQueue, pkt'.data = pkt.data) : HasData s' := by
  refine ⟨?_, hcalls ▸ hD.calls⟩
  intro pkt' hmem
  obtain ⟨pkt, hmem, heq⟩ := hq pkt' hmem
  exact heq ▸ hD.queue pkt hmem

theorem call {phase : CallPhase} (hD : HasData s)
    (hphase : ∀ c, phase = .captured c ∨ phase = .copied c → c.pendingPkt.data ≠ []) :
    HasData (s.setCall id phase) := by
  refine ⟨hD.queue, ?_⟩
  intro id' c hc
  rcases s.setCall_inv id phase id' with ⟨-, hp⟩ | ⟨-, hp⟩
  · exact hphase c (hp ▸ hc)
  · exact hD.calls id' c (hp ▸ hc)

theorem step (hD : HasData s) (hs : socketMachine.step s a = some (s', e)) : HasData s' := by
  cases SocketState.step_inv hs with
  | quiet hsame => exact hD.requeue rfl fun pkt hp => ⟨pkt, hsame.queue ▸ hp, rfl⟩
  | @capture _ so pkt _ _ hdata _ _ hq =>
    have hnext : HasData { s with so, captures := s.captures + 1 } :=
      hD.requeue rfl fun pkt hp => ⟨pkt, hq ▸ hp, rfl⟩
    show HasData (SocketState.setCall { s with so, captures := s.captures + 1 } s.captures _)
    refine hnext.call ?_
    intro c hc
    rcases hc with hc | hc <;> cases hc
    exact hdata
  | @copy id error buffers c hc =>
    refine hD.call ?_
    intro c' hc'
    have hdata := hD.calls id c (.inl hc)
    rcases hc' with hc' | hc' <;> cases hc'
    rw [if_neg hdata]
    unfold FltDataCall.copied
    split <;> exact hdata
  | @queue id c so c' _ hc hq =>
    have hcalls : HasData (s.setCall id (.queued c')) := hD.call (by simp)
    have hdata := hD.calls id c (.inr hc)
    have hlast : ∀ pkt : PendingPktQueueItem, so.pendingQueue = s.so.pendingQueue ++ [pkt] →
        pkt.data = c.pendingPkt.data → HasData { s.setCall id (.queued c') with so } := by
      intro pkt hqueue heq
      refine ⟨?_, hcalls.calls⟩
      intro pkt' hp
      rcases List.mem_append.1 (hqueue ▸ hp : pkt' ∈ s.so.pendingQueue ++ [pkt]) with hp | hp
      · exact hD.queue pkt' hp
      · obtain rfl := List.mem_singleton.1 hp
        exact heq ▸ hdata
    cases hq with
    | posted => exact hlast _ rfl rfl
    | postponed _ _ _ heq _ _ _ hqueue => exact hlast _ hqueue heq
  | send => exact hD.call (by simp)
  | noSend => exact hD.call (by simp)
  | finish => exact hD.call (by simp)
  | deliver hd =>
    refine hD.requeue rfl ?_
    intro pkt' hp
    obtain ⟨pkt, hp, hdel⟩ := exists_partner hd.pkts hp
    exact ⟨pkt, hp, by cases hdel <;> rfl⟩
  | @property property _ _ hp =>
    refine hD.requeue rfl ?_
    intro pkt' hp'
    obtain ⟨pkt, hmem, rfl | hset⟩ := hp.mem hp'
    · exact ⟨_, hmem, rfl⟩
    · obtain ⟨_, _, heq⟩ := setProperty_eq pkt property
      obtain rfl := hset.trans heq
      exact ⟨pkt, hmem, rfl⟩
  | collect _ hc =>
    obtain ⟨⟨seen, hseen, hrest, -⟩, -⟩ := hc
    refine hD.requeue rfl ?_
    intro pkt' hp
    obtain ⟨pkt, hmem, b, rfl, -⟩ := exists_partner hseen (hrest.subset hp)
    exact ⟨pkt, hmem, rfl⟩
  | inject => exact hD.requeue rfl fun pkt hp => ⟨pkt, hp, rfl⟩
  | freeMbufs => exact hD.requeue rfl fun pkt hp => ⟨pkt, hp, rfl⟩
  | account _ hsame => exact hD.requeue rfl fun pkt hp => ⟨pkt, hsame.queue ▸ hp, rfl⟩
  | unlock => exact hD.requeue rfl fun pkt hp => ⟨pkt, hp, rfl⟩
  | @purge _ so _ _ _ hq =>
    refine hD.requeue rfl fun pkt hp => ⟨pkt, ?_, rfl⟩
    exact List.mem_of_mem_filter (hq ▸ hp : pkt ∈ List.filter _ _)

end HasData

/-- Outside the three regions that resize the buffer neither it nor the waiting inbound packets change. -/
theorem quiet_of_step (hs : socketMachine.step s a = some (s', e)) (hqueue : ∀ id, a ≠ .queue id)
    (hdeliver : ∀ outcome, a ≠ .deliver outcome) (hpurge : ∀ purgeType, a ≠ .purge purgeType) :
    waitsInbound s'.so.pendingQueue = waitsInbound s.so.pendingQueue ∧
      ∀ event ∈ e, ∀ n, event ≠ .setRcvBuf n := by
  cases SocketState.step_inv hs with
  | quiet hsame => exact ⟨congrArg waitsInbound hsame.queue, by simp⟩
  | capture _ _ _ _ _ hq => exact ⟨congrArg waitsInbound hq, by simp⟩
  | copy => exact ⟨rfl, by simp⟩
  | queue => exact absurd rfl (hqueue _)
  | send =>
    refine ⟨rfl, ?_⟩
    split <;> simp
  | noSend => exact ⟨rfl, by simp⟩
  | finish => exact ⟨rfl, by simp⟩
  | deliver => exact absurd rfl (hdeliver _)
  | property hp => exact ⟨waitsInbound_property hp, by simp⟩
  | collect _ hc => exact ⟨waitsInbound_collect hc, by simp⟩
  | inject _ hi =>
    refine ⟨rfl, ?_⟩
    obtain ⟨-, rfl⟩ := Prod.mk.inj hi
    split <;> simp
  | freeMbufs => exact ⟨rfl, by simp⟩
  | account _ hsame => exact ⟨congrArg waitsInbound hsame.queue, by simp⟩
  | unlock => exact ⟨rfl, by simp⟩
  | purge => exact absurd rfl (hpurge _)

theorem firstStop_unique {m : Nat} (hn : StopsAt outcome queue n ∨ queue.length ≤ n)
    (hbefore : ∀ m < n, ¬ StopsAt outcome queue m) (hm : FirstStop outcome queue m) : m = n := by
  obtain ⟨⟨pkt, hget, hstop⟩, hfirst⟩ := hm
  rcases Nat.lt_trichotomy m n with hlt | heq | hgt
  · exact absurd ⟨pkt, hget, hstop⟩ (hbefore m hlt)
  · exact heq
  · rcases hn with hn | hlen
    · exact absurd hn (hfirst n hgt)
    · rw [List.getElem?_eq_none (by omega)] at hget
      cases hget

/-- The window goes on tracking the queue exactly over the steps that keep it. -/
theorem windowTracks_step (hQ : QueueShape s) (hD : HasData s) (ha : DetachingLockTaken s a)
    (hT : WindowTracks s h) (hs : socketMachine.step s a = some (s', e)) :
    WindowTracks s' (h ++ e) ↔ KeepsWindow s a := by
  have horig : s'.so.origReceiveBufferSize = s.so.origReceiveBufferSize := by
    by_cases hdetach : a = .beginDetach
    · subst hdetach
      cases hs
      rfl
    · exact (settings_of_step hs hdetach).origReceiveBufferSize
  unfold WindowTracks at hT ⊢
  rw [horig, receiveBufferSize_append, hT]
  generalize hsize : s.so.origReceiveBufferSize = size
  cases a with
  | queue id =>
    refine iff_of_true ?_ (.inr trivial)
    simp only [socketMachine, SocketState.step] at hs
    split at hs
    · rename_i c hc
      obtain ⟨rfl, rfl⟩ := Prod.mk.inj (Option.some.inj hs)
      obtain ⟨hwaits, hset⟩ := queuePkt_window (hQ.fresh id c (.inr hc)).notMarked ha
      rw [hset]
      show _ = if waitsInbound (s.so.queuePkt c).1.pendingQueue then _ else _
      rw [hwaits]
      cases waitsInbound s.so.pendingQueue <;> cases (s.so.queuePkt c).2.1.pendingPkt.waitsInbound <;> rfl
    · cases hs
  | deliver outcome =>
    obtain ⟨rfl, rfl⟩ := Prod.mk.inj (Option.some.inj hs)
    obtain ⟨n, hstop, hbefore, hleft, hset⟩ := deliverLoop_window outcome s.so.pendingQueue s.so
      ⟨none, KERN_SUCCESS, false, false⟩ (if waitsInbound s.so.pendingQueue then 1 else size) hD.queue
    have hkeeps : KeepsWindow s (.deliver outcome) ↔ size = 1 ∨ (waitsInbound (s.so.pendingQueue.take n) →
        waitsInbound (s.so.pendingQueue.drop n) = false) := by
      refine or_congr (by rw [hsize]) ⟨fun hk => ?_, fun hk m hm => ?_⟩
      · rcases hstop with hstop | hlen
        · exact hk n ⟨hstop, hbefore⟩
        · rw [List.drop_eq_nil_of_le hlen]
          exact fun _ => rfl
      · rw [firstStop_unique hstop hbefore hm]
        exact hk
    show receiveBufferSize _ (deliverLoop _ _ _ _).2.2.2 =
      (if waitsInbound (deliverLoop _ _ _ _).1 then _ else _) ↔ _
    rw [hkeeps, hset, hleft, hsize]
    have hsplit : waitsInbound s.so.pendingQueue =
        (waitsInbound (s.so.pendingQueue.take n) || waitsInbound (s.so.pendingQueue.drop n)) := by
      rw [← waitsInbound_append, List.take_append_drop]
    rw [hsplit]
    cases waitsInbound (s.so.pendingQueue.take n) <;> cases waitsInbound (s.so.pendingQueue.drop n) <;> simp
  | purge purgeType =>
    simp only [socketMachine, SocketState.step] at hs
    split at hs
    · cases hs
    · obtain ⟨rfl, rfl⟩ := Prod.mk.inj (Option.some.inj hs)
      obtain ⟨hq, he, -⟩ := purgeLoop_spec purgeType s.so.pendingQueue s.so
      show receiveBufferSize _ (purgeLoop _ _ _).2.2 = (if waitsInbound (purgeLoop _ _ _).1 then _ else _) ↔ _
      rw [he, purge_silent, hq, waitsInbound_purge, KeepsWindow, hsize]
      cases waitsInbound s.so.pendingQueue <;> cases purgeType.covers true <;> simp [eq_comm]
  | _ =>
    refine iff_of_true ?_ (.inr trivial)
    obtain ⟨hwaits, hsilent⟩ := quiet_of_step hs (by simp) (by simp) (by simp)
    rw [receiveBufferSize_silent hsilent, hwaits]

/-- Over any run in which `FltData` gets the detaching lock, whatever the copies, the client, the clock and
the injections return: the buffer is collapsed in every state exactly while an inbound packet waits, if and
only if every step of the run keeps the window. -/
theorem windowTracks_iff {socketId : NkeSocketID} {as : List SocketLabel}
    (hr : socketMachine.run (SocketState.start socketId size) as = some (s, h))
    (hlock : socketMachine.Along DetachingLockTaken (SocketState.start socketId size) as) :
    (∀ as₁ as₂ s₁ h₁, as = as₁ ++ as₂ →
        socketMachine.run (SocketState.start socketId size) as₁ = some (s₁, h₁) → WindowTracks s₁ h₁) ↔
      socketMachine.Along KeepsWindow (SocketState.start socketId size) as := by
  refine Machine.run_prefixes_iff (fun s h => Custody s h ∧ QueueShape s ∧ HasData s) WindowTracks []
    ⟨custody_start, queueShape_start, hasData_start⟩ rfl ?_ hlock hr
  rintro s h a s' e ⟨hC, hQ, hD⟩ hT ha hs
  exact ⟨⟨hC.step hs, hQ.step hC hs, hD.step hs⟩, windowTracks_step hQ hD ha hT hs⟩

/-- Two inbound packets that found no buffers, and one delivery. -/
def twoPostponed (outcome : Nat → ReportOutcome) : List SocketLabel :=
  [.capture [⟨[7], some ⟨1, none, []⟩, none⟩] [] 0 true true 0,
    .capture [⟨[8], some ⟨1, none, []⟩, none⟩] [] 0 true true 0,
    .copy 0 ENOMEM [UINT8_MAX], .copy 1 ENOMEM [UINT8_MAX], .queue 0, .queue 1, .deliver outcome]

theorem twoPostponed_lock (outcome : Nat → ReportOutcome) :
    socketMachine.Along DetachingLockTaken (SocketState.start ⟨1, 1⟩ 65536) (twoPostponed outcome) :=
  lockTaken_of_attached (by decide) (by simp [twoPostponed])

/-- The client takes both packets. -/
def bothTaken : List SocketLabel :=
  twoPostponed fun _ => ⟨KERN_SUCCESS, [0, UINT8_MAX], KERN_SUCCESS, 0⟩

theorem bothTaken_tracks : ∃ s h,
    socketMachine.run (SocketState.start ⟨1, 1⟩ 65536) bothTaken = some (s, h) ∧ WindowTracks s h := by
  obtain ⟨s, h, hr⟩ : ∃ s h, socketMachine.run (SocketState.start ⟨1, 1⟩ 65536) bothTaken = some (s, h) :=
    ⟨_, _, rfl⟩
  have hkeeps : socketMachine.Along KeepsWindow (SocketState.start ⟨1, 1⟩ 65536) bothTaken := by
    refine Machine.along_of_forall fun a ha s => .inr ?_
    simp only [bothTaken, twoPostponed, List.mem_cons, List.not_mem_nil, or_false] at ha
    rcases ha with rfl | rfl | rfl | rfl | rfl | rfl | rfl <;> try trivial
    rintro n ⟨⟨pkt, -, -, hfails, -⟩, -⟩
    exact absurd rfl hfails
  exact ⟨s, h, hr, (windowTracks_iff hr (twoPostponed_lock _)).2 hkeeps _ [] s h (List.append_nil _).symm hr⟩

/-- The buffers suffice for the first packet only: the size is restored while the second waits. -/
theorem firstTaken_untracked :
    ¬ ∀ as s h, socketMachine.run (SocketState.start ⟨1, 1⟩ 65536) as = some (s, h) →
      socketMachine.Along DetachingLockTaken (SocketState.start ⟨1, 1⟩ 65536) as → WindowTracks s h := by
  intro hall
  obtain ⟨s, h, hr, hwaits, horig, hsize⟩ : ∃ s h, socketMachine.run (SocketState.start ⟨1, 1⟩ 65536)
      (twoPostponed fun i => ⟨if i = 0 then KERN_SUCCESS else ENOMEM, [0, UINT8_MAX], KERN_SUCCESS, 0⟩) =
        some (s, h) ∧ waitsInbound s.so.pendingQueue = true ∧ s.so.origReceiveBufferSize = 65536 ∧
      receiveBufferSize 65536 h = 65536 := ⟨_, _, rfl, rfl, rfl, rfl⟩
  have htracks := hall _ s h hr (twoPostponed_lock _)
  rw [WindowTracks, horig, hsize, hwaits] at htracks
  cases htracks

end NkeFilter
