import NkeFilter.FltData
import NkeFilter.PendingCounters
import NkeFilter.Tag

/-!
# Passing traffic through

`checkForInjectionCompletion` in both modes, and `FltData` from its start for a socket with any capturing
mode. The non-blocking check never returns true: it gives up at the first direction it is asked about without
looking at the counter. So once the capturing is switched off the outbound packets pass, and the inbound ones
are captured as before.
-/

namespace NkeFilter
open Lib NkeSocketFilter

inductive NkeCapturingMode where
  | NkeCapturingModeInvalid
  | NkeCapturingModeAll
  | NkeCapturingModeNothing
  | NkeCapturingModeMax
  deriving DecidableEq, Repr

/-- The socket object with the fields that decide whether a packet is captured. -/
structure CapturingSocket extends NkeSocketObject where
  capturingMode : NkeCapturingMode
  gidtag : Nat

/-- What a call of `checkForInjectionCompletion` comes to in one state: it returns, or it goes to sleep until
the counter of a direction changes. -/
inductive CompletionCheck where
  | returns (result : Bool)
  | sleeps (dataInbound : Bool)
  deriving DecidableEq, Repr

namespace NkeSocketObject

/-- The part of `checkForInjectionCompletion` for one direction; `none`: it goes on behind it. -/
def checkDirection (so : NkeSocketObject) (dataInbound waitForCompletion : Bool) : Option CompletionCheck :=
  if waitForCompletion then
    if so.numberOfPendingPackets dataInbound ≠ 0 then some (.sleeps dataInbound) else none
  else some (.returns false)

def checkForInjectionCompletion (so : NkeSocketObject) (injectType : NkeSocketDataDirectionType)
    (waitForCompletion : Bool) : CompletionCheck :=
  let outbound := injectType = .NkeSocketDataOutbound ∨ injectType = .NkeSocketDataAll
  let inbound := injectType = .NkeSocketDataInbound ∨ injectType = .NkeSocketDataAll
  match if outbound then so.checkDirection false waitForCompletion else none with
  | some ended => ended
  | none => match if inbound then so.checkDirection true waitForCompletion else none with
    | some ended => ended
    | none => .returns true

/-- No packet of the directions in `injectType` is pending. -/
def NonePending (so : NkeSocketObject) (injectType : NkeSocketDataDirectionType) : Prop :=
  ∀ dataInbound, injectType.covers dataInbound → so.numberOfPendingPackets dataInbound = 0

/-- The non-blocking call says whether something is pending, as the blocking one would find out. -/
structure CheckExact (so : NkeSocketObject) (injectType : NkeSocketDataDirectionType) : Prop where
  counters : so.checkForInjectionCompletion injectType false = .returns true ↔ so.NonePending injectType
  blocking : so.checkForInjectionCompletion injectType false = .returns true ↔
    so.checkForInjectionCompletion injectType true = .returns true

end NkeSocketObject

/-- What the calls of `FltData` return up to the end of the capture, and the number of the call. -/
structure FltDataOutcome where
  setTag : SetTagOutcome
  allocated : Bool
  id : Nat
  now : UInt64
  /-- what `socketFilterNotification` returns, `none` without a client -/
  client : Option Errno

/-- How `FltData` ends, with the packet and the socket as they then are. -/
inductive FltDataResult where
  /-- in `checkForInjectionCompletion` -/
  | sleeps (dataInbound : Bool)
  | returns (error : Errno) (data : MbufChain) (so : NkeSocketObject)
  /-- It returns `EJUSTRETURN` after the capture. -/
  | captured (ended : Except Fault FltDataEnd)

namespace CapturingSocket

/-- `FltData` behind the test of the capturing mode. -/
def fltDataCapture (so : CapturingSocket) (f : NkeSocketFilter) (isInboundData : Bool)
    (data control : MbufChain) (flags : UInt32) (o : FltDataOutcome) : FltDataResult :=
  match fltDataTag so.gidtag isInboundData data o.setTag with
  | .bypassed => .returns KERN_SUCCESS data so.toNkeSocketObject
  | .failed data => .returns ENOMEM data so.toNkeSocketObject
  | .tagged data => match so.allocatePkt o.id data control flags isInboundData o.allocated o.now with
    | (none, so) => .returns ENOMEM data so
    | (some pkt, so) => .captured (fltDataCaptured f so pkt o.client)

def FltData (so : CapturingSocket) (f : NkeSocketFilter) (isInboundData : Bool) (data control : MbufChain)
    (flags : UInt32) (o : FltDataOutcome) : FltDataResult :=
  if so.capturingMode = .NkeCapturingModeNothing then
    if !isInboundData then
      match so.checkForInjectionCompletion .NkeSocketDataAll true with
      | .returns _ => .returns KERN_SUCCESS data so.toNkeSocketObject
      | .sleeps dataInbound => .sleeps dataInbound
    else if so.checkForInjectionCompletion .NkeSocketDataAll false = .returns true then
      .returns KERN_SUCCESS data so.toNkeSocketObject
    else so.fltDataCapture f isInboundData data control flags o
  else so.fltDataCapture f isInboundData data control flags o

/-- The packet passes: `FltData` returns zero and leaves it, the queue and the counters as they are. -/
def Passes (so : CapturingSocket) (f : NkeSocketFilter) (isInboundData : Bool) (data control : MbufChain)
    (flags : UInt32) (o : FltDataOutcome) : Prop :=
  so.FltData f isInboundData data control flags o = .returns KERN_SUCCESS data so.toNkeSocketObject

end CapturingSocket

/-! ### The two modes of the check -/

namespace NkeSocketObject
variable {so : NkeSocketObject} {injectType : NkeSocketDataDirectionType}

theorem check_nonblocking : so.checkForInjectionCompletion injectType false = .returns false := by
  cases injectType <;> rfl

theorem check_blocking_iff :
    so.checkForInjectionCompletion injectType true = .returns true ↔ so.NonePending injectType := by
  unfold NonePending
  cases injectType <;>
    by_cases hout : so.numberOfPendingOutPackets = 0 <;> by_cases hin : so.numberOfPendingInPackets = 0 <;>
    simp [checkForInjectionCompletion, checkDirection, numberOfPendingPackets,
      NkeSocketDataDirectionType.covers, hout, hin]

/-- The check is exact as long as its answer is no. -/
theorem checkExact_iff : so.CheckExact injectType ↔ ¬ so.NonePending injectType := by
  have hne : so.checkForInjectionCompletion injectType false ≠ .returns true := by
    rw [check_nonblocking]
    decide
  constructor
  · intro hexact hnone
    exact hne (hexact.counters.2 hnone)
  · intro hpending
    refine ⟨?_, ?_⟩
    · exact iff_of_false hne hpending
    · rw [check_blocking_iff]
      exact iff_of_false hne hpending

/-- In the machine of the waiting threads: a thread that calls alone, with one test for each direction, has
left the function exactly when the check returns without sleeping. -/
theorem check_blocking_run {c : CompletionState} {t : Nat} (ht : c.waits t = []) : ∃ c' e,
    completionMachine.run c
      (.call t injectType :: List.replicate injectType.waitOrder.length (.test t)) = some (c', e) ∧
      (c'.waits t = [] ↔ c.socket.so.checkForInjectionCompletion injectType true = .returns true) := by
  rw [check_blocking_iff]
  unfold NonePending
  cases injectType <;>
    by_cases hout : c.socket.so.numberOfPendingOutPackets = 0 <;>
    by_cases hin : c.socket.so.numberOfPendingInPackets = 0 <;>
    simp [Machine.run, completionMachine, CompletionState.step, ht, NkeSocketDataDirectionType.waitOrder,
      NkeSocketDataDirectionType.covers, numberOfPendingPackets, hout, hin, List.replicate]

end NkeSocketObject

namespace CapturingSocket
variable {so : CapturingSocket} {f : NkeSocketFilter} {isInboundData : Bool} {data control : MbufChain}
  {flags : UInt32} {o : FltDataOutcome}

theorem fltDataTag_bypassed_iff {gidtag : Nat} {o : SetTagOutcome} :
    fltDataTag gidtag isInboundData data o = .bypassed ↔
      checkTag data gidtag NKE_SOCKTAG_ID_TYPE
        (if isInboundData then .NKE_INBOUND_DONE else .NKE_OUTBOUND_DONE) := by
  unfold fltDataTag
  generalize (if isInboundData then NKE_PACKETPROCFLAGS.NKE_INBOUND_DONE else .NKE_OUTBOUND_DONE) = value
  by_cases htag : checkTag data gidtag NKE_SOCKTAG_ID_TYPE value
  · exact iff_of_true (if_pos htag) htag
  · refine iff_of_false ?_ htag
    rw [if_neg htag]
    dsimp only
    split <;> exact nofun

/-- Behind the test of the mode a packet passes only with the tag of an earlier call. -/
theorem fltDataCapture_passes_iff :
    so.fltDataCapture f isInboundData data control flags o =
        .returns KERN_SUCCESS data so.toNkeSocketObject ↔
      checkTag data so.gidtag NKE_SOCKTAG_ID_TYPE
        (if isInboundData then .NKE_INBOUND_DONE else .NKE_OUTBOUND_DONE) := by
  have hne : ENOMEM ≠ KERN_SUCCESS := by decide
  rw [← fltDataTag_bypassed_iff (o := o.setTag), fltDataCapture]
  cases fltDataTag so.gidtag isInboundData data o.setTag with
  | bypassed => exact iff_of_true rfl rfl
  | failed data' =>
    refine iff_of_false ?_ nofun
    exact fun heq => hne (FltDataResult.returns.inj heq).1
  | tagged data' =>
    refine iff_of_false ?_ nofun
    dsimp only
    split
    · exact fun heq => hne (FltDataResult.returns.inj heq).1
    · exact nofun

theorem passes_iff (hmode : so.capturingMode = .NkeCapturingModeNothing)
    (hnone : so.NonePending .NkeSocketDataAll) :
    so.Passes f isInboundData data control flags o ↔
      isInboundData = false ∨ checkTag data so.gidtag NKE_SOCKTAG_ID_TYPE .NKE_INBOUND_DONE := by
  unfold Passes FltData
  rw [if_pos hmode]
  cases isInboundData with
  | false =>
    have hblocking := NkeSocketObject.check_blocking_iff.2 hnone
    simp [hblocking]
  | true =>
    have hnot : so.checkForInjectionCompletion .NkeSocketDataAll false ≠ .returns true := by
      rw [NkeSocketObject.check_nonblocking]
      decide
    simp only [Bool.not_true, Bool.false_eq_true, if_false, if_neg hnot, false_or, Bool.true_eq_false]
    exact fltDataCapture_passes_iff

/-- The non-blocking check is exact unless nothing is pending. With the capturing switched off and nothing
pending, an outbound packet passes, and an inbound one exactly when an earlier call tagged it. -/
theorem passThrough_iff (so : CapturingSocket) :
    (∀ injectType, so.CheckExact injectType ↔ ¬ so.NonePending injectType) ∧
      (so.capturingMode = .NkeCapturingModeNothing → so.NonePending .NkeSocketDataAll →
        ∀ f isInboundData data control flags o, so.Passes f isInboundData data control flags o ↔
          isInboundData = false ∨ checkTag data so.gidtag NKE_SOCKTAG_ID_TYPE .NKE_INBOUND_DONE) :=
  ⟨fun _ => NkeSocketObject.checkExact_iff, fun hmode hnone _ _ _ _ _ _ => passes_iff hmode hnone⟩

/-- A new socket whose capturing is switched off. -/
def silent : CapturingSocket :=
  { NkeSocketObject.withSocket ⟨1, 1⟩ 65536 with capturingMode := .NkeCapturingModeNothing, gidtag := 1 }

theorem silent_nonePending (injectType : NkeSocketDataDirectionType) : silent.NonePending injectType := by
  intro dataInbound _
  cases dataInbound <;> rfl

/-- All calls succeed. -/
def allSucceed : FltDataOutcome := ⟨⟨⟨0, 0⟩, 0, ⟨0, 0⟩⟩, true, 0, 0, some KERN_SUCCESS⟩

theorem silent_passes : silent.Passes (withDefault (· < 1)) false (plainPkt 1).data [] 0 allSucceed :=
  ((passThrough_iff silent).2 rfl (silent_nonePending _) _ _ _ _ _ _).2 (.inl rfl)

/-- Its inbound packets are captured, because the check denies that nothing is pending. -/
theorem silent_captures : ¬ silent.CheckExact .NkeSocketDataAll ∧
    ¬ silent.Passes (withDefault (· < 1)) true (plainPkt 1).data [] 0 allSucceed := by
  refine ⟨?_, ?_⟩
  · exact fun hexact => NkeSocketObject.checkExact_iff.1 hexact (silent_nonePending _)
  · intro hpasses
    rcases (passes_iff rfl (silent_nonePending _)).1 hpasses with h | h
    · cases h
    · exact absurd h (by decide)

end CapturingSocket
end NkeFilter
