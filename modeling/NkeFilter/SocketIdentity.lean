import NkeFilter.SocketsList

/-!
# Socket addresses and sequence numbers

The kernel reuses the addresses of sockets. An object is told from the objects that had its address before by
its sequence number, which `withSocket` takes from a 32-bit counter and widens to 64 bits with its sign. As
long as the counter has not come round, an answer for one object is never applied to another. At most one of
the objects in `SocketsList` has a given address, unless two `FltAttach` for the address overlap.
-/

namespace NkeFilter
open Lib NkeSocketObject

variable {w w' : FilterState} {a : FilterLabel} {e : List FilterEvent} {thread object object' : Nat}
  {s s' : SocketState} {label : SocketLabel} {phase phase' : FilterPhase} {attach : AttachCall} {so : UInt64}

/-! ### Sequence numbers -/

/-- The sequence number of the object that is created after `n` others. -/
def sequenceNumber (n : Nat) : UInt64 := (Int32.ofNat (n + 1)).toInt64.toUInt64

theorem ofNat_of_widened {i j : Nat} (hi : i < 2 ^ 32) (hj : j < 2 ^ 32)
    (h : (Int32.ofNat i).toInt64.toUInt64 = (Int32.ofNat j).toInt64.toUInt64) : i = j := by
  have hsigned := congrArg UInt64.toInt64 h
  rw [Int64.toInt64_toUInt64, Int64.toInt64_toUInt64] at hsigned
  have hint := congrArg Int64.toInt hsigned
  rw [Int32.toInt_toInt64, Int32.toInt_toInt64, Int32.toInt_ofNat', Int32.toInt_ofNat'] at hint
  have hmod := congrArg (· % (Int32.size : Int)) hint
  have hsize : (Int32.size : Int) = 2 ^ 32 := rfl
  simp only [Int.bmod_emod] at hmod
  rw [hsize] at hmod
  omega

theorem sequenceNumber_inj {i j : Nat} (hi : i + 1 < 2 ^ 32) (hj : j + 1 < 2 ^ 32)
    (h : sequenceNumber i = sequenceNumber j) : i = j :=
  Nat.succ.inj (ofNat_of_widened hi hj h)

theorem sequenceNumber_ne_zero {i : Nat} (hi : i + 1 < 2 ^ 32) : sequenceNumber i ≠ 0 := by
  intro h
  have hzero : sequenceNumber i = (Int32.ofNat 0).toInt64.toUInt64 := h
  exact absurd (ofNat_of_widened hi (by decide) hzero) (Nat.succ_ne_zero i)

structure Numbered (w : FilterState) : Prop where
  counter : w.gSocketSequence = Int32.ofNat (w.objects.length + 1)
  sequence : ∀ object id, w.socketId object = some id → id.socketSequence = sequenceNumber object

theorem create_socketId (object : Nat) : (w.withSocket attach).socketId object =
    if object = w.objects.length then some ⟨attach.so, w.gSocketSequence.toInt64.toUInt64⟩
    else w.socketId object := by
  show (w.objects ++ [_])[object]?.map _ = _
  rcases Nat.lt_trichotomy object w.objects.length with hlt | rfl | hgt
  · rw [List.getElem?_append_left hlt, if_neg (Nat.ne_of_lt hlt)]
    rfl
  · rw [List.getElem?_concat_length, if_pos rfl]
    rfl
  · rw [List.getElem?_eq_none (by simpa using hgt), if_neg (Nat.ne_of_gt hgt), FilterState.socketId,
      List.getElem?_eq_none hgt.le]

theorem socketId_congr (h : w'.objects = w.objects) : w'.socketId object = w.socketId object := by
  rw [FilterState.socketId, FilterState.socketId, h]

theorem Numbered.step (hN : Numbered w) (hs : SocketsStep w a w') : Numbered w' := by
  have hsame : w'.gSocketSequence = w.gSocketSequence → w'.objects.length = w.objects.length →
      (∀ object, w'.socketId object = w.socketId object) → Numbered w' := by
    intro hcounter hlength hid
    refine ⟨by rw [hcounter, hlength, hN.counter], ?_⟩
    intro object id h
    exact hN.sequence object id (hid object ▸ h)
  cases hs with
  | stay h => exact hsame h.gSocketSequence h.length h.socketId
  | move _ h => exact hsame h.gSocketSequence h.length h.socketId
  | begin _ _ h => exact hsame h.gSocketSequence h.length h.socketId
  | attached _ _ h => exact hsame h.gSocketSequence h.length h.socketId
  | @create thread attach _ _ hw =>
    subst hw
    refine ⟨?_, ?_⟩
    · show w.gSocketSequence + 1 = Int32.ofNat ((w.objects ++ [_]).length + 1)
      rw [hN.counter, List.length_append, List.length_singleton]
      exact (Int32.ofNat_add (w.objects.length + 1) 1).symm
    · intro object id h
      have h : (w.withSocket attach).socketId object = some id := h
      rw [create_socketId] at h
      split at h
      · rename_i heq
        obtain rfl := Option.some.inj h
        rw [heq, hN.counter]
        rfl
      · exact hN.sequence object id h
  | @insert _ object _ _ hw =>
    subst hw
    refine hsame ?_ (congrArg List.length insert_objects) fun _ => socketId_congr insert_objects
    show (w.insertInSocketsList object).gSocketSequence = _
    unfold FilterState.insertInSocketsList
    split <;> rfl
  | @remove _ object _ _ _ hw =>
    subst hw
    refine hsame ?_ (congrArg List.length remove_objects) fun _ => socketId_congr remove_objects
    show (w.removeFromSocketsList object).gSocketSequence = _
    unfold FilterState.removeFromSocketsList
    split <;> rfl

theorem numbered_of_reachable (hr : filterMachine.Reachable .start w) : Numbered w := by
  refine hr.invariant ⟨rfl, ?_⟩ fun _ _ _ _ hN hs => hN.step (FilterState.step_inv hs).sockets
  intro object id h
  cases h

/-! ### Addresses -/

def FilterState.socketAddress (w : FilterState) (object : Nat) : Option UInt64 :=
  (w.socketId object).map fun id => id.socket

/-- The address for which the thread is in `FltAttach`. -/
def FilterState.attachAddress (w : FilterState) (thread : Nat) : Option UInt64 :=
  match (w.threads thread).attach with
  | some attach => some attach.so
  | none => (w.threads thread).attaching.bind w.socketAddress

/-- No `FltAttach` starts while another one for the same address is in progress. -/
def FilterState.NoOverlap (w : FilterState) : FilterLabel → Prop
  | .fltAttach thread attach => ∀ thread', thread' ≠ thread → w.attachAddress thread' ≠ some attach.so
  | _ => True

/-- What a `FltAttach` has made sure of. -/
def FilterState.Cleared (w : FilterState) : FilterPhase → Prop
  | .attachCreate attach => ∀ object ∈ w.socketsList, w.socketAddress object ≠ some attach.so
  | .attachInsert object => ∀ object' ∈ w.socketsList, w.socketAddress object' ≠ w.socketAddress object
  | .detach _ object (some attach) | .attachOld object attach =>
    ∀ object' ∈ w.socketsList, w.socketAddress object' = some attach.so → object' = object
  | _ => True

structure Unshared (w : FilterState) : Prop where
  alone : ∀ thread thread' so, w.attachAddress thread = some so → w.attachAddress thread' = some so →
    thread = thread'
  unique : ∀ object ∈ w.socketsList, ∀ object' ∈ w.socketsList,
    w.socketAddress object = w.socketAddress object' → object = object'
  cleared : ∀ thread, w.Cleared (w.threads thread)

theorem getSocketObject_none (h : w.getSocketObject so = none) (hmem : object ∈ w.socketsList) :
    w.socketAddress object ≠ some so := by
  intro haddr
  have hnot := List.find?_eq_none.1 h object hmem
  unfold FilterState.socketAddress FilterState.socketId at haddr
  rw [Option.map_map, Option.map_eq_some_iff] at haddr
  obtain ⟨s, hobj, hso⟩ := haddr
  rw [hobj] at hnot
  exact hnot (by simpa using hso)

theorem Cleared.mono (hC : w.Cleared phase) (hlist : ∀ object, object ∈ w'.socketsList → object ∈ w.socketsList)
    (haddr : ∀ object ∈ w'.socketsList, w'.socketAddress object = w.socketAddress object)
    (hself : ∀ object, phase = .attachInsert object → w'.socketAddress object = w.socketAddress object) :
    w'.Cleared phase := by
  cases phase with
  | attachCreate attach =>
    intro object hmem
    rw [haddr object hmem]
    exact hC object (hlist object hmem)
  | attachInsert object =>
    intro object' hmem
    rw [haddr object' hmem, hself object rfl]
    exact hC object' (hlist object' hmem)
  | detach step object resume =>
    cases resume with
    | none => trivial
    | some attach =>
      intro object' hmem h
      rw [haddr object' hmem] at h
      exact hC object' (hlist object' hmem) h
  | attachOld object attach =>
    intro object' hmem h
    rw [haddr object' hmem] at h
    exact hC object' (hlist object' hmem) h
  | _ => trivial

theorem Follows.cleared (h : Follows w a phase phase') (hk : w.Knows phase) (hR : Registered w)
    (hC : w.Cleared phase) : w.Cleared phase' := by
  cases phase' with
  | attachInsert object => cases h.attaching
  | attachCreate attach =>
    intro object hmem
    rcases h.create attach rfl with ⟨old, rfl⟩ | hnone
    · -- the old object was the only one, and is not in the list any more
      intro haddr
      obtain rfl := hC object hmem haddr
      rw [hR.mem_iff, hk.2] at hmem
      cases hmem
    · exact getSocketObject_none hnone hmem
  | detach step object resume =>
    obtain ⟨step', rfl, -⟩ := h.detach step object resume rfl
    cases resume with
    | none => trivial
    | some attach => exact hC
  | attachOld object attach =>
    obtain rfl := h.old object attach rfl
    exact hC
  | _ => trivial

theorem attachAddress_eq (hp : w'.threads thread = w.threads thread)
    (haddr : ∀ object, (w.threads thread).attaching = some object →
      w'.socketAddress object = w.socketAddress object) : w'.attachAddress thread = w.attachAddress thread := by
  unfold FilterState.attachAddress
  rw [hp]
  split
  · rfl
  · cases hatt : (w.threads thread).attaching with
    | none => rfl
    | some object => exact haddr object hatt

theorem socketAddress_congr (h : w'.socketId object = w.socketId object) :
    w'.socketAddress object = w.socketAddress object :=
  congrArg (Option.map NkeSocketID.socket) h

theorem create_socketAddress (hlt : object < w.objects.length) :
    ((w.withSocket attach).go thread phase).socketAddress object = w.socketAddress object :=
  socketAddress_congr ((create_socketId object).trans (if_neg (Nat.ne_of_lt hlt)))

theorem create_socketAddress_self :
    ((w.withSocket attach).go thread phase).socketAddress w.objects.length = some attach.so := by
  show Option.map _ ((w.withSocket attach).socketId w.objects.length) = _
  rw [create_socketId, if_pos rfl]
  rfl

/-- The objects that are there keep their identity. -/
theorem SocketsStep.socketId (hs : SocketsStep w a w') (hlt : object < w.objects.length) :
    w'.socketId object = w.socketId object := by
  cases hs with
  | stay h => exact h.socketId object
  | move _ h => exact h.socketId object
  | begin _ _ h => exact h.socketId object
  | attached _ _ h => exact h.socketId object
  | create _ _ hw => exact hw ▸ (create_socketId object).trans (if_neg (Nat.ne_of_lt hlt))
  | insert _ _ hw => exact hw ▸ socketId_congr insert_objects
  | remove _ _ hw => exact hw ▸ socketId_congr remove_objects

theorem SocketsStep.socketAddress (hs : SocketsStep w a w') (hlt : object < w.objects.length) :
    w'.socketAddress object = w.socketAddress object :=
  socketAddress_congr (hs.socketId hlt)

theorem SocketsStep.attachAddress_inv (hs : SocketsStep w a w') (hR : Registered w)
    (h : w'.attachAddress thread = some so) :
    w.attachAddress thread = some so ∨ ∃ attach, a = .fltAttach thread attach ∧ attach.so = so := by
  have hkeep : w'.threads thread = w.threads thread → w.attachAddress thread = some so := by
    intro hp
    rw [← attachAddress_eq hp fun object hatt => hs.socketAddress (hR.attaching thread object hatt)]
    exact h
  -- the thread goes on with the call it is in
  have hgoes : ∀ {phase}, w'.threads thread = phase → phase.attaching = none →
      (∀ attach, phase.attach = some attach →
        (w.threads thread).attach = some attach ∨ a = .fltAttach thread attach) →
      w.attachAddress thread = some so ∨ ∃ attach, a = .fltAttach thread attach ∧ attach.so = so := by
    rintro phase rfl hatt hattach
    unfold FilterState.attachAddress at h
    split at h
    · rename_i attach heq
      rcases hattach attach heq with hold | hlabel
      · refine .inl ?_
        rw [FilterState.attachAddress, hold]
        exact h
      · exact .inr ⟨attach, hlabel, Option.some.inj h⟩
    · rw [hatt] at h
      cases h
  cases hs with
  | stay _ hthreads => exact .inl (hkeep (congrFun hthreads thread))
  | @move thread' phase hlabel _ hthreads hfollows =>
    rcases threads_inv hthreads thread with ⟨rfl, hp⟩ | ⟨-, hp⟩
    · refine hgoes hp hfollows.attaching ?_
      intro attach hattach
      refine (hfollows.attach attach hattach).imp_right ?_
      rintro ⟨thread', rfl⟩
      obtain rfl := Option.some.inj hlabel
      rfl
    · exact .inl (hkeep hp)
  | @begin thread' object phase hlabel hbegins _ hthreads =>
    rcases threads_inv hthreads thread with ⟨rfl, hp⟩ | ⟨-, hp⟩
    · cases hbegins with
      | called => exact hgoes hp rfl nofun
      | forced hfind =>
        obtain rfl := Option.some.inj hlabel
        refine hgoes hp rfl fun attach hattach => .inl ?_
        rw [hfind]
        exact hattach
    · exact .inl (hkeep hp)
  | attached _ _ _ hthreads =>
    rcases threads_inv hthreads thread with ⟨rfl, hp⟩ | ⟨-, hp⟩
    · exact hgoes hp rfl nofun
    · exact .inl (hkeep hp)
  | @create thread' attach _ hcreate hw =>
    have hthreads : w'.threads = Function.update w.threads thread' (.attachInsert w.objects.length) := by
      rw [hw]
      rfl
    rcases threads_inv hthreads thread with ⟨rfl, hp⟩ | ⟨-, hp⟩
    · refine .inl ?_
      rw [FilterState.attachAddress, hp] at h
      rw [FilterState.attachAddress, hcreate]
      refine Eq.trans ?_ h
      rw [hw]
      exact create_socketAddress_self.symm
    · exact .inl (hkeep hp)
  | @insert thread' object _ hinsert hw =>
    have hthreads : w'.threads = Function.update w.threads thread' (.attachReturn object) := hw ▸ insert_threads
    rcases threads_inv hthreads thread with ⟨rfl, hp⟩ | ⟨-, hp⟩
    · refine .inl ?_
      rw [FilterState.attachAddress, hp] at h
      rw [FilterState.attachAddress, hinsert]
      refine Eq.trans ?_ h
      rw [hw]
      exact (socketAddress_congr (socketId_congr insert_objects)).symm
    · exact .inl (hkeep hp)
  | @remove thread' object resume _ hremove hw =>
    have hthreads : w'.threads = Function.update w.threads thread'
      (.detach (.removeFromSocketsListToReport (w.insertedInSocketsList object)) object resume) :=
        hw ▸ remove_threads
    rcases threads_inv hthreads thread with ⟨rfl, hp⟩ | ⟨-, hp⟩
    · refine hgoes hp rfl fun attach hattach => .inl ?_
      rw [hremove]
      exact hattach
    · exact .inl (hkeep hp)

theorem Unshared.alone_step (hU : Unshared w) (hC : w.NoOverlap a) (hs : SocketsStep w a w') (hR : Registered w)
    (thread₁ thread₂ : Nat) (so : UInt64) (h₁ : w'.attachAddress thread₁ = some so)
    (h₂ : w'.attachAddress thread₂ = some so) : thread₁ = thread₂ := by
  by_contra hne
  rcases hs.attachAddress_inv hR h₁ with h₁ | ⟨attach, rfl, rfl⟩ <;>
    rcases hs.attachAddress_inv hR h₂ with h₂ | ⟨attach', hlabel, hso⟩
  · exact hne (hU.alone thread₁ thread₂ so h₁ h₂)
  · subst hlabel hso
    exact hC thread₁ hne h₁
  · exact hC thread₂ (Ne.symm hne) h₂
  · cases hlabel
    exact hne rfl

/-- Only the object of a thread that is to insert it comes into the list. -/
theorem SocketsStep.mem_inv (hs : SocketsStep w a w') (hmem : object ∈ w'.socketsList) :
    object ∈ w.socketsList ∨ ∃ thread, w.threads thread = .attachInsert object ∧
      w'.threads = Function.update w.threads thread (.attachReturn object) := by
  cases hs with
  | stay h => exact .inl (h.socketsList ▸ hmem)
  | move _ h => exact .inl (h.socketsList ▸ hmem)
  | begin _ _ h => exact .inl (h.socketsList ▸ hmem)
  | attached _ _ h => exact .inl (h.socketsList ▸ hmem)
  | create _ _ hw =>
    subst hw
    exact .inl hmem
  | @insert thread object' _ hp hw =>
    subst hw
    have hmem : object ∈ (w.insertInSocketsList object').socketsList := hmem
    unfold FilterState.insertInSocketsList at hmem
    split at hmem
    · exact .inl hmem
    · rcases List.mem_cons.1 hmem with rfl | hmem
      · exact .inr ⟨thread, hp, insert_threads⟩
      · exact .inl hmem
  | @remove _ object' _ _ _ hw =>
    subst hw
    have hmem : object ∈ (w.removeFromSocketsList object').socketsList := hmem
    unfold FilterState.removeFromSocketsList at hmem
    split at hmem
    · exact .inl (List.mem_of_mem_erase hmem)
    · exact .inl hmem

theorem Registered.lt_of_mem (hR : Registered w) (hmem : object ∈ w.socketsList) : object < w.objects.length :=
  hR.known object (.inr (.inr ((hR.mem_iff object).1 hmem)))

theorem Registered.lt_of_insert (hR : Registered w) (hp : w.threads thread = .attachInsert object) :
    object < w.objects.length :=
  hR.attaching thread object (by rw [hp]; rfl)

theorem Unshared.unique_step (hU : Unshared w) (hs : SocketsStep w a w') (hR : Registered w)
    (hmem : object ∈ w'.socketsList) (hmem' : object' ∈ w'.socketsList)
    (heq : w'.socketAddress object = w'.socketAddress object') : object = object' := by
  rcases hs.mem_inv hmem with hold | ⟨thread, hp, hthreads⟩ <;>
    rcases hs.mem_inv hmem' with hold' | ⟨thread', hp', hthreads'⟩
  · rw [hs.socketAddress (hR.lt_of_mem hold), hs.socketAddress (hR.lt_of_mem hold')] at heq
    exact hU.unique object hold object' hold' heq
  · rw [hs.socketAddress (hR.lt_of_mem hold), hs.socketAddress (hR.lt_of_insert hp')] at heq
    have hcleared := hU.cleared thread'
    rw [hp'] at hcleared
    exact absurd heq (hcleared object hold)
  · rw [hs.socketAddress (hR.lt_of_insert hp), hs.socketAddress (hR.lt_of_mem hold')] at heq
    have hcleared := hU.cleared thread
    rw [hp] at hcleared
    exact absurd heq.symm (hcleared object' hold')
  · -- both are the object that the step inserts
    have hself : w'.threads thread = .attachReturn object := hthreads ▸ Function.update_self ..
    rcases threads_inv hthreads' thread with ⟨-, h⟩ | ⟨-, h⟩
    · cases hself.symm.trans h
      rfl
    · rw [hself, hp] at h
      cases h

/-- A thread that an insertion does not concern is in `FltAttach` for another address. -/
theorem Unshared.cleared_insert (hU : Unshared w) (hR : Registered w) {thread' : Nat}
    (hp : w.threads thread = .attachInsert object) (hne : thread' ≠ thread) :
    (w.insertInSocketsList object).Cleared (w.threads thread') := by
  have hlt := hR.lt_of_insert hp
  obtain ⟨so, haddr⟩ : ∃ so, w.socketAddress object = some so := by
    unfold FilterState.socketAddress FilterState.socketId
    rw [List.getElem?_eq_getElem hlt]
    exact ⟨_, rfl⟩
  have hmine : w.attachAddress thread = some so := by
    rw [FilterState.attachAddress, hp]
    exact haddr
  have hother : w.attachAddress thread' ≠ some so := fun h => hne (hU.alone thread' thread so h hmine)
  have hsame : ∀ object', (w.insertInSocketsList object).socketAddress object' = w.socketAddress object' :=
    fun object' => socketAddress_congr (socketId_congr (@insert_objects w thread object .idle))
  have hmem : ∀ object', object' ∈ (w.insertInSocketsList object).socketsList →
      object' = object ∨ object' ∈ w.socketsList := by
    intro object' h
    unfold FilterState.insertInSocketsList at h
    split at h
    · exact .inr h
    · exact List.mem_cons.1 h
  have hC := hU.cleared thread'
  unfold FilterState.attachAddress at hother
  generalize w.threads thread' = phase at hC hother
  cases phase with
  | attachCreate attach =>
    intro object' h
    rw [hsame]
    rcases hmem object' h with rfl | h
    · rw [haddr]
      exact hother.symm
    · exact hC object' h
  | attachInsert object₁ =>
    intro object' h
    rw [hsame, hsame]
    rcases hmem object' h with rfl | h
    · rw [haddr]
      exact hother.symm
    · exact hC object' h
  | detach step object₁ resume =>
    cases resume with
    | none => trivial
    | some attach =>
      intro object' h hso
      rw [hsame] at hso
      rcases hmem object' h with rfl | h
      · rw [haddr] at hso
        exact absurd hso.symm hother
      · exact hC object' h hso
  | attachOld object₁ attach =>
    intro object' h hso
    rw [hsame] at hso
    rcases hmem object' h with rfl | h
    · rw [haddr] at hso
      exact absurd hso.symm hother
    · exact hC object' h hso
  | _ => trivial

theorem Unshared.cleared_step (hU : Unshared w) (hs : SocketsStep w a w') (hR : Registered w) (thread' : Nat) :
    w'.Cleared (w'.threads thread') := by
  have hmono : ∀ {phase}, w.Cleared phase → (∀ object, object ∈ w'.socketsList → object ∈ w.socketsList) →
      (∀ object, phase = .attachInsert object → object < w.objects.length) → w'.Cleared phase := by
    intro phase hC hlist hlt
    exact Cleared.mono hC hlist (fun object hmem => hs.socketAddress (hR.lt_of_mem (hlist object hmem)))
      fun object h => hs.socketAddress (hlt object h)
  have hkeep : ∀ thread, (∀ object, object ∈ w'.socketsList → object ∈ w.socketsList) →
      w'.Cleared (w.threads thread) := fun thread hlist =>
    hmono (hU.cleared thread) hlist fun object h => hR.lt_of_insert h
  cases hs with
  | stay h hthreads =>
    rw [hthreads]
    exact hkeep thread' fun _ hmem => h.socketsList ▸ hmem
  | @move thread phase _ h hthreads hfollows =>
    have hlist : ∀ object, object ∈ w'.socketsList → object ∈ w.socketsList :=
      fun _ hmem => h.socketsList ▸ hmem
    rcases threads_inv hthreads thread' with ⟨rfl, hp⟩ | ⟨-, hp⟩
    · rw [hp]
      refine hmono (hfollows.cleared (hR.knows thread') hR (hU.cleared thread')) hlist ?_
      rintro object rfl
      cases hfollows.attaching
    · exact hp ▸ hkeep thread' hlist
  | @begin thread object phase hlabel hbegins h hthreads =>
    have hlist : ∀ object, object ∈ w'.socketsList → object ∈ w.socketsList :=
      fun _ hmem => h.socketsList ▸ hmem
    rcases threads_inv hthreads thread' with ⟨rfl, hp⟩ | ⟨-, hp⟩
    · rw [hp]
      refine hmono ?_ hlist ?_
      · cases hbegins with
        | called => trivial
        | forced hfind hfound =>
          obtain ⟨hmem, id, hid, hso⟩ := mem_of_getSocketObject hfound
          intro object' hmem' haddr
          refine hU.unique object' hmem' object hmem (haddr.trans ?_)
          rw [FilterState.socketAddress, hid, Option.map_some, hso]
      · intro object' heq
        obtain ⟨resume, rfl⟩ := hbegins.phase_detach
        cases heq
    · exact hp ▸ hkeep thread' hlist
  | @attached thread object _ _ h hthreads =>
    rcases threads_inv hthreads thread' with ⟨rfl, hp⟩ | ⟨-, hp⟩
    · rw [hp]
      trivial
    · exact hp ▸ hkeep thread' fun _ hmem => h.socketsList ▸ hmem
  | @create thread attach _ hcreate hw =>
    have hthreads : w'.threads = Function.update w.threads thread (.attachInsert w.objects.length) := by
      rw [hw]
      rfl
    have hlist : ∀ object, object ∈ w'.socketsList → object ∈ w.socketsList := by
      rw [hw]
      exact fun _ hmem => hmem
    rcases threads_inv hthreads thread' with ⟨rfl, hp⟩ | ⟨-, hp⟩
    · have hcleared := hU.cleared thread'
      rw [hcreate] at hcleared
      rw [hp]
      intro object' hmem
      have hold := hlist object' hmem
      rw [hw, create_socketAddress (hR.lt_of_mem hold), create_socketAddress_self]
      exact hcleared object' hold
    · exact hp ▸ hkeep thread' hlist
  | @insert thread object _ hinsert hw =>
    have hthreads : w'.threads = Function.update w.threads thread (.attachReturn object) := hw ▸ insert_threads
    rcases threads_inv hthreads thread' with ⟨rfl, hp⟩ | ⟨hne, hp⟩
    · rw [hp]
      trivial
    · rw [hp, hw]
      exact hU.cleared_insert hR hinsert hne
  | @remove thread object resume _ hremove hw =>
    have hthreads : w'.threads = Function.update w.threads thread
      (.detach (.removeFromSocketsListToReport (w.insertedInSocketsList object)) object resume) :=
        hw ▸ remove_threads
    have hlist : ∀ object, object ∈ w'.socketsList → object ∈ w.socketsList := by
      intro object' hmem
      rw [hw] at hmem
      have hmem : object' ∈ (w.removeFromSocketsList object).socketsList := hmem
      unfold FilterState.removeFromSocketsList at hmem
      split at hmem
      · exact List.mem_of_mem_erase hmem
      · exact hmem
    rcases threads_inv hthreads thread' with ⟨rfl, hp⟩ | ⟨-, hp⟩
    · have hcleared := hkeep thread' hlist
      rw [hremove] at hcleared
      rw [hp]
      cases resume with
      | none => trivial
      | some attach => exact hcleared
    · exact hp ▸ hkeep thread' hlist

theorem Unshared.step (hU : Unshared w) (hC : w.NoOverlap a) (hs : SocketsStep w a w') (hR : Registered w) :
    Unshared w' :=
  ⟨hU.alone_step hC hs hR, fun _ hmem _ hmem' => hU.unique_step hs hR hmem hmem', hU.cleared_step hs hR⟩

theorem unshared_start : Unshared .start := by
  refine ⟨?_, ?_, fun _ => trivial⟩
  · intro thread thread' so h
    cases h
  · intro object h
    cases h

theorem unshared_of_run {as : List FilterLabel} {h : List FilterEvent}
    (hr : filterMachine.run .start as = some (w, h))
    (hC : filterMachine.Along FilterState.NoOverlap .start as) :
    Unshared w :=
  (Machine.run_induction (fun w _ => filterMachine.Reachable .start w ∧ Unshared w) []
    ⟨.refl, unshared_start⟩ (fun _ _ _ _ _ hI hC hs => ⟨hI.1.step hs, hI.2.step hC
      (FilterState.step_inv hs).sockets (registered_of_reachable hI.1)⟩) hC hr).2

/-! ### Answers -/

/-- The object that a thread has found for its property has the address the property names, and behind the
comparison the sequence number as well. -/
def Found (w : FilterState) : Prop :=
  ∀ thread step object property, w.threads thread = .respond step object property →
    ∃ id, w.socketId object = some id ∧ id.socket = property.socketId.socket ∧
      (step = .reinjectDeferredData ∨ step = .injecting →
        id.socketSequence = property.socketId.socketSequence)

theorem socketId_of_object (hobj : w.objects[object]? = some s) : w.socketId object = some s.so.socketId := by
  rw [FilterState.socketId, hobj]
  rfl

theorem lt_of_socketId {id : NkeSocketID} (h : w.socketId object = some id) : object < w.objects.length := by
  obtain ⟨s, hobj, -⟩ := Option.map_eq_some_iff.1 h
  exact (List.getElem?_eq_some_iff.1 hobj).1

theorem Found.update (hF : Found w) (hs : SocketsStep w a w')
    (hthreads : w'.threads = Function.update w.threads thread phase)
    (hphase : ∀ step object property, phase = .respond step object property →
      ∃ id, w.socketId object = some id ∧ id.socket = property.socketId.socket ∧
        (step = .reinjectDeferredData ∨ step = .injecting →
          id.socketSequence = property.socketId.socketSequence)) :
    Found w' := by
  intro thread' step object property hp
  obtain ⟨id, hid, hrest⟩ : ∃ id, w.socketId object = some id ∧ id.socket = property.socketId.socket ∧
      (step = .reinjectDeferredData ∨ step = .injecting →
        id.socketSequence = property.socketId.socketSequence) := by
    rcases threads_inv hthreads thread' with ⟨-, heq⟩ | ⟨-, heq⟩
    · exact hphase step object property (heq.symm.trans hp)
    · exact hF thread' step object property (heq.symm.trans hp)
  exact ⟨id, (hs.socketId (lt_of_socketId hid)).trans hid, hrest⟩

theorem Found.step (hF : Found w) (hs : FilterStep w a w' e) : Found w' := by
  have hsockets := hs.sockets
  have hsame : w'.threads = w.threads → Found w' := by
    intro heq thread step object property hp
    obtain ⟨id, hid, hrest⟩ := hF thread step object property (heq ▸ hp)
    exact ⟨id, (hsockets.socketId (lt_of_socketId hid)).trans hid, hrest⟩
  cases hs with
  | nothing => exact hF
  | @move _ _ thread _ _ _ hmove _ hthreads =>
    refine hF.update hsockets hthreads ?_
    rintro step object property rfl
    have hbefore := hF thread
    generalize w.threads thread = old at hmove hbefore
    cases hmove with
    | respond _ hfound =>
      obtain ⟨-, id, hid, hso⟩ := mem_of_getSocketObject hfound
      exact ⟨id, hid, hso, by rintro (h | h) <;> cases h⟩
    | mismatch =>
      obtain ⟨id, hid, hso, -⟩ := hbefore _ object property rfl
      exact ⟨id, hid, hso, by rintro (h | h) <;> cases h⟩
  | begin _ hbegins _ hthreads =>
    refine hF.update hsockets hthreads ?_
    rintro step object property rfl
    obtain ⟨resume, heq⟩ := hbegins.phase_detach
    cases heq
  | detached _ hphase _ hthreads _ =>
    refine hF.update hsockets hthreads ?_
    rintro step object property rfl
    rcases hphase with heq | ⟨attach, -, heq⟩ <;> cases heq
  | attached _ _ hthreads _ => exact hF.update hsockets hthreads nofun
  | @act _ thread _ _ _ _ _ _ hobj hacts _ =>
    refine hF.update hsockets rfl ?_
    rintro step object property rfl
    have hbefore := hF thread
    generalize w.threads thread = old at hacts hbefore
    cases hacts with
    | property hseq =>
      obtain ⟨id, hid, hso, -⟩ := hbefore _ _ property rfl
      obtain rfl := Option.some.inj ((socketId_of_object hobj).symm.trans hid)
      exact ⟨_, hid, hso, fun _ => hseq⟩
    | respondCollect =>
      obtain ⟨id, hid, hso, hseq⟩ := hbefore _ _ property rfl
      exact ⟨id, hid, hso, fun _ => hseq (.inl rfl)⟩
    | respondInject =>
      obtain ⟨id, hid, hso, hseq⟩ := hbefore _ _ property rfl
      exact ⟨id, hid, hso, fun _ => hseq (.inr rfl)⟩
  | data => exact hsame rfl
  | enlist => exact hsame rfl
  | pop => exact hF.update hsockets rfl nofun
  | unlist => exact hF.update hsockets rfl nofun
  | relist => exact hF.update hsockets rfl nofun
  | create => exact hF.update hsockets rfl nofun
  | insert => exact hF.update hsockets insert_threads nofun
  | remove => exact hF.update hsockets remove_threads nofun

theorem found_of_reachable (hr : filterMachine.Reachable .start w) : Found w := by
  refine hr.invariant ?_ fun _ _ _ _ hF hs => hF.step (FilterState.step_inv hs)
  intro thread step object property h
  cases h

/-- A step of the thread that processes an answer changes at most the object it has found, and only after the
sequence numbers agreed. -/
theorem FilterStep.respond_objects {outside : Outside} {step : RespondStep} {property : NkeSocketDataProperty}
    (hs : FilterStep w (.next thread outside) w' e) (hF : Found w)
    (hp : w.threads thread = .respond step object property) :
    w'.objects = w.objects ∨ ∃ s id, w'.objects = w.objects.set object s ∧ w.socketId object = some id ∧
      id.socketSequence = property.socketId.socketSequence := by
  cases hs with
  | nothing => exact .inl rfl
  | move _ _ hsame => exact .inl hsame.objects
  | begin _ _ hsame => exact .inl hsame.objects
  | detached _ _ hsame => exact .inl hsame.objects
  | attached _ hsame => exact .inl hsame.objects
  | @act _ _ object₁ s s' _ _ _ hobj hacts _ =>
    obtain ⟨id, hid, -, hseq⟩ := hF thread step object property hp
    rw [hp] at hacts
    cases hacts with
    | property hseq => exact .inr ⟨s', _, rfl, socketId_of_object hobj, hseq⟩
    | respondCollect => exact .inr ⟨s', id, rfl, hid, hseq (.inl rfl)⟩
    | respondInject => exact .inr ⟨s', id, rfl, hid, hseq (.inr rfl)⟩
  | unlist hp' => cases hp.symm.trans hp'
  | relist hp' => cases hp.symm.trans hp'
  | create hp' => cases hp.symm.trans hp'
  | insert hp' => cases hp.symm.trans hp'
  | remove hp' => cases hp.symm.trans hp'

/-! ### The result -/

theorem Numbered.distinct (hN : Numbered w) (hlt : w.objects.length < 2 ^ 32) {id id' : NkeSocketID}
    (hid : w.socketId object = some id) (hid' : w.socketId object' = some id')
    (heq : id.socketSequence = id'.socketSequence) : object = object' := by
  rw [hN.sequence object id hid, hN.sequence object' id' hid'] at heq
  have hobj := lt_of_socketId hid
  have hobj' := lt_of_socketId hid'
  exact sequenceNumber_inj (by omega) (by omega) heq

theorem respond_starts {property : NkeSocketDataProperty}
    (hs : filterMachine.step w (.respond thread property) = some (w', e)) : w'.objects = w.objects := by
  cases FilterState.step_inv hs with
  | nothing => rfl
  | move _ _ hsame => exact hsame.objects
  | begin _ hbegins hsame => exact hsame.objects

/-- In every run of all threads in which fewer than `2 ^ 32` objects are created, with socket addresses reused
at will: the sequence numbers of the objects are not zero and differ; unless `FltAttach` for an address starts
while another one for it is in progress, at most one object in `SocketsList` has the address; and while
`processServiceResponse` works on a property that carries the identity of one object, no other object
changes. -/
theorem late_answer_harmless {as : List FilterLabel} {h : List FilterEvent}
    (hr : filterMachine.run .start as = some (w, h)) (hlt : w.objects.length < 2 ^ 32) :
    (∀ object id, w.socketId object = some id → id.socketSequence ≠ 0) ∧
    (∀ object object' id id', object ≠ object' → w.socketId object = some id →
      w.socketId object' = some id' → id.socketSequence ≠ id'.socketSequence) ∧
    (filterMachine.Along FilterState.NoOverlap .start as → w.socketsList.Nodup ∧
      ∀ object ∈ w.socketsList, ∀ object' ∈ w.socketsList,
        w.socketAddress object = w.socketAddress object' → object = object') ∧
    (∀ thread property w' e, filterMachine.step w (.respond thread property) = some (w', e) →
      w'.objects = w.objects) ∧
    ∀ thread outside step found property object w' e, w.threads thread = .respond step found property →
      w.socketId object = some property.socketId →
      filterMachine.step w (.next thread outside) = some (w', e) →
      ∀ other, other ≠ object → w'.objects[other]? = w.objects[other]? := by
  have hreach : filterMachine.Reachable .start w := ⟨as, h, hr⟩
  have hN := numbered_of_reachable hreach
  refine ⟨?_, ?_, ?_, fun _ _ _ _ => respond_starts, ?_⟩
  · intro object id hid
    rw [hN.sequence object id hid]
    have hobj := lt_of_socketId hid
    exact sequenceNumber_ne_zero (by omega)
  · intro object object' id id' hne hid hid' heq
    exact hne (hN.distinct hlt hid hid' heq)
  · intro hC
    have hR := registered_of_reachable hreach
    refine ⟨?_, (unshared_of_run hr hC).unique⟩
    rw [List.nodup_iff_count_le_one]
    intro object
    rw [hR.count object]
    split <;> omega
  · intro thread outside step found property object w' e hp hid hs other hne
    rcases (FilterState.step_inv hs).respond_objects (found_of_reachable hreach) hp with
      hsame | ⟨s, id, hset, hfound, hseq⟩
    · rw [hsame]
    · obtain rfl := hN.distinct hlt hfound hid hseq
      rw [hset, List.getElem?_set_ne (Ne.symm hne)]

/-- Two `FltAttach` for one address, each of which finds no object yet. -/
def overlappingAttaches : List FilterLabel :=
  [.fltAttach 0 ⟨7, 65536⟩, .fltAttach 1 ⟨7, 65536⟩, .next 0 .success, .next 1 .success, .next 0 .success,
    .next 1 .success, .next 0 .success, .next 1 .success]

theorem overlappingAttaches_share : ¬ ∀ (as : List FilterLabel) (w : FilterState) (h : List FilterEvent),
    filterMachine.run .start as = some (w, h) → w.objects.length < 2 ^ 32 - 1 →
    ∀ object ∈ w.socketsList, ∀ object' ∈ w.socketsList,
      w.socketAddress object = w.socketAddress object' → object = object' := by
  intro hall
  obtain ⟨w, h, hr, hlt, h0, h1, heq⟩ : ∃ w h, filterMachine.run .start overlappingAttaches = some (w, h) ∧
      w.objects.length < 2 ^ 32 - 1 ∧ 0 ∈ w.socketsList ∧ 1 ∈ w.socketsList ∧
      w.socketAddress 0 = w.socketAddress 1 :=
    ⟨_, _, rfl, by decide, by decide, by decide, rfl⟩
  exact absurd (hall _ w h hr hlt 0 h0 1 h1 heq) (by decide)

theorem SocketsStep.other_thread (hs : SocketsStep w a w') (hne : a.thread ≠ some thread) :
    w'.threads thread = w.threads thread := by
  have hupdate : ∀ {thread' phase}, a.thread = some thread' →
      w'.threads = Function.update w.threads thread' phase → w'.threads thread = w.threads thread := by
    intro thread' phase hlabel hthreads
    rw [hthreads, Function.update_of_ne]
    rintro rfl
    exact hne hlabel
  cases hs with
  | stay _ hthreads => rw [hthreads]
  | move hlabel _ hthreads => exact hupdate hlabel hthreads
  | begin hlabel _ _ hthreads => exact hupdate hlabel hthreads
  | attached hlabel _ _ hthreads => exact hupdate hlabel hthreads
  | create hlabel _ hw =>
    exact hupdate hlabel (by rw [hw]; rfl)
  | insert hlabel _ hw => exact hupdate hlabel (hw ▸ insert_threads)
  | remove hlabel _ hw => exact hupdate hlabel (hw ▸ remove_threads)

/-- A kernel that makes all its calls on one thread overlaps none. -/
theorem noOverlap_of_thread {as : List FilterLabel}
    (hidle : ∀ thread', thread' ≠ thread → w.threads thread' = .idle)
    (has : ∀ a ∈ as, a.thread = some thread ∨ a.thread = none) :
    filterMachine.Along FilterState.NoOverlap w as := by
  induction as generalizing w with
  | nil => trivial
  | cons a as ih =>
    have hone := has a (List.mem_cons_self ..)
    refine ⟨?_, fun w' e hs => ih ?_ fun b hb => has b (List.mem_cons_of_mem _ hb)⟩
    · cases a with
      | fltAttach thread₁ attach =>
        obtain rfl : thread₁ = thread := by simpa [FilterLabel.thread] using hone
        intro thread' hne
        rw [FilterState.attachAddress, hidle thread' hne]
        nofun
      | _ => trivial
    · intro thread' hne
      have hother : a.thread ≠ some thread' := by
        rcases hone with h | h <;> simp [h, Ne.symm hne]
      rw [(FilterState.step_inv hs).sockets.other_thread hother]
      exact hidle thread' hne

def lateProperty : NkeSocketDataProperty := ⟨.NkeSocketDataPropertyTypePermission, 0, ⟨7, 1⟩, 1⟩

/-- An address is attached twice, the second time with the `FltDetach` of the first object forced; then an
answer for the first object arrives. -/
def lateAnswer : List FilterLabel :=
  .fltAttach 0 ⟨7, 65536⟩ :: List.replicate 4 (.next 0 .success) ++
    .fltAttach 0 ⟨7, 65536⟩ :: List.replicate 17 (.next 0 .success) ++ [.respond 0 lateProperty]

theorem lateAnswer_ignored :
    ∃ w h w' e, filterMachine.run .start lateAnswer = some (w, h) ∧
      w.threads 0 = .respond .compare 1 lateProperty ∧ w.socketsList.Nodup ∧
      filterMachine.step w (.next 0 .success) = some (w', e) ∧ w'.objects[1]? = w.objects[1]? := by
  obtain ⟨w, h, w', e, hr, hlt, hp, hid, hs⟩ : ∃ w h w' e, filterMachine.run .start lateAnswer = some (w, h) ∧
      w.objects.length < 2 ^ 32 ∧ w.threads 0 = .respond .compare 1 lateProperty ∧
      w.socketId 0 = some lateProperty.socketId ∧ filterMachine.step w (.next 0 .success) = some (w', e) :=
    ⟨_, _, _, _, rfl, by decide, rfl, rfl, rfl⟩
  obtain ⟨-, -, hshared, -, hanswer⟩ := late_answer_harmless hr hlt
  have hC : filterMachine.Along FilterState.NoOverlap .start lateAnswer :=
    noOverlap_of_thread (fun thread (_ : thread ≠ 0) => rfl) (by decide)
  exact ⟨w, h, w', e, hr, hp, (hshared hC).1, hs, hanswer _ _ _ _ _ 0 w' e hp hid hs 1 (by decide)⟩

end NkeFilter
