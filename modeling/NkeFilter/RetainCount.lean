import NkeFilter.DetachOnce
import NkeFilter.Lib.Tally
import NkeFilter.ReportList

/-!
# The references on the socket objects

The lists hold a reference on every object in them, and a thread on the objects it works on. References are
passed on without a `retain`: `DeliverWaitingNotifications` takes over the one of the list and gives it back
with the object, and `removeFromSocketsList` those of both lists, which it releases later. The reference count
of an object is the number of all these references in every state, as long as the kernel keeps to the KPI and
`FltDetach` of an object begins once. So an object is freed when it is in no list any more and the last thread
is done with it, and then its `FltDetach` has returned.
-/

namespace NkeFilter
open Lib NkeSocketObject

/-- The references of `FltDetach` on its object: its own, and those of the lists that it has taken over. -/
def DetachStep.references : DetachStep → Nat
  | .retain => 0
  | .removeFromSocketsListToReport wasInSocketsList => wasInSocketsList.toNat + 1
  | .releaseLists wasInSocketsList wasInSocketsToReportList =>
    wasInSocketsList.toNat + wasInSocketsToReportList.toNat + 1
  | _ => 1

/-- The objects a thread in the phase holds references on, each as often as it holds one. A `FltAttach` that
called `FltDetach` keeps the reference of `GetSocketObjectRef` on the old object. -/
def FilterPhase.references : FilterPhase → List Nat
  | .attachChecked object _ | .attachOld object _ | .attachInsert object | .attachReturn object
  | .respond _ object _ | .popped object | .delivered object _ => [object]
  | .holding objects _ | .injecting objects _ => objects
  | .detach step object resume => List.replicate (resume.isSome.toNat + step.references) object
  | .idle | .attachCheck _ | .attachFind _ | .attachCreate _ => []

/-- The references that all threads hold on the object. -/
noncomputable def FilterState.heldReferences (w : FilterState) (object : Nat) : Nat :=
  total (fun phase : FilterPhase => phase.references.count object) w.threads

/-- The references that the lists hold on the object. -/
def FilterState.listReferences (w : FilterState) (object : Nat) : Nat :=
  w.socketsList.count object + w.socketsListToReport.count object

variable {w w' : FilterState} {a : FilterLabel} {h e : List FilterEvent} {thread object : Nat}
  {label : SocketLabel} {phase : FilterPhase} {outside : Outside}

/-! ### What a step does to the references -/

/-- The thread goes on with `phase`. The reference counts change as the references do that the lists and the
thread hold, an object without references gets one only when it is created, and the last `release` frees. -/
structure Accounts (w w' : FilterState) (e : List FilterEvent) (thread : Nat) (phase : FilterPhase) : Prop where
  threads : w'.threads = Function.update w.threads thread phase
  count : ∀ object, w'.retainCount object + (w.listReferences object +
      (w.threads thread).references.count object) =
    w.retainCount object + (w'.listReferences object + phase.references.count object)
  created : ∀ object, w.retainCount object = 0 →
    (0 < w'.retainCount object ↔ w.objects.length ≤ object ∧ object < w'.objects.length)
  freed : ∀ object, e.count (.freed object) =
    if 0 < w.retainCount object ∧ w'.retainCount object = 0 then 1 else 0

/-- References are added on objects that have some, and the others are passed on. -/
theorem accounts_gain (gained : List Nat) (hthreads : w'.threads = Function.update w.threads thread phase)
    (hlength : w'.objects.length = w.objects.length)
    (hcount : ∀ object, w'.retainCount object = w.retainCount object + gained.count object)
    (hpassed : ∀ object, w'.listReferences object + phase.references.count object =
      w.listReferences object + (w.threads thread).references.count object + gained.count object)
    (halive : ∀ object ∈ gained, 0 < w.retainCount object) (he : ∀ object, .freed object ∉ e) :
    Accounts w w' e thread phase := by
  refine ⟨hthreads, ?_, ?_, ?_⟩
  · intro object
    have := hcount object
    have := hpassed object
    omega
  · intro object hzero
    have hnone : gained.count object = 0 :=
      List.count_eq_zero.2 fun hmem => absurd hzero (Nat.ne_of_gt (halive object hmem))
    rw [hcount object, hzero, hnone]
    omega
  · intro object
    rw [List.count_eq_zero.2 (he object), if_neg]
    have := hcount object
    omega

/-- References are passed on. -/
theorem accounts_pass (hthreads : w'.threads = Function.update w.threads thread phase)
    (hlength : w'.objects.length = w.objects.length) (hcount : w'.retainCount = w.retainCount)
    (hpassed : ∀ object, w'.listReferences object + phase.references.count object =
      w.listReferences object + (w.threads thread).references.count object)
    (he : ∀ object, .freed object ∉ e) : Accounts w w' e thread phase :=
  accounts_gain [] hthreads hlength (fun _ => congrFun hcount _) hpassed (List.forall_mem_nil _) he

/-- The lists are as they were. -/
structure SameLists (w w' : FilterState) : Prop where
  socketsList : w'.socketsList = w.socketsList
  socketsListToReport : w'.socketsListToReport = w.socketsListToReport
  length : w'.objects.length = w.objects.length

theorem SameLists.listReferences (hl : SameLists w w') (object : Nat) :
    w'.listReferences object = w.listReferences object := by
  rw [FilterState.listReferences, FilterState.listReferences, hl.socketsList, hl.socketsListToReport]

/-- The thread keeps its references. -/
theorem accounts_keep (hthreads : w'.threads = Function.update w.threads thread phase) (hl : SameLists w w')
    (hcount : w'.retainCount = w.retainCount) (hrefs : (w.threads thread).references = phase.references)
    (he : ∀ object, .freed object ∉ e) : Accounts w w' e thread phase := by
  refine accounts_pass hthreads hl.length hcount ?_ he
  intro object
  rw [hl.listReferences, hrefs]

theorem cons_count (object : Nat) (objects : List Nat) (object' : Nat) :
    (object :: objects).count object' = [object].count object' + objects.count object' :=
  @List.count_append _ _ object' [object] objects

theorem append_count (objects : List Nat) (object object' : Nat) :
    (objects ++ [object]).count object' = objects.count object' + [object].count object' := List.count_append

theorem singleton_count_of_ne {object' : Nat} (hne : object' ≠ object) : [object].count object' = 0 :=
  List.count_eq_zero.2 fun hmem => hne (List.mem_singleton.1 hmem)

theorem retain_count (object' : Nat) :
    (w.retain object).retainCount object' = w.retainCount object' + [object].count object' := by
  have hall : (w.retain object).retainCount = fun object' => w.retainCount object' + [object].count object' := by
    refine Function.update_eq_iff.2 ⟨?_, fun object' hne => ?_⟩
    · rw [List.count_singleton_self]
    · rw [singleton_count_of_ne hne, Nat.add_zero]
  exact congrFun hall object'

/-- The thread takes a reference on an object that has some. -/
theorem accounts_retain (hthreads : w'.threads = Function.update w.threads thread phase) (hl : SameLists w w')
    (hcount : w'.retainCount = (w.retain object).retainCount)
    (hrefs : phase.references = object :: (w.threads thread).references) (hpos : 0 < w.retainCount object) :
    Accounts w w' [] thread phase := by
  refine accounts_gain [object] hthreads hl.length ?_ ?_ ?_ fun _ => List.not_mem_nil
  · intro object'
    rw [hcount, retain_count]
  · intro object'
    rw [hl.listReferences, hrefs, cons_count]
    omega
  · intro object' hmem
    rwa [List.mem_singleton.1 hmem]

theorem release_count (object' : Nat) :
    (w.release object).1.retainCount object' = w.retainCount object' - [object].count object' := by
  have hall : (w.release object).1.retainCount = fun object' => w.retainCount object' - [object].count object' := by
    refine Function.update_eq_iff.2 ⟨?_, fun object' hne => ?_⟩
    · rw [List.count_singleton_self]
    · rw [singleton_count_of_ne hne, Nat.sub_zero]
  exact congrFun hall object'

theorem release_freed (object' : Nat) : (w.release object).2.count (.freed object') =
    if 0 < w.retainCount object' ∧ (w.release object).1.retainCount object' = 0 then 1 else 0 := by
  rw [release_count, FilterState.release]
  by_cases heq : object' = object
  · subst heq
    rw [List.count_singleton_self]
    by_cases hone : w.retainCount object' = 1
    · simp [hone]
    · rw [if_neg hone, if_neg (by omega), List.count_nil]
  · rw [singleton_count_of_ne heq, Nat.sub_zero, if_neg (c := 0 < _ ∧ _) (by omega)]
    refine List.count_eq_zero.2 ?_
    split
    · simpa using heq
    · exact List.not_mem_nil

/-- References of the thread are given up. -/
theorem accounts_loss (lost : List Nat) (hthreads : w'.threads = Function.update w.threads thread phase)
    (hl : SameLists w w') (hcount : ∀ object, w'.retainCount object = w.retainCount object - lost.count object)
    (hrefs : ∀ object, (w.threads thread).references.count object =
      lost.count object + phase.references.count object)
    (hheld : ∀ object, (w.threads thread).references.count object ≤ w.retainCount object)
    (he : ∀ object, e.count (.freed object) =
      if 0 < w.retainCount object ∧ w'.retainCount object = 0 then 1 else 0) :
    Accounts w w' e thread phase := by
  refine ⟨hthreads, ?_, ?_, he⟩
  · intro object
    have := hcount object
    have := hrefs object
    have := hheld object
    rw [hl.listReferences]
    omega
  · intro object hzero
    rw [hcount object, hl.length]
    omega

/-- The thread releases one of its objects. -/
theorem accounts_release (hthreads : w'.threads = Function.update w.threads thread phase) (hl : SameLists w w')
    (hcount : w'.retainCount = (w.release object).1.retainCount)
    (hrefs : (w.threads thread).references = object :: phase.references)
    (hheld : ∀ object, (w.threads thread).references.count object ≤ w.retainCount object)
    (he : ∀ object', e.count (.freed object') = (w.release object).2.count (.freed object')) :
    Accounts w w' e thread phase := by
  refine accounts_loss [object] hthreads hl ?_ ?_ hheld ?_
  · intro object'
    rw [hcount, release_count]
  · intro object'
    rw [hrefs, cons_count]
  · intro object'
    rw [he, hcount, release_freed]

theorem not_freed_nil (object : Nat) : .freed object ∉ ([] : List FilterEvent) := List.not_mem_nil

theorem not_freed_socket (object' : Nat) (ev : List SocketEvent) (object : Nat) :
    .freed object ∉ ev.map fun event => FilterEvent.socket object' event := by
  intro hmem
  obtain ⟨_, _, heq⟩ := List.mem_map.1 hmem
  cases heq

/-- What the thread does in an object. -/
theorem accounts_act (hs : w.actThen object label thread phase = some (w', e))
    (hrefs : (w.threads thread).references = phase.references) : Accounts w w' e thread phase := by
  obtain ⟨s, s', ev, hobj, hstep, rfl, rfl⟩ := FilterState.actThen_inv hs
  exact accounts_keep rfl ⟨rfl, rfl, List.length_set⟩ rfl hrefs (not_freed_socket object ev)

/-! ### The steps of the threads -/

structure Retained (w : FilterState) (h : List FilterEvent) : Prop where
  finite : ∀ object, FinitelyMany (fun phase : FilterPhase => phase.references.count object) w.threads
  count : ∀ object, w.retainCount object = w.listReferences object + w.heldReferences object
  created : ∀ object, w.objects.length ≤ object → w.retainCount object = 0
  freed : ∀ object, h.count (.freed object) =
    if object < w.objects.length ∧ w.retainCount object = 0 then 1 else 0

theorem Retained.held (hC : Retained w h) (thread object : Nat) :
    w.listReferences object + (w.threads thread).references.count object ≤ w.retainCount object := by
  rw [hC.count object]
  exact Nat.add_le_add_left (le_total (hC.finite object) thread) _

theorem Retained.held_le (hC : Retained w h) (thread object : Nat) :
    (w.threads thread).references.count object ≤ w.retainCount object :=
  (Nat.le_add_left ..).trans (hC.held thread object)

theorem Retained.pos_of_mem (hC : Retained w h) (hmem : object ∈ w.socketsList) : 0 < w.retainCount object := by
  have hheld := hC.held 0 object
  have hcount := List.count_pos_iff.2 hmem
  unfold FilterState.listReferences at hheld
  omega

theorem Retained.pos_of_held (hC : Retained w h) (thread : Nat) (hmem : object ∈ (w.threads thread).references) :
    0 < w.retainCount object :=
  (List.count_pos_iff.2 hmem).trans_le (hC.held_le thread object)

theorem accounts_create {attach : AttachCall} (hC : Retained w h)
    (hp : w.threads thread = .attachCreate attach) :
    Accounts w ((w.withSocket attach).go thread (.attachInsert w.objects.length)) [] thread
      (.attachInsert w.objects.length) := by
  have hlength : ((w.withSocket attach).go thread (.attachInsert w.objects.length)).objects.length =
      w.objects.length + 1 := List.length_append
  have hcount : ∀ object, ((w.withSocket attach).go thread (.attachInsert w.objects.length)).retainCount object =
      w.retainCount object + [w.objects.length].count object := by
    refine congrFun (Function.update_eq_iff.2 ⟨?_, fun object hne => ?_⟩)
    · rw [List.count_singleton_self, hC.created _ le_rfl]
    · rw [singleton_count_of_ne hne, Nat.add_zero]
  refine ⟨rfl, ?_, ?_, ?_⟩
  · intro object
    rw [hcount, hp]
    show _ = _ + (w.listReferences object + [w.objects.length].count object)
    show _ + (_ + 0) = _
    omega
  · intro object hzero
    rw [hcount, hzero, hlength, Nat.zero_add, List.count_pos_iff, List.mem_singleton]
    omega
  · intro object
    rw [List.count_nil, if_neg]
    rw [hcount]
    omega

theorem accounts_insert (hC : Retained w h) (hR : Registered w) (hp : w.threads thread = .attachInsert object) :
    Accounts w ((w.insertInSocketsList object).go thread (.attachReturn object)) [] thread
      (.attachReturn object) := by
  have hknown := hR.knows thread
  rw [hp] at hknown
  have hinsert : w.insertInSocketsList object = { w with
      socketsList := object :: w.socketsList
      insertedInSocketsList := Function.update w.insertedInSocketsList object true }.retain object := by
    unfold FilterState.insertInSocketsList
    rw [if_neg (by simp [hknown.1])]
  rw [hinsert]
  refine accounts_gain [object] rfl rfl retain_count ?_ ?_ not_freed_nil
  · intro object'
    rw [hp]
    show (object :: w.socketsList).count object' + _ + _ = w.socketsList.count object' + _ + _ + _
    rw [cons_count]
    show _ + w.socketsListToReport.count object' + [object].count object' =
      _ + w.socketsListToReport.count object' + [object].count object' + _
    omega
  · intro object' hmem
    obtain rfl := List.mem_singleton.1 hmem
    exact hC.pos_of_held thread (by rw [hp]; exact List.mem_singleton_self _)

theorem Retained.attachNext (hC : Retained w h) (hR : Registered w) (hp : w.threads thread = phase)
    (hs : w.attachNext thread outside phase = some (w', e)) : ∃ phase', Accounts w w' e thread phase' := by
  have hheld := hC.held_le thread
  cases phase with
  | attachCheck attach =>
    simp only [FilterState.attachNext] at hs
    split at hs
    · rename_i object hfound
      obtain ⟨rfl, rfl⟩ := Prod.mk.inj (Option.some.inj hs)
      exact ⟨_, accounts_retain rfl ⟨rfl, rfl, rfl⟩ rfl (by rw [hp]; rfl)
        (hC.pos_of_mem (mem_of_getSocketObject hfound).1)⟩
    · obtain ⟨rfl, rfl⟩ := Prod.mk.inj (Option.some.inj hs)
      exact ⟨_, accounts_keep rfl ⟨rfl, rfl, rfl⟩ rfl (by rw [hp]; rfl) not_freed_nil⟩
  | attachChecked object attach =>
    obtain ⟨rfl, rfl⟩ := Prod.mk.inj (Option.some.inj hs)
    exact ⟨_, accounts_release rfl ⟨rfl, rfl, rfl⟩ rfl (by rw [hp]; rfl) hheld fun _ => rfl⟩
  | attachFind attach =>
    simp only [FilterState.attachNext] at hs
    split at hs
    · rename_i object hfound
      obtain ⟨rfl, rfl⟩ := Prod.mk.inj (Option.some.inj hs)
      exact ⟨_, accounts_retain rfl ⟨rfl, rfl, rfl⟩ rfl (by rw [hp]; rfl)
        (hC.pos_of_mem (mem_of_getSocketObject hfound).1)⟩
    · obtain ⟨rfl, rfl⟩ := Prod.mk.inj (Option.some.inj hs)
      exact ⟨_, accounts_keep rfl ⟨rfl, rfl, rfl⟩ rfl (by rw [hp]; rfl) not_freed_nil⟩
  | attachOld object attach =>
    obtain ⟨rfl, rfl⟩ := Prod.mk.inj (Option.some.inj hs)
    exact ⟨_, accounts_release rfl ⟨rfl, rfl, rfl⟩ rfl (by rw [hp]; rfl) hheld fun _ => rfl⟩
  | attachCreate attach =>
    simp only [FilterState.attachNext] at hs
    split at hs
    · obtain ⟨rfl, rfl⟩ := Prod.mk.inj (Option.some.inj hs)
      exact ⟨_, accounts_create hC hp⟩
    · obtain ⟨rfl, rfl⟩ := Prod.mk.inj (Option.some.inj hs)
      exact ⟨_, accounts_keep rfl ⟨rfl, rfl, rfl⟩ rfl (by rw [hp]; rfl) not_freed_nil⟩
  | attachInsert object =>
    obtain ⟨rfl, rfl⟩ := Prod.mk.inj (Option.some.inj hs)
    exact ⟨_, accounts_insert hC hR hp⟩
  | attachReturn object =>
    obtain ⟨rfl, rfl⟩ := Prod.mk.inj (Option.some.inj hs)
    refine ⟨_, accounts_release rfl ⟨rfl, rfl, rfl⟩ rfl (by rw [hp]; rfl) hheld ?_⟩
    intro object'
    rw [List.count_append]
    rfl
  | _ => cases hs

theorem count_replicate (n object object' : Nat) :
    (List.replicate n object).count object' = if object' = object then n else 0 := by
  rw [List.count_replicate]
  by_cases heq : object' = object
  · rw [if_pos heq, if_pos (by simpa using heq.symm)]
  · rw [if_neg heq, if_neg (by simpa using Ne.symm heq)]

theorem accounts_remove {resume : Option AttachCall} (hR : Registered w)
    (hp : w.threads thread = .detach .removeFromSocketsList object resume) :
    Accounts w ((w.removeFromSocketsList object).go thread
      (.detach (.removeFromSocketsListToReport (w.insertedInSocketsList object)) object resume)) [] thread
      (.detach (.removeFromSocketsListToReport (w.insertedInSocketsList object)) object resume) := by
  have hreport : (w.removeFromSocketsList object).socketsListToReport = w.socketsListToReport := by
    unfold FilterState.removeFromSocketsList
    split <;> rfl
  have hcount : (w.removeFromSocketsList object).retainCount = w.retainCount := by
    unfold FilterState.removeFromSocketsList
    split <;> rfl
  refine accounts_pass remove_threads (congrArg List.length remove_objects) hcount ?_ not_freed_nil
  intro object'
  rw [hp]
  show (w.removeFromSocketsList object).socketsList.count object' +
      (w.removeFromSocketsList object).socketsListToReport.count object' +
      (List.replicate (resume.isSome.toNat + ((w.insertedInSocketsList object).toNat + 1)) object).count object' =
    w.socketsList.count object' + w.socketsListToReport.count object' +
      (List.replicate (resume.isSome.toNat + 1) object).count object'
  rw [hreport, count_replicate, count_replicate]
  by_cases heq : object' = object
  · subst heq
    rw [hR.remove_count_self, hR.count object', if_pos rfl, if_pos rfl]
    cases w.insertedInSocketsList object' with
    | false => rfl
    | true =>
      simp only [if_true, Bool.toNat_true]
      omega
  · rw [remove_count_of_ne heq, if_neg heq, if_neg heq]

theorem accounts_unlist {was : Bool} {resume : Option AttachCall} (hL : Listed w)
    (hp : w.threads thread = .detach (.removeFromSocketsListToReport was) object resume)
    (hflag : w.insertedInSocketsListToReport object)
    (hs : { w with socketsListToReport := w.socketsListToReport.erase object }.actThen object
      (.listToReport false) thread (.detach (.releaseLists was true) object resume) = some (w', e)) :
    Accounts w w' e thread (.detach (.releaseLists was true) object resume) := by
  obtain ⟨s, s', ev, hobj, hstep, rfl, rfl⟩ := FilterState.actThen_inv hs
  obtain rfl : ev = [] := ((Prod.mk.inj (Option.some.inj hstep)).2).symm
  have hone := hL.count object
  rw [if_pos hflag] at hone
  refine accounts_pass rfl List.length_set rfl ?_ not_freed_nil
  intro object'
  rw [hp]
  show w.socketsList.count object' + (w.socketsListToReport.erase object).count object' +
      (List.replicate (resume.isSome.toNat + (was.toNat + 1 + 1)) object).count object' =
    w.socketsList.count object' + w.socketsListToReport.count object' +
      (List.replicate (resume.isSome.toNat + (was.toNat + 1)) object).count object'
  rw [count_replicate, count_replicate]
  by_cases heq : object' = object
  · subst heq
    rw [List.count_erase_self, hone, if_pos rfl, if_pos rfl]
    omega
  · rw [List.count_erase_of_ne heq, if_neg heq, if_neg heq]

theorem releaseIf_count {was : Bool} (object' : Nat) : (w.releaseIf object was).1.retainCount object' =
    w.retainCount object' - (List.replicate was.toNat object).count object' := by
  cases was with
  | false => rfl
  | true => exact release_count object'

theorem releaseIf_freed {was : Bool} (hlt : was.toNat < w.retainCount object) :
    (w.releaseIf object was).2 = [] := by
  cases was with
  | false => rfl
  | true =>
    have hne : w.retainCount object ≠ 1 := Nat.ne_of_gt hlt
    exact if_neg hne

/-- The reference of `FltDetach` itself outlives those of the lists. -/
theorem accounts_releaseLists {was was' : Bool} {resume : Option AttachCall} (hC : Retained w h)
    (hp : w.threads thread = .detach (.releaseLists was was') object resume) :
    Accounts w (((w.releaseIf object was).1.releaseIf object was').1.go thread
        (.detach .decrementLockCount object resume))
      ((w.releaseIf object was).2 ++ ((w.releaseIf object was).1.releaseIf object was').2) thread
      (.detach .decrementLockCount object resume) := by
  have hmany : was.toNat + was'.toNat < w.retainCount object := by
    have hheld := hC.held_le thread object
    rw [hp] at hheld
    have hheld : (List.replicate (resume.isSome.toNat + (was.toNat + was'.toNat + 1)) object).count object ≤
      w.retainCount object := hheld
    rw [List.count_replicate_self] at hheld
    omega
  have hcount : ∀ object', (((w.releaseIf object was).1.releaseIf object was').1).retainCount object' =
      w.retainCount object' - (List.replicate (was.toNat + was'.toNat) object).count object' := by
    intro object'
    rw [releaseIf_count, releaseIf_count, List.replicate_add, List.count_append, Nat.sub_sub]
  have hsame : SameFilter w ((w.releaseIf object was).1.releaseIf object was').1 :=
    FilterState.releaseIf_same.trans FilterState.releaseIf_same
  refine accounts_loss _ ?_ ⟨hsame.socketsList, hsame.socketsListToReport, congrArg List.length hsame.objects⟩
    hcount ?_ (hC.held_le thread) ?_
  · rw [FilterState.go, FilterState.releaseIf_threads, FilterState.releaseIf_threads]
  · intro object'
    rw [hp]
    show (List.replicate (resume.isSome.toNat + (was.toNat + was'.toNat + 1)) object).count object' =
      _ + (List.replicate (resume.isSome.toNat + 1) object).count object'
    rw [count_replicate, count_replicate, count_replicate]
    split <;> omega
  · intro object'
    have hsecond : was'.toNat < (w.releaseIf object was).1.retainCount object := by
      rw [releaseIf_count, List.count_replicate_self]
      omega
    rw [releaseIf_freed (by omega), releaseIf_freed hsecond, if_neg]
    · rfl
    · show ¬ (_ ∧ (((w.releaseIf object was).1.releaseIf object was').1).retainCount object' = 0)
      rw [hcount, count_replicate]
      split
      · rename_i heq
        rw [heq]
        omega
      · omega

theorem Retained.detachNext {step : DetachStep} {resume : Option AttachCall} (hC : Retained w h)
    (hP : Placed w h) (hR : Registered w) (hL : Listed w) (hp : w.threads thread = .detach step object resume)
    (hs : w.detachNext thread object resume step = some (w', e)) : ∃ phase', Accounts w w' e thread phase' := by
  cases step with
  | retain =>
    obtain ⟨rfl, rfl⟩ := Prod.mk.inj (Option.some.inj hs)
    exact ⟨_, accounts_retain rfl ⟨rfl, rfl, rfl⟩ rfl (by rw [hp]; rfl)
      (hC.pos_of_mem (hP.removing thread object (by rw [hp]; rfl)))⟩
  | removeFromSocketsList =>
    obtain ⟨rfl, rfl⟩ := Prod.mk.inj (Option.some.inj hs)
    exact ⟨_, accounts_remove hR hp⟩
  | removeFromSocketsListToReport was =>
    simp only [FilterState.detachNext] at hs
    split at hs
    · rename_i hflag
      exact ⟨_, accounts_unlist hL hp hflag hs⟩
    · obtain ⟨rfl, rfl⟩ := Prod.mk.inj (Option.some.inj hs)
      exact ⟨_, accounts_keep rfl ⟨rfl, rfl, rfl⟩ rfl (by rw [hp]; rfl) not_freed_nil⟩
  | releaseLists was was' =>
    simp only [FilterState.detachNext, Option.some.injEq, Prod.mk.injEq] at hs
    obtain ⟨rfl, rfl⟩ := hs
    exact ⟨_, accounts_releaseLists hC hp⟩
  | decrementLockCount => exact ⟨_, accounts_act hs (by rw [hp]; rfl)⟩
  | purgePendingQueue => exact ⟨_, accounts_act hs (by rw [hp]; rfl)⟩
  | waitLockCount =>
    simp only [FilterState.detachNext] at hs
    split at hs <;> cases hs
    exact ⟨_, accounts_keep rfl ⟨rfl, rfl, rfl⟩ rfl (by rw [hp]; rfl) not_freed_nil⟩
  | waitOutbound =>
    simp only [FilterState.detachNext] at hs
    split at hs <;> cases hs
    exact ⟨_, accounts_keep rfl ⟨rfl, rfl, rfl⟩ rfl (by rw [hp]; rfl) not_freed_nil⟩
  | waitInbound =>
    simp only [FilterState.detachNext] at hs
    split at hs <;> cases hs
    exact ⟨_, accounts_keep rfl ⟨rfl, rfl, rfl⟩ rfl (by rw [hp]; rfl) not_freed_nil⟩
  | release =>
    obtain ⟨rfl, rfl⟩ := Prod.mk.inj (Option.some.inj hs)
    refine ⟨_, accounts_release rfl ⟨rfl, rfl, rfl⟩ rfl ?_ (hC.held_le thread) ?_⟩
    · rw [hp]
      cases resume <;> rfl
    · intro object'
      rw [List.count_append]
      rfl

theorem Retained.respondNext {step : RespondStep} {property : NkeSocketDataProperty} (hC : Retained w h)
    (hp : w.threads thread = .respond step object property)
    (hs : w.respondNext thread outside object property step = some (w', e)) :
    ∃ phase', Accounts w w' e thread phase' := by
  cases step with
  | compare =>
    simp only [FilterState.respondNext] at hs
    split at hs
    · exact ⟨_, accounts_act hs (by rw [hp]; rfl)⟩
    · obtain ⟨rfl, rfl⟩ := Prod.mk.inj (Option.some.inj hs)
      exact ⟨_, accounts_keep rfl ⟨rfl, rfl, rfl⟩ rfl (by rw [hp]; rfl) not_freed_nil⟩
  | reinjectDeferredData => exact ⟨_, accounts_act hs (by rw [hp]; rfl)⟩
  | injecting =>
    simp only [FilterState.respondNext] at hs
    split at hs
    · cases hs
    · refine ⟨_, accounts_act hs ?_⟩
      rw [hp]
      split <;> rfl
  | release =>
    obtain ⟨rfl, rfl⟩ := Prod.mk.inj (Option.some.inj hs)
    exact ⟨_, accounts_release rfl ⟨rfl, rfl, rfl⟩ rfl (by rw [hp]; rfl) (hC.held_le thread) fun _ => rfl⟩

theorem Retained.holdingNext {objects : List Nat} {calls : List ObjectCall} (hC : Retained w h)
    (hp : w.threads thread = .holding (object :: objects) calls)
    (hs : w.holdingNext thread outside objects object calls = some (w', e)) :
    ∃ phase', Accounts w w' e thread phase' := by
  cases calls with
  | nil =>
    obtain ⟨rfl, rfl⟩ := Prod.mk.inj (Option.some.inj hs)
    refine ⟨_, accounts_release rfl ⟨rfl, rfl, rfl⟩ rfl ?_ (hC.held_le thread) fun _ => rfl⟩
    rw [hp]
    split
    · rename_i hlast
      rw [hlast]
      rfl
    · rfl
  | cons call calls =>
    cases call with
    | waitForCompletion inbound =>
      simp only [FilterState.holdingNext] at hs
      split at hs <;> cases hs
      exact ⟨_, accounts_keep rfl ⟨rfl, rfl, rfl⟩ rfl (by rw [hp]; rfl) not_freed_nil⟩
    | _ => exact ⟨_, accounts_act hs (by rw [hp]; rfl)⟩

theorem injectingNext_accounts {objects : List Nat} {calls : List ObjectCall}
    (hp : w.threads thread = .injecting (object :: objects) calls)
    (hs : w.injectingNext thread outside objects object calls = some (w', e)) :
    ∃ phase', Accounts w w' e thread phase' := by
  simp only [FilterState.injectingNext] at hs
  split at hs
  · cases hs
  · refine ⟨_, accounts_act hs ?_⟩
    rw [hp]
    split <;> rfl

/-- The thread gives its reference back to the list. -/
theorem accounts_relist (hp : w.threads thread = .delivered object true)
    (hs : { w with socketsListToReport := w.socketsListToReport ++ [object] }.actThen object
      (.listToReport true) thread .idle = some (w', e)) : Accounts w w' e thread .idle := by
  obtain ⟨s, s', ev, -, hstep, rfl, rfl⟩ := FilterState.actThen_inv hs
  obtain rfl : ev = [] := ((Prod.mk.inj (Option.some.inj hstep)).2).symm
  refine accounts_pass rfl List.length_set rfl ?_ not_freed_nil
  intro object'
  rw [hp]
  show w.socketsList.count object' + (w.socketsListToReport ++ [object]).count object' + 0 =
    w.socketsList.count object' + w.socketsListToReport.count object' + [object].count object'
  rw [append_count]
  omega

theorem Retained.deliverNext (hC : Retained w h) (hp : w.threads thread = phase)
    (hs : w.deliverNext thread outside phase = some (w', e)) : ∃ phase', Accounts w w' e thread phase' := by
  cases phase with
  | popped object =>
    simp only [FilterState.deliverNext] at hs
    split at hs
    · cases hs
    · exact ⟨_, accounts_act hs (by rw [hp]; rfl)⟩
  | delivered object reinsertInList =>
    cases reinsertInList with
    | true =>
      simp only [FilterState.deliverNext] at hs
      split at hs
      · obtain ⟨rfl, rfl⟩ := Prod.mk.inj (Option.some.inj hs)
        exact ⟨_, accounts_keep rfl ⟨rfl, rfl, rfl⟩ rfl (by rw [hp]; rfl) not_freed_nil⟩
      · exact ⟨_, accounts_relist hp hs⟩
    | false =>
      obtain ⟨rfl, rfl⟩ := Prod.mk.inj (Option.some.inj hs)
      exact ⟨_, accounts_release rfl ⟨rfl, rfl, rfl⟩ rfl (by rw [hp]; rfl) (hC.held_le thread) fun _ => rfl⟩
  | _ => cases hs

theorem Retained.next (hC : Retained w h) (hP : Placed w h) (hR : Registered w) (hL : Listed w)
    (hs : w.next thread outside = some (w', e)) : ∃ phase', Accounts w w' e thread phase' := by
  unfold FilterState.next at hs
  split at hs
  · rename_i hp
    exact hC.detachNext hP hR hL hp hs
  · rename_i hp
    exact hC.respondNext hp hs
  · rename_i hp
    exact hC.holdingNext hp hs
  · rename_i hp
    exact injectingNext_accounts hp hs
  · rename_i hp
    exact hC.deliverNext hp hs
  · rename_i hp
    exact hC.deliverNext hp hs
  · exact hC.attachNext hR rfl hs

theorem accounts_nothing : Accounts w w [] thread (w.threads thread) :=
  accounts_keep (Function.update_eq_self ..).symm ⟨rfl, rfl, rfl⟩ rfl rfl not_freed_nil

theorem foldl_retain_count (w : FilterState) (objects : List Nat) (object : Nat) :
    (objects.foldl FilterState.retain w).retainCount object = w.retainCount object + objects.count object := by
  induction objects generalizing w with
  | nil => rfl
  | cons first objects ih =>
    rw [List.foldl_cons, ih, retain_count, cons_count first objects, Nat.add_assoc]

theorem Retained.injectionPass {objects : List Nat} {calls : List ObjectCall} (hC : Retained w h)
    (hp : w.threads thread = .idle) (hmem : ∀ object ∈ objects, object ∈ w.socketsList) :
    Accounts w ((objects.foldl FilterState.retain w).go thread (.holding objects calls)) [] thread
      (.holding objects calls) := by
  obtain ⟨hsame, hthreads⟩ := FilterState.foldl_retain_same w objects
  refine accounts_gain objects ?_ (congrArg List.length hsame.objects) (foldl_retain_count w objects) ?_ ?_
    not_freed_nil
  · rw [FilterState.go, hthreads]
  · intro object
    rw [hp]
    show (objects.foldl FilterState.retain w).listReferences object + objects.count object =
      w.listReferences object + 0 + objects.count object
    rw [FilterState.listReferences, hsame.socketsList, hsame.socketsListToReport]
    rfl
  · exact fun object h => hC.pos_of_mem (hmem object h)

/-- The thread takes the reference of the list over with the object. -/
theorem accounts_pop {rest : List Nat} (hp : w.threads thread = .idle)
    (hlist : w.socketsListToReport = object :: rest)
    (hs : { w with socketsListToReport := rest }.actThen object (.listToReport false) thread (.popped object) =
      some (w', e)) : Accounts w w' e thread (.popped object) := by
  obtain ⟨s, s', ev, -, hstep, rfl, rfl⟩ := FilterState.actThen_inv hs
  obtain rfl : ev = [] := ((Prod.mk.inj (Option.some.inj hstep)).2).symm
  refine accounts_pass rfl List.length_set rfl ?_ not_freed_nil
  intro object'
  rw [hp]
  show w.socketsList.count object' + rest.count object' + [object].count object' =
    w.socketsList.count object' + w.socketsListToReport.count object' + 0
  rw [hlist, cons_count object rest]
  omega

/-- An object that makes a step of a `FltData` call has references. -/
theorem Retained.pos_of_data (hC : Retained w h) (hP : Placed w h) (hK : w.KpiOnce (.data object label))
    (hlt : object < w.objects.length) : 0 < w.retainCount object := by
  rcases hP.present object hlt (hK.1.2 object rfl) with hmem | ⟨thread, hp⟩
  · exact hC.pos_of_mem hmem
  · exact hC.pos_of_held thread (by rw [hp]; exact List.mem_singleton_self _)

theorem Retained.data (hC : Retained w h) (hP : Placed w h) (hK : w.KpiOnce (.data object label))
    (hs : FilterStep w (.data object label) w' e) : ∃ thread phase, Accounts w w' e thread phase := by
  refine ⟨0, w.threads 0, ?_⟩
  have hupdate := (Function.update_eq_self 0 w.threads).symm
  cases hs with
  | nothing => exact accounts_nothing
  | data => exact accounts_keep hupdate ⟨rfl, rfl, List.length_set⟩ rfl rfl (not_freed_socket _ _)
  | enlist hobj =>
    refine accounts_gain [object] hupdate List.length_set retain_count ?_ ?_ (not_freed_socket _ _)
    · intro object'
      show w.socketsList.count object' + (w.socketsListToReport ++ [object]).count object' + _ =
        w.socketsList.count object' + w.socketsListToReport.count object' + _ + _
      rw [append_count]
      omega
    · intro object' hmem
      rw [List.mem_singleton.1 hmem]
      exact hC.pos_of_data hP hK (List.getElem?_eq_some_iff.1 hobj).1
  | move hthread => cases hthread
  | begin hthread => cases hthread

theorem Retained.accounts (hC : Retained w h) (hP : Placed w h) (hR : Registered w) (hL : Listed w)
    (hK : w.KpiOnce a) (hs : filterMachine.step w a = some (w', e)) :
    ∃ thread phase, Accounts w w' e thread phase := by
  cases a with
  | fltAttach thread attach =>
    simp only [filterMachine, FilterState.step] at hs
    split at hs
    · rename_i hidle
      obtain ⟨rfl, rfl⟩ := Prod.mk.inj (Option.some.inj hs)
      exact ⟨_, _, accounts_keep rfl ⟨rfl, rfl, rfl⟩ rfl (by rw [hidle]; rfl) not_freed_nil⟩
    · cases hs
  | fltDetach thread object =>
    simp only [filterMachine, FilterState.step] at hs
    split at hs
    · rename_i hidle
      obtain ⟨rfl, rfl⟩ := Prod.mk.inj (Option.some.inj hs)
      exact ⟨_, _, accounts_keep rfl ⟨rfl, rfl, rfl⟩ rfl (by rw [hidle.1]; rfl) not_freed_nil⟩
    · cases hs
  | fltNotify thread so event =>
    simp only [filterMachine, FilterState.step] at hs
    split at hs
    · rename_i hidle
      split at hs
      · obtain ⟨rfl, rfl⟩ := Prod.mk.inj (Option.some.inj hs)
        exact ⟨thread, _, accounts_nothing⟩
      · rename_i object hfound
        obtain ⟨rfl, rfl⟩ := Prod.mk.inj (Option.some.inj hs)
        exact ⟨_, _, accounts_retain rfl ⟨rfl, rfl, rfl⟩ rfl (by rw [hidle]; rfl)
          (hC.pos_of_mem (mem_of_getSocketObject hfound).1)⟩
    · cases hs
  | respond thread property =>
    simp only [filterMachine, FilterState.step] at hs
    split at hs
    · rename_i hidle
      split at hs
      · obtain ⟨rfl, rfl⟩ := Prod.mk.inj (Option.some.inj hs)
        exact ⟨thread, _, accounts_nothing⟩
      · rename_i object hfound
        obtain ⟨rfl, rfl⟩ := Prod.mk.inj (Option.some.inj hs)
        exact ⟨_, _, accounts_retain rfl ⟨rfl, rfl, rfl⟩ rfl (by rw [hidle.1]; rfl)
          (hC.pos_of_mem (mem_of_getSocketObject hfound).1)⟩
    · cases hs
  | injectionPass thread =>
    simp only [filterMachine, FilterState.step] at hs
    split at hs
    · rename_i hidle
      split at hs
      · obtain ⟨rfl, rfl⟩ := Prod.mk.inj (Option.some.inj hs)
        exact ⟨thread, _, accounts_nothing⟩
      · rename_i object objects hfilter
        obtain ⟨rfl, rfl⟩ := Prod.mk.inj (Option.some.inj hs)
        refine ⟨_, _, hC.injectionPass hidle ?_⟩
        rw [← hfilter]
        exact fun object hmem => (List.mem_filter.1 hmem).1
    · cases hs
  | deliver thread =>
    simp only [filterMachine, FilterState.step] at hs
    split at hs
    · rename_i hidle
      split at hs
      · obtain ⟨rfl, rfl⟩ := Prod.mk.inj (Option.some.inj hs)
        exact ⟨thread, _, accounts_nothing⟩
      · rename_i object rest hlist
        exact ⟨_, _, accounts_pop hidle hlist hs⟩
    · cases hs
  | data object label => exact hC.data hP hK (FilterState.step_inv hs)
  | next thread outside =>
    obtain ⟨phase, hA⟩ := hC.next hP hR hL hs
    exact ⟨thread, phase, hA⟩

/-! ### The result -/

theorem Retained.step (hC : Retained w h) (hA : Accounts w w' e thread phase)
    (hlength : w.objects.length ≤ w'.objects.length) : Retained w' (h ++ e) := by
  refine ⟨?_, ?_, ?_, ?_⟩
  · intro object
    rw [hA.threads]
    exact (hC.finite object).update thread phase
  · intro object
    have hthread := total_update (hC.finite object) thread phase
    have hstep := hA.count object
    have hbefore := hC.count object
    rw [FilterState.heldReferences, hA.threads]
    rw [FilterState.heldReferences] at hbefore
    omega
  · intro object hle
    have hcreated := hA.created object (hC.created object (hlength.trans hle))
    omega
  · intro object
    have hcreated := hA.created object
    have hnew := hC.created object
    rw [List.count_append, hC.freed object, hA.freed object]
    split_ifs <;> omega

theorem retained_start : Retained .start [] := by
  refine ⟨?_, ?_, fun _ _ => rfl, ?_⟩
  · intro object
    exact finitelyMany_of_zero fun _ => rfl
  · intro object
    have hnone : FilterState.start.heldReferences object = 0 := total_of_zero fun _ => rfl
    rw [hnone]
    rfl
  · intro object
    rw [List.count_nil, if_neg]
    exact fun h => Nat.not_lt_zero _ h.1

theorem retained_of_run {as : List FilterLabel} (hr : filterMachine.run .start as = some (w, h))
    (hC : filterMachine.Along FilterState.KpiOnce .start as) : Detached w h ∧ Placed w h ∧ Retained w h := by
  have hinv := Machine.run_induction (fun w h => filterMachine.Reachable .start w ∧ Detached w h ∧ Placed w h ∧
    Retained w h) [] ⟨.refl, detached_start, placed_start, retained_start⟩ ?_ hC hr
  · exact hinv.2
  · rintro w h a w' e ⟨hreach, hD, hP, hC⟩ hK hs
    have hR := registered_of_reachable hreach
    have hstep := FilterState.step_inv hs
    obtain ⟨thread, phase, hA⟩ := hC.accounts hP hR (listed_of_reachable hreach) hK hs
    refine ⟨hreach.step hs, hD.step hK.1 hstep hR hreach, hP.step hR hK hstep, hC.step hA ?_⟩
    rcases hstep.sockets.attaching_inv with ⟨hlength, -⟩ | ⟨-, hlength, -⟩ <;> omega

theorem references_of_detaching (hp : phase.detaching = some object) :
    phase.removing = some object ∨ object ∈ phase.references := by
  cases phase with
  | detach step object' resume =>
    obtain rfl := Option.some.inj hp
    cases step with
    | retain => exact .inl rfl
    | removeFromSocketsList => exact .inl rfl
    | _ => exact .inr (List.mem_replicate.2 ⟨Nat.succ_ne_zero _, rfl⟩)
  | _ => cases hp

/-- `FltDetach` of an object without references has returned. -/
theorem Retained.detached (hC : Retained w h) (hP : Placed w h) (hlt : object < w.objects.length)
    (hzero : w.retainCount object = 0) : .detached object ∈ h := by
  have hlist : object ∉ w.socketsList := fun hmem => Nat.ne_of_gt (hC.pos_of_mem hmem) hzero
  have hheld : ∀ thread, object ∉ (w.threads thread).references :=
    fun thread hmem => Nat.ne_of_gt (hC.pos_of_held thread hmem) hzero
  have hdet : object ∈ w.detaching := by
    by_contra hnot
    rcases hP.present object hlt hnot with hmem | ⟨thread, hp⟩
    · exact hlist hmem
    · exact hheld thread (by rw [hp]; exact List.mem_singleton_self _)
  refine (hP.finished object hdet).resolve_right ?_
  rintro ⟨thread, hp⟩
  rcases references_of_detaching hp with hremoving | hmem
  · exact hlist (hP.removing thread object hremoving)
  · exact hheld thread hmem

theorem Retained.zero_iff (hC : Retained w h) : w.retainCount object = 0 ↔
    object ∉ w.socketsList ∧ object ∉ w.socketsListToReport ∧
      ∀ thread, object ∉ (w.threads thread).references := by
  constructor
  · intro hzero
    have hheld := fun thread => hC.held thread object
    have hlists := hheld 0
    unfold FilterState.listReferences at hlists
    refine ⟨List.count_eq_zero.1 (by omega), List.count_eq_zero.1 (by omega), fun thread => ?_⟩
    have := hheld thread
    exact List.count_eq_zero.1 (by omega)
  · rintro ⟨hlist, hreport, hheld⟩
    rw [hC.count object, FilterState.listReferences, List.count_eq_zero.2 hlist, List.count_eq_zero.2 hreport]
    exact (Nat.zero_add _).trans (total_of_zero fun thread => List.count_eq_zero.2 (hheld thread))

theorem count_eq_ite {objects : List Nat} (hone : objects.count object ≤ 1) :
    objects.count object = if object ∈ objects then 1 else 0 := by
  split_ifs with hmem
  · exact Nat.le_antisymm hone (List.count_pos_iff.2 hmem)
  · exact List.count_eq_zero.2 hmem

/-- Over every run of all threads, as long as the kernel keeps to the KPI and `FltDetach` of an object begins
once: the reference count of an object is the number of the lists it is in and of the references that threads
hold on it. It is freed once, when it is in neither list and no thread holds it, and its queue is empty then,
nothing in it waits for reporting, and both flags are clear. -/
theorem retainCount_exact {as : List FilterLabel} (hr : filterMachine.run .start as = some (w, h))
    (hC : filterMachine.Along FilterState.KpiOnce .start as) (object : Nat) :
    (∃ threads : Finset Nat, (∀ thread ∉ threads, object ∉ (w.threads thread).references) ∧
      w.retainCount object = (if object ∈ w.socketsList then 1 else 0) +
        (if object ∈ w.socketsListToReport then 1 else 0) +
        ∑ thread ∈ threads, (w.threads thread).references.count object) ∧
      h.count (.freed object) ≤ 1 ∧
      (.freed object ∈ h ↔ object < w.objects.length ∧ object ∉ w.socketsList ∧
        object ∉ w.socketsListToReport ∧ ∀ thread, object ∉ (w.threads thread).references) ∧
      (.freed object ∈ h → ∃ s, w.objects[object]? = some s ∧ s.so.pendingQueue = [] ∧
        s.so.packetsWaitingForReporting = 0 ∧ w.insertedInSocketsList object = false ∧
        s.so.insertedInSocketsListToReport = false) := by
  have hreach : filterMachine.Reachable .start w := ⟨as, h, hr⟩
  obtain ⟨hD, hP, hC⟩ := retained_of_run hr hC
  have hR := registered_of_reachable hreach
  have hL := listed_of_reachable hreach
  have hfreed : .freed object ∈ h ↔ object < w.objects.length ∧ w.retainCount object = 0 := by
    rw [← List.count_pos_iff, hC.freed object]
    split_ifs with hdone
    · exact iff_of_true Nat.one_pos hdone
    · exact iff_of_false (Nat.lt_irrefl _) hdone
  refine ⟨?_, ?_, ?_, ?_⟩
  · obtain ⟨threads, hnone, hsum⟩ := total_eq_sum (hC.finite object)
    refine ⟨threads, fun thread hnot => List.count_eq_zero.1 (hnone thread hnot), ?_⟩
    rw [← count_eq_ite (by rw [hR.count]; split_ifs <;> omega),
      ← count_eq_ite (by rw [hL.count]; split_ifs <;> omega), ← hsum]
    exact hC.count object
  · rw [hC.freed object]
    split_ifs <;> omega
  · rw [hfreed, hC.zero_iff]
  · intro hmem
    obtain ⟨hlt, hzero⟩ := hfreed.1 hmem
    obtain ⟨hlist, hreport, -⟩ := hC.zero_iff.1 hzero
    obtain ⟨hdet, hout, hset⟩ := hD.detached object (hC.detached hP hlt hzero)
    have hobj := List.getElem?_eq_getElem hlt
    obtain ⟨hdrained, -⟩ := hset _ hobj
    refine ⟨_, hobj, hdrained.queue, ?_, hout, ?_⟩
    · rw [(object_queueShape hreach hobj).waiting, hdrained.queue]
      rfl
    · rw [← inserted_eq hobj, Bool.eq_false_iff]
      exact fun hflag => hreport (hL.mem_of_inserted hflag)

/-- `FltDetach` returns while the injection thread has a reference on the object, which it releases last. -/
def retainRun : List FilterLabel := detachRun ++ [.next 1 .success, .next 1 .success, .next 1 .success]

theorem retainRun_exact :
    ∃ w h, filterMachine.run .start retainRun = some (w, h) ∧ .detached 0 ∈ h ∧ .freed 0 ∈ h ∧
      (∃ threads : Finset Nat, (∀ thread ∉ threads, 0 ∉ (w.threads thread).references) ∧
        w.retainCount 0 = (if 0 ∈ w.socketsList then 1 else 0) + (if 0 ∈ w.socketsListToReport then 1 else 0) +
          ∑ thread ∈ threads, (w.threads thread).references.count 0) ∧
      h.count (.freed 0) ≤ 1 ∧
      (.freed 0 ∈ h ↔ 0 < w.objects.length ∧ 0 ∉ w.socketsList ∧ 0 ∉ w.socketsListToReport ∧
        ∀ thread, 0 ∉ (w.threads thread).references) ∧
      (.freed 0 ∈ h → ∃ s, w.objects[0]? = some s ∧ s.so.pendingQueue = [] ∧
        s.so.packetsWaitingForReporting = 0 ∧ w.insertedInSocketsList 0 = false ∧
        s.so.insertedInSocketsListToReport = false) := by
  obtain ⟨w, h, hr, hdone, hfreed⟩ : ∃ w h, filterMachine.run .start retainRun = some (w, h) ∧
      .detached 0 ∈ h ∧ .freed 0 ∈ h :=
    ⟨_, _, rfl, by decide, by decide⟩
  exact ⟨w, h, hr, hdone, hfreed, retainCount_exact hr (by decide) 0⟩

end NkeFilter
