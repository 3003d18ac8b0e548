import NkeFilter.FilterStep

/-!
# The list of sockets

`FltAttach` and `FltDetach` around `SocketsList`. An object that is still to be inserted is known to no
other thread: it has no cookie, is in no list, and no `FltDetach` of it has begun. So an object is inserted
once, and one that `FltDetach` has taken out of the list never gets back into it.
-/

namespace NkeFilter
open Lib NkeSocketObject

/-- The object that a `FltAttach` has created, until it returns. -/
def FilterPhase.attaching : FilterPhase → Option Nat
  | .attachInsert object | .attachReturn object => some object
  | _ => none

/-- The call of a `FltAttach` that has not created its object yet. -/
def FilterPhase.attach : FilterPhase → Option AttachCall
  | .attachCheck attach | .attachChecked _ attach | .attachFind attach | .attachOld _ attach
  | .attachCreate attach => some attach
  | .detach _ _ resume => resume
  | _ => none

/-- `FltDetach` is behind the region of `SocketsListLock` in `removeFromSocketsList`. -/
def DetachStep.removed : DetachStep → Bool
  | .retain | .removeFromSocketsList => false
  | _ => true

def FilterState.socketId (w : FilterState) (object : Nat) : Option NkeSocketID :=
  w.objects[object]?.map fun s => s.so.socketId

/-! ### The steps, as far as the list is concerned -/

/-- The states differ at most in the threads, the reference counts, the list of sockets to report and the
data of the objects. -/
structure SameSockets (w w' : FilterState) : Prop where
  length : w'.objects.length = w.objects.length
  socketId : ∀ object, w'.socketId object = w.socketId object
  socketsList : w'.socketsList = w.socketsList
  insertedInSocketsList : w'.insertedInSocketsList = w.insertedInSocketsList
  gSocketSequence : w'.gSocketSequence = w.gSocketSequence
  cookies : w'.cookies = w.cookies
  detaching : w'.detaching = w.detaching

/-- What a thread can go on with when it leaves the list as it is. -/
structure Follows (w : FilterState) (a : FilterLabel) (phase phase' : FilterPhase) : Prop where
  attaching : phase'.attaching = none
  detach : ∀ step object resume, phase' = .detach step object resume →
    ∃ step', phase = .detach step' object resume ∧ (step.removed → step'.removed)
  old : ∀ object attach, phase' = .attachOld object attach → phase = .detach .release object (some attach)
  create : ∀ attach, phase' = .attachCreate attach →
    (∃ object, phase = .attachOld object attach) ∨ w.getSocketObject attach.so = none
  attach : ∀ attach, phase'.attach = some attach →
    phase.attach = some attach ∨ ∃ thread, a = .fltAttach thread attach

inductive SocketsStep (w : FilterState) (a : FilterLabel) (w' : FilterState) : Prop
  | stay : SameSockets w w' → w'.threads = w.threads → SocketsStep w a w'
  | move {thread : Nat} {phase : FilterPhase} : a.thread = some thread → SameSockets w w' →
      w'.threads = Function.update w.threads thread phase → Follows w a (w.threads thread) phase →
      SocketsStep w a w'
  | begin {thread object : Nat} {phase : FilterPhase} : a.thread = some thread → Begins w object a phase →
      SameSockets (w.beginDetach object) w' → w'.threads = Function.update w.threads thread phase →
      SocketsStep w a w'
  | attached {thread object : Nat} : a.thread = some thread → w.threads thread = .attachReturn object →
      SameSockets { w with cookies := object :: w.cookies } w' →
      w'.threads = Function.update w.threads thread .idle → SocketsStep w a w'
  | create {thread : Nat} {attach : AttachCall} : a.thread = some thread →
      w.threads thread = .attachCreate attach →
      w' = (w.withSocket attach).go thread (.attachInsert w.objects.length) → SocketsStep w a w'
  | insert {thread object : Nat} : a.thread = some thread → w.threads thread = .attachInsert object →
      w' = (w.insertInSocketsList object).go thread (.attachReturn object) → SocketsStep w a w'
  | remove {thread object : Nat} {resume : Option AttachCall} : a.thread = some thread →
      w.threads thread = .detach .removeFromSocketsList object resume →
      w' = (w.removeFromSocketsList object).go thread
        (.detach (.removeFromSocketsListToReport (w.insertedInSocketsList object)) object resume) →
      SocketsStep w a w'

variable {w w' : FilterState} {a : FilterLabel} {e : List FilterEvent} {thread object : Nat}
  {s s' : SocketState} {label : SocketLabel} {phase phase' : FilterPhase} {ev : List SocketEvent}

theorem SameFilter.sockets (h : SameFilter w w') : SameSockets w w' := by
  refine ⟨congrArg List.length h.objects, ?_, h.socketsList, h.insertedInSocketsList, h.gSocketSequence,
    h.cookies, h.detaching⟩
  intro object
  rw [FilterState.socketId, FilterState.socketId, h.objects]

theorem socketId_set (hobj : w.objects[object]? = some s)
    (hs : socketMachine.step s label = some (s', ev)) (hw : w'.objects = w.objects.set object s')
    (object' : Nat) : w'.socketId object' = w.socketId object' := by
  rw [FilterState.socketId, FilterState.socketId, hw]
  by_cases heq : object' = object
  · subst heq
    rw [List.getElem?_set_self (List.getElem?_eq_some_iff.1 hobj).1, hobj]
    exact congrArg some (socketId_of_step hs)
  · rw [List.getElem?_set_ne (Ne.symm heq)]

theorem Move.follows (h : Move w a phase phase') : Follows w a phase phase' := by
  cases h with
  | attach h => exact ⟨rfl, nofun, nofun, nofun, fun _ heq => .inr ⟨_, Option.some.inj heq ▸ h⟩⟩
  | present => exact ⟨rfl, nofun, nofun, nofun, fun _ heq => .inl heq⟩
  | absent hnone | gone hnone =>
    refine ⟨rfl, nofun, nofun, ?_, fun _ heq => .inl heq⟩
    rintro attach ⟨⟩
    exact .inr hnone
  | checked => exact ⟨rfl, nofun, nofun, nofun, fun _ heq => .inl heq⟩
  | oldReleased =>
    refine ⟨rfl, nofun, nofun, ?_, fun _ heq => .inl heq⟩
    rintro attach ⟨⟩
    exact .inl ⟨_, rfl⟩
  | detach h =>
    refine ⟨rfl, ?_, nofun, nofun, fun _ heq => .inl heq⟩
    rintro step object resume ⟨⟩
    refine ⟨_, rfl, ?_⟩
    cases h <;> exact id
  | _ => exact ⟨rfl, nofun, nofun, nofun, nofun⟩

theorem Acts.follows (h : Acts s object phase label phase') : Follows w a phase phase' := by
  cases h with
  | decrement =>
    refine ⟨rfl, ?_, nofun, nofun, fun _ heq => .inl heq⟩
    rintro step object resume ⟨⟩
    exact ⟨_, rfl, fun _ => rfl⟩
  | purgeAll =>
    refine ⟨rfl, ?_, nofun, nofun, fun _ heq => .inl heq⟩
    rintro step object resume ⟨⟩
    exact ⟨_, rfl, fun _ => rfl⟩
  | _ => exact ⟨rfl, nofun, nofun, nofun, nofun⟩

theorem FilterStep.sockets (hs : FilterStep w a w' e) : SocketsStep w a w' := by
  have hset : ∀ {object : Nat} {s s' label ev} {w' : FilterState}, w.objects[object]? = some s →
      socketMachine.step s label = some (s', ev) → w'.objects = w.objects.set object s' →
      w'.socketsList = w.socketsList → w'.insertedInSocketsList = w.insertedInSocketsList →
      w'.gSocketSequence = w.gSocketSequence → w'.cookies = w.cookies → w'.detaching = w.detaching →
      SameSockets w w' := by
    intro object s s' label ev w' hobj hstep hw hlist hin hseq hcookies hdet
    exact ⟨by rw [hw, List.length_set], socketId_set hobj hstep hw, hlist, hin, hseq, hcookies, hdet⟩
  cases hs with
  | nothing => exact .stay ⟨rfl, fun _ => rfl, rfl, rfl, rfl, rfl, rfl⟩ rfl
  | move hthread hmove hsame hthreads _ => exact .move hthread hsame.sockets hthreads hmove.follows
  | begin hthread hbegins hsame hthreads => exact .begin hthread hbegins hsame.sockets hthreads
  | detached hp hphase hsame hthreads _ =>
    refine .move rfl hsame.sockets hthreads ?_
    rw [hp]
    rcases hphase with rfl | ⟨attach, rfl, rfl⟩
    · exact ⟨rfl, nofun, nofun, nofun, nofun⟩
    · refine ⟨rfl, nofun, ?_, nofun, fun _ heq => .inl heq⟩
      rintro object attach ⟨⟩
      rfl
  | attached hp hsame hthreads _ => exact .attached rfl hp hsame.sockets hthreads
  | act hobj hacts hstep => exact .move rfl (hset hobj hstep rfl rfl rfl rfl rfl rfl) rfl hacts.follows
  | data hobj _ hstep _ => exact .stay (hset hobj hstep rfl rfl rfl rfl rfl rfl) rfl
  | enlist hobj _ hstep _ => exact .stay (hset hobj hstep rfl rfl rfl rfl rfl rfl) rfl
  | pop _ _ hobj hstep =>
    exact .move rfl (hset hobj hstep rfl rfl rfl rfl rfl rfl) rfl ⟨rfl, nofun, nofun, nofun, nofun⟩
  | unlist hp hobj _ hstep =>
    refine .move rfl (hset hobj hstep rfl rfl rfl rfl rfl rfl) rfl ?_
    rw [hp]
    refine ⟨rfl, ?_, nofun, nofun, fun _ heq => .inl heq⟩
    rintro step object resume ⟨⟩
    exact ⟨_, rfl, fun _ => rfl⟩
  | relist _ hobj _ hstep =>
    exact .move rfl (hset hobj hstep rfl rfl rfl rfl rfl rfl) rfl ⟨rfl, nofun, nofun, nofun, nofun⟩
  | create hp => exact .create rfl hp rfl
  | insert hp => exact .insert rfl hp rfl
  | remove hp => exact .remove rfl hp rfl

section Lists

theorem insert_inserted : (w.insertInSocketsList object).insertedInSocketsList =
    Function.update w.insertedInSocketsList object true := by
  unfold FilterState.insertInSocketsList
  split
  · rename_i h
    exact (Function.update_eq_self_iff.2 h.symm).symm
  · rfl

theorem insert_cookies : (w.insertInSocketsList object).cookies = w.cookies := by
  unfold FilterState.insertInSocketsList
  split <;> rfl

theorem insert_detaching : (w.insertInSocketsList object).detaching = w.detaching := by
  unfold FilterState.insertInSocketsList
  split <;> rfl

theorem remove_inserted : (w.removeFromSocketsList object).insertedInSocketsList =
    Function.update w.insertedInSocketsList object false := by
  unfold FilterState.removeFromSocketsList
  split
  · rfl
  · rename_i h
    exact (Function.update_eq_self_iff.2 (by simpa using h)).symm

theorem remove_cookies : (w.removeFromSocketsList object).cookies = w.cookies := by
  unfold FilterState.removeFromSocketsList
  split <;> rfl

theorem remove_detaching : (w.removeFromSocketsList object).detaching = w.detaching := by
  unfold FilterState.removeFromSocketsList
  split <;> rfl

theorem insert_socketsList (h : w.insertedInSocketsList object = false) :
    (w.insertInSocketsList object).socketsList = object :: w.socketsList := by
  unfold FilterState.insertInSocketsList
  rw [if_neg (by simp [h])]
  rfl

theorem remove_count_of_ne {object' : Nat} (hne : object' ≠ object) :
    (w.removeFromSocketsList object).socketsList.count object' = w.socketsList.count object' := by
  unfold FilterState.removeFromSocketsList
  split
  · exact List.count_erase_of_ne hne ..
  · rfl

end Lists

/-! ### What the threads know -/

def FilterState.Knows (w : FilterState) : FilterPhase → Prop
  | .attachInsert object =>
    w.insertedInSocketsList object = false ∧ object ∉ w.cookies ∧ object ∉ w.detaching
  | .detach step object _ => object ∈ w.detaching ∧ (step.removed → w.insertedInSocketsList object = false)
  | .attachOld object _ => object ∈ w.detaching ∧ w.insertedInSocketsList object = false
  | _ => True

structure Registered (w : FilterState) : Prop where
  count : ∀ object, w.socketsList.count object = if w.insertedInSocketsList object then 1 else 0
  known : ∀ object, object ∈ w.cookies ∨ object ∈ w.detaching ∨ w.insertedInSocketsList object →
    object < w.objects.length
  attaching : ∀ thread object, (w.threads thread).attaching = some object → object < w.objects.length
  alone : ∀ thread thread' object, (w.threads thread).attaching = some object →
    (w.threads thread').attaching = some object → thread = thread'
  knows : ∀ thread, w.Knows (w.threads thread)

theorem registered_start : Registered .start := by
  refine ⟨fun _ => rfl, ?_, nofun, nofun, fun _ => trivial⟩
  intro object h
  rcases h with h | h | h <;> cases h

theorem threads_inv (hthreads : w'.threads = Function.update w.threads thread phase) (thread' : Nat) :
    thread' = thread ∧ w'.threads thread' = phase ∨
      thread' ≠ thread ∧ w'.threads thread' = w.threads thread' := by
  rw [hthreads]
  by_cases heq : thread' = thread
  · subst heq
    exact .inl ⟨rfl, Function.update_self ..⟩
  · exact .inr ⟨heq, Function.update_of_ne heq ..⟩

theorem mem_of_getSocketObject {so : UInt64} (h : w.getSocketObject so = some object) :
    object ∈ w.socketsList ∧ ∃ id, w.socketId object = some id ∧ id.socket = so := by
  unfold FilterState.getSocketObject at h
  refine ⟨List.mem_of_find?_eq_some h, ?_⟩
  have hany := List.find?_some h
  obtain ⟨s, hobj, hso⟩ := (Option.any_eq_true _ _).1 hany
  exact ⟨s.so.socketId, by rw [FilterState.socketId, hobj]; rfl, by simpa using hso⟩

theorem Registered.mem_iff (hR : Registered w) (object : Nat) :
    object ∈ w.socketsList ↔ w.insertedInSocketsList object := by
  rw [← List.count_pos_iff, hR.count object]
  cases w.insertedInSocketsList object <;> simp

theorem Registered.remove_count_self (hR : Registered w) (object : Nat) :
    (w.removeFromSocketsList object).socketsList.count object = 0 := by
  have hcount := hR.count object
  unfold FilterState.removeFromSocketsList
  split
  · rename_i h
    rw [if_pos h] at hcount
    show (w.socketsList.erase object).count object = 0
    rw [List.count_erase_self, hcount]
  · rename_i h
    rwa [if_neg h] at hcount

/-- An object whose `FltDetach` begins is not to be inserted any more. -/
theorem Begins.knows (h : Begins w object a phase) (hR : Registered w) : object < w.objects.length ∧
    ∀ thread, w.threads thread ≠ .attachInsert object := by
  cases h with
  | called _ hcookie =>
    refine ⟨hR.known object (.inl hcookie), ?_⟩
    intro thread hp
    have hknows := hR.knows thread
    rw [hp] at hknows
    exact hknows.2.1 hcookie
  | forced _ hfound =>
    have hin := (hR.mem_iff object).1 (mem_of_getSocketObject hfound).1
    refine ⟨hR.known object (.inr (.inr hin)), ?_⟩
    intro thread hp
    have hknows := hR.knows thread
    rw [hp] at hknows
    rw [hknows.1] at hin
    cases hin

theorem Begins.phase_detach (h : Begins w object a phase) :
    ∃ resume, phase = .detach .retain object resume := by
  cases h with
  | called => exact ⟨_, rfl⟩
  | forced => exact ⟨_, rfl⟩

theorem Follows.knows (h : Follows w a phase phase') (hk : w.Knows phase) : w.Knows phase' := by
  cases phase' with
  | attachInsert object => cases h.attaching
  | detach step object resume =>
    obtain ⟨step', rfl, hremoved⟩ := h.detach step object resume rfl
    exact ⟨hk.1, fun hr => hk.2 (hremoved hr)⟩
  | attachOld object attach =>
    obtain rfl := h.old object attach rfl
    exact ⟨hk.1, hk.2 rfl⟩
  | _ => trivial

/-- What a thread knows stays true as long as nothing is inserted and nothing becomes known of the object that
the thread is to insert. -/
theorem FilterState.Knows.mono (hk : w.Knows phase)
    (hin : ∀ object, w'.insertedInSocketsList object → w.insertedInSocketsList object)
    (hdet : ∀ object, object ∈ w.detaching → object ∈ w'.detaching)
    (hnew : ∀ object, phase = .attachInsert object →
      (object ∈ w'.cookies → object ∈ w.cookies) ∧ (object ∈ w'.detaching → object ∈ w.detaching)) :
    w'.Knows phase := by
  have hout : ∀ object, w.insertedInSocketsList object = false → w'.insertedInSocketsList object = false := by
    intro object h
    rw [Bool.eq_false_iff] at h ⊢
    exact fun h' => h (hin object h')
  cases phase with
  | attachInsert object =>
    exact ⟨hout object hk.1, fun h => hk.2.1 ((hnew object rfl).1 h), fun h => hk.2.2 ((hnew object rfl).2 h)⟩
  | detach step object resume => exact ⟨hdet object hk.1, fun hr => hout object (hk.2 hr)⟩
  | attachOld object attach => exact ⟨hdet object hk.1, hout object hk.2⟩
  | _ => trivial

/-- The other threads when an object is inserted that was never known. -/
theorem Registered.knows_insert (hR : Registered w) (hne : w.threads thread ≠ .attachInsert object)
    (hnew : object ∉ w.detaching) : (w.insertInSocketsList object).Knows (w.threads thread) := by
  have hother : ∀ object', object' ≠ object → w.insertedInSocketsList object' = false →
      (w.insertInSocketsList object).insertedInSocketsList object' = false := by
    intro object' hne h
    rw [insert_inserted, Function.update_of_ne hne, h]
  have hcookies : (w.insertInSocketsList object).cookies = w.cookies := insert_cookies
  have hdet : (w.insertInSocketsList object).detaching = w.detaching := insert_detaching
  have hk := hR.knows thread
  generalize w.threads thread = phase at hk hne
  cases phase with
  | attachInsert object' =>
    refine ⟨hother object' ?_ hk.1, hcookies ▸ hk.2.1, hdet ▸ hk.2.2⟩
    rintro rfl
    exact hne rfl
  | detach step object' resume =>
    refine ⟨hdet ▸ hk.1, fun hr => hother object' ?_ (hk.2 hr)⟩
    rintro rfl
    exact hnew hk.1
  | attachOld object' attach =>
    refine ⟨hdet ▸ hk.1, hother object' ?_ hk.2⟩
    rintro rfl
    exact hnew hk.1
  | _ => trivial

theorem FilterState.Knows.remove (hk : w.Knows phase) : (w.removeFromSocketsList object).Knows phase := by
  have hcookies : (w.removeFromSocketsList object).cookies = w.cookies := remove_cookies
  have hdet : (w.removeFromSocketsList object).detaching = w.detaching := remove_detaching
  refine hk.mono ?_ (fun _ h => hdet ▸ h) fun _ _ => ⟨fun h => hcookies ▸ h, fun h => hdet ▸ h⟩
  intro object' h
  rw [remove_inserted] at h
  by_cases heq : object' = object
  · rw [heq, Function.update_self] at h
    cases h
  · rwa [Function.update_of_ne heq] at h

theorem Registered.knows_step (hR : Registered w) (hs : SocketsStep w a w') (thread' : Nat) :
    w'.Knows (w'.threads thread') := by
  cases hs with
  | stay hsame hthreads =>
    rw [hthreads]
    refine (hR.knows thread').mono (fun _ h => hsame.insertedInSocketsList ▸ h)
      (fun _ h => hsame.detaching ▸ h) ?_
    exact fun _ _ => ⟨fun h => hsame.cookies ▸ h, fun h => hsame.detaching ▸ h⟩
  | @move thread phase _ hsame hthreads hfollows =>
    have hmono : ∀ phase, w.Knows phase → w'.Knows phase := fun phase hk =>
      hk.mono (fun _ h => hsame.insertedInSocketsList ▸ h) (fun _ h => hsame.detaching ▸ h)
        fun _ _ => ⟨fun h => hsame.cookies ▸ h, fun h => hsame.detaching ▸ h⟩
    rcases threads_inv hthreads thread' with ⟨rfl, h⟩ | ⟨-, h⟩
    · exact h ▸ hmono _ (hfollows.knows (hR.knows thread'))
    · exact h ▸ hmono _ (hR.knows thread')
  | @begin thread object phase _ hbegins hsame hthreads =>
    have hdet : w'.detaching = object :: w.detaching := hsame.detaching
    rcases threads_inv hthreads thread' with ⟨rfl, h⟩ | ⟨-, h⟩
    · obtain ⟨resume, rfl⟩ := hbegins.phase_detach
      rw [h]
      exact ⟨hdet ▸ List.mem_cons_self .., nofun⟩
    · rw [h]
      refine (hR.knows thread').mono (fun _ h => hsame.insertedInSocketsList ▸ h)
        (fun _ h => hdet ▸ List.mem_cons_of_mem _ h) ?_
      intro object' hp
      refine ⟨fun h => hsame.cookies ▸ h, fun hmem => ?_⟩
      rcases List.mem_cons.1 (hdet ▸ hmem) with rfl | hmem
      · exact absurd hp ((hbegins.knows hR).2 thread')
      · exact hmem
  | @attached thread object _ hp hsame hthreads =>
    rcases threads_inv hthreads thread' with ⟨rfl, h⟩ | ⟨hne, h⟩
    · rw [h]
      trivial
    · rw [h]
      refine (hR.knows thread').mono (fun _ h => hsame.insertedInSocketsList ▸ h)
        (fun _ h => hsame.detaching ▸ h) ?_
      intro object' hp'
      refine ⟨fun hmem => ?_, fun h => hsame.detaching ▸ h⟩
      rcases List.mem_cons.1 (hsame.cookies ▸ hmem) with rfl | hmem
      · exact absurd (hR.alone thread' thread object' (by rw [hp']; rfl) (by rw [hp]; rfl)) hne
      · exact hmem
  | @create thread attach _ hp hw =>
    have hthreads : w'.threads = Function.update w.threads thread (.attachInsert w.objects.length) := by
      rw [hw]
      rfl
    rcases threads_inv hthreads thread' with ⟨-, h⟩ | ⟨-, h⟩
    · rw [h, hw]
      have hnew : ∀ object, object ∈ w.cookies ∨ object ∈ w.detaching ∨ w.insertedInSocketsList object →
          object ≠ w.objects.length := fun object h => Nat.ne_of_lt (hR.known object h)
      refine ⟨?_, fun h => hnew _ (.inl h) rfl, fun h => hnew _ (.inr (.inl h)) rfl⟩
      exact Bool.eq_false_iff.2 fun h => hnew _ (.inr (.inr h)) rfl
    · rw [h, hw]
      exact (hR.knows thread').mono (fun _ h => h) (fun _ h => h) fun _ _ => ⟨id, id⟩
  | @insert thread object _ hp hw =>
    have hthreads : w'.threads = Function.update w.threads thread (.attachReturn object) := hw ▸ insert_threads
    have hknown := hR.knows thread
    rw [hp] at hknown
    rcases threads_inv hthreads thread' with ⟨-, h⟩ | ⟨hne, h⟩
    · rw [h]
      trivial
    · rw [h, hw]
      refine hR.knows_insert ?_ hknown.2.2
      intro hp'
      exact hne (hR.alone thread' thread object (by rw [hp']; rfl) (by rw [hp]; rfl))
  | @remove thread object resume _ hp hw =>
    have hthreads : w'.threads = Function.update w.threads thread
      (.detach (.removeFromSocketsListToReport (w.insertedInSocketsList object)) object resume) :=
        hw ▸ remove_threads
    have hknown := hR.knows thread
    rw [hp] at hknown
    rcases threads_inv hthreads thread' with ⟨-, h⟩ | ⟨-, h⟩
    · rw [h, hw]
      refine ⟨?_, fun _ => ?_⟩
      · show object ∈ (w.removeFromSocketsList object).detaching
        rw [remove_detaching]
        exact hknown.1
      · show (w.removeFromSocketsList object).insertedInSocketsList object = false
        rw [remove_inserted, Function.update_self]
    · rw [h, hw]
      exact (hR.knows thread').remove

theorem attaching_of_update (hthreads : w'.threads = Function.update w.threads thread phase)
    (hphase : ∀ object, phase.attaching = some object → (w.threads thread).attaching = some object)
    (thread' object : Nat) (h : (w'.threads thread').attaching = some object) :
    (w.threads thread').attaching = some object := by
  rcases threads_inv hthreads thread' with ⟨rfl, hp⟩ | ⟨-, hp⟩
  · exact hphase object (hp ▸ h)
  · exact hp ▸ h

/-- Only a new object is attached anew. -/
theorem SocketsStep.attaching_inv (hs : SocketsStep w a w') :
    (w'.objects.length = w.objects.length ∧ ∀ thread object, (w'.threads thread).attaching = some object →
      (w.threads thread).attaching = some object) ∨
      ∃ thread, w'.objects.length = w.objects.length + 1 ∧
        w'.threads = Function.update w.threads thread (.attachInsert w.objects.length) := by
  cases hs with
  | stay hsame hthreads => exact .inl ⟨hsame.length, fun _ _ h => hthreads ▸ h⟩
  | move _ hsame hthreads hfollows =>
    refine .inl ⟨hsame.length, attaching_of_update hthreads ?_⟩
    intro object h
    rw [hfollows.attaching] at h
    cases h
  | begin _ hbegins hsame hthreads =>
    obtain ⟨resume, rfl⟩ := hbegins.phase_detach
    exact .inl ⟨hsame.length, attaching_of_update hthreads nofun⟩
  | attached _ _ hsame hthreads => exact .inl ⟨hsame.length, attaching_of_update hthreads nofun⟩
  | @create thread _ _ _ hw =>
    subst hw
    exact .inr ⟨thread, List.length_append, rfl⟩
  | @insert thread object _ hp hw =>
    subst hw
    refine .inl ⟨congrArg List.length insert_objects, attaching_of_update insert_threads ?_⟩
    intro object' h
    rw [hp]
    exact h
  | remove _ _ hw =>
    subst hw
    exact .inl ⟨congrArg List.length remove_objects, attaching_of_update remove_threads nofun⟩

theorem Registered.count_step (hR : Registered w) (hs : SocketsStep w a w') (object' : Nat) :
    w'.socketsList.count object' = if w'.insertedInSocketsList object' then 1 else 0 := by
  have hsame : w'.socketsList = w.socketsList → w'.insertedInSocketsList = w.insertedInSocketsList →
      w'.socketsList.count object' = if w'.insertedInSocketsList object' then 1 else 0 := by
    intro hlist hin
    rw [hlist, hin]
    exact hR.count object'
  cases hs with
  | stay h => exact hsame h.socketsList h.insertedInSocketsList
  | move _ h => exact hsame h.socketsList h.insertedInSocketsList
  | begin _ _ h => exact hsame h.socketsList h.insertedInSocketsList
  | attached _ _ h => exact hsame h.socketsList h.insertedInSocketsList
  | create _ _ hw =>
    subst hw
    exact hR.count object'
  | @insert thread object _ hp hw =>
    have hknown := hR.knows thread
    rw [hp] at hknown
    subst hw
    show (w.insertInSocketsList object).socketsList.count object' =
      if (w.insertInSocketsList object).insertedInSocketsList object' then 1 else 0
    rw [insert_inserted, insert_socketsList hknown.1]
    by_cases heq : object' = object
    · subst heq
      rw [Function.update_self, List.count_cons_self, hR.count object', hknown.1]
      rfl
    · rw [Function.update_of_ne heq, List.count_cons_of_ne (Ne.symm heq), hR.count object']
  | @remove thread object _ _ hp hw =>
    subst hw
    show (w.removeFromSocketsList object).socketsList.count object' =
      if (w.removeFromSocketsList object).insertedInSocketsList object' then 1 else 0
    rw [remove_inserted]
    by_cases heq : object' = object
    · subst heq
      rw [Function.update_self, hR.remove_count_self]
      rfl
    · rw [Function.update_of_ne heq, remove_count_of_ne heq, hR.count object']

theorem Registered.known_step (hR : Registered w) (hs : SocketsStep w a w') (object' : Nat)
    (h : object' ∈ w'.cookies ∨ object' ∈ w'.detaching ∨ w'.insertedInSocketsList object') :
    object' < w'.objects.length := by
  cases hs with
  | stay hsame =>
    rw [hsame.cookies, hsame.detaching, hsame.insertedInSocketsList] at h
    exact hsame.length ▸ hR.known object' h
  | move _ hsame =>
    rw [hsame.cookies, hsame.detaching, hsame.insertedInSocketsList] at h
    exact hsame.length ▸ hR.known object' h
  | @begin _ object _ _ hbegins hsame =>
    rw [hsame.cookies, hsame.detaching, hsame.insertedInSocketsList] at h
    have hlength : w'.objects.length = w.objects.length := hsame.length
    rw [hlength]
    rcases h with h | h | h
    · exact hR.known object' (.inl h)
    · rcases List.mem_cons.1 h with rfl | h
      · exact (hbegins.knows hR).1
      · exact hR.known object' (.inr (.inl h))
    · exact hR.known object' (.inr (.inr h))
  | @attached thread object _ hp hsame =>
    rw [hsame.cookies, hsame.detaching, hsame.insertedInSocketsList] at h
    have hlength : w'.objects.length = w.objects.length := hsame.length
    rw [hlength]
    rcases h with h | h
    · rcases List.mem_cons.1 h with rfl | h
      · exact hR.attaching thread object' (by rw [hp]; rfl)
      · exact hR.known object' (.inl h)
    · exact hR.known object' (.inr h)
  | create _ _ hw =>
    subst hw
    have hlt := hR.known object' h
    show object' < (w.objects ++ [_]).length
    rw [List.length_append]
    exact hlt.trans (Nat.lt_succ_self _)
  | @insert thread object _ hp hw =>
    subst hw
    rw [insert_objects]
    rcases h with h | h | h
    · exact hR.known object' (.inl (insert_cookies (w := w) ▸ h))
    · exact hR.known object' (.inr (.inl (insert_detaching (w := w) ▸ h)))
    · by_cases heq : object' = object
      · exact heq ▸ hR.attaching thread object (by rw [hp]; rfl)
      · have h : (w.insertInSocketsList object).insertedInSocketsList object' := h
        rw [insert_inserted, Function.update_of_ne heq] at h
        exact hR.known object' (.inr (.inr h))
  | @remove thread object _ _ hp hw =>
    subst hw
    rw [remove_objects]
    rcases h with h | h | h
    · exact hR.known object' (.inl (remove_cookies (w := w) ▸ h))
    · exact hR.known object' (.inr (.inl (remove_detaching (w := w) ▸ h)))
    · have h : (w.removeFromSocketsList object).insertedInSocketsList object' := h
      rw [remove_inserted] at h
      by_cases heq : object' = object
      · rw [heq, Function.update_self] at h
        cases h
      · rw [Function.update_of_ne heq] at h
        exact hR.known object' (.inr (.inr h))

theorem Registered.step (hR : Registered w) (hs : SocketsStep w a w') : Registered w' := by
  refine ⟨hR.count_step hs, hR.known_step hs, ?_, ?_, hR.knows_step hs⟩
  · intro thread object h
    rcases hs.attaching_inv with ⟨hlength, hold⟩ | ⟨thread', hlength, hthreads⟩
    · exact hlength ▸ hR.attaching thread object (hold thread object h)
    · rw [hlength]
      rcases threads_inv hthreads thread with ⟨-, hp⟩ | ⟨-, hp⟩
      · rw [hp] at h
        cases h
        exact Nat.lt_succ_self _
      · exact (hR.attaching thread object (hp ▸ h)).trans (Nat.lt_succ_self _)
  · intro thread₁ thread₂ object h₁ h₂
    rcases hs.attaching_inv with ⟨-, hold⟩ | ⟨thread', -, hthreads⟩
    · exact hR.alone thread₁ thread₂ object (hold _ _ h₁) (hold _ _ h₂)
    · -- the number of the new object is in nobody's hands
      have hnew : ∀ thread, (w.threads thread).attaching ≠ some w.objects.length :=
        fun thread h => Nat.lt_irrefl _ (hR.attaching thread _ h)
      rcases threads_inv hthreads thread₁ with ⟨rfl, hp₁⟩ | ⟨-, hp₁⟩ <;>
        rcases threads_inv hthreads thread₂ with ⟨rfl, hp₂⟩ | ⟨-, hp₂⟩
      · rfl
      · rw [hp₁] at h₁
        cases h₁
        exact absurd (hp₂ ▸ h₂) (hnew thread₂)
      · rw [hp₂] at h₂
        cases h₂
        exact absurd (hp₁ ▸ h₁) (hnew thread₁)
      · exact hR.alone thread₁ thread₂ object (hp₁ ▸ h₁) (hp₂ ▸ h₂)

theorem registered_of_reachable (hr : filterMachine.Reachable .start w) : Registered w :=
  hr.invariant registered_start fun _ _ _ _ hR hs => hR.step (FilterState.step_inv hs).sockets

/-- An object that `FltDetach` works on and that is not in the list stays out of it. -/
theorem SocketsStep.unlisted (hs : SocketsStep w a w') (hR : Registered w) (hdet : object ∈ w.detaching)
    (hout : w.insertedInSocketsList object = false) : w'.insertedInSocketsList object = false := by
  cases hs with
  | stay hsame => rw [hsame.insertedInSocketsList, hout]
  | move _ hsame => rw [hsame.insertedInSocketsList, hout]
  | begin _ _ hsame => exact (congrFun hsame.insertedInSocketsList object).trans hout
  | attached _ _ hsame => exact (congrFun hsame.insertedInSocketsList object).trans hout
  | create _ _ hw =>
    subst hw
    exact hout
  | @insert thread object' _ hp hw =>
    subst hw
    have hknown := hR.knows thread
    rw [hp] at hknown
    have hne : object ≠ object' := fun heq => hknown.2.2 (heq ▸ hdet)
    show (w.insertInSocketsList object').insertedInSocketsList object = false
    rw [insert_inserted, Function.update_of_ne hne, hout]
  | @remove _ object' _ _ _ hw =>
    subst hw
    show (w.removeFromSocketsList object').insertedInSocketsList object = false
    rw [remove_inserted]
    by_cases heq : object = object'
    · rw [heq, Function.update_self]
    · rw [Function.update_of_ne heq, hout]

end NkeFilter
