import NkeFilter.Lib.Locks

/-!
# The lock hierarchy of a socket

The functions that run on one socket, as the lists of lock actions they perform. All of them take
`injectionMutex` before `rwLock` before the socket mutex (which `sock_inject_data_in`,
`sock_inject_data_out` and `sock_setsockopt` take inside the kernel) before the list locks, but for the
`sock_evt_closing` callback: it arrives with the socket mutex held and takes the two object locks under
it.
-/

namespace NkeFilter
open Lib

inductive SocketLock where
  | socketMutex
  | injectionMutex
  | rwLock
  | SocketsListLock
  | SocketsListToReportLock
  deriving DecidableEq, Repr

namespace SocketLock

def rank : SocketLock → Nat
  | injectionMutex => 1
  | rwLock => 2
  | socketMutex => 3
  | SocketsListLock => 4
  | SocketsListToReportLock => 4

end SocketLock

abbrev LockPath := List (LockAction SocketLock)

namespace LockPath

/-- `LockExclusive` … `UnlockExclusive`. -/
def exclusively (body : LockPath) : LockPath := region .rwLock .exclusive body

/-- A call of the socket layer that takes the socket mutex. -/
def socketCall : LockPath := region .socketMutex .exclusive []

def socketCalls (n : Nat) : LockPath := (List.replicate n socketCall).flatten

def GetSocketObjectRef : LockPath := region .SocketsListLock .shared []

def logSocketEvent : LockPath := exclusively []

def setDeferredDataProperties : LockPath := exclusively []

def purgePendingQueue : LockPath := region .injectionMutex .exclusive (exclusively [])

def reinjectDeferredData (injected : Nat) : LockPath :=
  region .injectionMutex .exclusive (exclusively [] ++ socketCalls injected)

def removeFromSocketsList : LockPath :=
  exclusively (region .SocketsListLock .exclusive []) ++ region .SocketsListToReportLock .exclusive []

end LockPath

/-- The turns of the loop of `DeliverWaitingNotifications`: the list is found empty, or becomes empty
before the lock is taken, or a socket is served, with a call of `sock_setsockopt` for every inbound packet
reported, a nested `DeliverWaitingNotifications` when buffers are released, and perhaps a reinsertion. -/
inductive DeliverTurns where
  | done
  | emptied
  | served (setsockopts : Nat) (nested : DeliverTurns) (reinserted : Bool) (next : DeliverTurns)
  deriving DecidableEq, Repr

def DeliverTurns.path : DeliverTurns → LockPath
  | done => []
  | emptied => region .SocketsListToReportLock .exclusive []
  | served setsockopts nested reinserted next =>
    region .SocketsListToReportLock .exclusive [] ++
      (LockPath.exclusively (LockPath.socketCalls setsockopts) ++
        (nested.path ++ ((if reinserted then region .SocketsListToReportLock .exclusive [] else []) ++
          next.path)))

/-- What `FltNotify` does for an event between the two event logs, the closing event apart. -/
inductive NotifyEvent where
  /-- connecting, connected, disconnected, bound and the events without a case -/
  | other
  | shutdownWrite (injected : Nat)
  | shutdownRead
  | shutdownBoth (injected : Nat)
  | disconnecting (injected : Nat)
  | cantrecvmore (injected : Nat)
  deriving DecidableEq, Repr

def NotifyEvent.path : NotifyEvent → LockPath
  | other => []
  | shutdownWrite injected => LockPath.reinjectDeferredData injected
  | shutdownRead => LockPath.purgePendingQueue
  | shutdownBoth injected => LockPath.reinjectDeferredData injected ++ LockPath.purgePendingQueue
  | disconnecting injected => LockPath.reinjectDeferredData injected
  | cantrecvmore injected => LockPath.reinjectDeferredData injected

/-- The calls of the functions on a socket, with the choices that decide which locks they take. -/
inductive SocketCall where
  /-- `FltNotify` for a socket that is not in the list -/
  | fltNotifyUnknown
  | fltNotify (event : NotifyEvent)
  /-- `FltNotify` of `sock_evt_closing`, called with the socket mutex held -/
  | fltNotifyClosing
  | fltNotifyClosingUnknown
  | fltData (setsockopt enlisted : Bool) (deliver : DeliverTurns)
  | deliverWaitingNotifications (turns : DeliverTurns)
  | reinjectDeferredData (injected : Nat)
  | purgePendingQueue
  | setDeferredDataProperties
  | removeFromSocketsList
  deriving DecidableEq, Repr

/-- What the closing callback does under the socket mutex. -/
def closingBody : LockPath :=
  LockPath.GetSocketObjectRef ++ LockPath.logSocketEvent ++ LockPath.purgePendingQueue ++
    LockPath.logSocketEvent

def SocketCall.path : SocketCall → LockPath
  | fltNotifyUnknown => LockPath.GetSocketObjectRef
  | fltNotify event =>
    LockPath.GetSocketObjectRef ++ (LockPath.logSocketEvent ++ (event.path ++ LockPath.logSocketEvent))
  | fltNotifyClosing => .acquire .socketMutex .exclusive :: closingBody ++ [.release .socketMutex]
  | fltNotifyClosingUnknown => region .socketMutex .exclusive LockPath.GetSocketObjectRef
  | fltData setsockopt enlisted deliver =>
    LockPath.exclusively ((if setsockopt then LockPath.socketCall else []) ++
      if enlisted then region .SocketsListToReportLock .exclusive [] else []) ++ deliver.path
  | deliverWaitingNotifications turns => turns.path
  | reinjectDeferredData injected => LockPath.reinjectDeferredData injected
  | purgePendingQueue => LockPath.purgePendingQueue
  | setDeferredDataProperties => LockPath.setDeferredDataProperties
  | removeFromSocketsList => LockPath.removeFromSocketsList

abbrev socketLocks (T : Type) [DecidableEq T] :
    Machine (LockState T SocketLock) (LockLabel T SocketCall) Unit :=
  LockState.machine SocketCall.path

def SocketLock.IsObjectLock (l : SocketLock) : Prop := l = .injectionMutex ∨ l = .rwLock

/-- `x` has to take `l` before it gives the socket mutex back. -/
def NeedsUnderMutex {T : Type} (s : LockState T SocketLock) (x : T) (l : SocketLock) : Prop :=
  ∃ before mode rest, s.todo x = before ++ .acquire l mode :: rest ∧ .release .socketMutex ∉ before

/-- The closing callback takes the socket mutex only while no thread that waits for the mutex holds an
object lock, and a thread comes to a call of the socket layer under an object lock only while no thread
with the mutex still has to take that lock. -/
structure KeepsApart {T : Type} (s : LockState T SocketLock) (a : LockLabel T SocketCall) : Prop where
  arriving : ∀ t, a = .act t → s.todo t = SocketCall.path .fltNotifyClosing →
    ∀ y l, l.IsObjectLock → s.Waits y .socketMutex → l ∉ s.heldSet y
  calling : ∀ t action mode rest, a = .act t → s.todo t = action :: .acquire .socketMutex mode :: rest →
    ∀ l, l.IsObjectLock → ((∃ mode, action = .acquire l mode) ∨ l ∈ s.heldSet t ∧ action ≠ .release l) →
      ∀ x, .socketMutex ∈ s.heldSet x → ¬ NeedsUnderMutex s x l

/-- One thread holds the socket mutex and has to take an object lock under it, which a thread holds that
waits for the socket mutex. -/
def Inverted {T : Type} (s : LockState T SocketLock) : Prop :=
  ∃ x y l, l.IsObjectLock ∧ .socketMutex ∈ s.heldSet x ∧ NeedsUnderMutex s x l ∧
    s.Waits y .socketMutex ∧ l ∈ s.heldSet y

/-! ### The paths in order -/

section Paths
open SocketLock LockPath

theorem nested_exclusively {k : Nat} {body : LockPath} (h : Nested rank 2 body) (hk : k < 2 := by decide) :
    Nested rank k (exclusively body) :=
  .single (l := rwLock) hk h

theorem nested_socketCalls {k : Nat} (n : Nat) (hk : k < 3 := by decide) : Nested rank k (socketCalls n) := by
  induction n with
  | zero => exact .nil
  | succ n ih => exact (Nested.single (l := socketMutex) hk .nil).append ih

theorem nested_socketCall :
    Nested rank 2 socketCall := by simpa [socketCalls] using nested_socketCalls (k := 2) 1

theorem nested_listRegion {k : Nat} {mode : LockMode} {l : SocketLock} (hl : rank l = 4)
    (hk : k < 4 := by decide) : Nested rank k (region l mode []) :=
  .single (by rw [hl]; exact hk) .nil

theorem nested_toReport {k : Nat} (hk : k < 4 := by decide) :
    Nested rank k (region SocketsListToReportLock .exclusive []) :=
  nested_listRegion rfl hk

theorem nested_purge : Nested rank 0 purgePendingQueue :=
  .single (l := injectionMutex) Nat.one_pos (nested_exclusively .nil)

theorem nested_reinject (n : Nat) : Nested rank 0 (reinjectDeferredData n) :=
  .single (l := injectionMutex) Nat.one_pos ((nested_exclusively .nil).append (nested_socketCalls n))

theorem nested_event (event : NotifyEvent) : Nested rank 0 event.path := by
  cases event with
  | other => exact .nil
  | shutdownRead => exact nested_purge
  | shutdownBoth n => exact (nested_reinject n).append nested_purge
  | shutdownWrite n => exact nested_reinject n
  | disconnecting n => exact nested_reinject n
  | cantrecvmore n => exact nested_reinject n

theorem nested_deliver (turns : DeliverTurns) : Nested rank 0 turns.path := by
  induction turns with
  | done => exact .nil
  | emptied => exact nested_listRegion rfl
  | served n nested reinserted next ihnested ihnext =>
    have hserve : Nested rank 0 (exclusively (socketCalls n)) := nested_exclusively (nested_socketCalls n)
    have hreinsert := (nested_toReport (k := 0)).optional reinserted
    exact (nested_listRegion rfl).append (hserve.append (ihnested.append (hreinsert.append ihnext)))

theorem nested_closingBody : Nested rank 0 closingBody :=
  (((nested_listRegion rfl).append (nested_exclusively .nil)).append nested_purge).append
    (nested_exclusively .nil)

theorem nested_call (call : SocketCall) (h : call ≠ .fltNotifyClosing) : Nested rank 0 call.path := by
  cases call with
  | fltNotifyClosing => exact absurd rfl h
  | fltNotifyUnknown => exact nested_listRegion rfl
  | fltNotifyClosingUnknown => exact .single (l := socketMutex) (Nat.succ_pos 2) (nested_listRegion rfl)
  | fltNotify event =>
    have hlog : Nested rank 0 logSocketEvent := nested_exclusively .nil
    exact (nested_listRegion rfl).append (hlog.append ((nested_event event).append hlog))
  | fltData setsockopt enlisted deliver =>
    have hsetsockopt := nested_socketCall.optional setsockopt
    have henlist := (nested_toReport (k := 2)).optional enlisted
    exact (nested_exclusively (hsetsockopt.append henlist)).append (nested_deliver deliver)
  | deliverWaitingNotifications turns => exact nested_deliver turns
  | reinjectDeferredData n => exact nested_reinject n
  | purgePendingQueue => exact nested_purge
  | setDeferredDataProperties => exact nested_exclusively .nil
  | removeFromSocketsList => exact (nested_exclusively (nested_listRegion rfl)).append (nested_listRegion rfl)

end Paths

/-! ### The threads on the way -/

/-- Where a thread is: on a path in order, at the start of the closing callback, or inside it. -/
inductive OnPath {T : Type} (s : LockState T SocketLock) (t : T) : Prop
  | ordered : Ordered SocketLock.rank (s.heldSet t) (s.todo t) → OnPath s t
  | arriving : s.heldSet t = ∅ → s.todo t = SocketCall.path .fltNotifyClosing → OnPath s t
  | closing (p : LockPath) : p <:+ closingBody → s.todo t = p ++ [.release .socketMutex] →
      (t, .exclusive) ∈ s.holders .socketMutex →
      Ordered SocketLock.rank (s.heldSet t \ {.socketMutex}) p → OnPath s t

/-- The next action inside the closing callback: it takes a list lock, or one of the object locks with all
the object locks of no lower rank still to take, and it gives back no socket mutex. -/
def NextInClosing : LockPath → Prop
  | .acquire l mode :: p => l = .SocketsListLock ∨ (l.IsObjectLock ∧
      ∀ l' ∈ [SocketLock.injectionMutex, .rwLock], l.rank ≤ l'.rank →
        .acquire l' .exclusive ∈ LockAction.acquire l mode :: p)
  | .release l :: _ => l ≠ .socketMutex
  | [] => True

instance : DecidablePred SocketLock.IsObjectLock := fun l =>
  inferInstanceAs (Decidable (l = .injectionMutex ∨ l = .rwLock))

instance : DecidablePred NextInClosing
  | .acquire _ _ :: _ => inferInstanceAs (Decidable (_ ∨ _))
  | .release _ :: _ => inferInstanceAs (Decidable (_ ≠ _))
  | [] => isTrue trivial

theorem nextInClosing {p : LockPath} (h : p <:+ closingBody) : NextInClosing p := by
  have hall : ∀ p ∈ closingBody.tails, NextInClosing p := by decide
  exact hall p ((List.mem_tails ..).2 h)

variable {T : Type} [DecidableEq T] {s s' : LockState T SocketLock} {a : LockLabel T SocketCall}
  {e : List Unit}
  {t u : T} {l : SocketLock} {mode : LockMode} {rest : LockPath}

namespace OnPath

omit [DecidableEq T] in
theorem other (h : OnPath s u) (hheld : s'.heldSet u = s.heldSet u) (htodo : s'.todo u = s.todo u)
    (hmutex : (u, .exclusive) ∈ s.holders .socketMutex → (u, .exclusive) ∈ s'.holders .socketMutex) :
    OnPath s' u := by
  cases h with
  | ordered h => exact .ordered (by rwa [hheld, htodo])
  | arriving h₁ h₂ => exact .arriving (hheld.trans h₁) (htodo.trans h₂)
  | closing p h₁ h₂ h₃ h₄ => exact .closing p h₁ (htodo.trans h₂) (hmutex h₃) (by rwa [hheld])

omit [DecidableEq T] in
theorem heldSet_of_idle (h : OnPath s t) (hnil : s.todo t = []) : s.heldSet t = ∅ := by
  cases h with
  | ordered h => rwa [hnil] at h
  | arriving h _ => exact h
  | closing p _ h _ _ => rw [hnil] at h; simp at h

theorem start (h : OnPath s t) (hnil : s.todo t = []) (call : SocketCall) :
    OnPath { s with todo := Function.update s.todo t call.path } t := by
  have hempty := h.heldSet_of_idle hnil
  by_cases hc : call = .fltNotifyClosing
  · subst hc
    exact .arriving hempty (by simp)
  · have hord := (nested_call call hc).ordered (H := ∅) (q := []) (by simp) rfl
    rw [List.append_nil, ← hempty] at hord
    refine .ordered (?_ : Ordered _ (s.heldSet t) (Function.update s.todo t call.path t))
    rwa [Function.update_self]

theorem acquire (h : OnPath s t) (htodo : s.todo t = .acquire l mode :: rest) : OnPath
    ⟨Function.update s.holders l ((t, mode) :: s.holders l), Function.update s.todo t rest⟩ t := by
  cases h with
  | ordered h =>
    refine .ordered ?_
    rw [htodo] at h
    rw [LockState.heldSet_acquire]
    simpa using h.2
  | arriving hempty hpath =>
    rw [htodo] at hpath
    obtain ⟨hact, rfl⟩ := List.cons.inj hpath
    obtain ⟨rfl, rfl⟩ := LockAction.acquire.inj hact
    refine .closing closingBody (List.suffix_refl _) (by simp) (by simp) ?_
    rw [LockState.heldSet_acquire, hempty]
    simpa using nested_closingBody.ordered (H := ∅) (q := []) (by simp) rfl
  | closing p hp hpath hmutex hord =>
    cases p with
    | nil => rw [htodo] at hpath; simp at hpath
    | cons act p =>
      rw [htodo] at hpath
      obtain ⟨rfl, rfl⟩ := List.cons.inj hpath
      have hne : l ≠ .socketMutex := by
        rintro rfl
        rcases nextInClosing hp with heq | ⟨heq | heq, -⟩ <;> cases heq
      refine .closing p ((List.suffix_cons _ _).trans hp) (by simp) ?_ ?_
      · simpa [Function.update_of_ne hne.symm] using hmutex
      · rw [LockState.heldSet_acquire, Set.insert_sdiff_of_notMem _ (by simpa using hne)]
        exact hord.2

theorem release (h : OnPath s t) (htodo : s.todo t = .release l :: rest) : OnPath
    ⟨Function.update s.holders l ((s.holders l).filter fun h => h.1 ≠ t), Function.update s.todo t rest⟩
      t := by
  cases h with
  | ordered h =>
    refine .ordered ?_
    rw [htodo] at h
    rw [LockState.heldSet_release]
    simpa [Ordered] using h
  | arriving _ hpath => rw [htodo] at hpath; cases hpath
  | closing p hp hpath hmutex hord =>
    cases p with
    | nil =>
      -- the callback returns and the kernel gives the socket mutex back
      rw [htodo] at hpath
      obtain ⟨hact, rfl⟩ := List.cons.inj hpath
      obtain rfl := LockAction.release.inj hact
      refine .ordered ?_
      rw [LockState.heldSet_release]
      simpa using hord
    | cons act p =>
      rw [htodo] at hpath
      obtain ⟨rfl, rfl⟩ := List.cons.inj hpath
      have hne : l ≠ .socketMutex := nextInClosing hp
      refine .closing p ((List.suffix_cons _ _).trans hp) (by simp) ?_ ?_
      · simpa [Function.update_of_ne hne.symm] using hmutex
      · rw [LockState.heldSet_release, Set.sdiff_sdiff_comm]
        exact hord

end OnPath

structure LocksInv (s : LockState T SocketLock) : Prop where
  exclusive : s.Exclusive
  onPath : ∀ t, OnPath s t

namespace LocksInv

omit [DecidableEq T] in
theorem init : LocksInv (LockState.init : LockState T SocketLock) :=
  { exclusive := fun _ _ h => nomatch h
    onPath := fun _ => .ordered (by simp [LockState.heldSet, LockState.init, Ordered]) }

theorem step (h : LocksInv s) (hs : (socketLocks T).step s a = some (s', e)) : LocksInv s' := by
  refine ⟨h.exclusive.step hs, ?_⟩
  intro u
  rcases LockState.step_cases hs with ⟨t, call, -, hnil, rfl⟩ | ⟨t, l, mode, rest, -, htodo, -, rfl⟩ |
    ⟨t, l, rest, -, htodo, rfl⟩
  · by_cases hu : u = t
    · subst hu
      exact (h.onPath u).start hnil call
    · exact (h.onPath u).other rfl (by simp [hu]) id
  · by_cases hu : u = t
    · subst hu
      exact (h.onPath u).acquire htodo
    · refine (h.onPath u).other (LockState.heldSet_acquire_of_ne hu) (by simp [hu]) ?_
      intro hm
      by_cases hl : SocketLock.socketMutex = l
      · subst hl
        simp [hm]
      · simpa [Function.update_of_ne hl] using hm
  · by_cases hu : u = t
    · subst hu
      exact (h.onPath u).release htodo
    · refine (h.onPath u).other (LockState.heldSet_release_of_ne hu) (by simp [hu]) ?_
      intro hm
      by_cases hl : SocketLock.socketMutex = l
      · subst hl
        simp [hm, hu]
      · simpa [Function.update_of_ne hl] using hm

end LocksInv

/-! ### No cycle -/

omit [DecidableEq T] in
/-- A thread that is not in order is inside the closing callback, before one of the object locks. -/
theorem OnPath.before_objectLock (h : OnPath s t)
    (hnot : ¬ InOrder s.Waits (fun u l => l ∈ s.heldSet u) SocketLock.rank t) :
    ∃ l, s.Waits t l ∧ l ≠ .socketMutex ∧ (t, .exclusive) ∈ s.holders .socketMutex ∧
      (∀ l' ∈ s.heldSet t, l' ≠ .socketMutex → l'.rank < l.rank) ∧
      ∀ l', l'.IsObjectLock → l.rank ≤ l'.rank → NeedsUnderMutex s t l' := by
  cases h with
  | ordered h => exact absurd (LockState.inOrder_of_ordered h) hnot
  | arriving hempty _ =>
    refine absurd ?_ hnot
    intro l l' _ hl'
    have hmem : l' ∈ s.heldSet t := hl'
    rw [hempty] at hmem
    exact absurd hmem (Set.notMem_empty l')
  | closing p hp hpath hmutex hord =>
    have hnext := nextInClosing hp
    match p, hp, hpath, hord, hnext with
    | [], _, hpath, _, _ => exact absurd (fun l l' ⟨_, _, hw⟩ => by rw [hpath] at hw; cases hw) hnot
    | .release _ :: _, _, hpath, _, _ =>
      exact absurd (fun l l' ⟨_, _, hw⟩ => by rw [hpath] at hw; cases hw) hnot
    | .acquire l mode :: p, hp, hpath, hord, hnext =>
      have hw : s.Waits t l := ⟨mode, p ++ [.release .socketMutex], by rw [hpath]; rfl⟩
      have hlow : ∀ l' ∈ s.heldSet t, l' ≠ .socketMutex → l'.rank < l.rank :=
        fun l' hl' hne => hord.1 l' ⟨hl', hne⟩
      rcases hnext with rfl | ⟨hobj, hneeds⟩
      · refine absurd ?_ hnot
        intro l' l'' hw' hh
        obtain rfl := LockState.Waits.unique hw hw'
        by_cases hne : l'' = .socketMutex
        · subst hne
          decide
        · exact hlow l'' hh hne
      · refine ⟨l, hw, by rcases hobj with rfl | rfl <;> decide, hmutex, hlow, fun l' hl' hle => ?_⟩
        have hmem := hneeds l' (by rcases hl' with rfl | rfl <;> simp) hle
        obtain ⟨before, rest, hsplit⟩ := List.append_of_mem hmem
        refine ⟨before, .exclusive, rest ++ [.release .socketMutex], by rw [hpath, hsplit]; simp, ?_⟩
        intro hrel
        have hbody : .release .socketMutex ∉ closingBody := by decide
        exact hbody (hp.subset (hsplit ▸ List.mem_append_left _ hrel))

omit [DecidableEq T] in
theorem LocksInv.no_cycle (h : LocksInv s) (hinv : ¬ Inverted s) : ¬ s.Deadlocked := by
  rintro ⟨t, ht⟩
  have hcycle := Relation.TransGen.mono (fun _ _ => LockState.Blocked.waitsFor) _ _ ht
  have hunique : ∀ t l l', s.Waits t l → s.Waits t l' → l = l' := fun _ _ _ => LockState.Waits.unique
  obtain ⟨x, hx, hnot⟩ := exists_not_inOrder SocketLock.rank hunique hcycle
  obtain ⟨l, hw, hne, hmutex, hlow, hneeds⟩ := (h.onPath x).before_objectLock hnot
  have hself : l ∉ s.heldSet x := fun hl => Nat.lt_irrefl _ (hlow l hl hne)
  have hothers : ∀ v, v ≠ x → InOrder s.Waits (fun u l => l ∈ s.heldSet u) SocketLock.rank v := by
    intro v hv
    by_contra hnot'
    obtain ⟨_, _, _, hmutex', _⟩ := (h.onPath v).before_objectLock hnot'
    rw [h.exclusive _ _ hmutex] at hmutex'
    exact hv (Prod.mk.inj (List.mem_singleton.1 hmutex')).1
  obtain ⟨y, ly, l', -, hwy, hx', hy, hle, hlt⟩ :=
    cycle_through (hunique x) hw hself hothers hx
  -- what `y` wants from `x` can only be the socket mutex
  have hly : ly = .socketMutex := by
    by_contra hne'
    have := hlow ly hx' hne'
    omega
  subst hly
  have hl' : l'.IsObjectLock := by
    cases l' with
    | injectionMutex => exact .inl rfl
    | rwLock => exact .inr rfl
    | socketMutex => simp [SocketLock.rank] at hlt
    | SocketsListLock => simp [SocketLock.rank] at hlt
    | SocketsListToReportLock => simp [SocketLock.rank] at hlt
  exact hinv ⟨x, y, l', hl', hx', hneeds l' hl' hle, hwy, hy⟩

/-! ### Where an inversion comes from -/

namespace OnPath

omit [DecidableEq T] in
theorem not_held_of_waits (h : OnPath s t) (hw : s.Waits t .socketMutex) : .socketMutex ∉ s.heldSet t := by
  intro hmem
  obtain ⟨mode, rest, hw⟩ := hw
  cases h with
  | ordered h =>
    rw [hw] at h
    exact Nat.lt_irrefl _ (h.1 _ hmem)
  | arriving hempty _ =>
    rw [hempty] at hmem
    exact absurd hmem (Set.notMem_empty _)
  | closing p hp hpath _ _ =>
    cases p with
    | nil => rw [hw] at hpath; cases hpath
    | cons action p =>
      rw [hw] at hpath
      obtain ⟨rfl, -⟩ := List.cons.inj hpath
      rcases nextInClosing hp with heq | ⟨heq | heq, -⟩ <;> cases heq

omit [DecidableEq T] in
/-- Only the closing callback takes an object lock under the socket mutex it is about to take. -/
theorem arriving_of_needs (h : OnPath s t) (htodo : s.todo t = .acquire .socketMutex mode :: rest)
    {before rest' : LockPath} {mode' : LockMode} (hl : l.IsObjectLock)
    (hrest : rest = before ++ .acquire l mode' :: rest') (hnot : .release .socketMutex ∉ before) :
    s.todo t = SocketCall.path .fltNotifyClosing := by
  cases h with
  | ordered h =>
    rw [htodo, hrest] at h
    have hlt := h.2.rank_lt (Set.mem_insert _ _) hnot
    rcases hl with rfl | rfl <;> simp [SocketLock.rank] at hlt
  | arriving _ hpath => exact hpath
  | closing p hp hpath hmutex _ =>
    have hmem : SocketLock.socketMutex ∈ s.heldSet t := ⟨_, hmutex⟩
    exact absurd hmem (not_held_of_waits (.closing p hp hpath hmutex ‹_›) ⟨mode, rest, htodo⟩)

end OnPath

omit [DecidableEq T] in
theorem NeedsUnderMutex.cons {action : LockAction SocketLock} (hs' : s'.todo t = rest)
    (h : NeedsUnderMutex s' t l) (htodo : s.todo t = action :: rest) (hne : action ≠ .release .socketMutex) :
    NeedsUnderMutex s t l := by
  obtain ⟨before, mode, rest', hrest, hnot⟩ := h
  refine ⟨action :: before, mode, rest', by rw [htodo, ← hs', hrest]; rfl, ?_⟩
  rw [List.mem_cons, not_or]
  exact ⟨hne.symm, hnot⟩

omit [DecidableEq T] in
theorem NeedsUnderMutex.congr (h : NeedsUnderMutex s' t l) (htodo : s'.todo t = s.todo t) :
    NeedsUnderMutex s t l := by
  rwa [NeedsUnderMutex, ← htodo]

theorem not_inverted_step (h : LocksInv s) (hinv : ¬ Inverted s) (hC : KeepsApart s a)
    (hs : (socketLocks T).step s a = some (s', e)) : ¬ Inverted s' := by
  have h' := h.step hs
  rintro ⟨x, y, l, hl, hx, hneeds, hw, hy⟩
  have hxy : y ≠ x := by
    rintro rfl
    exact (h'.onPath y).not_held_of_waits hw hx
  rcases LockState.step_cases hs with ⟨t, call, -, hnil, rfl⟩ | ⟨t, k, m, rest, ha, htodo, -, rfl⟩ |
    ⟨t, k, rest, ha, htodo, rfl⟩
  · -- a thread that starts a call holds nothing
    have hbusy : ∀ u k, k ∈ s.heldSet u → u ≠ t := by
      rintro u k hk rfl
      rw [(h.onPath u).heldSet_of_idle hnil] at hk
      exact absurd hk (Set.notMem_empty _)
    have hxt : x ≠ t := hbusy x _ hx
    have hyt : y ≠ t := hbusy y _ hy
    exact hinv ⟨x, y, l, hl, hx, hneeds.congr (by simp [hxt]), by simpa [LockState.Waits, hyt] using hw, hy⟩
  · by_cases hxt : x = t
    · subst hxt
      rw [LockState.heldSet_acquire_of_ne hxy] at hy
      have hwaits : s.Waits y .socketMutex := by simpa [LockState.Waits, hxy] using hw
      by_cases hk : k = .socketMutex
      · subst hk
        obtain ⟨before, mode, rest', hrest, hnot⟩ := hneeds
        have hrest : rest = before ++ .acquire l mode :: rest' := by simpa using hrest
        have hclosing := (h.onPath x).arriving_of_needs htodo hl hrest hnot
        exact hC.arriving x ha hclosing y l hl hwaits hy
      · rw [LockState.heldSet_acquire] at hx
        have hx := Set.mem_of_mem_insert_of_ne hx (Ne.symm hk)
        exact hinv ⟨x, y, l, hl, hx, hneeds.cons (by simp) htodo nofun, hwaits, hy⟩
    · rw [LockState.heldSet_acquire_of_ne hxt] at hx
      have hneeds' : NeedsUnderMutex s x l := hneeds.congr (by simp [hxt])
      by_cases hyt : y = t
      · subst hyt
        rw [LockState.heldSet_acquire] at hy
        obtain ⟨mode, rest', rfl⟩ : ∃ mode rest', rest = .acquire .socketMutex mode :: rest' := by
          simpa [LockState.Waits] using hw
        refine hC.calling y _ mode rest' ha htodo l hl ?_ x hx hneeds'
        rcases hy with rfl | hy
        · exact .inl ⟨m, rfl⟩
        · exact .inr ⟨hy, nofun⟩
      · rw [LockState.heldSet_acquire_of_ne hyt] at hy
        exact hinv ⟨x, y, l, hl, hx, hneeds', by simpa [LockState.Waits, hyt] using hw, hy⟩
  · by_cases hxt : x = t
    · subst hxt
      rw [LockState.heldSet_release] at hx
      rw [LockState.heldSet_release_of_ne hxy] at hy
      have hne : (.release k : LockAction SocketLock) ≠ .release .socketMutex := fun heq =>
        hx.2 (LockAction.release.inj heq).symm
      exact hinv ⟨x, y, l, hl, hx.1, hneeds.cons (by simp) htodo hne,
        by simpa [LockState.Waits, hxy] using hw, hy⟩
    · rw [LockState.heldSet_release_of_ne hxt] at hx
      have hneeds' : NeedsUnderMutex s x l := hneeds.congr (by simp [hxt])
      by_cases hyt : y = t
      · subst hyt
        rw [LockState.heldSet_release] at hy
        obtain ⟨mode, rest', rfl⟩ : ∃ mode rest', rest = .acquire .socketMutex mode :: rest' := by
          simpa [LockState.Waits] using hw
        exact hC.calling y _ mode rest' ha htodo l hl
          (.inr ⟨hy.1, fun heq => hy.2 (LockAction.release.inj heq).symm⟩) x hx hneeds'
      · rw [LockState.heldSet_release_of_ne hyt] at hy
        exact hinv ⟨x, y, l, hl, hx, hneeds', by simpa [LockState.Waits, hyt] using hw, hy⟩

/-- In a run of such steps no threads ever wait for each other in a circle. -/
theorem not_deadlocked (hr : (socketLocks T).ReachableAlong KeepsApart LockState.init s) :
    ¬ s.Deadlocked := by
  obtain ⟨hinv, hnot⟩ : LocksInv s ∧ ¬ Inverted s := by
    refine hr.invariant (I := fun s => LocksInv s ∧ ¬ Inverted s) ⟨LocksInv.init, ?_⟩ fun s a s' e h hC hs =>
      ⟨h.1.step hs, not_inverted_step h.1 h.2 hC hs⟩
    rintro ⟨x, y, l, -, ⟨mode, hx⟩, -⟩
    cases hx
  exact hinv.no_cycle hnot

omit [DecidableEq T] in
theorem keepsApart_start {call : SocketCall} : KeepsApart s (.start t call) :=
  ⟨fun _ h => (nomatch h), fun _ _ _ _ h => (nomatch h)⟩

/-- One closing callback is running and a second one waits for the socket mutex. -/
def twoClosing : List (LockLabel Bool SocketCall) :=
  [.start false .fltNotifyClosing, .act false, .start true .fltNotifyClosing]

theorem twoClosing_not_deadlocked : ∃ s : LockState Bool SocketLock,
    s.Waits true .socketMutex ∧ (false, .exclusive) ∈ s.holders .socketMutex ∧ ¬ s.Deadlocked := by
  have hrun : ((socketLocks Bool).run LockState.init twoClosing).map (fun r =>
      decide (r.1.holders .socketMutex = [(false, .exclusive)] ∧
        (r.1.todo true).head? = some (.acquire .socketMutex .exclusive))) = some true := by decide
  obtain ⟨⟨s, e⟩, hs, hstate⟩ := Option.map_eq_some_iff.1 hrun
  obtain ⟨hmutex, htodo⟩ := of_decide_eq_true hstate
  obtain ⟨rest, hrest⟩ := List.head?_eq_some_iff.1 htodo
  refine ⟨s, ⟨.exclusive, rest, hrest⟩, by rw [hmutex]; simp, not_deadlocked ⟨_, e, hs, ?_⟩⟩
  refine ⟨keepsApart_start, fun s₁ e₁ h₁ => ⟨?_, fun _ _ _ => ⟨keepsApart_start, fun _ _ _ => trivial⟩⟩⟩
  obtain ⟨rfl, -⟩ := Prod.mk.inj (Option.some.inj h₁)
  constructor
  · rintro t - - y l - - ⟨mode, hy⟩
    cases hy
  · intro t action mode rest ha h
    obtain rfl := LockLabel.act.inj ha
    cases h

/-- A reinjection has taken `injectionMutex` and stands before `sock_inject_data_out` when the closing
callback arrives and comes to the purge. -/
def closingMeetsReinjection : List (LockLabel Bool SocketCall) :=
  [.start true (.reinjectDeferredData 1), .act true, .act true, .act true, .start false .fltNotifyClosing,
    .act false, .act false, .act false, .act false, .act false]

theorem closing_deadlocks : ¬ ∀ (T : Type) [DecidableEq T] (s : LockState T SocketLock),
    (socketLocks T).Reachable LockState.init s → ¬ s.Deadlocked := by
  intro hall
  have hrun : ((socketLocks Bool).run LockState.init closingMeetsReinjection).map (fun r =>
      decide (r.1.holders .socketMutex = [(false, .exclusive)] ∧
        r.1.holders .injectionMutex = [(true, .exclusive)] ∧
        (r.1.todo true).head? = some (.acquire .socketMutex .exclusive) ∧
        (r.1.todo false).head? = some (.acquire .injectionMutex .exclusive))) = some true := by decide
  obtain ⟨⟨s, e⟩, hs, hstate⟩ := Option.map_eq_some_iff.1 hrun
  obtain ⟨hS, hI, htrue, hfalse⟩ := of_decide_eq_true hstate
  obtain ⟨r₁, h₁⟩ := List.head?_eq_some_iff.1 htrue
  obtain ⟨r₂, h₂⟩ := List.head?_eq_some_iff.1 hfalse
  have htf : s.Blocked true false := ⟨_, _, .exclusive, r₁, h₁, by rw [hS]; simp, by decide⟩
  have hft : s.Blocked false true := ⟨_, _, .exclusive, r₂, h₂, by rw [hI]; simp, by decide⟩
  exact hall Bool s ⟨_, e, hs⟩ ⟨true, .tail (.single htf) hft⟩

end NkeFilter
