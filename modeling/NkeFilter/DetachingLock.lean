import NkeFilter.Lib.Machine
import NkeFilter.Lib.Tally

/-!
# The detaching lock

`lockCount` of a socket object with any number of threads in `acquireDetachingLock` and
`releaseDetachingLock` and one that removes the socket, one step for each read, compare-and-swap and atomic
decrement. The count starts at one, which is the share of the removal; a thread that finds it zero gives up,
and only a count that was not zero is ever incremented.
-/

namespace NkeFilter
open Lib

/-- What a thread does next. -/
inductive DetachingAccess where
  /-- outside, without the lock -/
  | idle
  -- `acquireDetachingLock`
  | readCount
  | compareAndSwap (oldCount : {n : UInt32 // n ≠ 0})
  /-- outside, with the lock -/
  | holding
  -- `releaseDetachingLock`
  | decrement
  deriving DecidableEq, Repr

/-- What the thread that removes the socket does next. -/
inductive RemovalAccess where
  /-- it has not called `acquireDetachingLockForRemoval` -/
  | notCalled
  | decrement
  | waitCount
  | returned
  deriving DecidableEq, Repr

inductive DetachingEvent (T : Type*) where
  | acquireReturned (thread : T) (acquired : Bool)
  | wakeup
  | removalReturned
  deriving DecidableEq, Repr

inductive DetachingCall where
  | acquireDetachingLock
  | releaseDetachingLock
  deriving DecidableEq, Repr

/-- Where a call starts; a thread releases what it has acquired, once. -/
def DetachingCall.enter : DetachingCall → DetachingAccess → Option DetachingAccess
  | acquireDetachingLock, .idle => some .readCount
  | releaseDetachingLock, .holding => some .decrement
  | _, _ => none

/-- One access of a thread: what it does after it, the count, and what happened. -/
def DetachingAccess.access {T : Type*} (thread : T) (lockCount : UInt32) :
    DetachingAccess → Option (DetachingAccess × UInt32 × List (DetachingEvent T))
  | idle | holding => none
  | readCount =>
    if h : lockCount = 0 then some (idle, lockCount, [.acquireReturned thread false])
    else some (compareAndSwap ⟨lockCount, h⟩, lockCount, [])
  | compareAndSwap oldCount =>
    if lockCount = oldCount then some (holding, oldCount + 1, [.acquireReturned thread true])
    else some (readCount, lockCount, [])
  -- the decrement returns the old count
  | decrement => some (idle, lockCount - 1, if lockCount = 1 then [.wakeup] else [])

/-- The same for the thread that removes the socket; in `waitCount` its `msleep` has returned. -/
def RemovalAccess.access {T : Type*} (lockCount : UInt32) :
    RemovalAccess → Option (RemovalAccess × UInt32 × List (DetachingEvent T))
  | notCalled => some (decrement, lockCount, [])
  | decrement => some (waitCount, lockCount - 1, [])
  | waitCount =>
    if lockCount ≠ 0 then some (waitCount, lockCount, [])
    else some (returned, lockCount, [.removalReturned])
  | returned => none

structure DetachingState (T : Type*) where
  lockCount : UInt32
  removal : RemovalAccess
  threads : T → DetachingAccess

inductive DetachingLabel (T : Type*) where
  | call (thread : T) (call : DetachingCall)
  | access (thread : T)
  | remove
  deriving DecidableEq, Repr

namespace DetachingState
variable {T : Type*}

def start : DetachingState T := ⟨1, .notCalled, fun _ => .idle⟩

variable [DecidableEq T]

def step (s : DetachingState T) : DetachingLabel T → Option (DetachingState T × List (DetachingEvent T))
  | .call thread call =>
    (call.enter (s.threads thread)).map fun next =>
      ({ s with threads := Function.update s.threads thread next }, [])
  | .access thread => ((s.threads thread).access thread s.lockCount).map fun (next, lockCount, events) =>
    ({ s with lockCount, threads := Function.update s.threads thread next }, events)
  | .remove => (s.removal.access s.lockCount).map fun (removal, lockCount, events) =>
    ({ s with lockCount, removal }, events)

end DetachingState

/-- Any interleaving of any number of threads `T` with the removal. A thread of the kernel that acquires the
lock while it has it already is another one here. -/
def detachingMachine (T : Type*) [DecidableEq T] :
    Machine (DetachingState T) (DetachingLabel T) (DetachingEvent T) where
  step := DetachingState.step

/-! ### What a step can do -/

/-- Between the successful swap and the decrement. -/
def DetachingAccess.holds : DetachingAccess → Bool
  | holding | decrement => true
  | _ => false

/-- The share of the removal in the count. -/
def RemovalAccess.share : RemovalAccess → ℕ
  | notCalled | decrement => 1
  | waitCount | returned => 0

section Step
variable {T : Type*} {thread t : T} {lockCount lockCount' : UInt32} {a a' : DetachingAccess}
  {r r' : RemovalAccess} {e : List (DetachingEvent T)}

/-- The accesses by what they do to the count and to who holds the lock. -/
inductive DetachingEffect (thread : T) (lockCount : UInt32) :
    DetachingAccess → DetachingAccess → UInt32 → List (DetachingEvent T) → Prop
  | quiet {a a' : DetachingAccess} {e : List (DetachingEvent T)} : a'.holds = a.holds →
      (∀ t, .acquireReturned t true ∉ e) → DetachingEffect thread lockCount a a' lockCount e
  | acquire {oldCount : {n : UInt32 // n ≠ 0}} : lockCount = oldCount →
      DetachingEffect thread lockCount (.compareAndSwap oldCount) .holding (lockCount + 1)
        [.acquireReturned thread true]
  | release {e : List (DetachingEvent T)} : (∀ t, .acquireReturned t true ∉ e) →
      DetachingEffect thread lockCount .decrement .idle (lockCount - 1) e

/-- The steps of the removal. -/
inductive RemovalEffect (lockCount : UInt32) : RemovalAccess → RemovalAccess → UInt32 → Prop
  | quiet {r r' : RemovalAccess} : r'.share = r.share → r' ≠ .returned →
      RemovalEffect lockCount r r' lockCount
  | decrement : RemovalEffect lockCount .decrement .waitCount (lockCount - 1)
  | returned : lockCount = 0 → RemovalEffect lockCount .waitCount .returned lockCount

theorem DetachingAccess.access_inv (hs : a.access thread lockCount = some (a', lockCount', e)) :
    DetachingEffect thread lockCount a a' lockCount' e := by
  cases a with
  | idle => cases hs
  | holding => cases hs
  | readCount =>
    simp only [DetachingAccess.access] at hs
    split at hs <;> cases hs <;> exact .quiet rfl (by simp)
  | compareAndSwap oldCount =>
    simp only [DetachingAccess.access] at hs
    split at hs
    · rename_i heq
      cases hs
      exact heq ▸ .acquire heq
    · cases hs
      exact .quiet rfl (by simp)
  | decrement =>
    cases hs
    refine .release ?_
    intro t
    split <;> simp

theorem DetachingCall.enter_holds {call : DetachingCall} (h : call.enter a = some a') :
    a'.holds = a.holds := by
  cases call <;> cases a <;> cases h <;> rfl

theorem RemovalAccess.access_inv (hs : r.access lockCount = some (r', lockCount', e)) :
    RemovalEffect lockCount r r' lockCount' ∧ ∀ t, .acquireReturned t true ∉ e := by
  cases r with
  | notCalled =>
    cases hs
    exact ⟨.quiet rfl nofun, by simp⟩
  | decrement =>
    cases hs
    exact ⟨.decrement, by simp⟩
  | waitCount =>
    simp only [RemovalAccess.access] at hs
    split at hs
    · cases hs
      exact ⟨.quiet rfl nofun, by simp⟩
    · rename_i hzero
      cases hs
      exact ⟨.returned (not_not.1 hzero), by simp⟩
  | returned => cases hs

end Step

/-! ### The count -/

namespace DetachingState
variable {T : Type*}

/-- The number of threads that hold the lock. -/
noncomputable def holders (s : DetachingState T) : ℕ := total (indicator fun a => a.holds = true) s.threads

/-- The step is a swap that succeeds. -/
def swaps (s : DetachingState T) : DetachingLabel T → Bool
  | .access thread => match s.threads thread with
    | .compareAndSwap oldCount => s.lockCount == oldCount
    | _ => false
  | _ => false

/-- The swap does not wrap the count. -/
def FewHolders (s : DetachingState T) (l : DetachingLabel T) : Prop :=
  s.swaps l = true → s.lockCount.toNat + 1 < 2 ^ 32

instance FewHolders.instDecidable (s : DetachingState T) (l : DetachingLabel T) : Decidable (FewHolders s l) :=
  inferInstanceAs (Decidable (_ → _))

/-- The count is the number of holders and the share of the removal, as far as its 32 bits go. -/
structure CountsHolders (s : DetachingState T) : Prop where
  finite : FinitelyMany (indicator fun a => a.holds = true) s.threads
  counter : s.lockCount = UInt32.ofNat (s.holders + s.removal.share)

/-- The count is exact, and once the removal has returned nobody holds the lock. -/
structure Excludes (s : DetachingState T) : Prop where
  counts : CountsHolders s
  few : s.holders + s.removal.share < 2 ^ 32
  returned : s.removal = .returned → s.holders = 0

variable {s s' : DetachingState T} {t : T} {l : DetachingLabel T} {as : List (DetachingLabel T)}
  {h e : List (DetachingEvent T)}

theorem holders_start : (start : DetachingState T).holders = 0 := total_of_zero fun _ => rfl

theorem countsHolders_start : CountsHolders (start : DetachingState T) where
  finite := finitelyMany_of_zero fun _ => rfl
  counter := by
    rw [holders_start]
    rfl

theorem excludes_start : Excludes (start : DetachingState T) where
  counts := countsHolders_start
  few := by
    rw [holders_start]
    exact (by decide : 0 + 1 < 2 ^ 32)
  returned := by
    intro h
    cases h

theorem CountsHolders.ncard (hc : CountsHolders s) : s.holders = {t | (s.threads t).holds}.ncard :=
  total_indicator hc.finite

theorem Excludes.toNat_eq (hE : Excludes s) : s.lockCount.toNat = s.holders + s.removal.share := by
  rw [hE.counts.counter, UInt32.toNat_ofNat_of_lt' hE.few]

theorem CountsHolders.pos_of_holds (hc : CountsHolders s) (ht : (s.threads t).holds) : 0 < s.holders :=
  total_pos hc.finite ht

variable [DecidableEq T]

theorem holders_update {a' : DetachingAccess} (hc : CountsHolders s)
    (hthreads : s'.threads = Function.update s.threads t a') :
    s'.holders + (if (s.threads t).holds then 1 else 0) = s.holders + if a'.holds then 1 else 0 := by
  rw [holders, hthreads]
  exact total_update hc.finite t a'

/-- One thread makes an access, or the removal does. -/
theorem step_inv (hs : (detachingMachine T).step s l = some (s', e)) :
    (∃ thread a', DetachingEffect thread s.lockCount (s.threads thread) a' s'.lockCount e ∧
      s'.threads = Function.update s.threads thread a' ∧ s'.removal = s.removal ∧
      (a'.holds ≠ (s.threads thread).holds → l = .access thread)) ∨
    (RemovalEffect s.lockCount s.removal s'.removal s'.lockCount ∧ s'.threads = s.threads ∧
      ∀ t, .acquireReturned t true ∉ e) := by
  cases l with
  | call thread call =>
    obtain ⟨a', henter, heq⟩ := Option.map_eq_some_iff.1 hs
    obtain ⟨rfl, rfl⟩ := Prod.mk.inj heq
    have hholds := DetachingCall.enter_holds henter
    exact .inl ⟨thread, a', .quiet hholds (by simp), rfl, rfl, fun hne => absurd hholds hne⟩
  | access thread =>
    obtain ⟨⟨a', lockCount, e'⟩, haccess, heq⟩ := Option.map_eq_some_iff.1 hs
    obtain ⟨rfl, rfl⟩ := Prod.mk.inj heq
    exact .inl ⟨thread, a', DetachingAccess.access_inv haccess, rfl, rfl, fun _ => rfl⟩
  | remove =>
    obtain ⟨⟨removal, lockCount, e'⟩, haccess, heq⟩ := Option.map_eq_some_iff.1 hs
    obtain ⟨rfl, rfl⟩ := Prod.mk.inj heq
    obtain ⟨heff, he⟩ := RemovalAccess.access_inv haccess
    exact .inr ⟨heff, rfl, he⟩

theorem CountsHolders.step (hc : CountsHolders s) (hs : (detachingMachine T).step s l = some (s', e)) :
    CountsHolders s' := by
  rcases step_inv hs with ⟨thread, a', heff, hthreads, hremoval, -⟩ | ⟨heff, hthreads, -⟩
  · have hupd := holders_update hc hthreads
    refine ⟨hthreads ▸ hc.finite.update _ _, ?_⟩
    rw [hremoval]
    generalize hcount : s'.lockCount = count at heff
    generalize s.threads thread = a at heff hupd
    cases heff with
    | quiet hholds _ =>
      rw [hholds] at hupd
      rw [Nat.add_right_cancel hupd]
      exact hc.counter
    | acquire _ =>
      simp only [DetachingAccess.holds, Bool.false_eq_true, if_false, if_true, Nat.add_zero] at hupd
      rw [hupd, Nat.add_right_comm, UInt32.ofNat_add, ← hc.counter]
      rfl
    | release _ =>
      simp only [DetachingAccess.holds, Bool.false_eq_true, if_false, if_true, Nat.add_zero] at hupd
      rw [hc.counter, ← hupd, Nat.add_right_comm, UInt32.ofNat_add]
      exact UInt32.add_sub_cancel ..
  · have hsame : s'.holders = s.holders := by rw [holders, hthreads, holders]
    refine ⟨hthreads ▸ hc.finite, ?_⟩
    have hcounter := hc.counter
    rw [hsame]
    generalize s'.lockCount = count at heff ⊢
    generalize s'.removal = r' at heff ⊢
    generalize s.removal = r at heff hcounter
    cases heff with
    | quiet hshare _ =>
      rw [hshare]
      exact hcounter
    | decrement =>
      rw [hcounter, RemovalAccess.share, UInt32.ofNat_add]
      exact UInt32.add_sub_cancel ..
    | returned _ => exact hcounter

theorem Excludes.step (hE : Excludes s) (hfew : FewHolders s l)
    (hs : (detachingMachine T).step s l = some (s', e)) : Excludes s' := by
  have hc' := hE.counts.step hs
  have hcount := hE.toNat_eq
  have hlt := hE.few
  rcases step_inv hs with ⟨thread, a', heff, hthreads, hremoval, haccess⟩ | ⟨heff, hthreads, -⟩
  · have hupd := holders_update hE.counts hthreads
    have hreturned := hE.returned
    generalize ha : s.threads thread = a at heff hupd haccess
    generalize s'.lockCount = count at heff
    cases heff with
    | quiet hholds _ =>
      rw [hholds] at hupd
      rw [← hremoval] at hlt hreturned
      rw [← Nat.add_right_cancel hupd] at hlt hreturned
      exact ⟨hc', hlt, hreturned⟩
    | @acquire oldCount heq =>
      obtain rfl := haccess nofun
      have hwrap := hfew (by simp [swaps, ha, heq])
      -- the count that is swapped is not zero, so after the removal there are holders already
      have hne : s.lockCount.toNat ≠ 0 := fun h0 => oldCount.2 (heq ▸ UInt32.toNat_inj.1 h0)
      simp only [DetachingAccess.holds, Bool.false_eq_true, if_false, if_true, Nat.add_zero] at hupd
      refine ⟨hc', ?_, ?_⟩
      · rw [hremoval]
        omega
      · rw [hremoval]
        intro hr
        have := hreturned hr
        rw [hr, RemovalAccess.share] at hcount
        omega
    | release _ =>
      simp only [DetachingAccess.holds, Bool.false_eq_true, if_false, if_true, Nat.add_zero] at hupd
      refine ⟨hc', ?_, ?_⟩
      · rw [hremoval]
        omega
      · rw [hremoval]
        intro hr
        have := hreturned hr
        omega
  · have hsame : s'.holders = s.holders := by rw [holders, hthreads, holders]
    rw [← hsame] at hcount hlt
    generalize s'.lockCount = count at heff
    generalize hr' : s'.removal = r' at heff
    generalize s.removal = r at heff hcount hlt
    cases heff with
    | quiet hshare hne =>
      refine ⟨hc', ?_, ?_⟩
      · rw [hr', hshare]
        exact hlt
      · intro hr
        exact absurd (hr' ▸ hr) hne
    | decrement =>
      refine ⟨hc', ?_, ?_⟩
      · rw [hr']
        exact Nat.lt_of_succ_lt hlt
      · intro hr
        cases hr' ▸ hr
    | returned hzero =>
      refine ⟨hc', ?_, ?_⟩
      · rw [hr']
        exact hlt
      · intro _
        rw [hzero] at hcount
        exact hcount.symm

/-- After the removal has returned no acquire succeeds. -/
theorem Excludes.refuses {b : Bool} (hE : Excludes s) (hr : s.removal = .returned)
    (hs : (detachingMachine T).step s l = some (s', e)) (he : .acquireReturned t b ∈ e) : b = false := by
  have hzero : s.lockCount = 0 := by
    have hcount := hE.toNat_eq
    rw [hE.returned hr, hr, RemovalAccess.share] at hcount
    exact UInt32.toNat_inj.1 hcount
  rw [← Bool.not_eq_true]
  rintro rfl
  rcases step_inv hs with ⟨thread, a', heff, -⟩ | ⟨-, -, hnone⟩
  · generalize s.threads thread = a at heff
    generalize s'.lockCount = count at heff
    cases heff with
    | quiet _ hnone => exact hnone t he
    | @acquire oldCount heq => exact oldCount.2 (heq ▸ hzero)
    | release hnone => exact hnone t he
  · exact hnone t he

theorem excludes_of_run (hr : (detachingMachine T).run .start as = some (s, h))
    (hfew : (detachingMachine T).Along FewHolders .start as) : Excludes s :=
  Machine.run_induction (fun s _ => Excludes s) [] excludes_start
    (fun _ _ _ _ _ hE hfew hs => hE.step hfew hs) hfew hr

/-- While no swap wraps the count, it is the number of holders and one more until the decrement of the
removal. When the removal has returned nobody holds the lock, and every acquire that returns from then on
returns false. -/
theorem detachingLock_excludes (hr : (detachingMachine T).run .start as = some (s, h))
    (hfew : (detachingMachine T).Along FewHolders .start as) :
    {t | (s.threads t).holds}.Finite ∧
      s.lockCount.toNat = {t | (s.threads t).holds}.ncard +
        (if s.removal = .notCalled ∨ s.removal = .decrement then 1 else 0) ∧
      (s.removal = .returned → ∀ t, ¬ (s.threads t).holds) ∧
      (s.removal = .returned → ∀ l s' e t b, (detachingMachine T).step s l = some (s', e) →
        .acquireReturned t b ∈ e → b = false) := by
  have hE := excludes_of_run hr hfew
  have hshare : s.removal.share = if s.removal = .notCalled ∨ s.removal = .decrement then 1 else 0 := by
    cases s.removal <;> rfl
  refine ⟨hE.counts.finite.finite, ?_, ?_, ?_⟩
  · rw [hE.toNat_eq, hE.counts.ncard, hshare]
  · intro hret t ht
    have hpos := hE.counts.pos_of_holds ht
    rw [hE.returned hret] at hpos
    exact absurd hpos (Nat.lt_irrefl 0)
  · intro hret l s' e t b hs he
    exact hE.refuses hret hs he

/-! ### One thread alone -/

section Alone
variable {thread : T}

/-- `acquireDetachingLock` and `releaseDetachingLock` by one thread. -/
def acquireAlone (thread : T) : List (DetachingLabel T) :=
  [.call thread .acquireDetachingLock, .access thread, .access thread]

def releaseAlone (thread : T) : List (DetachingLabel T) :=
  [.call thread .releaseDetachingLock, .access thread]

/-- Without other steps in between, an acquire succeeds unless the count is zero. -/
theorem acquire_alone (hidle : s.threads thread = .idle) (hne : s.lockCount ≠ 0) :
    (detachingMachine T).run s (acquireAlone thread) =
      some (⟨s.lockCount + 1, s.removal, Function.update s.threads thread .holding⟩,
        [.acquireReturned thread true]) := by
  simp [acquireAlone, Machine.run, detachingMachine, DetachingState.step, DetachingCall.enter, hidle,
    DetachingAccess.access, hne]

theorem release_alone (hholding : s.threads thread = .holding) (hne : s.lockCount ≠ 1) :
    (detachingMachine T).run s (releaseAlone thread) =
      some (⟨s.lockCount - 1, s.removal, Function.update s.threads thread .idle⟩, []) := by
  simp [releaseAlone, Machine.run, detachingMachine, DetachingState.step, DetachingCall.enter, hholding,
    DetachingAccess.access, hne]

/-- A use of the socket between the two leaves everything as it was. -/
theorem use_alone (hidle : s.threads thread = .idle) (hne : s.lockCount ≠ 0) :
    (detachingMachine T).run s (acquireAlone thread ++ releaseAlone thread) =
      some (s, [.acquireReturned thread true]) := by
  have hone : s.lockCount + 1 ≠ 1 := by simpa using hne
  have hrelease := release_alone (T := T)
    (s := ⟨s.lockCount + 1, s.removal, Function.update s.threads thread .holding⟩) (Function.update_self ..) hone
  refine Machine.run_append.2 ⟨_, _, _, acquire_alone hidle hne, ?_, rfl⟩
  rw [hrelease, Function.update_idem, ← hidle, Function.update_eq_self, UInt32.add_sub_cancel]

end Alone

end DetachingState

open DetachingState

/-- A socket is removed while it is in use, and then another thread tries. -/
def lateUse : List (DetachingLabel ℕ) :=
  acquireAlone 1 ++ (.remove :: .remove :: releaseAlone 1) ++ (.remove :: (acquireAlone 2).take 1)

theorem lateUse_refused : ∃ s h s' e, (detachingMachine ℕ).run .start lateUse = some (s, h) ∧
    s.removal = .returned ∧ (detachingMachine ℕ).step s (.access 2) = some (s', e) ∧
    .acquireReturned 2 false ∈ e ∧ s.lockCount.toNat = {t | (s.threads t).holds}.ncard ∧
    ∀ t, ¬ (s.threads t).holds := by
  obtain ⟨s, h, s', hr, hret, hs⟩ : ∃ s h s', (detachingMachine ℕ).run .start lateUse = some (s, h) ∧
      s.removal = .returned ∧
      (detachingMachine ℕ).step s (.access 2) = some (s', [.acquireReturned 2 false]) := ⟨_, _, _, rfl, rfl, rfl⟩
  obtain ⟨-, hcount, hnone, -⟩ := detachingLock_excludes hr (by decide)
  rw [hret] at hcount
  exact ⟨s, h, s', _, hr, hret, hs, List.mem_singleton_self _, hcount, hnone hret⟩

/-! ### More threads than the count can count -/

/-- The threads `0`, ..., `n - 1` can all hold the lock. -/
theorem all_acquired (n : ℕ) (hn : n < 2 ^ 32) : ∃ as h threads,
    (detachingMachine ℕ).run .start as = some (⟨UInt32.ofNat (n + 1), .notCalled, threads⟩, h) ∧
      (∀ t, t < n → threads t = .holding) ∧ ∀ t, n ≤ t → threads t = .idle := by
  induction n with
  | zero => exact ⟨[], [], _, rfl, fun t ht => absurd ht (Nat.not_lt_zero t), fun _ _ => rfl⟩
  | succ n ih =>
    obtain ⟨as, h, threads, hr, hin, hout⟩ := ih (by omega)
    have hne : UInt32.ofNat (n + 1) ≠ 0 := by
      intro heq
      have := congrArg UInt32.toNat heq
      rw [UInt32.toNat_ofNat_of_lt' hn] at this
      cases this
    have hacquire := acquire_alone (s := ⟨UInt32.ofNat (n + 1), .notCalled, threads⟩) (hout n le_rfl) hne
    have hsucc : UInt32.ofNat (n + 1) + 1 = UInt32.ofNat (n + 1 + 1) := (UInt32.ofNat_add (n + 1) 1).symm
    rw [hsucc] at hacquire
    refine ⟨_, _, _, Machine.run_append.2 ⟨_, _, _, hr, hacquire, rfl⟩, ?_, ?_⟩
    · intro t ht
      rcases Nat.lt_or_eq_of_le (Nat.le_of_lt_succ ht) with hlt | rfl
      · rw [Function.update_of_ne (by omega)]
        exact hin t hlt
      · exact Function.update_self ..
    · intro t ht
      rw [Function.update_of_ne (by omega)]
      exact hout t (by omega)

/-- With `2 ^ 32 - 1` holders the count is zero; when the removal has taken its share back one more thread can
acquire the lock, and with `2 ^ 32` holders the removal returns. -/
theorem detachingLock_wraps : ∃ as h s, (detachingMachine ℕ).run .start as = some (s, h) ∧
    s.removal = .returned ∧ (∃ t, (s.threads t).holds) ∧
    s.lockCount.toNat ≠ {t | (s.threads t).holds}.ncard +
      (if s.removal = .notCalled ∨ s.removal = .decrement then 1 else 0) := by
  obtain ⟨as, h, threads, hr, -, hout⟩ := all_acquired (2 ^ 32 - 1) (by decide)
  have hdecrement : (detachingMachine ℕ).run ⟨UInt32.ofNat (2 ^ 32 - 1 + 1), .notCalled, threads⟩
      [.remove, .remove] = some (⟨4294967295, .waitCount, threads⟩, []) := rfl
  have hacquire := acquire_alone (s := ⟨4294967295, .waitCount, threads⟩) (hout _ le_rfl)
    (show (4294967295 : UInt32) ≠ 0 by decide)
  have hreturn : (detachingMachine ℕ).run
      ⟨4294967295 + 1, .waitCount, Function.update threads (2 ^ 32 - 1) .holding⟩ [.remove] =
      some (⟨0, .returned, Function.update threads (2 ^ 32 - 1) .holding⟩, [.removalReturned]) := rfl
  have hrun := Machine.run_append.2 ⟨_, _, _, hr, Machine.run_append.2 ⟨_, _, _, hdecrement,
    Machine.run_append.2 ⟨_, _, _, hacquire, hreturn, rfl⟩, rfl⟩, rfl⟩
  have hcounts : CountsHolders _ := Machine.run_induction (fun s _ => CountsHolders s) [] countsHolders_start
    (fun _ _ _ _ _ hc _ hs => hc.step hs) Machine.along_true hrun
  have hholds : (Function.update threads (2 ^ 32 - 1) DetachingAccess.holding (2 ^ 32 - 1)).holds := by
    rw [Function.update_self]
    rfl
  refine ⟨_, _, _, hrun, rfl, ⟨2 ^ 32 - 1, hholds⟩, ?_⟩
  have hpos := hcounts.pos_of_holds (t := 2 ^ 32 - 1) hholds
  rw [hcounts.ncard] at hpos
  exact Nat.ne_of_lt hpos

end NkeFilter
