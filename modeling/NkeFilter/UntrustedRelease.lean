import NkeFilter.BufferPoolSpec

/-!
# The pool against an untrusted client

A client lists the indices to release in its response, so any index can reach
`releaseSocketDataBufferFromIO`. The test there takes `UINT8_MAX` in `freeBuffers` for the in-use mark;
the last free index and the indices that were never created carry the same value. `Session.Inv` is the
invariant of the sessions in which no such index is released.
-/

namespace NkeFilter
open Lib NkeSocketFilter

inductive BufferCall where
  | acquire
  | release (index : Nat)
  deriving DecidableEq, Repr

/-- The pool and (ghost) the indices that were granted and not released since. -/
structure Session where
  filter : NkeSocketFilter
  acquired : List Nat

def FreeListEnds (f : NkeSocketFilter) : Prop :=
  ∃ l, Links f.freeBuffers UINT8_MAX f.freeBuffersHead l ∧ l.Nodup

namespace Session

def start (withSize : Nat → Bool) : Session := ⟨withDefault withSize, []⟩

def call (s : Session) : BufferCall → Except Fault Session
  | .acquire => match acquireSocketDataBufferForIO s.filter with
    | .error e => .error e
    | .ok (none, f) => .ok { s with filter := f }
    | .ok (some b, f) => .ok ⟨f, b.index :: s.acquired⟩
  | .release index => .ok ⟨ releaseSocketDataBufferFromIO s.filter index, s.acquired.erase index⟩

def calls (s : Session) : List BufferCall → Except Fault Session
  | [] => .ok s
  | c :: cs => match s.call c with
    | .error e => .error e
    | .ok s' => calls s' cs

/-- What a call must not do: a grant gives a buffer that exists and is not granted already, a release
of an index that is not acquired changes nothing. -/
def CallSafe (s : Session) : BufferCall → Prop
  | .acquire => match acquireSocketDataBufferForIO s.filter with
    | .error _ => False
    | .ok (none, _) => True
    | .ok (some b, _) => b.index ∉ s.acquired ∧ s.filter.dataBuffers[b.index]? = some b
  | .release index => index ∉ s.acquired →
    ( releaseSocketDataBufferFromIO s.filter index).freeBuffers = s.filter.freeBuffers ∧
      ( releaseSocketDataBufferFromIO s.filter index).freeBuffersHead = s.filter.freeBuffersHead

def RunSafe (s : Session) : List BufferCall → Prop
  | [] => FreeListEnds s.filter
  | c :: cs => FreeListEnds s.filter ∧ s.CallSafe c ∧ ∀ s', s.call c = .ok s' → RunSafe s' cs

/-- The releases the test in `releaseSocketDataBufferFromIO` judges rightly: of an acquired index, of an
index out of range, or of an index whose entry is not `UINT8_MAX`. -/
def Judged (s : Session) : BufferCall → Prop
  | .acquire => True
  | .release index => index ∈ s.acquired ∨ kt_NkeSocketBuffersNumber ≤ index ∨
    s.filter.freeBuffers index ≠ UINT8_MAX

def RunJudged (s : Session) : List BufferCall → Prop
  | [] => True
  | c :: cs => s.Judged c ∧ ∀ s', s.call c = .ok s' → RunJudged s' cs

/-- The acquired indices are off the free list and marked as in use. -/
structure Inv (s : Session) (free : List Nat) : Prop where
  pool : Pool s.filter free
  nodup : s.acquired.Nodup
  created : ∀ i ∈ s.acquired, i < s.filter.dataBuffers.length
  off : ∀ i ∈ s.acquired, i ∉ free
  mark : ∀ i ∈ s.acquired, s.filter.freeBuffers i = UINT8_MAX

variable {s s' : Session} {free : List Nat} {c : BufferCall} {i : Nat}

theorem Inv.ends (h : s.Inv free) : FreeListEnds s.filter := ⟨free, h.pool.links, h.pool.nodup⟩

theorem Inv.acquire (h : s.Inv free) :
    s.CallSafe .acquire ∧ ∀ s', s.call .acquire = .ok s' → ∃ free', s'.Inv free' := by
  cases free with
  | nil =>
    simp only [CallSafe, call, acquire_nil h.pool]
    refine ⟨trivial, ?_⟩
    rintro s' ⟨⟩
    exact ⟨[], h.pool, h.nodup, h.created, h.off, h.mark⟩
  | cons i rest =>
    obtain ⟨b, f', hb, hbi, hacq, hpool, hgr, hbufs⟩ := acquire_cons h.pool
    have hi : i ∉ s.acquired := fun hi => h.off i hi (by simp)
    have hfree := List.nodup_cons.1 h.pool.nodup
    simp only [CallSafe, call, hacq, hbi]
    refine ⟨⟨hi, hb⟩, ?_⟩
    rintro s' ⟨⟩
    refine ⟨rest, hpool, List.nodup_cons.2 ⟨hi, h.nodup⟩, ?_, ?_, ?_⟩
    · intro j hj
      rw [hgr.length]
      rcases List.mem_cons.1 hj with rfl | hj
      · exact h.pool.backed j (by simp)
      · exact h.created j hj
    · intro j hj
      rcases List.mem_cons.1 hj with rfl | hj
      · exact hfree.1
      · exact fun hjr => h.off j hj (List.mem_cons_of_mem _ hjr)
    · intro j hj
      rcases List.mem_cons.1 hj with rfl | hj
      · exact hgr.inUse j (by simp)
      · show f'.freeBuffers j = _
        rw [hgr.other j (by rw [List.mem_singleton]; exact fun h => hi (h ▸ hj))]
        exact h.mark j hj

theorem Inv.release_acquired (h : s.Inv free) (hi : i ∈ s.acquired) :
    ∀ s', s.call (.release i) = .ok s' → ∃ free', s'.Inv free' := by
  rintro s' ⟨⟩
  obtain ⟨hpool, hpush⟩ := release_ok h.pool (h.created i hi) (h.off i hi) (h.mark i hi)
  have hsub : ∀ j, j ∈ s.acquired.erase i → j ≠ i ∧ j ∈ s.acquired :=
    fun j hj => (h.nodup.mem_erase_iff).1 hj
  refine ⟨i :: free, hpool, h.nodup.erase i, ?_, ?_, ?_⟩
  · intro j hj
    exact hpush.buffers ▸ h.created j (hsub j hj).2
  · intro j hj hjf
    rcases List.mem_cons.1 hjf with rfl | hjf
    · exact (hsub j hj).1 rfl
    · exact h.off j (hsub j hj).2 hjf
  · intro j hj
    show ( releaseSocketDataBufferFromIO s.filter i).freeBuffers j = _
    rw [hpush.other j (by simpa using (hsub j hj).1)]
    exact h.mark j (hsub j hj).2

theorem Inv.release_ignored (h : s.Inv free) (hi : i ∉ s.acquired)
    (heq : releaseSocketDataBufferFromIO s.filter i = s.filter) :
    ∀ s', s.call (.release i) = .ok s' → ∃ free', s'.Inv free' := by
  rintro s' ⟨⟩
  simp only [heq, List.erase_of_not_mem hi]
  exact ⟨free, h⟩

/-- In a state of a good session a call is safe exactly when it is judged rightly, and then the session
stays good. -/
theorem Inv.step (h : s.Inv free) :
    (s.CallSafe c ↔ s.Judged c) ∧ (s.Judged c → ∀ s', s.call c = .ok s' → ∃ free', s'.Inv free') := by
  cases c with
  | acquire => exact ⟨⟨fun _ => trivial, fun _ => h.acquire.1⟩, fun _ => h.acquire.2⟩
  | release i =>
    by_cases hi : i ∈ s.acquired
    · exact ⟨⟨fun _ => .inl hi, fun _ hn => absurd hi hn⟩, fun _ => h.release_acquired hi⟩
    by_cases hj : kt_NkeSocketBuffersNumber ≤ i ∨ UINT8_MAX ≠ s.filter.freeBuffers i
    · have heq : releaseSocketDataBufferFromIO s.filter i = s.filter := by
        rw [ releaseSocketDataBufferFromIO, if_pos hj]
      refine ⟨⟨fun _ => .inr (hj.imp_right Ne.symm), fun _ _ => ?_⟩, fun _ => h.release_ignored hi heq⟩
      rw [heq]
      exact ⟨rfl, rfl⟩
    · -- the index is pushed although it is not acquired: the head moves to it, or it points to itself
      have hn : ¬ s.Judged (.release i) := by
        rintro (hi' | hi' | hi')
        · exact hi hi'
        · exact hj (.inl hi')
        · exact hj (.inr (Ne.symm hi'))
      refine ⟨⟨?_, fun hc => absurd hc hn⟩, fun hc => absurd hc hn⟩
      intro hs
      obtain ⟨hfb, hhead⟩ := hs hi
      rw [ releaseSocketDataBufferFromIO, if_neg hj] at hfb hhead
      rw [not_or, not_le, not_not] at hj
      have hself : Function.update s.filter.freeBuffers i s.filter.freeBuffersHead i = UINT8_MAX := by
        rw [hj.2]
        exact congrFun hfb i
      rw [Function.update_self] at hself
      have hlast : i = UINT8_MAX := hhead.trans hself
      simp only [kt_NkeSocketBuffersNumber, UINT8_MAX] at hj hlast
      omega

theorem start_inv (withSize : Nat → Bool) : ∃ free, (start withSize).Inv free :=
  ⟨_, withDefault_pool withSize, List.nodup_nil, by simp [start], by simp [start], by simp [start]⟩

theorem Inv.runSafe_iff (h : s.Inv free) (cs : List BufferCall) : s.RunSafe cs ↔ s.RunJudged cs := by
  induction cs generalizing s free with
  | nil => exact ⟨fun _ => trivial, fun _ => h.ends⟩
  | cons c cs ih =>
    obtain ⟨hiff, hnext⟩ := h.step (c := c)
    constructor
    · rintro ⟨-, hsafe, hrest⟩
      refine ⟨hiff.1 hsafe, ?_⟩
      intro s' hs'
      obtain ⟨free', h'⟩ := hnext (hiff.1 hsafe) s' hs'
      exact (ih h').1 (hrest s' hs')
    · rintro ⟨hj, hrest⟩
      refine ⟨h.ends, hiff.2 hj, ?_⟩
      intro s' hs'
      obtain ⟨free', h'⟩ := hnext hj s' hs'
      exact (ih h').2 (hrest s' hs')

/-- From the pool `withDefault` builds, however many buffers it could create, a sequence of acquires and
releases of arbitrary indices keeps the free list intact exactly when no release names an index below
`kt_NkeSocketBuffersNumber` that is not acquired and has `UINT8_MAX` in its entry. -/
theorem runSafe_start_iff (withSize : Nat → Bool) (cs : List BufferCall) :
    (start withSize).RunSafe cs ↔ (start withSize).RunJudged cs :=
  let ⟨_, h⟩ := start_inv withSize
  h.runSafe_iff cs

/-- With two buffers, a client that releases the free index 0 makes the list a cycle: three acquires then
grant the buffer 0 twice. -/
theorem double_grant :
    ¬ (∀ (withSize : Nat → Bool) (cs : List BufferCall), (start withSize).RunSafe cs) ∧
      (((start (· < 2)).calls [.release 0, .acquire, .acquire, .acquire]).toOption.map Session.acquired) =
        some [0, 1, 0] := by
  refine ⟨?_, by decide⟩
  intro h
  have := (h (· < 2) [.release 0]).2.1 (by decide)
  exact absurd this.2 (by decide)

end Session

end NkeFilter
