import NkeFilter.Lib.Machine

/-!
# Locks, paths and waiting cycles

Threads that run straight lists of lock actions. `WaitsFor` is "waits for a lock the other holds"; a
deadlock is a cycle of it. When every thread takes its locks in increasing rank there is no cycle, and
a cycle through the one thread that does not (`cycle_through`) shows two threads that hold the pair of
locks the other way round. `Nested` builds paths in rank order, `Ordered` is what such a path still
promises half way.
-/

namespace Lib

variable {T Λ : Type}

/-! ### Cycles of waiting threads -/

section WaitsFor
variable {waits holds : T → Λ → Prop} {rank : Λ → Nat} {t u x : T}

def WaitsFor (waits holds : T → Λ → Prop) (t u : T) : Prop := ∃ l, waits t l ∧ holds u l

/-- All a thread holds has a lower rank than what it waits for. -/
def InOrder (waits holds : T → Λ → Prop) (rank : Λ → Nat) (t : T) : Prop :=
  ∀ l l', waits t l → holds t l' → rank l' < rank l

/-- Along a path of waiting threads that are in order the ranks of what is held never fall below the
first wait. -/
theorem WaitsFor.climb (rank : Λ → Nat) {l : Λ} (hfun : ∀ l l', waits x l → waits x l' → l = l')
    (hl : waits x l)
    (h : Relation.TransGen (WaitsFor waits holds) x u)
    (hord : ∀ v, v ≠ x → Relation.TransGen (WaitsFor waits holds) x v →
      Relation.ReflTransGen (WaitsFor waits holds) v u → InOrder waits holds rank v) :
    ∃ l', holds u l' ∧ rank l ≤ rank l' := by
  induction h with
  | single hxu =>
    obtain ⟨l', hw, hh⟩ := hxu
    exact ⟨l', hh, le_of_eq (congrArg rank (hfun _ _ hl hw))⟩
  | @tail v u hxv hvu ih =>
    obtain ⟨lv, hw, hh⟩ := hvu
    refine ⟨lv, hh, ?_⟩
    by_cases hvx : v = x
    · subst hvx
      exact le_of_eq (congrArg rank (hfun _ _ hl hw))
    · obtain ⟨l', hh', hle⟩ := ih fun v' hv' hxv' hvv' => hord v' hv' hxv' (hvv'.tail ⟨lv, hw, hh⟩)
      exact hle.trans (le_of_lt (hord v hvx hxv (.single ⟨lv, hw, hh⟩) lv l' hw hh'))

theorem exists_not_inOrder (rank : Λ → Nat) (hfun : ∀ t l l', waits t l → waits t l' → l = l')
    (h : Relation.TransGen (WaitsFor waits holds) t t) :
    ∃ x, Relation.TransGen (WaitsFor waits holds) x x ∧ ¬ InOrder waits holds rank x := by
  by_contra hall
  have hord : ∀ v, Relation.TransGen (WaitsFor waits holds) v v → InOrder waits holds rank v :=
    fun v hv => by_contra fun hn => hall ⟨v, hv, hn⟩
  obtain ⟨u, ⟨l, hl, -⟩, -⟩ := Relation.TransGen.head'_iff.1 h
  obtain ⟨l', hh, hle⟩ := WaitsFor.climb rank (hfun t) hl h
    fun v _ htv hvt => hord v (Relation.TransGen.trans_right hvt htv)
  exact absurd (hord t h l l' hl hh) (Nat.not_lt.2 hle)

/-- In a cycle through `x`, with all others in order, the thread before `x` holds a lock of at least the
rank `x` waits for and waits for a lock of `x`. -/
theorem cycle_through {l : Λ} (hfun : ∀ l l', waits x l → waits x l' → l = l') (hl : waits x l)
    (hself : ¬ holds x l) (hord : ∀ v, v ≠ x → InOrder waits holds rank v)
    (h : Relation.TransGen (WaitsFor waits holds) x x) :
    ∃ y ly l', y ≠ x ∧ waits y ly ∧ holds x ly ∧ holds y l' ∧ rank l ≤ rank l' ∧ rank l' < rank ly := by
  obtain ⟨y, hxy, ly, hw, hh⟩ := Relation.TransGen.tail'_iff.1 h
  have hyx : y ≠ x := by
    rintro rfl
    exact hself (hfun _ _ hw hl ▸ hh)
  obtain ⟨l', hh', hle⟩ : ∃ l', holds y l' ∧ rank l ≤ rank l' := by
    rcases Relation.reflTransGen_iff_eq_or_transGen.1 hxy with heq | hxy
    · exact absurd heq hyx
    · exact WaitsFor.climb rank hfun hl hxy fun v hv _ _ => hord v hv
  exact ⟨y, ly, l', hyx, hw, hh, hh', hle, hord y hyx ly l' hw hh'⟩

end WaitsFor

/-! ### Paths -/

inductive LockMode where
  | shared
  | exclusive
  deriving DecidableEq, Repr

inductive LockAction (Λ : Type) where
  | acquire (l : Λ) (mode : LockMode)
  | release (l : Λ)
  deriving DecidableEq, Repr

/-- A region of a lock with what happens inside. -/
def region (l : Λ) (mode : LockMode) (body : List (LockAction Λ)) : List (LockAction Λ) :=
  .acquire l mode :: body ++ [.release l]

/-- From the locks `H` on the path takes only locks above those held, and gives back all. -/
def Ordered (rank : Λ → Nat) (H : Set Λ) : List (LockAction Λ) → Prop
  | [] => H = ∅
  | .acquire l _ :: rest => (∀ l' ∈ H, rank l' < rank l) ∧ Ordered rank (insert l H) rest
  | .release l :: rest => Ordered rank (H \ {l}) rest

/-- What is held along an ordered path stays below what is taken until it is given back. -/
theorem Ordered.rank_lt {rank : Λ → Nat} {H : Set Λ} {before rest : List (LockAction Λ)} {l l' : Λ}
    {mode : LockMode}
    (h : Ordered rank H (before ++ .acquire l mode :: rest)) (hl' : l' ∈ H) (hnot : .release l' ∉ before) :
    rank l' < rank l := by
  induction before generalizing H with
  | nil => exact h.1 l' hl'
  | cons action before ih =>
    rw [List.mem_cons, not_or] at hnot
    cases action with
    | acquire k m => exact ih h.2 (Set.mem_insert_of_mem k hl') hnot.2
    | release k =>
      have hne : l' ≠ k := fun heq => hnot.1 (by rw [heq])
      exact ih h ⟨hl', hne⟩ hnot.2

/-- Properly nested regions in rank order, all above `k`. -/
inductive Nested (rank : Λ → Nat) : Nat → List (LockAction Λ) → Prop
  | nil {k} : Nested rank k []
  | region {k l mode body rest} : k < rank l → Nested rank (rank l) body → Nested rank k rest →
      Nested rank k (region l mode body ++ rest)

namespace Nested
variable {rank : Λ → Nat} {k : Nat} {p q : List (LockAction Λ)} {l : Λ} {mode : LockMode}

theorem append (hp : Nested rank k p) (hq : Nested rank k q) : Nested rank k (p ++ q) := by
  induction hp with
  | nil => exact hq
  | region hk hbody _ _ ih =>
    rw [List.append_assoc]
    exact .region hk hbody (ih hq)

theorem single (hk : k < rank l) (hp : Nested rank (rank l) p) : Nested rank k (Lib.region l mode p) := by
  have hregion : Nested rank k (Lib.region l mode p ++ []) := .region hk hp .nil
  simpa using hregion

theorem optional (b : Bool) (hp : Nested rank k p) : Nested rank k (if b then p else []) := by
  cases b with
  | false => exact .nil
  | true => exact hp

theorem ordered {H : Set Λ} (hp : Nested rank k p) (hH : ∀ l ∈ H, rank l ≤ k) (hq : Ordered rank H q) :
    Ordered rank H (p ++ q) := by
  induction hp generalizing H q with
  | nil => exact hq
  | @region k l mode body rest hk _ _ ihbody ihrest =>
    have hlt : ∀ l' ∈ H, rank l' < rank l := fun l' hl' => Nat.lt_of_le_of_lt (hH l' hl') hk
    have hout : insert l H \ {l} = H :=
      Set.insert_sdiff_self_of_notMem fun hl => Nat.lt_irrefl _ (hlt l hl)
    have hafter : Ordered rank (insert l H) (.release l :: (rest ++ q)) := by
      rw [Ordered, hout]
      exact ihrest hH hq
    have hin : ∀ l' ∈ insert l H, rank l' ≤ rank l := by
      rintro l' (rfl | hl')
      · exact Nat.le_refl _
      · exact Nat.le_of_lt (hlt l' hl')
    have := ihbody hin hafter
    simpa [Lib.region, Ordered] using And.intro hlt this

end Nested

/-! ### The machine -/

structure LockState (T Λ : Type) where
  holders : Λ → List (T × LockMode)
  todo : T → List (LockAction Λ)

/-- A thread starts a path when it has none, or performs its next action. -/
inductive LockLabel (T C : Type) where
  | start (t : T) (call : C)
  | act (t : T)
  deriving DecidableEq

namespace LockState
variable [DecidableEq T] [DecidableEq Λ]

/-- No holder of `l` stands in the way of `mode`. -/
def free (s : LockState T Λ) (l : Λ) (mode : LockMode) : Bool :=
  (s.holders l).all fun h => mode = .shared ∧ h.2 = .shared

def machine {C : Type} (path : C → List (LockAction Λ)) : Machine (LockState T Λ) (LockLabel T C) Unit where
  step s
    | .start t call =>
      if s.todo t = [] then some ({ s with todo := Function.update s.todo t (path call) }, []) else none
    | .act t => match s.todo t with
      | [] => none
      | .acquire l mode :: rest =>
        if s.free l mode then
          some (⟨Function.update s.holders l ((t, mode) :: s.holders l), Function.update s.todo t rest⟩, [])
        else none
      | .release l :: rest =>
        some (⟨Function.update s.holders l ((s.holders l).filter fun h => h.1 ≠ t),
          Function.update s.todo t rest⟩, [])

def init : LockState T Λ := ⟨fun _ => [], fun _ => []⟩

def heldSet (s : LockState T Λ) (t : T) : Set Λ := {l | ∃ mode, (t, mode) ∈ s.holders l}

/-- The next action of `t` is to take `l`. -/
def Waits (s : LockState T Λ) (t : T) (l : Λ) : Prop := ∃ mode rest, s.todo t = .acquire l mode :: rest

/-- `t` cannot go on because `u` holds the lock it wants. -/
def Blocked (s : LockState T Λ) (t u : T) : Prop :=
  ∃ l mode mode' rest, s.todo t = .acquire l mode :: rest ∧ (u, mode') ∈ s.holders l ∧
    ¬ (mode = .shared ∧ mode' = .shared)

/-- Some threads wait for each other in a circle. -/
def Deadlocked (s : LockState T Λ) : Prop := ∃ t, Relation.TransGen s.Blocked t t

def Exclusive (s : LockState T Λ) : Prop :=
  ∀ l t, (t, .exclusive) ∈ s.holders l → s.holders l = [(t, .exclusive)]

variable {s s' : LockState T Λ} {C : Type} {path : C → List (LockAction Λ)} {a : LockLabel T C}
  {e : List Unit}
  {t u : T} {l : Λ} {mode : LockMode} {rest : List (LockAction Λ)}

omit [DecidableEq T] [DecidableEq Λ] in
theorem Waits.unique {l' : Λ} (h : s.Waits t l) (h' : s.Waits t l') : l = l' := by
  obtain ⟨m, r, h⟩ := h
  obtain ⟨m', r', h'⟩ := h'
  rw [h] at h'
  exact (LockAction.acquire.inj (List.cons.inj h').1).1

omit [DecidableEq T] [DecidableEq Λ] in
theorem Blocked.waitsFor (h : s.Blocked t u) : WaitsFor s.Waits (fun u l => l ∈ s.heldSet u) t u := by
  obtain ⟨l, m, m', r, hw, hh, -⟩ := h
  exact ⟨l, ⟨m, r, hw⟩, m', hh⟩

/-- What a step can do. -/
theorem step_cases (hs : (machine path).step s a = some (s', e)) :
    (∃ t call, a = .start t call ∧ s.todo t = [] ∧
      s' = { s with todo := Function.update s.todo t (path call) }) ∨
    (∃ t l mode rest, a = .act t ∧ s.todo t = .acquire l mode :: rest ∧ s.free l mode ∧
      s' = ⟨Function.update s.holders l ((t, mode) :: s.holders l), Function.update s.todo t rest⟩) ∨
    ∃ t l rest, a = .act t ∧ s.todo t = .release l :: rest ∧
      s' = ⟨Function.update s.holders l ((s.holders l).filter fun h => h.1 ≠ t),
        Function.update s.todo t rest⟩ := by
  cases a with
  | start t call =>
    simp only [machine] at hs
    split at hs
    · rename_i hnil
      exact .inl ⟨t, call, rfl, hnil, (Prod.mk.inj (Option.some.inj hs)).1.symm⟩
    · cases hs
  | act t =>
    simp only [machine] at hs
    split at hs
    · cases hs
    · rename_i l mode rest htodo
      split at hs
      · rename_i hfree
        exact .inr (.inl ⟨t, l, mode, rest, rfl, htodo, hfree, (Prod.mk.inj (Option.some.inj hs)).1.symm⟩)
      · cases hs
    · rename_i l rest htodo
      exact .inr (.inr ⟨t, l, rest, rfl, htodo, (Prod.mk.inj (Option.some.inj hs)).1.symm⟩)

omit [DecidableEq T] [DecidableEq Λ] in
theorem free_exclusive (h : s.free l .exclusive) : s.holders l = [] := by
  unfold free at h
  cases hh : s.holders l with
  | nil => rfl
  | cons x xs => simp [hh] at h

theorem Exclusive.step (h : s.Exclusive) (hs : (machine path).step s a = some (s', e)) : s'.Exclusive := by
  rcases step_cases hs with ⟨t, call, -, -, rfl⟩ | ⟨t, l, mode, rest, -, -, hfree, rfl⟩ |
    ⟨t, l, rest, -, -, rfl⟩
  · exact h
  · intro l' u hu
    by_cases hl : l' = l
    · subst hl
      simp only [Function.update_self] at hu ⊢
      cases mode with
      | shared =>
        rcases List.mem_cons.1 hu with heq | hu
        · cases heq
        · have hsh := List.all_eq_true.1 hfree _ hu
          simp at hsh
      | exclusive =>
        rw [free_exclusive hfree] at hu ⊢
        rw [List.mem_singleton.1 hu]
    · simp only [Function.update_of_ne hl] at hu ⊢
      exact h l' u hu
  · intro l' u hu
    by_cases hl : l' = l
    · subst hl
      simp only [Function.update_self] at hu ⊢
      obtain ⟨hu, hut⟩ := List.mem_filter.1 hu
      rw [h l' u hu]
      simpa using hut
    · simp only [Function.update_of_ne hl] at hu ⊢
      exact h l' u hu

theorem heldSet_acquire : LockState.heldSet
    ⟨Function.update s.holders l ((t, mode) :: s.holders l), Function.update s.todo t rest⟩ t =
      insert l (s.heldSet t) := by
  ext l'
  by_cases hl : l' = l
  · subst hl
    simp only [heldSet, Function.update_self, Set.mem_ofPred_eq, Set.mem_insert_iff, true_or, iff_true]
    exact ⟨mode, List.mem_cons_self ..⟩
  · simp [heldSet, hl]

theorem heldSet_release : LockState.heldSet
    ⟨Function.update s.holders l ((s.holders l).filter fun h => h.1 ≠ t), Function.update s.todo t rest⟩ t =
      s.heldSet t \ {l} := by
  ext l'
  by_cases hl : l' = l
  · subst hl
    simp [heldSet, Function.update_self]
  · simp [heldSet, hl]

theorem heldSet_acquire_of_ne (hu : u ≠ t) : LockState.heldSet
    ⟨Function.update s.holders l ((t, mode) :: s.holders l), Function.update s.todo t rest⟩ u =
      s.heldSet u := by
  ext l'
  by_cases hl : l' = l
  · subst hl
    simp [heldSet, Function.update_self, hu]
  · simp [heldSet, Function.update_of_ne hl]

theorem heldSet_release_of_ne (hu : u ≠ t) : LockState.heldSet
    ⟨Function.update s.holders l ((s.holders l).filter fun h => h.1 ≠ t), Function.update s.todo t rest⟩ u =
      s.heldSet u := by
  ext l'
  by_cases hl : l' = l
  · subst hl
    simp [heldSet, Function.update_self, hu]
  · simp [heldSet, Function.update_of_ne hl]

omit [DecidableEq T] [DecidableEq Λ] in
theorem inOrder_of_ordered {rank : Λ → Nat} (h : Ordered rank (s.heldSet t) (s.todo t)) :
    InOrder s.Waits (fun u l => l ∈ s.heldSet u) rank t := by
  rintro l l' ⟨mode, rest, hw⟩ hh
  rw [hw] at h
  exact h.1 l' hh

end LockState

end Lib
