import Mathlib

/-!
# Reference-counted objects

Objects with reference counts; nothing from `next` on was ever allocated. To take or drop a reference to an
object that has none is a fault, so what was freed cannot be freed again. `Ledger` says whose the references
are: the counts are the numbers of references that the holders hold, and then whoever holds a reference can
use the object and can drop the reference.
-/

namespace Lib

structure RefHeap where
  next : ℕ
  refs : ℕ → ℕ

namespace RefHeap

def empty : RefHeap := ⟨0, fun _ => 0⟩

def alloc (heap : RefHeap) : ℕ × RefHeap :=
  (heap.next, ⟨heap.next + 1, Function.update heap.refs heap.next 1⟩)

/-- Any use of the object. -/
def deref (heap : RefHeap) (id : ℕ) : Option Unit := if heap.refs id = 0 then none else some ()

def retain (heap : RefHeap) (id : ℕ) : Option RefHeap :=
  if heap.refs id = 0 then none
  else some { heap with refs := Function.update heap.refs id (heap.refs id + 1) }

def release (heap : RefHeap) (id : ℕ) : Option RefHeap :=
  if heap.refs id = 0 then none
  else some { heap with refs := Function.update heap.refs id (heap.refs id - 1) }

/-- `release` of what a pointer points to, if it is not `NULL`. -/
def releaseAny (heap : RefHeap) : Option ℕ → Option RefHeap
  | none => some heap
  | some id => heap.release id

/-- The references a pointer holds. -/
def one (pointer : Option ℕ) (id : ℕ) : ℕ := if pointer = some id then 1 else 0

@[simp] theorem one_none : one none = 0 := rfl

@[simp] theorem one_self (id : ℕ) : one (some id) id = 1 := if_pos rfl

theorem one_of_ne {id id' : ℕ} (hne : id' ≠ id) : one (some id) id' = 0 :=
  if_neg fun h => hne (Option.some.inj h).symm

end RefHeap

open RefHeap

/-- The holders hold `held` references. -/
structure Ledger (heap : RefHeap) (held : ℕ → ℕ) : Prop where
  refs : ∀ id, heap.refs id = held id
  fresh : ∀ id, heap.next ≤ id → held id = 0

namespace Ledger
variable {heap : RefHeap} {held : ℕ → ℕ} {id : ℕ} {pointer : Option ℕ}

theorem empty : Ledger .empty 0 := ⟨fun _ => rfl, fun _ _ => rfl⟩

theorem alloc (h : Ledger heap held) : Ledger heap.alloc.2 (held + one (some heap.alloc.1)) := by
  constructor
  · intro id
    by_cases hid : id = heap.next
    · subst hid
      simp [RefHeap.alloc, h.fresh]
    · simp [RefHeap.alloc, one_of_ne hid, Function.update_of_ne hid, h.refs id]
  · intro id hle
    have hlt : heap.next < id := hle
    simp [RefHeap.alloc, h.fresh id hlt.le, one_of_ne hlt.ne']

theorem deref (h : Ledger heap held) (hpos : 0 < held id) : heap.deref id = some () := by
  rw [RefHeap.deref, if_neg]
  rw [h.refs]
  omega

theorem retain (h : Ledger heap held) (hpos : 0 < held id) :
    ∃ heap', heap.retain id = some heap' ∧ Ledger heap' (held + one (some id)) := by
  refine ⟨_, if_neg (by rw [h.refs]; omega), ?_, ?_⟩
  · intro id'
    by_cases hid : id' = id
    · subst hid
      simp [h.refs]
    · simp [one_of_ne hid, Function.update_of_ne hid, h.refs id']
  · intro id' hle
    have hzero := h.fresh id' hle
    have hne : id' ≠ id := by
      rintro rfl
      omega
    simp [hzero, one_of_ne hne]

theorem release (h : Ledger heap (held + one (some id))) :
    ∃ heap', heap.release id = some heap' ∧ Ledger heap' held := by
  have hid := h.refs id
  rw [Pi.add_apply, one_self] at hid
  refine ⟨_, if_neg (by omega), ?_, ?_⟩
  · intro id'
    by_cases hne : id' = id
    · subst hne
      simp [hid]
    · simpa [one_of_ne hne, Function.update_of_ne hne] using h.refs id'
  · intro id' hle
    have hzero := h.fresh id' hle
    exact Nat.eq_zero_of_add_eq_zero_right hzero

theorem releaseAny (h : Ledger heap (held + one pointer)) :
    ∃ heap', heap.releaseAny pointer = some heap' ∧ Ledger heap' held := by
  cases pointer with
  | none => exact ⟨heap, rfl, h⟩
  | some id => exact h.release

end Ledger

end Lib
