import Mathlib

/-!
# Sums over what all threads are doing

Any number of threads, each at one of the points `κ`, and a weight for every point. `total` adds up the
weights; a step that moves one thread changes the sum by that thread's weight alone (`total_update`). With
the weights of a predicate the sum is the number of threads that satisfy it.
-/

namespace Lib

variable {T κ : Type*} {w : κ → ℕ} {f : T → κ} {t : T} {k : κ}

/-- Only finitely many threads have a weight. -/
def FinitelyMany (w : κ → ℕ) (f : T → κ) : Prop := (Function.support fun t => w (f t)).Finite

noncomputable def total (w : κ → ℕ) (f : T → κ) : ℕ := ∑ᶠ t, w (f t)

theorem finitelyMany_of_zero (h : ∀ t, w (f t) = 0) : FinitelyMany w f := by
  have hsupp : (Function.support fun t => w (f t)) = ∅ := Function.support_eq_empty_iff.2 (funext h)
  rw [FinitelyMany, hsupp]
  exact Set.finite_empty

theorem total_of_zero (h : ∀ t, w (f t) = 0) : total w f = 0 := by
  rw [total, finsum_congr h, finsum_zero]

theorem le_total (hf : FinitelyMany w f) (t : T) : w (f t) ≤ total w f := by
  rw [total, ← add_finsum_cond_ne t hf]
  exact Nat.le_add_right ..

/-- The sum runs over finitely many threads, which are all that have a weight. -/
theorem total_eq_sum (hf : FinitelyMany w f) :
    ∃ threads : Finset T, (∀ t ∉ threads, w (f t) = 0) ∧ total w f = ∑ t ∈ threads, w (f t) := by
  have hfinite : (Function.support fun t => w (f t)).Finite := hf
  refine ⟨hfinite.toFinset, ?_, finsum_eq_sum _ hfinite⟩
  intro t ht
  rwa [hfinite.mem_toFinset, Function.notMem_support] at ht

section Update
variable [DecidableEq T]

theorem FinitelyMany.update (hf : FinitelyMany w f) (t : T) (k : κ) :
    FinitelyMany w (Function.update f t k) := by
  refine (hf.insert t).subset ?_
  intro u hu
  by_cases hut : u = t
  · exact .inl hut
  · rw [Function.mem_support, Function.update_of_ne hut] at hu
    exact .inr hu

/-- One thread moves to the point `k`. -/
theorem total_update (hf : FinitelyMany w f) (t : T) (k : κ) :
    total w (Function.update f t k) + w (f t) = total w f + w k := by
  have hrest : ∑ᶠ (u) (_ : u ≠ t), w (Function.update f t k u) = ∑ᶠ (u) (_ : u ≠ t), w (f u) :=
    finsum_congr fun u => finsum_congr fun hut => by rw [Function.update_of_ne hut]
  have hnew := add_finsum_cond_ne t (hf.update t k)
  have hold := add_finsum_cond_ne t hf
  rw [hrest, Function.update_self] at hnew
  rw [total, total, ← hnew, ← hold]
  omega

end Update

section Predicate
variable {p : κ → Prop} [DecidablePred p]

/-- The weights of a predicate. -/
def indicator (p : κ → Prop) [DecidablePred p] (k : κ) : ℕ := if p k then 1 else 0

theorem support_indicator : (Function.support fun t => indicator p (f t)) = {t | p (f t)} := by
  ext t
  simp [indicator]

theorem FinitelyMany.finite (hf : FinitelyMany (indicator p) f) : {t | p (f t)}.Finite := by
  rw [FinitelyMany, support_indicator] at hf
  exact hf

theorem total_indicator (hf : FinitelyMany (indicator p) f) : total (indicator p) f = {t | p (f t)}.ncard := by
  rw [total, finsum_eq_sum_of_support_toFinset_subset _ hf (s := hf.finite.toFinset) ?_]
  · rw [Set.ncard_eq_toFinset_card _ hf.finite, Finset.card_eq_sum_ones]
    refine Finset.sum_congr rfl ?_
    intro t ht
    exact if_pos (hf.finite.mem_toFinset.1 ht)
  · intro t ht
    simpa [indicator] using ht

theorem total_pos (hf : FinitelyMany (indicator p) f) (ht : p (f t)) : 0 < total (indicator p) f := by
  have hle := le_total hf t
  rw [indicator, if_pos ht] at hle
  exact hle

/-- No two threads satisfy the predicate. -/
theorem eq_of_total_le_one {u : T} (hf : FinitelyMany (indicator p) f) (hone : total (indicator p) f ≤ 1)
    (ht : p (f t)) (hu : p (f u)) : u = t := by
  rw [total_indicator hf] at hone
  exact (Set.ncard_le_one hf.finite).1 hone u hu t ht

end Predicate

end Lib
