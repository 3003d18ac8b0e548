import NkeFilter.Lib.Machine

/-!
# First in, first out

A machine whose observations tell what was put in and what was taken out is a queue when some notion of its
contents satisfies, at every step, contents before `++` put in `=` taken out `++` contents after. Then what
was taken out over a run is a prefix of what was put in, and the rest is in the queue. When items may also be
lost the equation is a subsequence, and so is what was taken out over a run.
-/

namespace Lib.Machine

variable {σ α ε β : Type*} {M : Machine σ α ε} {C : σ → α → Prop} {holds : σ → List β → Prop}
  {putIn takenOut : ε → Option β} {s s' : σ} {as : List α} {h : List ε} {items : List β}

/-- Every step that meets `C` keeps the contents in order. -/
def IsFifo (M : Machine σ α ε) (C : σ → α → Prop) (holds : σ → List β → Prop)
    (putIn takenOut : ε → Option β) : Prop :=
  ∀ s a s' e items, holds s items → C s a → M.step s a = some (s', e) →
    ∃ items', holds s' items' ∧ items ++ e.filterMap putIn = e.filterMap takenOut ++ items'

/-- Over a run nothing is lost, doubled or reordered. -/
theorem IsFifo.run (hM : M.IsFifo C holds putIn takenOut) (hs : holds s items) (hC : M.Along C s as)
    (hr : M.run s as = some (s', h)) :
    ∃ items', holds s' items' ∧ items ++ h.filterMap putIn = h.filterMap takenOut ++ items' := by
  refine run_induction (fun s h => ∃ items', holds s items' ∧
    items ++ h.filterMap putIn = h.filterMap takenOut ++ items') [] ⟨items, hs, by simp⟩ ?_ hC hr
  rintro s h a s' e ⟨mid, hmid, heq⟩ ha hstep
  obtain ⟨items', hitems', heq'⟩ := hM s a s' e mid hmid ha hstep
  refine ⟨items', hitems', ?_⟩
  rw [List.filterMap_append, List.filterMap_append, ← List.append_assoc, heq, List.append_assoc, heq',
    List.append_assoc]

/-- Every step that meets `C` keeps the order of the contents, but may lose some. -/
def IsLossyFifo (M : Machine σ α ε) (C : σ → α → Prop) (holds : σ → List β → Prop)
    (putIn takenOut : ε → Option β) : Prop :=
  ∀ s a s' e items, holds s items → C s a → M.step s a = some (s', e) →
    ∃ items', holds s' items' ∧ (e.filterMap takenOut ++ items').Sublist (items ++ e.filterMap putIn)

/-- Over a run nothing is doubled or reordered. -/
theorem IsLossyFifo.run (hM : M.IsLossyFifo C holds putIn takenOut) (hs : holds s items) (hC : M.Along C s as)
    (hr : M.run s as = some (s', h)) :
    ∃ items', holds s' items' ∧ (h.filterMap takenOut ++ items').Sublist (items ++ h.filterMap putIn) := by
  refine run_induction (fun s h => ∃ items', holds s items' ∧
    (h.filterMap takenOut ++ items').Sublist (items ++ h.filterMap putIn)) [] ⟨items, hs, by simp⟩ ?_ hC hr
  rintro s h a s' e ⟨mid, hmid, hsub⟩ ha hstep
  obtain ⟨items', hitems', hsub'⟩ := hM s a s' e mid hmid ha hstep
  refine ⟨items', hitems', ?_⟩
  rw [List.filterMap_append, List.filterMap_append, List.append_assoc, ← List.append_assoc items]
  calc (h.filterMap takenOut ++ (e.filterMap takenOut ++ items')).Sublist
        (h.filterMap takenOut ++ (mid ++ e.filterMap putIn)) := hsub'.append_left _
    _ = (h.filterMap takenOut ++ mid) ++ e.filterMap putIn := (List.append_assoc ..).symm
    List.Sublist _ ((items ++ h.filterMap putIn) ++ e.filterMap putIn) := hsub.append_right _

end Lib.Machine
