import NkeFilter.FreeListMachine

/-!
# The pool its callers see

A list of free indices and what each thread holds; an index is taken or given back in one step (`IndexPool`).
Two things are runs of it: the free list under interleaving as long as its pops are fresh, where every call
takes effect at its swap (`FreeList.refines_indexPool`), and `copyDataToBuffers` and `releaseDataBuffers` run
by one thread alone, a step for each index (`copyDataToBuffers_run`, `releaseDataBuffers_run`).
-/

namespace NkeFilter
open Lib NkeSocketFilter

/-- The free indices, the one given back last in front, and the indices each thread has. -/
structure IndexPool (T : Type) where
  free : List Nat
  held : T → List Nat

inductive IndexPoolLabel (T : Type) where
  | acquire (t : T)
  | release (t : T) (index : Nat)
  deriving DecidableEq

def IndexPoolLabel.thread {T : Type} : IndexPoolLabel T → T
  | .acquire t | .release t _ => t

namespace IndexPool
variable {T : Type} [DecidableEq T]

/-- A thread that finds no index goes on without; what it is granted is observable. -/
def machine (T : Type) [DecidableEq T] : Machine (IndexPool T) (IndexPoolLabel T) (T × Nat) where
  step p
    | .acquire t => match p.free with
      | [] => some (p, [])
      | i :: rest => some (⟨rest, Function.update p.held t (i :: p.held t)⟩, [(t, i)])
    | .release t i =>
      if i ∈ p.held t then some (⟨i :: p.free, Function.update p.held t ((p.held t).erase i)⟩, []) else none

def start (n : Nat) : IndexPool T := ⟨(List.range n).reverse, fun _ => []⟩

variable {free rest l : List Nat} {held : T → List Nat} {t : T} {i : Nat}

theorem step_acquire : (machine T).step ⟨i :: rest, held⟩ (.acquire t) =
    some (⟨rest, Function.update held t (i :: held t)⟩, [(t, i)]) := rfl

theorem step_release (hi : i ∈ held t) : (machine T).step ⟨free, held⟩ (.release t i) =
    some (⟨i :: free, Function.update held t ((held t).erase i)⟩, []) := if_pos hi

/-- A thread alone takes the front of the list index by index. -/
theorem run_acquire (t : T) (taken rest : List Nat) (held : T → List Nat) :
    (machine T).run ⟨taken ++ rest, held⟩ (taken.map fun _ => .acquire t) =
      some (⟨rest, Function.update held t (taken.reverse ++ held t)⟩, taken.map (t, ·)) := by
  induction taken generalizing held with
  | nil => simp
  | cons i taken ih =>
    refine Machine.run_cons.2 ⟨_, _, _, step_acquire, ih _, rfl⟩ |>.trans ?_
    simp

/-- And gives back what it has; `List.diff` is what it keeps. -/
theorem run_release (t : T) (l free : List Nat) (held : T → List Nat) (hl : l.Subperm (held t)) :
    (machine T).run ⟨free, held⟩ (l.map (.release t)) =
      some (⟨l.reverse ++ free, Function.update held t ((held t).diff l)⟩, []) := by
  induction l generalizing free held with
  | nil => simp
  | cons i l ih =>
    have hi : i ∈ held t := hl.subset (List.mem_cons_self ..)
    have hrest : l.Subperm ((held t).erase i) := by
      have := hl.erase i
      rwa [List.erase_cons_head] at this
    have hnext := ih (i :: free) (Function.update held t ((held t).erase i)) (by rwa [Function.update_self])
    refine Machine.run_cons.2 ⟨_, _, _, step_release hi, hnext, rfl⟩ |>.trans ?_
    simp [List.diff_cons]

theorem diff_reverse_append (hl : l.Nodup) (l' : List Nat) : (l.reverse ++ l').diff l = l' := by
  induction l with
  | nil => simp
  | cons i l ih =>
    obtain ⟨hi, hl⟩ := List.nodup_cons.1 hl
    rw [List.diff_cons, List.reverse_cons, List.append_assoc, List.erase_append_right _ (by simpa using hi),
      List.singleton_append, List.erase_cons_head, ih hl]

/-- A thread that gives back all it took, in whichever order. -/
theorem run_acquire_release (t : T) {taken given : List Nat} (rest : List Nat) (held : T → List Nat)
    (hnd : taken.Nodup) (hperm : given.Perm taken) :
    (machine T).run ⟨taken ++ rest, held⟩ ((taken.map fun _ => .acquire t) ++ given.map (.release t)) =
      some (⟨given.reverse ++ rest, held⟩, taken.map (t, ·)) := by
  have hgive := run_release t given rest (Function.update held t (taken.reverse ++ held t)) (by
    rw [Function.update_self]
    exact (hperm.trans (List.reverse_perm taken).symm).subperm.trans (List.sublist_append_left ..).subperm)
  rw [Function.update_self, hperm.diff_left, diff_reverse_append hnd, Function.update_idem,
    Function.update_eq_self] at hgive
  exact Machine.run_append.2 ⟨_, _, _, run_acquire t taken rest held, hgive, (List.append_nil _).symm⟩

omit [DecidableEq T] in
theorem thread_acquire_release (t : T) (taken given : List Nat) :
    ∀ b ∈ (taken.map fun _ => IndexPoolLabel.acquire t) ++ given.map (.release t), b.thread = t := by
  intro b hb
  rcases List.mem_append.1 hb with hb | hb
  · obtain ⟨-, -, rfl⟩ := List.mem_map.1 hb
    rfl
  · obtain ⟨-, -, rfl⟩ := List.mem_map.1 hb
    rfl

end IndexPool

/-! ### Runs of one thread alone -/

namespace NkeSocketFilter
variable {T : Type} [DecidableEq T] {f f' : NkeSocketFilter} {free arr arr' : List Nat} {mbuf : MbufChain}
  {error : Errno}

/-- `releaseDataBuffers` gives the indices of the array back one by one. -/
theorem releaseDataBuffers_run (t : T) (held : T → List Nat) (h : Pool f free)
    (hnd : (listed arr ++ free).Nodup) (hl : ∀ i ∈ listed arr, i < f.dataBuffers.length)
    (hmark : ∀ i ∈ listed arr, f.freeBuffers i = UINT8_MAX) (hheld : (listed arr).Subperm (held t)) :
    (IndexPool.machine T).run ⟨free, held⟩ ((listed arr).map (.release t)) =
        some (⟨(listed arr).reverse ++ free, Function.update held t ((held t).diff (listed arr))⟩, []) ∧
      Pool (f.releaseDataBuffers arr) ((listed arr).reverse ++ free) := by
  refine ⟨IndexPool.run_release t _ free held hheld, ?_⟩
  rw [releaseDataBuffers_eq]
  exact (releaseAll_spec h hnd hl hmark).1

/-- `copyDataToBuffers` takes indices one by one; it keeps those its array lists, or gives all back. -/
theorem copyDataToBuffers_run (t : T) (held : T → List Nat) (h : Pool f free)
    (harr : arr.length = kt_NkeSocketBuffersNumber)
    (hr : copyDataToBuffers f mbuf arr = .ok (error, arr', f')) :
    ∃ bs free' g, (IndexPool.machine T).run ⟨free, held⟩ bs = some (⟨free', Function.update held t
        ((if error = KERN_SUCCESS then (listed arr').reverse else []) ++ held t)⟩, g) ∧
      Pool f' free' ∧ ∀ b ∈ bs, b.thread = t := by
  have hend := copyDataToBuffers_spec mbuf h harr
  have hnd := h.nodup
  rw [hr] at hend
  cases hend with
  | @copied taken rest _ _ hfree hg hpool hlist =>
    rw [if_pos rfl, hlist, hfree]
    refine ⟨(taken.map fun _ => .acquire t) ++ [].map (.release t), rest, taken.map (t, ·), ?_, hpool,
      IndexPool.thread_acquire_release t taken []⟩
    rw [List.map_nil, List.append_nil]
    exact IndexPool.run_acquire t taken rest held
  | @exhausted _ _ _ _ _ hpool =>
    rw [if_neg (by decide), List.nil_append, Function.update_eq_self]
    have hrun := IndexPool.run_acquire_release t [] held hnd (.refl free)
    rw [List.append_nil, List.append_nil] at hrun
    exact ⟨_, _, _, hrun, hpool, IndexPool.thread_acquire_release t free free⟩
  | @copyFailed taken j rest _ _ _ _ hfree _ _ hpool _ _ hne =>
    have hsplit : free = (taken ++ [j]) ++ rest := by rw [hfree, List.append_assoc, List.singleton_append]
    rw [if_neg hne, List.nil_append, Function.update_eq_self, hsplit]
    rw [hsplit] at hnd
    have hrun := IndexPool.run_acquire_release t rest held hnd.of_append_left
      (show (j :: taken).Perm (taken ++ [j]) from (List.perm_append_singleton j taken).symm)
    have hfree' : (j :: taken).reverse ++ rest = taken.reverse ++ j :: rest := by simp
    rw [hfree'] at hrun
    exact ⟨_, _, _, hrun, hpool, IndexPool.thread_acquire_release t (taken ++ [j]) (j :: taken)⟩

end NkeSocketFilter

/-! ### The free list under interleaving -/

namespace FreeList
variable {T : Type} [DecidableEq T]

/-- What `t` was granted, in order. -/
def grantsOf (t : T) (h : List (T × Nat)) : List Nat := (h.filter (·.1 = t)).map (·.2)

/-- The free list is that of the pool, each thread holds what it holds there, and what the pool granted a
thread was granted to it here, but for an index it has popped and is about to mark. -/
structure Refines (s : FreeList T) (h : List (T × Nat)) (p : IndexPool T) (g : List (T × Nat)) : Prop where
  inv : s.Inv p.free
  held : ∀ t, (p.held t).Perm (s.holdings t)
  grants : ∀ t, grantsOf t g = grantsOf t h ++ granted (s.pc t)

variable {s s' : FreeList T} {h g e : List (T × Nat)} {p : IndexPool T} {a : FreeListLabel T} {t : T}
  {f' : NkeSocketFilter} {pc : Pc} {own free : List Nat}

theorem grantsOf_append (t : T) (h h' : List (T × Nat)) : grantsOf t (h ++ h') = grantsOf t h ++ grantsOf t h' := by
  rw [grantsOf, List.filter_append, List.map_append, grantsOf, grantsOf]

theorem grantsOf_map (t t' : T) (l : List Nat) :
    grantsOf t (l.map (t', ·)) = if t' = t then l else [] := by
  induction l with
  | nil => simp [grantsOf]
  | cons i l ih =>
    by_cases ht : t' = t
    · simp only [grantsOf, ht, if_true] at ih ⊢
      simpa using ih
    · simp [grantsOf, ht]

/-- `t` has moved on, and so has the pool. -/
theorem Refines.set (hR : Refines s h p g) (hinv : (s.set t f' pc own).Inv free) {l : List Nat} {g' : List (T × Nat)}
    (hl : l.Perm (own ++ pc.holds)) (hself : grantsOf t g ++ grantsOf t g' = grantsOf t (h ++ e) ++ granted pc)
    (he : ∀ t', t' ≠ t → grantsOf t' e = []) (hg' : ∀ t', t' ≠ t → grantsOf t' g' = []) :
    Refines (s.set t f' pc own) (h ++ e) ⟨free, Function.update p.held t l⟩ (g ++ g') := by
  refine ⟨hinv, fun t' => ?_, fun t' => ?_⟩
  · rw [holdings_set]
    by_cases ht : t' = t
    · subst ht
      simpa using hl
    · simpa [ht] using hR.held t'
  · by_cases ht : t' = t
    · subst ht
      simpa [FreeList.set, grantsOf_append] using hself
    · simpa [FreeList.set, grantsOf_append, ht, he t' ht, hg' t' ht] using hR.grants t'

/-- `t` has moved on, and nothing happened to the pool. -/
theorem Refines.keep (hR : Refines s h p g) (hinv : (s.set t f' pc own).Inv p.free)
    (hhold : (own ++ pc.holds).Perm (s.holdings t)) (hself : granted (s.pc t) = grantsOf t e ++ granted pc)
    (he : ∀ t', t' ≠ t → grantsOf t' e = []) :
    ∃ bs p' g', (IndexPool.machine T).run p bs = some (p', g') ∧
      Refines (s.set t f' pc own) (h ++ e) p' (g ++ g') := by
  have hsame : Refines (s.set t f' pc own) (h ++ e) ⟨p.free, Function.update p.held t (p.held t)⟩ (g ++ []) :=
    hR.set hinv ((hR.held t).trans hhold.symm)
      (by rw [hR.grants t, hself, grantsOf_append]; simp [grantsOf]) he fun _ _ => rfl
  rw [Function.update_eq_self] at hsame
  exact ⟨[], p, [], rfl, hsame⟩

/-- An access is a step of the pool when its swap succeeds, and no step of it otherwise. -/
theorem Refines.step (hR : Refines s h p g) (hfresh : FreshPop s a) (hs : (machine T).step s a = some (s', e)) :
    ∃ bs p' g', (IndexPool.machine T).run p bs = some (p', g') ∧ Refines s' (h ++ e) p' (g ++ g') := by
  cases a with
  | acquire t =>
    simp only [machine] at hs
    split at hs
    · rename_i hidle
      obtain ⟨rfl, rfl⟩ := Prod.mk.inj (Option.some.inj hs)
      have hhold : (s.owned t ++ Pc.holds .acqHead).Perm (s.holdings t) := by rw [holdings, hidle]; rfl
      exact hR.keep (hR.inv.move hhold (List.Subset.refl _) trivial) hhold (by rw [hidle]; rfl) fun _ _ => rfl
    · cases hs
  | release t i =>
    simp only [machine] at hs
    split at hs
    · rename_i hcond
      obtain ⟨hidle, hi⟩ := hcond
      obtain ⟨rfl, rfl⟩ := Prod.mk.inj (Option.some.inj hs)
      have hhold : ((s.owned t).erase i ++ (Pc.relCheck i).holds).Perm (s.holdings t) := by
        rw [holdings, hidle]
        simpa [Pc.holds] using (List.perm_append_comm.trans (List.perm_cons_erase hi).symm)
      exact hR.keep (hR.inv.move hhold List.erase_subset (hR.inv.mark t i hi)) hhold (by rw [hidle]; rfl)
        fun _ _ => rfl
    · cases hs
  | access t =>
    simp only [machine] at hs
    split at hs
    · cases hs
    · obtain ⟨rfl, rfl⟩ := Prod.mk.inj (Option.some.inj hs)
      have hself : grantsOf t ((granted (s.pc t)).map (t, ·)) = granted (s.pc t) := by
        rw [grantsOf_map, if_pos rfl]
      have hother : ∀ t', t' ≠ t → grantsOf t' ((granted (s.pc t)).map (t, ·)) = [] := by
        intro t' ht
        rw [grantsOf_map, if_neg (Ne.symm ht)]
      obtain ⟨free', hmoved, hinv⟩ := hR.inv.access hfresh
      cases hmoved with
      | kept hhold hnone => exact hR.keep hinv hhold (by rw [hself, hnone, List.append_nil]) hother
      | @popped i _ hfree hhold hnone hpopped =>
        have hp : p = ⟨i :: free', p.held⟩ := by rw [← hfree]
        refine ⟨[.acquire t], _, _, Machine.run_single (by rw [hp]; exact IndexPool.step_acquire), ?_⟩
        refine hR.set hinv (((hR.held t).cons i).trans hhold.symm) ?_ hother ?_
        · rw [hR.grants t, grantsOf_append, hself, hnone, hpopped]
          simp [grantsOf]
        · intro t' ht
          simp [grantsOf, Ne.symm ht]
      | @pushed i hhold hnone hnone' =>
        have hheld : (p.held t).Perm (i :: (granted (s.pc t) ++ s.owned t ++
            ((s.pc t).advance s.filter).2.holds)) := (hR.held t).trans hhold.symm
        have hi : i ∈ p.held t := hheld.mem_iff.2 (List.mem_cons_self ..)
        have hleft := hheld.erase i
        rw [List.erase_cons_head] at hleft
        refine ⟨[.release t i], _, [], Machine.run_single (IndexPool.step_release hi), ?_⟩
        refine hR.set hinv hleft ?_ hother fun _ _ => rfl
        rw [hR.grants t, grantsOf_append, hself, hnone, hnone']
        simp [grantsOf]

/-- Every run in which each pop that succeeds still finds the successor it read is a run of the pool. -/
theorem refines_indexPool (withSize : Nat → Bool) {as : List (FreeListLabel T)}
    (hC : (machine T).Along FreshPop (start withSize) as)
    (hr : (machine T).run (start withSize) as = some (s, h)) :
    ∃ bs p g, (IndexPool.machine T).run (.start (withDefault withSize).dataBuffers.length) bs = some (p, g) ∧
      Refines s h p g :=
  Machine.run_refinement Refines ⟨start_inv withSize, fun _ => .refl _, fun _ => rfl⟩
    (fun _ _ _ _ _ _ _ hR ha hs => hR.step ha hs) hC hr

end FreeList

end NkeFilter
