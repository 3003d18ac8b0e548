import NkeFilter.BufferPoolSpec
import NkeFilter.Lib.Machine

/-!
# The free list under interleaving

`acquireSocketDataBufferForIO` and `releaseSocketDataBufferFromIO` cut into their single reads, writes
and compare-and-swaps, for any type of threads. The compare-and-swap of the pop looks at the head only:
when the list changed in between and the same index is at the front again, a stale successor becomes the
head. In runs without such a swap (`FreshPop`) `Inv` holds: the free list and what the threads hold
split the indices.
-/

namespace NkeFilter
open Lib NkeSocketFilter

/-- Where a thread stands: its next access and the values it has read. -/
inductive Pc where
  | idle
  | acqHead
  /-- acquire: read `freeBuffers[freeIndex]` -/
  | acqNext (freeIndex : Nat)
  /-- acquire: swap `freeBuffersHead` from `freeIndex` to `next` -/
  | acqCas (freeIndex next : Nat)
  | acqMark (freeIndex : Nat)
  | relCheck (index : Nat)
  | relHead (index : Nat)
  /-- release: write `freeBuffers[index]` -/
  | relWrite (index head : Nat)
  /-- release: read `freeBuffers[index]` back -/
  | relRead (index : Nat)
  /-- release: swap `freeBuffersHead` from `old` to `index` -/
  | relCas (index old : Nat)
  deriving DecidableEq, Repr

namespace Pc

/-- The index that is neither on the list nor in the hands of a caller: popped but not returned yet, or
given back but not pushed yet. -/
def holds : Pc → List Nat
  | acqMark i | relCheck i | relHead i | relWrite i _ | relRead i | relCas i _ => [i]
  | _ => []

def advance (f : NkeSocketFilter) : Pc → NkeSocketFilter × Pc
  | idle => (f, idle)
  | acqHead => (f, if f.freeBuffersHead = UINT8_MAX then idle else acqNext f.freeBuffersHead)
  | acqNext i => (f, acqCas i (f.freeBuffers i))
  | acqCas i next =>
    if f.freeBuffersHead = i then ({ f with freeBuffersHead := next }, acqMark i) else (f, acqHead)
  | acqMark i => ({ f with freeBuffers := Function.update f.freeBuffers i UINT8_MAX }, idle)
  | relCheck i =>
    (f, if kt_NkeSocketBuffersNumber ≤ i ∨ UINT8_MAX ≠ f.freeBuffers i then idle else relHead i)
  | relHead i => (f, relWrite i f.freeBuffersHead)
  | relWrite i head => ({ f with freeBuffers := Function.update f.freeBuffers i head }, relRead i)
  | relRead i => (f, relCas i (f.freeBuffers i))
  | relCas i old =>
    if f.freeBuffersHead = old then ({ f with freeBuffersHead := i }, idle) else (f, relHead i)

end Pc

/-- The list, the threads and (ghost) the indices each thread was granted and has not given back. -/
structure FreeList (T : Type) where
  filter : NkeSocketFilter
  pc : T → Pc
  owned : T → List Nat

/-- A thread calls one of the functions or makes its next access. -/
inductive FreeListLabel (T : Type) where
  | acquire (t : T)
  | release (t : T) (index : Nat)
  | access (t : T)
  deriving DecidableEq

namespace FreeList
variable {T : Type} [DecidableEq T]

def set (s : FreeList T) (t : T) (f : NkeSocketFilter) (p : Pc) (own : List Nat) : FreeList T where
  filter := f
  pc := Function.update s.pc t p
  owned := Function.update s.owned t own

/-- What a thread holds, in its caller's hands or on the way. -/
def holdings (s : FreeList T) (t : T) : List Nat := s.owned t ++ (s.pc t).holds

def granted : Pc → List Nat
  | .acqMark i => [i]
  | _ => []

/-- A thread releases only indices it owns; a grant is observable. -/
def machine (T : Type) [DecidableEq T] : Machine (FreeList T) (FreeListLabel T) (T × Nat) where
  step s
    | .acquire t => if s.pc t = .idle then some (s.set t s.filter .acqHead (s.owned t), []) else none
    | .release t i =>
      if s.pc t = .idle ∧ i ∈ s.owned t then
        some (s.set t s.filter (.relCheck i) ((s.owned t).erase i), [])
      else none
    | .access t =>
      if s.pc t = .idle then none
      else
        let (f, p) := (s.pc t).advance s.filter
        some (s.set t f p (granted (s.pc t) ++ s.owned t), (granted (s.pc t)).map (t, ·))

def start (withSize : Nat → Bool) : FreeList T := ⟨withDefault withSize, fun _ => .idle, fun _ => []⟩

/-- A pop that succeeds installs the successor the entry has now. -/
def FreshPop (s : FreeList T) : FreeListLabel T → Prop
  | .access t => match s.pc t with
    | .acqCas i next => s.filter.freeBuffersHead = i → s.filter.freeBuffers i = next
    | _ => True
  | _ => True

instance (s : FreeList T) : ∀ a : FreeListLabel T, Decidable (FreshPop s a)
  | .access t => match h : s.pc t with
    | .acqCas i next =>
      decidable_of_iff (s.filter.freeBuffersHead = i → s.filter.freeBuffers i = next) (by simp [FreshPop, h])
    | .idle | .acqHead | .acqNext _ | .acqMark _ | .relCheck _ | .relHead _ | .relWrite _ _ | .relRead _
    | .relCas _ _ => isTrue (by simp [FreshPop, h])
  | .acquire _ | .release _ _ => isTrue trivial

/-- No index is owned twice, no owned index is on the list, and no index is lost. -/
structure Safe (s : FreeList T) : Prop where
  exclusive : ∀ t t' i, i ∈ s.holdings t → i ∈ s.holdings t' → t = t'
  unreachable : ∀ t i, i ∈ s.holdings t →
    ¬ Reaches s.filter.freeBuffers UINT8_MAX s.filter.freeBuffersHead i
  kept : (∀ t, s.pc t = .idle) → ∀ i < s.filter.dataBuffers.length, (∀ t, i ∉ s.owned t) →
    Reaches s.filter.freeBuffers UINT8_MAX s.filter.freeBuffersHead i

/-! ### Indices split between a list and holders -/

/-- The numbers below `n` are split between the list `free` and the holders. -/
structure Split (n : Nat) (free : List Nat) (held : T → List Nat) : Prop where
  backed : ∀ i ∈ free, i < n
  held_lt : ∀ t, ∀ i ∈ held t, i < n
  off : ∀ t, ∀ i ∈ held t, i ∉ free
  nodup : ∀ t, (held t).Nodup
  apart : ∀ t t' i, i ∈ held t → i ∈ held t' → t = t'
  cover : ∀ i < n, i ∈ free ∨ ∃ t, i ∈ held t

namespace Split
variable {n i : Nat} {free rest l : List Nat} {held : T → List Nat} {t : T}

theorem congr (h : Split n free held) (hl : l.Perm (held t)) : Split n free (Function.update held t l) := by
  have hmem : ∀ t' j, j ∈ Function.update held t l t' ↔ j ∈ held t' := by
    intro t' j
    by_cases ht : t' = t
    · subst ht
      rw [Function.update_self]
      exact hl.mem_iff
    · rw [Function.update_of_ne ht]
  refine ⟨h.backed, fun t' j hj => h.held_lt t' j ((hmem _ _).1 hj),
    fun t' j hj => h.off t' j ((hmem _ _).1 hj),
    ?_, fun t' t'' j hj hj' => h.apart t' t'' j ((hmem _ _).1 hj) ((hmem _ _).1 hj'), ?_⟩
  · intro t'
    by_cases ht : t' = t
    · subst ht
      rw [Function.update_self]
      exact hl.nodup_iff.2 (h.nodup t')
    · rw [Function.update_of_ne ht]
      exact h.nodup t'
  · intro j hj
    exact (h.cover j hj).imp_right fun ⟨t', ht'⟩ => ⟨t', (hmem _ _).2 ht'⟩

theorem take (h : Split n (i :: rest) held) (hi : i ∉ rest) :
    Split n rest (Function.update held t (i :: held t)) := by
  have hmem : ∀ t' j, j ∈ Function.update held t (i :: held t) t' ↔ j ∈ held t' ∨ (t' = t ∧ j = i) := by
    intro t' j
    by_cases ht : t' = t
    · subst ht
      rw [Function.update_self, List.mem_cons]
      tauto
    · rw [Function.update_of_ne ht]
      tauto
  have hnot : ∀ t', i ∉ held t' := fun t' hi' => h.off t' i hi' (by simp)
  refine ⟨fun j hj => h.backed j (List.mem_cons_of_mem _ hj), ?_, ?_, ?_, ?_, ?_⟩
  · intro t' j hj
    rcases (hmem _ _).1 hj with hj | ⟨-, rfl⟩
    · exact h.held_lt t' j hj
    · exact h.backed j (by simp)
  · intro t' j hj
    rcases (hmem _ _).1 hj with hj | ⟨-, rfl⟩
    · exact fun hr => h.off t' j hj (List.mem_cons_of_mem _ hr)
    · exact hi
  · intro t'
    by_cases ht : t' = t
    · subst ht
      rw [Function.update_self]
      exact List.nodup_cons.2 ⟨hnot t', h.nodup t'⟩
    · rw [Function.update_of_ne ht]
      exact h.nodup t'
  · intro t' t'' j hj hj'
    rcases (hmem _ _).1 hj with h₁ | ⟨ht', hji⟩ <;> rcases (hmem _ _).1 hj' with h₂ | ⟨ht'', hji'⟩
    · exact h.apart t' t'' j h₁ h₂
    · exact absurd (hji' ▸ h₁) (hnot t')
    · exact absurd (hji ▸ h₂) (hnot t'')
    · exact ht'.trans ht''.symm
  · intro j hj
    rcases h.cover j hj with hj | ⟨t', ht'⟩
    · rcases List.mem_cons.1 hj with rfl | hj
      · exact .inr ⟨t, (hmem _ _).2 (.inr ⟨rfl, rfl⟩)⟩
      · exact .inl hj
    · exact .inr ⟨t', (hmem _ _).2 (.inl ht')⟩

theorem give (h : Split n free held) (hl : (i :: l).Perm (held t)) :
    Split n (i :: free) (Function.update held t l) := by
  have hnd : (i :: l).Nodup := hl.nodup_iff.2 (h.nodup t)
  have hi : i ∈ held t := hl.mem_iff.1 (by simp)
  have hmem : ∀ t' j, j ∈ Function.update held t l t' ↔ j ∈ held t' ∧ j ≠ i := by
    intro t' j
    by_cases ht : t' = t
    · subst ht
      rw [Function.update_self, ← hl.mem_iff, List.mem_cons]
      constructor
      · intro hj
        exact ⟨.inr hj, fun hji => (List.nodup_cons.1 hnd).1 (hji ▸ hj)⟩
      · rintro ⟨hj | hj, hne⟩
        · exact absurd hj hne
        · exact hj
    · rw [Function.update_of_ne ht]
      exact ⟨fun hj => ⟨hj, fun hji => ht (h.apart t' t i (hji ▸ hj) hi)⟩, fun hj => hj.1⟩
  refine ⟨?_, fun t' j hj => h.held_lt t' j ((hmem _ _).1 hj).1, ?_,
    ?_, fun t' t'' j hj hj' => h.apart t' t'' j ((hmem _ _).1 hj).1 ((hmem _ _).1 hj').1,
    ?_⟩
  · intro j hj
    rcases List.mem_cons.1 hj with rfl | hj
    · exact h.held_lt t j hi
    · exact h.backed j hj
  · intro t' j hj hjf
    rcases List.mem_cons.1 hjf with rfl | hjf
    · exact ((hmem _ _).1 hj).2 rfl
    · exact h.off t' j ((hmem _ _).1 hj).1 hjf
  · intro t'
    by_cases ht : t' = t
    · subst ht
      rw [Function.update_self]
      exact (List.nodup_cons.1 hnd).2
    · rw [Function.update_of_ne ht]
      exact h.nodup t'
  · intro j hj
    by_cases hji : j = i
    · exact .inl (by simp [hji])
    · rcases h.cover j hj with hj | ⟨t', ht'⟩
      · exact .inl (List.mem_cons_of_mem _ hj)
      · exact .inr ⟨t', (hmem _ _).2 ⟨ht', hji⟩⟩

end Split

/-! ### The invariant -/

/-- What a thread's last read promises as long as nobody else writes the entries it holds. -/
def PcOk (f : NkeSocketFilter) : Pc → Prop
  | .acqNext i | .acqCas i _ => i ≠ UINT8_MAX
  | .relCheck i => f.freeBuffers i = UINT8_MAX
  | .relCas i old => f.freeBuffers i = old
  | _ => True

theorem PcOk.congr {f f' : NkeSocketFilter} {p : Pc} (h : PcOk f p)
    (hf : ∀ i ∈ p.holds, f'.freeBuffers i = f.freeBuffers i) : PcOk f' p := by
  cases p with
  | relCheck i => exact (hf i (by simp [Pc.holds])).trans h
  | relCas i old => exact (hf i (by simp [Pc.holds])).trans h
  | _ => exact h

/-- The list and the holders split the indices; what is owned carries the mark. -/
structure Inv (s : FreeList T) (free : List Nat) : Prop where
  count_le : s.filter.dataBuffers.length ≤ kt_NkeSocketBuffersNumber
  links : Links s.filter.freeBuffers UINT8_MAX s.filter.freeBuffersHead free
  split : Split s.filter.dataBuffers.length free s.holdings
  mark : ∀ t, ∀ i ∈ s.owned t, s.filter.freeBuffers i = UINT8_MAX
  pcs : ∀ t, PcOk s.filter (s.pc t)

/-- What an access of `t` that leads it to `p` with `own` did to the list: nothing, or `t` has taken the front,
or it has given an index back. -/
inductive Moved (s : FreeList T) (t : T) (p : Pc) (own free : List Nat) : List Nat → Prop
  | kept : (own ++ p.holds).Perm (s.holdings t) → granted p = [] → Moved s t p own free free
  | popped {i rest} : free = i :: rest → (own ++ p.holds).Perm (i :: s.holdings t) → granted (s.pc t) = [] →
      granted p = [i] → Moved s t p own free rest
  | pushed {i} : (i :: (own ++ p.holds)).Perm (s.holdings t) → granted (s.pc t) = [] → granted p = [] →
      Moved s t p own free (i :: free)

variable {s s' : FreeList T} {free free' own : List Nat} {t : T} {f' : NkeSocketFilter} {p : Pc} {i : Nat}

theorem holdings_set : (s.set t f' p own).holdings = Function.update s.holdings t (own ++ p.holds) := by
  funext t'
  by_cases ht : t' = t
  · subst ht
    simp [holdings, set]
  · simp [holdings, set, ht]

namespace Inv

omit [DecidableEq T] in
theorem ne_max (h : s.Inv free) (hi : i ∈ s.holdings t) : i ≠ UINT8_MAX := by
  have hlt := h.split.held_lt t i hi
  have hle := h.count_le
  simp only [kt_NkeSocketBuffersNumber] at hle
  simp only [UINT8_MAX]
  omega

/-- A step of `t` that writes only entries `t` holds keeps the invariant when it keeps the list, the
split and what `t` itself relies on. -/
theorem set (h : s.Inv free) (hbufs : f'.dataBuffers = s.filter.dataBuffers)
    (hwrites : ∀ j, j ∉ s.holdings t → f'.freeBuffers j = s.filter.freeBuffers j)
    (hlinks : Links f'.freeBuffers UINT8_MAX f'.freeBuffersHead free')
    (hsplit : Split s.filter.dataBuffers.length free' (Function.update s.holdings t (own ++ p.holds)))
    (hmark : ∀ i ∈ own, f'.freeBuffers i = UINT8_MAX) (hpc : PcOk f' p) : (s.set t f' p own).Inv free' := by
  have hother : ∀ t', t' ≠ t → ∀ j ∈ s.holdings t', f'.freeBuffers j = s.filter.freeBuffers j :=
    fun t' ht j hj => hwrites j fun hj' => ht (h.split.apart t' t j hj hj')
  refine ⟨by simpa [FreeList.set, hbufs] using h.count_le, hlinks, ?_, ?_, ?_⟩
  · rw [holdings_set]
    simpa [FreeList.set, hbufs] using hsplit
  · intro t'
    by_cases ht : t' = t
    · subst ht
      simpa [FreeList.set] using hmark
    · intro j hj
      simp only [FreeList.set, Function.update_of_ne ht] at hj ⊢
      rw [hother t' ht j (List.mem_append_left _ hj)]
      exact h.mark t' j hj
  · intro t'
    by_cases ht : t' = t
    · subst ht
      simpa [FreeList.set] using hpc
    · simp only [FreeList.set, Function.update_of_ne ht]
      exact (h.pcs t').congr fun j hj => hother t' ht j (List.mem_append_right _ hj)

theorem move (h : s.Inv free) (hhold : (own ++ p.holds).Perm (s.holdings t)) (hown : own ⊆ s.owned t)
    (hpc : PcOk s.filter p) : (s.set t s.filter p own).Inv free :=
  h.set rfl (fun _ _ => rfl) h.links (h.split.congr hhold) (fun i hi => h.mark t i (hown hi)) hpc

/-- A step of `t` that writes one entry it holds. -/
theorem write {v : Nat} (h : s.Inv free) (hi : i ∈ s.holdings t)
    (hhold : (own ++ p.holds).Perm (s.holdings t))
    (hmark : ∀ j ∈ own, Function.update s.filter.freeBuffers i v j = UINT8_MAX)
    (hpc : PcOk { s.filter with freeBuffers := Function.update s.filter.freeBuffers i v } p) :
    (s.set t { s.filter with freeBuffers := Function.update s.filter.freeBuffers i v } p own).Inv free := by
  refine h.set rfl ?_ ((Links.update_iff (h.split.off t i hi)).2 h.links) (h.split.congr hhold)
    hmark hpc
  intro j hj
  exact Function.update_of_ne (fun hji => hj (by rw [hji]; exact hi)) ..

/-- `t` leaves the list alone. -/
theorem stay (h : s.Inv free) (hhold : (own ++ p.holds).Perm (s.holdings t)) (hown : own ⊆ s.owned t)
    (hpc : PcOk s.filter p) (hgranted : granted p = []) :
    ∃ free', Moved s t p own free free' ∧ (s.set t s.filter p own).Inv free' :=
  ⟨free, .kept hhold hgranted, h.move hhold hown hpc⟩

theorem access (h : s.Inv free) (hfresh : FreshPop s (.access t)) :
    ∃ free', Moved s t ((s.pc t).advance s.filter).2 (granted (s.pc t) ++ s.owned t) free free' ∧
      (s.set t ((s.pc t).advance s.filter).1 ((s.pc t).advance s.filter).2
        (granted (s.pc t) ++ s.owned t)).Inv free' := by
  have hpc := h.pcs t
  have hhold : ∀ {q : Pc}, s.pc t = q → s.holdings t = s.owned t ++ q.holds := fun hq => by
    rw [holdings, hq]
  cases hp : s.pc t with
  | idle => exact h.stay (by rw [hhold hp]; rfl) (by simp [granted]) trivial rfl
  | acqHead =>
    simp only [Pc.advance]
    split
    · exact h.stay (by rw [hhold hp]; rfl) (by simp [granted]) trivial rfl
    · rename_i hne
      exact h.stay (by rw [hhold hp]; rfl) (by simp [granted]) hne rfl
  | acqNext i =>
    rw [hp] at hpc
    exact h.stay (by rw [hhold hp]; rfl) (by simp [granted]) hpc rfl
  | acqCas i next =>
    rw [hp] at hpc
    simp only [Pc.advance]
    split
    · -- the swap succeeds: the front of the list changes to `t`
      rename_i hhead
      have hnext : s.filter.freeBuffers i = next := by
        simp only [FreshPop, hp] at hfresh
        exact hfresh hhead
      obtain ⟨rest, rfl, hrest⟩ := h.links.exists_cons (hhead ▸ hpc)
      rw [hhead] at hrest h
      have htaken : (s.owned t ++ [i]).Perm (i :: s.holdings t) := by
        rw [hhold hp, show (Pc.acqCas i next).holds = [] from rfl, List.append_nil]
        exact List.perm_append_comm
      have htake := (h.split.take (t := t) (List.nodup_cons.1 h.links.nodup).1).congr
        (l := s.owned t ++ [i]) (t := t) (by rw [Function.update_self]; exact htaken)
      rw [Function.update_idem] at htake
      exact ⟨rest, .popped (by rw [hhead]) htaken (by rw [hp]; rfl) rfl,
        h.set rfl (fun _ _ => rfl) (hnext ▸ hrest) htake (h.mark t) trivial⟩
    · exact h.stay (by rw [hhold hp]; rfl) (by simp [granted]) trivial rfl
  | acqMark i =>
    have hi : i ∈ s.holdings t := by simp [hhold hp, Pc.holds]
    have hown : (i :: s.owned t).Perm (s.holdings t) := by
      rw [hhold hp]
      simpa [Pc.holds] using (@List.perm_append_comm _ [i] (s.owned t))
    have hown : (granted (.acqMark i) ++ s.owned t ++ Pc.holds .idle).Perm (s.holdings t) := by
      simpa [granted, Pc.holds] using hown
    refine ⟨free, .kept hown rfl, h.write hi hown ?_ trivial⟩
    intro j hj
    by_cases hji : j = i
    · rw [hji, Function.update_self]
    · rw [Function.update_of_ne hji]
      exact h.mark t j (by simpa [granted, hji] using hj)
  | relCheck i =>
    rw [hp] at hpc
    have hi : i ∈ s.holdings t := by simp [hhold hp, Pc.holds]
    have hlt : ¬ kt_NkeSocketBuffersNumber ≤ i :=
      Nat.not_le.2 (Nat.lt_of_lt_of_le (h.split.held_lt t i hi) h.count_le)
    have hcond : ¬ (kt_NkeSocketBuffersNumber ≤ i ∨ UINT8_MAX ≠ s.filter.freeBuffers i) := by
      rintro (hle | hne)
      · exact hlt hle
      · exact hne hpc.symm
    simp only [Pc.advance, if_neg hcond]
    exact h.stay (by rw [hhold hp]; rfl) (by simp [granted]) trivial rfl
  | relHead i => exact h.stay (by rw [hhold hp]; rfl) (by simp [granted]) trivial rfl
  | relWrite i head =>
    have hi : i ∈ s.holdings t := by simp [hhold hp, Pc.holds]
    have hnd : (s.owned t ++ [i]).Nodup := by
      have := h.split.nodup t
      rwa [hhold hp] at this
    refine ⟨free, .kept (by rw [hhold hp]; rfl) rfl, h.write hi (by rw [hhold hp]; rfl) ?_ trivial⟩
    intro j hj
    rw [Function.update_of_ne]
    · exact h.mark t j hj
    · rintro rfl
      exact List.disjoint_of_nodup_append hnd hj (by simp)
  | relRead i =>
    exact ⟨free, .kept (by rw [hhold hp]; rfl) rfl, h.move (by rw [hhold hp]; rfl) (by simp [granted]) rfl⟩
  | relCas i old =>
    rw [hp] at hpc
    have hi : i ∈ s.holdings t := by simp [hhold hp, Pc.holds]
    simp only [Pc.advance]
    split
    · -- the swap succeeds: `i` is in front of what its entry points to
      rename_i hhead
      have hgiven : (i :: (s.owned t ++ Pc.holds .idle)).Perm (s.holdings t) := by
        rw [hhold hp]
        simpa [Pc.holds] using (@List.perm_append_comm _ [i] (s.owned t))
      refine ⟨i :: free, .pushed hgiven (by rw [hp]; rfl) rfl,
        h.set rfl (fun _ _ => rfl) ⟨rfl, h.ne_max hi, ?_⟩ (h.split.give hgiven) (h.mark t) trivial⟩
      exact (hpc.trans hhead.symm) ▸ h.links
    · exact h.stay (by rw [hhold hp]; rfl) (by simp [granted]) trivial rfl

theorem step {a : FreeListLabel T} {e : List (T × Nat)} (h : s.Inv free) (hfresh : FreshPop s a)
    (hs : (machine T).step s a = some (s', e)) : ∃ free', s'.Inv free' := by
  cases a with
  | acquire t =>
    simp only [machine] at hs
    split at hs
    · rename_i hidle
      obtain ⟨rfl, -⟩ := Prod.mk.inj (Option.some.inj hs)
      exact ⟨free, h.move (by rw [holdings, hidle]; rfl) (List.Subset.refl _) trivial⟩
    · cases hs
  | release t i =>
    simp only [machine] at hs
    split at hs
    · rename_i hcond
      obtain ⟨hidle, hi⟩ := hcond
      obtain ⟨rfl, -⟩ := Prod.mk.inj (Option.some.inj hs)
      refine ⟨free, h.move ?_ List.erase_subset (h.mark t i hi)⟩
      rw [holdings, hidle]
      simpa [Pc.holds] using (List.perm_append_comm.trans (List.perm_cons_erase hi).symm)
    · cases hs
  | access t =>
    simp only [machine] at hs
    split at hs
    · cases hs
    · obtain ⟨rfl, -⟩ := Prod.mk.inj (Option.some.inj hs)
      obtain ⟨free', -, h'⟩ := h.access hfresh
      exact ⟨free', h'⟩

omit [DecidableEq T] in
theorem safe (h : s.Inv free) : s.Safe where
  exclusive := h.split.apart
  unreachable t i hi hr := h.split.off t i hi (h.links.reaches_iff.1 hr)
  kept hidle i hi hnone := by
    refine h.links.reaches_iff.2 ((h.split.cover i hi).resolve_right ?_)
    rintro ⟨t, ht⟩
    rw [holdings, hidle t] at ht
    exact hnone t (by simpa [Pc.holds] using ht)

end Inv

omit [DecidableEq T] in
theorem start_inv (withSize : Nat → Bool) :
    (start (T := T) withSize).Inv (List.range (withDefault withSize).dataBuffers.length).reverse := by
  have hp := withDefault_pool withSize
  refine ⟨hp.count_le, hp.links, ⟨hp.backed, ?_, ?_, ?_, ?_, ?_⟩, ?_, fun _ => trivial⟩
  · simp [start, holdings, Pc.holds]
  · simp [start, holdings, Pc.holds]
  · simp [start, holdings, Pc.holds]
  · simp [start, holdings, Pc.holds]
  · intro i hi
    exact .inl (List.mem_reverse.2 (List.mem_range.2 hi))
  · simp [start]

/-! ### Without interference -/

/-- A call of acquire that no other thread interrupts does to the pool what the function run alone does. -/
theorem acquire_alone {b : NkeDataBuffer} (hidle : s.pc t = .idle)
    (hacq : acquireSocketDataBufferForIO s.filter = .ok (some b, f'))
    (hb : b.index = s.filter.freeBuffersHead) :
    ∃ s', (machine T).run s [.acquire t, .access t, .access t, .access t, .access t] =
      some (s', [(t, b.index)]) ∧
      s'.filter = { f' with history := s.filter.history } ∧ s'.pc t = .idle ∧
        s'.owned t = b.index :: s.owned t := by
  have hne : s.filter.freeBuffersHead ≠ UINT8_MAX := by
    intro h
    simp [ acquireSocketDataBufferForIO, h] at hacq
  have hf : f' = { s.filter with
      freeBuffersHead := s.filter.freeBuffers s.filter.freeBuffersHead
      freeBuffers := Function.update s.filter.freeBuffers s.filter.freeBuffersHead UINT8_MAX
      history := .granted s.filter.freeBuffersHead :: s.filter.history } := by
    simp only [ acquireSocketDataBufferForIO, hne, if_false] at hacq
    split at hacq
    · cases hacq
    · split at hacq
      · cases hacq
      · exact (Prod.mk.inj (Except.ok.inj hacq)).2.symm
  refine ⟨s.set t { f' with history := s.filter.history } .idle (b.index :: s.owned t), ?_, rfl,
    by simp [set], by simp [set]⟩
  simp [Machine.run, machine, set, hidle, Pc.advance, hne, granted, hf, hb]

theorem release_alone (hidle : s.pc t = .idle) (hi : i ∈ s.owned t) (hlt : i < kt_NkeSocketBuffersNumber)
    (hmark : s.filter.freeBuffers i = UINT8_MAX) :
    ∃ s', (machine T).run s [.release t i, .access t, .access t, .access t, .access t, .access t] =
      some (s', []) ∧
      s'.filter = { releaseSocketDataBufferFromIO s.filter i with history := s.filter.history } ∧
      s'.pc t = .idle ∧ s'.owned t = (s.owned t).erase i := by
  have hf : { releaseSocketDataBufferFromIO s.filter i with history := s.filter.history } = { s.filter with
      freeBuffers := Function.update s.filter.freeBuffers i s.filter.freeBuffersHead
      freeBuffersHead := i } := by
    simp [ releaseSocketDataBufferFromIO, Nat.not_le.2 hlt, hmark]
  refine ⟨s.set t _ .idle ((s.owned t).erase i), ?_, hf.symm, by simp [set], by simp [set]⟩
  simp [Machine.run, machine, set, hidle, hi, Pc.advance, granted, Nat.not_le.2 hlt, hmark]

/-- In every run in which each pop that succeeds still finds the successor it read, the list is safe. -/
theorem safe_of_reachableAlong (withSize : Nat → Bool)
    (hr : (machine T).ReachableAlong FreshPop (start withSize) s) : s.Safe := by
  obtain ⟨free, h⟩ := hr.invariant (I := fun s => ∃ free, s.Inv free) ⟨_, start_inv withSize⟩
    fun s a s' e ⟨free, h⟩ hC hs => h.step hC hs
  exact h.safe

/-- Two threads in turn: one is granted the index 1, the other the index 0, and the first gives back. -/
def turn : List (FreeListLabel Bool) :=
  [.acquire false, .access false, .acquire true, .access false, .access false, .access false, .access true,
    .access true, .access true, .access true, .release false 1, .access false, .access false, .access false,
    .access false, .access false]

theorem safe_in_turn : ∃ s : FreeList Bool, s.Safe ∧ s.owned false = [] ∧ s.owned true = [0] := by
  have hrun : (((machine Bool).run (start (· < 2)) turn).map fun r => (r.1.owned false, r.1.owned true)) =
      some ([], [0]) := by decide
  obtain ⟨⟨s, e⟩, hs, howned⟩ := Option.map_eq_some_iff.1 hrun
  obtain ⟨hfalse, htrue⟩ := Prod.mk.inj howned
  exact ⟨s, safe_of_reachableAlong _ ⟨turn, e, hs, by decide⟩, hfalse, htrue⟩

/-- While one thread stands before its swap, the other takes both indices and gives the first back; the
swap then installs the index 0, which the other still owns. -/
def reused : List (FreeListLabel Bool) :=
  [.acquire false, .access false, .access false,
    .acquire true, .access true, .access true, .access true, .access true,
    .acquire true, .access true, .access true, .access true, .access true,
    .release true 1, .access true, .access true, .access true, .access true, .access true,
    .access false, .access false,
    .acquire false, .access false, .access false, .access false, .access false]

/-- With two buffers and two threads the index 0 is granted twice. -/
theorem owned_twice : ¬ ∀ (T : Type) [DecidableEq T] (withSize : Nat → Bool) (s : FreeList T),
    (machine T).Reachable (start withSize) s → s.Safe := by
  intro hall
  have hrun : (((machine Bool).run (start (· < 2)) reused).map fun r => (r.1.owned false, r.1.owned true)) =
      some ([0, 1], [0]) := by decide
  obtain ⟨⟨s, e⟩, hs, howned⟩ := Option.map_eq_some_iff.1 hrun
  have hfalse : s.owned false = [0, 1] := (Prod.mk.inj howned).1
  have htrue : s.owned true = [0] := (Prod.mk.inj howned).2
  have hsafe := hall Bool (· < 2) s ⟨reused, e, hs⟩
  have h0 : (0 : Nat) ∈ s.holdings false := List.mem_append_left _ (by simp [hfalse])
  have h1 : (0 : Nat) ∈ s.holdings true := List.mem_append_left _ (by simp [htrue])
  exact absurd (hsafe.exclusive false true 0 h0 h1) (by decide)

end FreeList

end NkeFilter
