import NkeFilter.Lib.Machine
import NkeFilter.Lib.Tally

/-!
# The memory descriptor of a buffer

`getMemoryDescriptor` of one `NkeDataBuffer` by any number of threads, one step for each read of
`memoryDescriptor`, creation, compare-and-swap, retain and release; any creation may fail. A descriptor is a
number, in the order of creation. Its reference count is the reference of the buffer, those that calls have
returned, and those in the hands of calls in progress.
-/

namespace NkeFilter
open Lib

/-- The part of the buffer that the calls share, with the reference counts of all descriptors. `created` and
`references` are ghosts: how many descriptors there have been, and how many references to each of them were
returned and not released since. -/
structure BufferDescriptor where
  memoryDescriptor : Option Nat
  refCount : Nat → Nat
  created : Nat
  references : Nat → Nat

/-- What a thread does next in `getMemoryDescriptor`. `depth` is how often the call has called itself. -/
inductive DescriptorAccess where
  /-- outside -/
  | idle
  | readDescriptor (depth : Nat)
  | readToRetain (depth : Nat)
  | retain (depth descriptor : Nat)
  | readToReturn (depth descriptor : Nat)
  | create (depth : Nat)
  | swap (depth descriptor : Nat)
  | release (depth descriptor : Nat)
  deriving DecidableEq, Repr

inductive DescriptorEvent (T : Type*) where
  | installed (descriptor : Nat)
  | returned (thread : T) (descriptor : Option Nat)
  /-- A caller released a reference it was given. -/
  | dropped (descriptor : Nat)
  deriving DecidableEq, Repr

namespace BufferDescriptor

def init : BufferDescriptor := ⟨none, fun _ => 0, 0, fun _ => 0⟩

/-- `descriptor->retain()`. -/
def retain (b : BufferDescriptor) (d : Nat) : BufferDescriptor :=
  { b with refCount := Function.update b.refCount d (b.refCount d + 1) }

/-- `descriptor->release()`. -/
def release (b : BufferDescriptor) (d : Nat) : BufferDescriptor :=
  { b with refCount := Function.update b.refCount d (b.refCount d - 1) }

/-- `IOMemoryDescriptor::withAddress`, when it succeeds; the first reference is the caller's. -/
def withAddress (b : BufferDescriptor) : Nat × BufferDescriptor :=
  (b.created, { b with refCount := Function.update b.refCount b.created 1, created := b.created + 1 })

/-- The caller gets what is in `memoryDescriptor`. -/
def give (b : BufferDescriptor) : BufferDescriptor := match b.memoryDescriptor with
  | none => b
  | some d => { b with references := Function.update b.references d (b.references d + 1) }

/-- A caller releases a reference it was given. -/
def drop (b : BufferDescriptor) (d : Nat) : BufferDescriptor :=
  { b.release d with references := Function.update b.references d (b.references d - 1) }

/-- What `NkeDataBuffer::free` does with the descriptor. -/
def free (b : BufferDescriptor) : BufferDescriptor := match b.memoryDescriptor with
  | none => b
  | some d => b.release d

/-- The references of the buffer and of those who called. -/
def shares (b : BufferDescriptor) (d : Nat) : Nat :=
  (if b.memoryDescriptor = some d then 1 else 0) + b.references d

/-- One access of a thread: what it does after it, the buffer, and what happened. `success` is whether a
creation succeeds. Without a descriptor there is nothing to retain, and the access faults. -/
def access {T : Type*} (b : BufferDescriptor) (thread : T) (success : Bool) :
    DescriptorAccess → Option (DescriptorAccess × BufferDescriptor × List (DescriptorEvent T))
  | .idle => none
  | .readDescriptor depth =>
    some (if b.memoryDescriptor.isSome then .readToRetain depth else .create depth, b, [])
  | .readToRetain depth => b.memoryDescriptor.map fun d => (.retain depth d, b, [])
  | .retain depth d => some (.readToReturn depth d, b.retain d, [])
  | .readToReturn _ _ => some (.idle, b.give, [.returned thread b.memoryDescriptor])
  | .create depth =>
    if success then
      let (d, b) := b.withAddress
      some (.swap depth d, b, [])
    else some (.idle, b, [.returned thread none])
  | .swap depth d =>
    if b.memoryDescriptor = none then
      some (.readDescriptor (depth + 1), { b with memoryDescriptor := some d }, [.installed d])
    else some (.release depth d, b, [])
  | .release depth d => some (.readDescriptor (depth + 1), b.release d, [])

end BufferDescriptor

structure DescriptorState (T : Type*) where
  buffer : BufferDescriptor
  threads : T → DescriptorAccess

inductive DescriptorLabel (T : Type*) where
  | call (thread : T)
  | access (thread : T) (success : Bool)
  | drop (descriptor : Nat)
  deriving DecidableEq, Repr

namespace DescriptorState
variable {T : Type*}

def start : DescriptorState T := ⟨.init, fun _ => .idle⟩

variable [DecidableEq T]

def step (s : DescriptorState T) : DescriptorLabel T → Option (DescriptorState T × List (DescriptorEvent T))
  | .call thread =>
    if s.threads thread = .idle then
      some ({ s with threads := Function.update s.threads thread (.readDescriptor 0) }, [])
    else none
  | .access thread success => (s.buffer.access thread success (s.threads thread)).map
    fun (next, buffer, events) => (⟨buffer, Function.update s.threads thread next⟩, events)
  | .drop d => if s.buffer.references d = 0 then none else some ({ s with buffer := s.buffer.drop d }, [.dropped d])

end DescriptorState

/-- Any interleaving of any number of threads `T`, and of the releases of the references they were given. -/
def descriptorMachine (T : Type*) [DecidableEq T] :
    Machine (DescriptorState T) (DescriptorLabel T) (DescriptorEvent T) where
  step := DescriptorState.step

/-! ### What a step can do -/

namespace BufferDescriptor
variable {b : BufferDescriptor} {d d' : Nat}

theorem refCount_retain : (b.retain d).refCount d' = b.refCount d' + if d = d' then 1 else 0 := by
  by_cases heq : d = d'
  · subst heq
    rw [if_pos rfl]
    exact Function.update_self ..
  · rw [if_neg heq]
    exact Function.update_of_ne (Ne.symm heq) ..

theorem refCount_release (hpos : 0 < b.refCount d) :
    (b.release d).refCount d' + (if d = d' then 1 else 0) = b.refCount d' := by
  by_cases heq : d = d'
  · subst heq
    have hself : (b.release d).refCount d = b.refCount d - 1 := Function.update_self ..
    rw [if_pos rfl, hself]
    omega
  · rw [if_neg heq]
    exact Function.update_of_ne (Ne.symm heq) ..

theorem refCount_withAddress (hfresh : b.refCount b.created = 0) :
    b.withAddress.2.refCount d' = b.refCount d' + if b.created = d' then 1 else 0 := by
  by_cases heq : b.created = d'
  · subst heq
    rw [if_pos rfl, hfresh]
    exact Function.update_self ..
  · rw [if_neg heq]
    exact Function.update_of_ne (Ne.symm heq) ..

theorem memoryDescriptor_give : b.give.memoryDescriptor = b.memoryDescriptor := by
  unfold give
  split <;> rfl

theorem refCount_give : b.give.refCount = b.refCount := by
  unfold give
  split <;> rfl

theorem created_give : b.give.created = b.created := by
  unfold give
  split <;> rfl

theorem references_give :
    b.give.references d = b.references d + if b.memoryDescriptor = some d then 1 else 0 := by
  unfold give
  split
  · rename_i hnone
    rw [hnone, if_neg nofun, Nat.add_zero]
  · rename_i d' hd
    rw [hd]
    by_cases heq : d' = d
    · subst heq
      rw [if_pos rfl]
      exact Function.update_self ..
    · rw [if_neg fun h => heq (Option.some.inj h)]
      exact Function.update_of_ne (Ne.symm heq) ..

theorem shares_install (hnone : b.memoryDescriptor = none) :
    ({ b with memoryDescriptor := some d } : BufferDescriptor).shares d' =
      b.shares d' + if d = d' then 1 else 0 := by
  simp only [shares, hnone, Option.some.injEq, reduceCtorEq, if_false]
  omega

theorem references_drop (hpos : 0 < b.references d) :
    (b.drop d).references d' + (if d = d' then 1 else 0) = b.references d' := by
  by_cases heq : d = d'
  · subst heq
    have hself : (b.drop d).references d = b.references d - 1 := Function.update_self ..
    rw [if_pos rfl, hself]
    omega
  · rw [if_neg heq]
    exact Function.update_of_ne (Ne.symm heq) ..

theorem shares_drop (hpos : 0 < b.references d) :
    (b.drop d).shares d' + (if d = d' then 1 else 0) = b.shares d' := by
  have hsame : (b.drop d).memoryDescriptor = b.memoryDescriptor := rfl
  rw [shares, shares, hsame, Nat.add_assoc, references_drop hpos]

end BufferDescriptor

namespace DescriptorAccess

def depth : DescriptorAccess → Nat
  | idle => 0
  | readDescriptor depth | readToRetain depth | retain depth _ | readToReturn depth _ | create depth
  | swap depth _ | release depth _ => depth

/-- The descriptor the call has a reference to. -/
def inHand : DescriptorAccess → Option Nat
  | readToReturn _ d | swap _ d | release _ d => some d
  | _ => none

/-- The descriptor the call has created and not installed. -/
def made : DescriptorAccess → Option Nat
  | swap _ d | release _ d => some d
  | _ => none

/-- Where a call can be while `memoryDescriptor` holds `installed`. -/
def Placed (installed : Option Nat) : DescriptorAccess → Prop
  | idle => True
  | readDescriptor depth => depth = 0 ∨ depth = 1 ∧ installed ≠ none
  | readToRetain depth => depth ≤ 1 ∧ installed ≠ none
  | retain depth d | readToReturn depth d => depth ≤ 1 ∧ installed = some d
  | create depth => depth = 0
  | swap depth d => depth = 0 ∧ installed ≠ some d
  | release depth d => depth = 0 ∧ installed ≠ none ∧ installed ≠ some d

variable {a : DescriptorAccess} {installed : Option Nat} {d d' : Nat}

theorem inHand_of_made (h : a.made = some d) : a.inHand = some d := by
  cases a with
  | swap | release => exact h
  | _ => cases h

theorem Placed.depth_le (h : a.Placed installed) : a.depth ≤ 1 := by
  cases a with
  | idle => exact Nat.zero_le _
  | readDescriptor depth =>
    rcases h with h | ⟨h, -⟩
    · exact h ▸ Nat.zero_le _
    · exact h ▸ le_rfl
  | readToRetain | retain | readToReturn => exact h.1
  | create depth => exact (show depth = 0 from h) ▸ Nat.zero_le _
  | swap | release => exact h.1 ▸ Nat.zero_le _

theorem Placed.ne_of_made (h : a.Placed installed) (hmade : a.made = some d) : installed ≠ some d := by
  cases a with
  | swap depth d' => exact Option.some.inj hmade ▸ h.2
  | release depth d' => exact Option.some.inj hmade ▸ h.2.2
  | _ => cases hmade

/-- The first descriptor is installed; it is none that another call has made. -/
theorem Placed.install (h : a.Placed none) (hmade : a.made ≠ some d) : a.Placed (some d) := by
  cases a with
  | idle => trivial
  | readDescriptor depth => exact h.imp_right fun h => absurd rfl h.2
  | readToRetain => exact absurd rfl h.2
  | release => exact absurd rfl h.2.1
  | retain | readToReturn => cases h.2
  | create => exact h
  | swap depth d' => exact ⟨h.1, fun heq => hmade heq.symm⟩

end DescriptorAccess

section Access
variable {T : Type*}

/-- The accesses by what they do to the buffer and to what the call has in hand. -/
inductive DescriptorEffect (b : BufferDescriptor) (thread : T) :
    DescriptorAccess → DescriptorAccess → BufferDescriptor → List (DescriptorEvent T) → Prop
  | quiet {a a' : DescriptorAccess} : a'.inHand = a.inHand → (∀ d, a'.made = some d → a.made = some d) →
      (a.Placed b.memoryDescriptor → a'.Placed b.memoryDescriptor) → DescriptorEffect b thread a a' b []
  | retain {depth d : Nat} :
      DescriptorEffect b thread (.retain depth d) (.readToReturn depth d) (b.retain d) []
  | give {depth d : Nat} : DescriptorEffect b thread (.readToReturn depth d) .idle b.give
      [.returned thread b.memoryDescriptor]
  | create {depth : Nat} :
      DescriptorEffect b thread (.create depth) (.swap depth b.created) b.withAddress.2 []
  | fail {depth : Nat} : DescriptorEffect b thread (.create depth) .idle b [.returned thread none]
  | install {depth d : Nat} : b.memoryDescriptor = none →
      DescriptorEffect b thread (.swap depth d) (.readDescriptor (depth + 1))
        { b with memoryDescriptor := some d } [.installed d]
  | release {depth d : Nat} :
      DescriptorEffect b thread (.release depth d) (.readDescriptor (depth + 1)) (b.release d) []

variable {b b' : BufferDescriptor} {thread : T} {a a' : DescriptorAccess} {success : Bool}
  {e : List (DescriptorEvent T)}

theorem BufferDescriptor.access_inv (hs : b.access thread success a = some (a', b', e)) :
    DescriptorEffect b thread a a' b' e := by
  cases a with
  | idle => cases hs
  | readDescriptor depth =>
    simp only [BufferDescriptor.access] at hs
    cases hs
    split
    · rename_i hsome
      refine .quiet rfl nofun fun h => ⟨?_, ?_⟩
      · exact DescriptorAccess.Placed.depth_le h
      · exact Option.isSome_iff_ne_none.1 hsome
    · rename_i hnone
      refine .quiet rfl nofun fun h => ?_
      rcases h with h | ⟨-, h⟩
      · exact h
      · exact absurd (Option.isSome_iff_ne_none.2 h) hnone
  | readToRetain depth =>
    obtain ⟨d, hd, heq⟩ := Option.map_eq_some_iff.1 hs
    cases heq
    exact .quiet rfl nofun fun h => ⟨h.1, hd⟩
  | retain depth d =>
    cases hs
    exact .retain
  | readToReturn depth d =>
    cases hs
    exact .give
  | create depth =>
    cases success with
    | true =>
      cases hs
      exact .create
    | false =>
      cases hs
      exact .fail
  | swap depth d =>
    simp only [BufferDescriptor.access] at hs
    split at hs
    · rename_i hnone
      cases hs
      exact .install hnone
    · rename_i hsome
      cases hs
      exact .quiet rfl (fun _ h => h) fun h => ⟨h.1, hsome, h.2⟩
  | release depth d =>
    cases hs
    exact .release

end Access

/-! ### The balance -/

namespace DescriptorState
variable {T : Type*}

/-- How many calls in progress have a reference to the descriptor. -/
noncomputable def inHand (s : DescriptorState T) (d : Nat) : ℕ :=
  total (indicator fun a => a.inHand = some d) s.threads

/-- The reference counts are the references there are, and every call is where the buffer allows. -/
structure Balanced (s : DescriptorState T) : Prop where
  finite : ∀ d, FinitelyMany (indicator fun a => a.inHand = some d) s.threads
  refCount : ∀ d, s.buffer.refCount d = s.buffer.shares d + s.inHand d
  fresh : ∀ d, s.buffer.created ≤ d → s.buffer.refCount d = 0
  alone : ∀ t d, (s.threads t).made = some d → s.buffer.refCount d = 1
  placed : ∀ t, (s.threads t).Placed s.buffer.memoryDescriptor

variable {s s' : DescriptorState T} {t u : T} {d : Nat} {l : DescriptorLabel T} {as : List (DescriptorLabel T)}
  {h e : List (DescriptorEvent T)} {a a' : DescriptorAccess} {b b' : BufferDescriptor}

theorem balanced_start : Balanced (start : DescriptorState T) where
  finite := fun _ => finitelyMany_of_zero fun _ => rfl
  refCount := by
    intro d
    have hnone : (start : DescriptorState T).inHand d = 0 := total_of_zero fun _ => rfl
    rw [hnone]
    rfl
  fresh := fun _ _ => rfl
  alone := by
    intro t d ht
    cases ht
  placed := fun _ => trivial

theorem Balanced.pos_of_inHand (hB : Balanced s) (ht : (s.threads t).inHand = some d) : 0 < s.inHand d :=
  total_pos (hB.finite d) ht

/-- What a call has in hand is alive. -/
theorem Balanced.alive_of_inHand (hB : Balanced s) (ht : (s.threads t).inHand = some d) :
    0 < s.buffer.refCount d := by
  have hpos := hB.pos_of_inHand ht
  have hcount := hB.refCount d
  omega

theorem Balanced.alive_of_installed (hB : Balanced s) (hd : s.buffer.memoryDescriptor = some d) :
    0 < s.buffer.refCount d := by
  have hcount := hB.refCount d
  rw [BufferDescriptor.shares, if_pos hd] at hcount
  omega

theorem Balanced.step_drop (hB : Balanced s) (hpos : 0 < s.buffer.references d) :
    Balanced { s with buffer := s.buffer.drop d } := by
  have halive : 0 < s.buffer.refCount d := by
    have hcount := hB.refCount d
    rw [BufferDescriptor.shares] at hcount
    omega
  have hrefs : ∀ d', (s.buffer.drop d).refCount d' + (if d = d' then 1 else 0) = s.buffer.refCount d' :=
    fun d' => BufferDescriptor.refCount_release halive
  refine ⟨hB.finite, ?_, ?_, ?_, hB.placed⟩
  · intro d'
    have hcount := hB.refCount d'
    have hd' := hrefs d'
    have hshares := @BufferDescriptor.shares_drop s.buffer d d' hpos
    show (s.buffer.drop d).refCount d' = (s.buffer.drop d).shares d' + s.inHand d'
    omega
  · intro d' hd'
    have hzero : s.buffer.refCount d' = 0 := hB.fresh d' hd'
    have := hrefs d'
    dsimp only
    omega
  · intro t d' ht
    have hone := hB.alone t d' ht
    have hhand := hB.pos_of_inHand (DescriptorAccess.inHand_of_made ht)
    have hcount := hB.refCount d'
    have hne : d ≠ d' := by
      rintro rfl
      rw [BufferDescriptor.shares] at hcount
      omega
    have hd' := hrefs d'
    rw [if_neg hne] at hd'
    exact hd'.trans hone

theorem Balanced.refCount_of_idle (hB : Balanced s) (hidle : ∀ t, s.threads t = .idle) :
    s.buffer.refCount d = s.buffer.shares d := by
  have hnone : s.inHand d = 0 := total_of_zero fun t => by rw [hidle t]; rfl
  rw [hB.refCount d, hnone, Nat.add_zero]

/-- A descriptor that one call has made is in no other hand. -/
theorem Balanced.made_unique (hB : Balanced s) (ht : (s.threads t).made = some d)
    (hu : (s.threads u).inHand = some d) : u = t := by
  have hone := hB.alone t d ht
  rw [hB.refCount d] at hone
  exact eq_of_total_le_one (hB.finite d) (Nat.le_of_add_left_le hone.le) (DescriptorAccess.inHand_of_made ht) hu

variable [DecidableEq T]

theorem inHand_update (hB : Balanced s) (d : Nat) :
    (⟨b', Function.update s.threads t a'⟩ : DescriptorState T).inHand d +
      (if (s.threads t).inHand = some d then 1 else 0) = s.inHand d + if a'.inHand = some d then 1 else 0 :=
  total_update (hB.finite d) t a'

/-- A call goes from `a` to `a'` with the buffer: what it gains or loses is accounted for, and nobody else is
affected. -/
theorem Balanced.move (hB : Balanced s)
    (hrefs : ∀ d, b'.refCount d + s.buffer.shares d + (if (s.threads t).inHand = some d then 1 else 0) =
      s.buffer.refCount d + b'.shares d + if a'.inHand = some d then 1 else 0)
    (hfresh : ∀ d, b'.created ≤ d → b'.refCount d = 0)
    (hself : a'.Placed b'.memoryDescriptor ∧ ∀ d, a'.made = some d → b'.refCount d = 1)
    (hothers : ∀ u, u ≠ t → (s.threads u).Placed b'.memoryDescriptor ∧
      ∀ d, (s.threads u).made = some d → b'.refCount d = 1) :
    Balanced ⟨b', Function.update s.threads t a'⟩ := by
  refine ⟨fun d => (hB.finite d).update t a', ?_, hfresh, ?_, ?_⟩
  · intro d
    have hupd := @inHand_update _ s t a' b' _ hB d
    have hcount := hB.refCount d
    have hd := hrefs d
    show b'.refCount d = b'.shares d + _
    omega
  · intro u d hu
    dsimp only at hu ⊢
    by_cases hut : u = t
    · subst hut
      rw [Function.update_self] at hu
      exact hself.2 d hu
    · rw [Function.update_of_ne hut] at hu
      exact (hothers u hut).2 d hu
  · intro u
    dsimp only
    by_cases hut : u = t
    · subst hut
      rw [Function.update_self]
      exact hself.1
    · rw [Function.update_of_ne hut]
      exact (hothers u hut).1

theorem Balanced.step_access (hB : Balanced s)
    (heff : DescriptorEffect s.buffer t (s.threads t) a' b' e) :
    Balanced ⟨b', Function.update s.threads t a'⟩ := by
  have hplaced := hB.placed t
  have halone := hB.alone t
  have halive := fun d => @Balanced.alive_of_inHand _ s t d hB
  have hunique := fun u d => @Balanced.made_unique _ s t u d hB
  have hmove := @Balanced.move _ s t a' b' _ hB
  generalize s.threads t = a at heff hplaced halone halive hunique hmove
  cases heff with
  | quiet hhand hmade hplace =>
    refine hmove ?_ hB.fresh ⟨hplace hplaced, fun d hd => halone d (hmade d hd)⟩ ?_
    · intro d
      rw [hhand]
    · exact fun u _ => ⟨hB.placed u, hB.alone u⟩
  | @retain depth d =>
    have hd : s.buffer.memoryDescriptor = some d := hplaced.2
    refine hmove ?_ ?_ ⟨hplaced, nofun⟩ ?_
    · intro d'
      rw [BufferDescriptor.refCount_retain]
      simp only [DescriptorAccess.inHand, Option.some.injEq, reduceCtorEq, if_false]
      show _ + s.buffer.shares d' + 0 = _ + s.buffer.shares d' + _
      omega
    · intro d' hd'
      have hzero : s.buffer.refCount d' = 0 := hB.fresh d' hd'
      have hne : d ≠ d' := by
        rintro rfl
        have := hB.alive_of_installed hd
        omega
      rw [BufferDescriptor.refCount_retain, hzero, if_neg hne]
    · refine fun u _ => ⟨hB.placed u, fun d' hd' => ?_⟩
      have hne : d ≠ d' := by
        rintro rfl
        exact (hB.placed u).ne_of_made hd' hd
      rw [BufferDescriptor.refCount_retain, hB.alone u d' hd', if_neg hne]
  | @give depth d =>
    have hd : s.buffer.memoryDescriptor = some d := hplaced.2
    refine hmove ?_ ?_ ⟨trivial, nofun⟩ ?_
    · intro d'
      rw [BufferDescriptor.refCount_give, BufferDescriptor.shares, BufferDescriptor.shares,
        BufferDescriptor.memoryDescriptor_give, BufferDescriptor.references_give, hd]
      simp only [DescriptorAccess.inHand, Option.some.injEq, reduceCtorEq, if_false]
      omega
    · rw [BufferDescriptor.refCount_give, BufferDescriptor.created_give]
      exact hB.fresh
    · rw [BufferDescriptor.refCount_give, BufferDescriptor.memoryDescriptor_give]
      exact fun u _ => ⟨hB.placed u, hB.alone u⟩
  | @create depth =>
    have hzero : s.buffer.refCount s.buffer.created = 0 := hB.fresh _ le_rfl
    have hcount := fun d' => @BufferDescriptor.refCount_withAddress s.buffer d' hzero
    refine hmove ?_ ?_ ⟨⟨hplaced, ?_⟩, ?_⟩ ?_
    · intro d'
      rw [hcount]
      simp only [DescriptorAccess.inHand, Option.some.injEq, reduceCtorEq, if_false]
      show _ + s.buffer.shares d' + 0 = _ + s.buffer.shares d' + _
      omega
    · intro d' hd'
      have hlt : s.buffer.created < d' := hd'
      rw [hcount, hB.fresh d' hlt.le, if_neg hlt.ne]
    · intro hd
      have := hB.alive_of_installed hd
      omega
    · intro d' hd'
      obtain rfl := Option.some.inj hd'
      rw [hcount, hzero, if_pos rfl]
    · refine fun u _ => ⟨hB.placed u, fun d' hd' => ?_⟩
      have hone := hB.alone u d' hd'
      have hne : s.buffer.created ≠ d' := by
        rintro rfl
        omega
      rw [hcount, hone, if_neg hne]
  | fail => exact hmove (fun _ => rfl) hB.fresh ⟨trivial, nofun⟩ fun u _ => ⟨hB.placed u, hB.alone u⟩
  | @install depth d hnone =>
    refine hmove ?_ hB.fresh ⟨.inr ⟨congrArg (· + 1) hplaced.1, nofun⟩, nofun⟩ ?_
    · intro d'
      rw [BufferDescriptor.shares_install hnone]
      simp only [DescriptorAccess.inHand, Option.some.injEq, reduceCtorEq, if_false]
      omega
    · refine fun u hu => ⟨?_, hB.alone u⟩
      have hplace := hB.placed u
      rw [hnone] at hplace
      exact hplace.install fun hmade => hu (hunique u d rfl (DescriptorAccess.inHand_of_made hmade))
  | @release depth d =>
    have hcount := fun d' => @BufferDescriptor.refCount_release s.buffer d d' (halive d rfl)
    refine hmove ?_ ?_ ⟨.inr ⟨congrArg (· + 1) hplaced.1, hplaced.2.1⟩, nofun⟩ ?_
    · intro d'
      have hd' := hcount d'
      simp only [DescriptorAccess.inHand, Option.some.injEq, reduceCtorEq, if_false]
      show _ + s.buffer.shares d' + _ = _ + s.buffer.shares d' + 0
      omega
    · intro d' hd'
      have hzero : s.buffer.refCount d' = 0 := hB.fresh d' hd'
      have := hcount d'
      omega
    · refine fun u hu => ⟨hB.placed u, fun d' hd' => ?_⟩
      have hne : d ≠ d' := by
        rintro rfl
        exact hu (hunique u d rfl (DescriptorAccess.inHand_of_made hd'))
      have hd := hcount d'
      rw [if_neg hne] at hd
      exact hd.trans (hB.alone u d' hd')

/-- A call makes an access, or a caller releases a reference. -/
theorem step_inv (hs : (descriptorMachine T).step s l = some (s', e)) :
    (∃ t a' b', DescriptorEffect s.buffer t (s.threads t) a' b' e ∧
      s' = ⟨b', Function.update s.threads t a'⟩) ∨
    ∃ d, 0 < s.buffer.references d ∧ s' = { s with buffer := s.buffer.drop d } ∧ e = [.dropped d] := by
  cases l with
  | call thread =>
    simp only [descriptorMachine, step] at hs
    split at hs
    · rename_i hidle
      obtain ⟨rfl, rfl⟩ := Prod.mk.inj (Option.some.inj hs)
      refine .inl ⟨thread, .readDescriptor 0, s.buffer, ?_, rfl⟩
      rw [hidle]
      exact .quiet rfl nofun fun _ => .inl rfl
    · cases hs
  | access thread success =>
    obtain ⟨⟨a', b', e'⟩, haccess, heq⟩ := Option.map_eq_some_iff.1 hs
    obtain ⟨rfl, rfl⟩ := Prod.mk.inj heq
    exact .inl ⟨thread, a', b', BufferDescriptor.access_inv haccess, rfl⟩
  | drop d =>
    simp only [descriptorMachine, step] at hs
    split at hs
    · cases hs
    · rename_i hpos
      obtain ⟨rfl, rfl⟩ := Prod.mk.inj (Option.some.inj hs)
      exact .inr ⟨d, Nat.pos_of_ne_zero hpos, rfl, rfl⟩

theorem Balanced.step (hB : Balanced s) (hs : (descriptorMachine T).step s l = some (s', e)) :
    Balanced s' := by
  rcases step_inv hs with ⟨t, a', b', heff, rfl⟩ | ⟨d, hpos, rfl, -⟩
  · exact hB.step_access heff
  · exact hB.step_drop hpos

end DescriptorState

/-! ### What has happened -/

namespace DescriptorEvent
variable {T : Type*}

def installation : DescriptorEvent T → Option Nat
  | installed d => some d
  | _ => none

/-- A call returned the descriptor. -/
def gives (d : Nat) : DescriptorEvent T → Bool
  | returned _ d' => d' == some d
  | _ => false

end DescriptorEvent

namespace DescriptorState
variable {T : Type*} [DecidableEq T] {s s' : DescriptorState T} {t : T} {d : Nat} {l : DescriptorLabel T}
  {as : List (DescriptorLabel T)} {h e : List (DescriptorEvent T)}

/-- What `memoryDescriptor` holds is the only descriptor that was ever installed or returned, and the
references of the callers are those they were given and have not released. -/
structure Recorded (s : DescriptorState T) (h : List (DescriptorEvent T)) : Prop where
  installs : h.filterMap DescriptorEvent.installation = s.buffer.memoryDescriptor.toList
  returns : ∀ t d, .returned t (some d) ∈ h → s.buffer.memoryDescriptor = some d
  references : ∀ d, s.buffer.references d + h.count (.dropped d) = h.countP (DescriptorEvent.gives d)

theorem recorded_start : Recorded (start : DescriptorState T) [] where
  installs := rfl
  returns := by
    intro t d h
    cases h
  references := fun _ => rfl

/-- The events of a step say what became of `memoryDescriptor` and of the references. -/
theorem Recorded.append (hR : Recorded s h)
    (hinstalls : s.buffer.memoryDescriptor.toList ++ e.filterMap DescriptorEvent.installation =
      s'.buffer.memoryDescriptor.toList)
    (hkeeps : ∀ d, s.buffer.memoryDescriptor = some d → s'.buffer.memoryDescriptor = some d)
    (hreturns : ∀ t d, .returned t (some d) ∈ e → s'.buffer.memoryDescriptor = some d)
    (hrefs : ∀ d, s'.buffer.references d + e.count (.dropped d) =
      s.buffer.references d + e.countP (DescriptorEvent.gives d)) : Recorded s' (h ++ e) := by
  refine ⟨?_, ?_, ?_⟩
  · rw [List.filterMap_append, hR.installs, hinstalls]
  · intro t d hmem
    rcases List.mem_append.1 hmem with hmem | hmem
    · exact hkeeps d (hR.returns t d hmem)
    · exact hreturns t d hmem
  · intro d
    have hold := hR.references d
    have hnew := hrefs d
    rw [List.count_append, List.countP_append]
    omega

/-- A step without events. -/
theorem Recorded.quiet (hR : Recorded s h) (hd : s'.buffer.memoryDescriptor = s.buffer.memoryDescriptor)
    (hrefs : s'.buffer.references = s.buffer.references) : Recorded s' (h ++ []) := by
  refine hR.append ?_ ?_ nofun ?_
  · rw [hd, List.filterMap_nil, List.append_nil]
  · exact fun d => hd ▸ id
  · intro d
    rw [hrefs]
    rfl

theorem Recorded.step (hR : Recorded s h) (hs : (descriptorMachine T).step s l = some (s', e)) :
    Recorded s' (h ++ e) := by
  rcases step_inv hs with ⟨t, a', b', heff, rfl⟩ | ⟨d, hpos, rfl, rfl⟩
  · generalize s.threads t = a at heff
    cases heff with
    | quiet _ _ _ => exact hR.quiet rfl rfl
    | retain => exact hR.quiet rfl rfl
    | create => exact hR.quiet rfl rfl
    | release => exact hR.quiet rfl rfl
    | give =>
      have hd : s.buffer.give.memoryDescriptor = s.buffer.memoryDescriptor :=
        BufferDescriptor.memoryDescriptor_give
      refine hR.append ?_ ?_ ?_ ?_
      · rw [hd]
        exact List.append_nil _
      · exact fun d hsome => hd.trans hsome
      · intro u d hmem
        exact hd.trans (DescriptorEvent.returned.inj (List.mem_singleton.1 hmem)).2.symm
      · intro d
        dsimp only
        rw [BufferDescriptor.references_give, List.count_singleton, List.countP_singleton]
        simp [DescriptorEvent.gives]
    | fail =>
      refine hR.append (List.append_nil _) (fun _ hsome => hsome) ?_ fun _ => rfl
      intro u d hmem
      cases (DescriptorEvent.returned.inj (List.mem_singleton.1 hmem)).2
    | @install depth d hnone =>
      refine hR.append ?_ ?_ ?_ fun _ => rfl
      · rw [hnone]
        rfl
      · intro d' hsome
        rw [hnone] at hsome
        cases hsome
      · intro u d' hmem
        cases List.mem_singleton.1 hmem
  · refine hR.append (List.append_nil _) (fun _ hsome => hsome) ?_ ?_
    · intro u d' hmem
      cases List.mem_singleton.1 hmem
    · intro d'
      dsimp only
      rw [List.count_singleton, List.countP_singleton, ← BufferDescriptor.references_drop hpos]
      simp [DescriptorEvent.gives]

theorem Recorded.installed (hR : Recorded s h) (hd : s.buffer.memoryDescriptor = some d) :
    h.filterMap DescriptorEvent.installation = [d] := by
  rw [hR.installs, hd]
  rfl

/-- Of any other descriptor nobody has a reference. -/
theorem Recorded.references_eq_zero (hR : Recorded s h) (hd : s.buffer.memoryDescriptor ≠ some d) :
    s.buffer.references d = 0 := by
  have hnone : h.countP (DescriptorEvent.gives d) = 0 := by
    refine List.countP_eq_zero.2 ?_
    intro ev hmem hgives
    cases ev with
    | returned t d' => exact hd (hR.returns t d (beq_iff_eq.1 hgives ▸ hmem))
    | installed | dropped => cases hgives
  have := hR.references d
  omega

theorem balanced_of_run (hr : (descriptorMachine T).run .start as = some (s, h)) : Balanced s :=
  Machine.run_induction (fun s _ => Balanced s) [] balanced_start (fun _ _ _ _ _ hB _ hs => hB.step hs)
    Machine.along_true hr

theorem recorded_of_run (hr : (descriptorMachine T).run .start as = some (s, h)) : Recorded s h :=
  Machine.run_induction Recorded [] recorded_start (fun _ _ _ _ _ hR _ hs => hR.step hs)
    Machine.along_true hr

/-- In every run at most one descriptor is installed, it stays, and calls return that one or nothing. With no call in
progress its reference count is one more than the references callers have, which are those returned and not
released since; every other descriptor has been released. No call is ever deeper than one call of itself. -/
theorem descriptor_shared (hr : (descriptorMachine T).run .start as = some (s, h)) :
    (h.filterMap DescriptorEvent.installation).length ≤ 1 ∧
      h.filterMap DescriptorEvent.installation = s.buffer.memoryDescriptor.toList ∧
      (∀ t d, .returned t (some d) ∈ h → h.filterMap DescriptorEvent.installation = [d]) ∧
      (∀ d, s.buffer.references d + h.count (.dropped d) = h.countP (DescriptorEvent.gives d)) ∧
      ((∀ t, s.threads t = .idle) → ∀ d,
        (s.buffer.memoryDescriptor = some d → s.buffer.refCount d = 1 + s.buffer.references d) ∧
        (s.buffer.memoryDescriptor ≠ some d → s.buffer.refCount d = 0)) ∧
      ∀ t, (s.threads t).depth ≤ 1 := by
  have hB := balanced_of_run hr
  have hR := recorded_of_run hr
  refine ⟨?_, hR.installs, ?_, hR.references, ?_, fun t => (hB.placed t).depth_le⟩
  · rw [hR.installs]
    cases s.buffer.memoryDescriptor with
    | none => exact Nat.zero_le _
    | some d => exact le_rfl
  · exact fun t d hmem => hR.installed (hR.returns t d hmem)
  · refine fun hidle d => ⟨?_, ?_⟩
    · intro hd
      rw [hB.refCount_of_idle hidle, BufferDescriptor.shares, if_pos hd]
    · intro hd
      rw [hB.refCount_of_idle hidle, BufferDescriptor.shares, if_neg hd, hR.references_eq_zero hd]

/-- Two calls at once: both create a descriptor, and the second one gives its own up. -/
def race : List (DescriptorLabel ℕ) :=
  .call 1 :: .call 2 :: [1, 2, 1, 2, 1, 2, 2, 1, 1, 1, 1, 2, 2, 2, 2].map fun t => .access t true

theorem race_shared : ∃ s h, (descriptorMachine ℕ).run .start race = some (s, h) ∧
    s.buffer.created = 2 ∧ s.buffer.refCount 0 = 3 ∧ s.buffer.refCount 1 = 0 := by
  obtain ⟨s, h, hr, hidle, hcreated, hd, hrefs⟩ : ∃ s h, (descriptorMachine ℕ).run .start race = some (s, h) ∧
      (∀ t, s.threads t = .idle) ∧ s.buffer.created = 2 ∧ s.buffer.memoryDescriptor = some 0 ∧
      s.buffer.references 0 = 2 := by
    refine ⟨_, _, rfl, ?_, rfl, rfl, rfl⟩
    intro t
    by_cases h₁ : t = 1
    · subst h₁
      rfl
    by_cases h₂ : t = 2
    · subst h₂
      rfl
    simp only [Function.update, h₁, h₂, dite_false]
    rfl
  obtain ⟨-, -, -, -, hcounts, -⟩ := descriptor_shared hr
  refine ⟨s, h, hr, hcreated, ?_, ?_⟩
  · rw [(hcounts hidle 0).1 hd, hrefs]
  · exact (hcounts hidle 1).2 (by rw [hd]; decide)

/-! ### Nothing is used that is gone -/

/-- A call in progress can always go on: it never retains through a null pointer. -/
theorem call_enabled {success : Bool} (hr : (descriptorMachine T).run .start as = some (s, h))
    (ht : s.threads t ≠ .idle) : ∃ s' e, (descriptorMachine T).step s (.access t success) = some (s', e) := by
  have hplaced := (balanced_of_run hr).placed t
  have haccess : ∃ r, s.buffer.access t success (s.threads t) = some r := by
    cases hat : s.threads t with
    | idle => exact absurd hat ht
    | readToRetain depth =>
      rw [hat] at hplaced
      obtain ⟨d, hd⟩ := Option.ne_none_iff_exists'.1 hplaced.2
      exact ⟨_, congrArg (Option.map _) hd⟩
    | create depth => cases success <;> exact ⟨_, rfl⟩
    | swap depth d =>
      rw [BufferDescriptor.access]
      split <;> exact ⟨_, rfl⟩
    | _ => exact ⟨_, rfl⟩
  obtain ⟨r, hr⟩ := haccess
  exact ⟨_, _, congrArg (Option.map _) hr⟩

/-- What a call is about to retain is alive. -/
theorem retain_alive {depth : Nat} (hr : (descriptorMachine T).run .start as = some (s, h))
    (ht : s.threads t = .retain depth d) : 0 < s.buffer.refCount d := by
  have hB := balanced_of_run hr
  have hplaced := hB.placed t
  rw [ht] at hplaced
  exact hB.alive_of_installed hplaced.2

/-- When the buffer is freed, which is after all calls, every descriptor is left with the references that
callers still have. -/
theorem free_balanced (hr : (descriptorMachine T).run .start as = some (s, h))
    (hidle : ∀ t, s.threads t = .idle) (d : Nat) : s.buffer.free.refCount d = s.buffer.references d := by
  have hB := balanced_of_run hr
  have hcount := hB.refCount_of_idle hidle (d := d)
  rw [BufferDescriptor.shares] at hcount
  unfold BufferDescriptor.free
  split
  · rename_i hnone
    rw [hnone, if_neg nofun, Nat.zero_add] at hcount
    exact hcount
  · rename_i d' hd
    have hrelease := @BufferDescriptor.refCount_release s.buffer d' d (hB.alive_of_installed hd)
    simp only [hd, Option.some.injEq] at hcount
    omega

end DescriptorState

end NkeFilter
