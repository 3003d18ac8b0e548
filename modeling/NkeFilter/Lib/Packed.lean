import NkeFilter.Lib.Memory

/-!
# Packed layouts

How the values of a type lie in memory without gaps: a fixed number of bytes for each, and every run of that
many bytes read back as some value. Layouts are put together as a C compiler does it for packed structures
(`Packed.prod`), arrays (`Packed.array`) and trailing bytes that carry nothing (`Packed.pad`); the same way it
follows which bytes a value depends on (`Packed.Tells`).
-/

namespace Lib

/-- The layout of a type: `load` looks at no byte outside the value (`load_congr`) and undoes `store`. -/
structure Packed (α : Type*) where
  size : Nat
  store : α → List UInt8
  load : Memory → (off : Nat) → α
  length_store : ∀ a, (store a).length = size
  load_congr : ∀ {m m' : Memory} {off : Nat}, (∀ p, off ≤ p → p < off + size → m' p = m p) →
    load m' off = load m off
  load_of_read : ∀ {m : Memory} {off : Nat} {a : α}, m.read off size = store a → load m off = a

namespace Packed

variable {α β : Type*} {m : Memory} {off : Nat}

theorem read_append {n k : Nat} {bs cs : List UInt8} (hn : bs.length = n) (h : m.read off (n + k) = bs ++ cs) :
    m.read off n = bs ∧ m.read (off + n) k = cs := by
  have hsplit : m.read off (n + k) = m.read off n ++ m.read (off + n) k := by
    simp only [Memory.read, List.range_add, List.map_append, List.map_map]
    congr 2
    funext i
    simp [Nat.add_assoc]
  exact List.append_inj (hsplit.symm.trans h) (by simp [hn])

/-- A value that was written is read back. -/
theorem load_write (c : Packed α) (m : Memory) (off : Nat) (a : α) : c.load (m.write off (c.store a)) off = a := by
  refine c.load_of_read ?_
  rw [← c.length_store a]
  exact Memory.read_write_self

def byte : Packed UInt8 where
  size := 1
  store b := [b]
  load m off := m off
  length_store _ := rfl
  load_congr h := h _ (Nat.le_refl _) (Nat.lt_succ_self _)
  load_of_read {m off a} h := by
    have h : [m (off + 0)] = [a] := h
    exact List.head_eq_of_cons_eq h

theorem word_of_read {w : UInt32} (h : m.read off 4 = Memory.wordBytes w) : m.word off = w := by
  have hself : (m.setWord off w).word off = w := Memory.word_setWord_self
  rw [← hself]
  refine Memory.word_congr fun p h₁ h₂ => ?_
  -- the bytes there are already those of the word
  have hp : (Memory.wordBytes w)[p - off]? = some (m p) := by
    rw [← h, Memory.read, List.getElem?_map, List.getElem?_range (by omega), Option.map_some]
    rw [show off + (p - off) = p by omega]
  rw [Memory.setWord, Memory.write_apply_of_inside h₁ (by rw [Memory.length_wordBytes]; omega)]
  exact (List.getElem?_eq_some_iff.1 hp).2.symm

/-- A 32-bit word, lowest byte first. -/
def word : Packed UInt32 where
  size := 4
  store := Memory.wordBytes
  load := Memory.word
  length_store _ := Memory.length_wordBytes
  load_congr := Memory.word_congr
  load_of_read := word_of_read

/-- Bytes that carry nothing, stored as zeros. -/
def pad (n : Nat) : Packed Unit where
  size := n
  store _ := List.replicate n 0
  load _ _ := ()
  length_store _ := List.length_replicate
  load_congr _ := rfl
  load_of_read _ := rfl

/-- One value behind the other. -/
def prod (c : Packed α) (d : Packed β) : Packed (α × β) where
  size := c.size + d.size
  store a := c.store a.1 ++ d.store a.2
  load m off := (c.load m off, d.load m (off + c.size))
  length_store a := by rw [List.length_append, c.length_store, d.length_store]
  load_congr h := Prod.ext (c.load_congr fun p h₁ h₂ => h p h₁ (by omega))
    (d.load_congr fun p h₁ h₂ => h p (by omega) (by omega))
  load_of_read h := by
    obtain ⟨hc, hd⟩ := read_append (c.length_store _) h
    exact Prod.ext (c.load_of_read hc) (d.load_of_read hd)

/-- The layout of a type whose values are told from those of another. -/
def map (c : Packed β) (f : α → β) (g : β → α) (hgf : ∀ a, g (f a) = a) : Packed α where
  size := c.size
  store a := c.store (f a)
  load m off := g (c.load m off)
  length_store a := c.length_store (f a)
  load_congr h := congrArg g (c.load_congr h)
  load_of_read h := (congrArg g (c.load_of_read h)).trans (hgf _)

/-- `n` values, one behind the other. -/
def array (c : Packed α) : (n : Nat) → Packed (Fin n → α)
  | 0 => (pad 0).map (fun _ => ()) (fun _ => Fin.elim0) fun _ => funext fun i => i.elim0
  | n + 1 => (c.prod (c.array n)).map (fun a => (a 0, fun i => a i.succ)) (fun a => @Fin.cons n (fun _ => α) a.1 a.2)
      fun a => Fin.cons_self_tail a

@[simp] theorem size_byte : byte.size = 1 := rfl

@[simp] theorem size_word : word.size = 4 := rfl

@[simp] theorem size_pad (n : Nat) : (pad n).size = n := rfl

@[simp] theorem size_prod (c : Packed α) (d : Packed β) : (c.prod d).size = c.size + d.size := rfl

@[simp] theorem size_map (c : Packed β) (f : α → β) (g : β → α) (hgf : ∀ a, g (f a) = a) :
    (c.map f g hgf).size = c.size := rfl

@[simp] theorem size_array (c : Packed α) (n : Nat) : (c.array n).size = n * c.size := by
  induction n with
  | zero => exact (Nat.zero_mul _).symm
  | succ n ih =>
    have hsucc : (c.array (n + 1)).size = c.size + (c.array n).size := rfl
    rw [hsucc, ih, Nat.succ_mul, Nat.add_comm]

/-- A 64-bit word: its low half, then its high half. -/
def word64 : Packed UInt64 :=
  (word.prod word).map (fun w => (UInt32.ofNat w.toNat, UInt32.ofNat (w.toNat / 2 ^ 32)))
    (fun p => UInt64.ofNat (p.1.toNat + 2 ^ 32 * p.2.toNat)) fun w => by
      have hw := w.toNat_lt
      apply UInt64.toNat_inj.1
      simp only [UInt32.toNat_ofNat', UInt64.toNat_ofNat']
      omega

@[simp] theorem size_word64 : word64.size = 8 := rfl

/-! ### Which bytes matter -/

/-- Two values are the same exactly when the bytes at the offsets in `data` are: the other bytes carry
nothing. -/
def Tells (c : Packed α) (data : Nat → Prop) : Prop :=
  ∀ (m m' : Memory) (off off' : Nat),
    c.load m off = c.load m' off' ↔ ∀ p < c.size, data p → m (off + p) = m' (off' + p)

variable {c : Packed α} {d : Packed β} {data data' : Nat → Prop}

theorem Tells.congr (hc : c.Tells data) (h : ∀ p < c.size, data p ↔ data' p) : c.Tells data' :=
  fun m m' off off' => (hc m m' off off').trans <| forall₂_congr fun p hp => by rw [h p hp]

theorem tells_byte : byte.Tells fun _ => True := by
  intro m m' off off'
  constructor
  · intro h p hp _
    obtain rfl : p = 0 := Nat.lt_one_iff.1 hp
    exact h
  · exact fun h => h 0 (Nat.lt_succ_self 0) trivial

theorem tells_pad (n : Nat) : (pad n).Tells fun _ => False :=
  fun _ _ _ _ => ⟨fun _ _ _ h => h.elim, fun _ => rfl⟩

/-- A word is told by its four bytes. -/
theorem tells_word : word.Tells fun _ => True := by
  intro m m' off off'
  constructor
  · intro h p hp _
    have hsum := congrArg UInt32.toNat (show m.word off = m'.word off' from h)
    simp only [Memory.word, UInt32.toNat_ofNat'] at hsum
    have h0 := (m off).toNat_lt
    have h0' := (m' off').toNat_lt
    have h1 := (m (off + 1)).toNat_lt
    have h1' := (m' (off' + 1)).toNat_lt
    have h2 := (m (off + 2)).toNat_lt
    have h2' := (m' (off' + 2)).toNat_lt
    have h3 := (m (off + 3)).toNat_lt
    have h3' := (m' (off' + 3)).toNat_lt
    obtain rfl | rfl | rfl | rfl : p = 0 ∨ p = 1 ∨ p = 2 ∨ p = 3 := by
      simp only [size_word] at hp
      omega
    · exact UInt8.toNat_inj.1 (show (m off).toNat = (m' off').toNat by omega)
    all_goals exact UInt8.toNat_inj.1 (by omega)
  · intro h
    have hb (q : Nat) (hq : q < 4) : m (off + q) = m' (off' + q) := h q hq trivial
    have h0 := hb 0 (by omega)
    simp only [Nat.add_zero] at h0
    show m.word off = m'.word off'
    rw [Memory.word, Memory.word, h0, hb 1 (by omega), hb 2 (by omega), hb 3 (by omega)]

theorem Tells.prod (hc : c.Tells data) (hd : d.Tells data') :
    (c.prod d).Tells fun p => if p < c.size then data p else data' (p - c.size) := by
  intro m m' off off'
  have hpair : (c.prod d).load m off = (c.prod d).load m' off' ↔
      c.load m off = c.load m' off' ∧ d.load m (off + c.size) = d.load m' (off' + c.size) := Prod.ext_iff
  rw [hpair, hc, hd]
  constructor
  · rintro ⟨hfirst, hsecond⟩ p hp hdata
    split at hdata
    · rename_i hlt
      exact hfirst p hlt hdata
    · rename_i hge
      have hq := hsecond (p - c.size) (by simp only [size_prod] at hp; omega) hdata
      rwa [Nat.add_assoc, Nat.add_assoc, Nat.add_sub_cancel' (by omega)] at hq
  · intro h
    constructor
    · intro p hp hdata
      refine h p (by simp only [size_prod]; omega) ?_
      simpa only [if_pos hp] using hdata
    · intro p hp hdata
      rw [Nat.add_assoc, Nat.add_assoc]
      refine h (c.size + p) (by simp only [size_prod]; omega) ?_
      simpa only [if_neg (Nat.not_lt.2 (Nat.le_add_right c.size p)), Nat.add_sub_cancel_left] using hdata

theorem Tells.map {f : α → β} {g : β → α} {hgf : ∀ a, g (f a) = a} {c : Packed β} (hc : c.Tells data)
    (hg : Function.Injective g) : (c.map f g hgf).Tells data :=
  fun m m' off off' => hg.eq_iff.trans (hc m m' off off')

theorem Tells.array (hc : c.Tells data) (n : Nat) : (c.array n).Tells fun p => data (p % c.size) := by
  induction n with
  | zero =>
    have hsize : (c.array 0).size = 0 := by rw [size_array, Nat.zero_mul]
    exact fun m m' off off' => ⟨fun _ p hp => absurd hp (by rw [hsize]; exact Nat.not_lt_zero p),
      fun _ => funext fun i => i.elim0⟩
  | succ n ih =>
    have hcons : Function.Injective fun a : α × (Fin n → α) => @Fin.cons n (fun _ => α) a.1 a.2 := by
      rintro ⟨a, as⟩ ⟨b, bs⟩ h
      exact Prod.ext_iff.2 (Fin.cons_injective2 h)
    refine ((hc.prod ih).map hcons).congr fun p _ => ?_
    split
    · rename_i hlt
      rw [Nat.mod_eq_of_lt hlt]
    · rename_i hge
      rw [Nat.mod_eq_sub_mod (Nat.not_lt.1 hge)]

theorem tells_word64 : word64.Tells fun _ => True := by
  refine ((tells_word.prod tells_word).map ?_).congr fun _ _ => by rw [ite_self]
  rintro ⟨lo, hi⟩ ⟨lo', hi'⟩ h
  have hsum := congrArg UInt64.toNat h
  have := lo.toNat_lt
  have := hi.toNat_lt
  have := lo'.toNat_lt
  have := hi'.toNat_lt
  simp only [UInt64.toNat_ofNat'] at hsum
  exact Prod.ext (UInt32.toNat_inj.1 (by simp only; omega)) (UInt32.toNat_inj.1 (by simp only; omega))

end Packed

end Lib
