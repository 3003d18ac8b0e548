import Mathlib

/-!
# Byte memory

A region of memory is a function from offsets to bytes. `Memory.write` and `Memory.read` move runs
of bytes (`memcpy`), `Memory.setWord` and `Memory.word` a 32-bit word in little-endian order. The
frame lemmas say that a write changes its own range only.
-/

namespace Lib

/-- A region of memory, by byte offset. -/
abbrev Memory := Nat → UInt8

namespace Memory

variable {m : Memory} {off off' n : Nat} {bs cs : List UInt8} {w : UInt32}

def read (m : Memory) (off n : Nat) : List UInt8 := (List.range n).map fun i => m (off + i)

/-- Overwrite the bytes from `off` on with `bs`. -/
def write (m : Memory) (off : Nat) (bs : List UInt8) : Memory :=
  fun p => if off ≤ p then bs.getD (p - off) (m p) else m p

/-- The bytes of a word, lowest first. -/
def wordBytes (w : UInt32) : List UInt8 :=
  [UInt8.ofNat w.toNat, UInt8.ofNat (w.toNat / 256), UInt8.ofNat (w.toNat / 65536),
    UInt8.ofNat (w.toNat / 16777216)]

def word (m : Memory) (off : Nat) : UInt32 :=
  UInt32.ofNat ((m off).toNat + 256 * (m (off + 1)).toNat + 65536 * (m (off + 2)).toNat +
    16777216 * (m (off + 3)).toNat)

def setWord (m : Memory) (off : Nat) (w : UInt32) : Memory := m.write off (wordBytes w)

@[simp] theorem length_read : (m.read off n).length = n := by simp [read]

@[simp] theorem length_wordBytes : (wordBytes w).length = 4 := rfl

theorem write_apply_of_outside {p : Nat} (h : p < off ∨ off + bs.length ≤ p) :
    m.write off bs p = m p := by
  unfold write
  split
  · rw [List.getD_eq_default _ _ (by omega)]
  · rfl

theorem write_apply_of_inside {p : Nat} (h₁ : off ≤ p) (h₂ : p - off < bs.length) :
    m.write off bs p = bs[p - off] := by
  simp [write, h₁, h₂]

theorem read_congr {m' : Memory} (h : ∀ p, off ≤ p → p < off + n → m' p = m p) :
    m'.read off n = m.read off n := by
  simp only [read, List.map_inj_left, List.mem_range]
  intro i hi
  exact h _ (by omega) (by omega)

theorem word_congr {m' : Memory} (h : ∀ p, off ≤ p → p < off + 4 → m' p = m p) :
    m'.word off = m.word off := by
  unfold word
  rw [h off (by omega) (by omega), h (off + 1) (by omega) (by omega),
    h (off + 2) (by omega) (by omega), h (off + 3) (by omega) (by omega)]

theorem take_read (m : Memory) (off n k : Nat) : (m.read off n).take k = m.read off (min k n) := by
  rw [read, ← List.map_take, List.take_range, read]

theorem read_write_self : (m.write off bs).read off bs.length = bs := by
  refine List.ext_getElem (by simp) ?_
  intro i h₁ h₂
  simp only [read, List.getElem_map, List.getElem_range]
  rw [write_apply_of_inside (by omega) (by omega)]
  simp

/-- The front of what was written. -/
theorem read_write_take (h : n ≤ bs.length) : (m.write off bs).read off n = bs.take n := by
  have htake := take_read (m.write off bs) off bs.length n
  rwa [read_write_self, Nat.min_eq_left h, eq_comm] at htake

theorem word_write_of_disjoint (h : off' + 4 ≤ off ∨ off + bs.length ≤ off') :
    (m.write off bs).word off' = m.word off' :=
  word_congr fun p _ _ => write_apply_of_outside (by omega)

theorem word_setWord_self : (m.setWord off w).word off = w := by
  have hw := w.toNat_lt
  have hb (i : Nat) (hi : i < 4) : m.setWord off w (off + i) = (wordBytes w)[i] := by
    rw [setWord, write_apply_of_inside (by omega) (by simp; omega)]
    congr 1
    omega
  unfold word
  rw [show m.setWord off w off = (wordBytes w)[0] from hb 0 (by omega), hb 1 (by omega),
    hb 2 (by omega), hb 3 (by omega)]
  apply UInt32.toNat_inj.1
  simp only [wordBytes, List.getElem_cons_zero, List.getElem_cons_succ, UInt8.toNat_ofNat',
    UInt32.toNat_ofNat']
  omega

theorem word_setWord_of_disjoint (h : off' + 4 ≤ off ∨ off + 4 ≤ off') :
    (m.setWord off w).word off' = m.word off' :=
  word_write_of_disjoint (by simpa using h)

end Memory

end Lib
