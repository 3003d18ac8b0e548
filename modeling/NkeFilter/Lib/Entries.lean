import NkeFilter.Lib.Memory

/-!
# Entries with a length word

Byte strings stored one behind the other in a memory, each behind a word with its length. `Entries m lo hi
items` says that the bytes from `lo` to `hi` are exactly those of `items`. Writes outside that range keep it
(`Entries.congr`), and an entry written at its end extends it (`Entries.writeEntry`).
-/

namespace Lib
open Memory

/-- The bytes of an entry and of the word before them. -/
def entrySize (d : List UInt8) : Nat := d.length + 4

/-- An entry with its length word at `off`. -/
structure EntryAt (m : Memory) (off : Nat) (d : List UInt8) : Prop where
  size : m.word off = UInt32.ofNat d.length
  data : m.read (off + 4) d.length = d
  length_lt : d.length < 2 ^ 32

/-- The items stored in order between two offsets. -/
def Entries (m : Memory) : (lo hi : Nat) → List (List UInt8) → Prop
  | lo, hi, [] => lo = hi
  | lo, hi, d :: rest => EntryAt m lo d ∧ Entries m (lo + entrySize d) hi rest

def Memory.writeEntry (m : Memory) (off : Nat) (d : List UInt8) : Memory :=
  (m.setWord off (UInt32.ofNat d.length)).write (off + 4) d

variable {m m' : Memory} {lo hi off : Nat} {d : List UInt8} {items : List (List UInt8)}

theorem entrySize_pos (d : List UInt8) : 0 < entrySize d := Nat.succ_pos _

namespace EntryAt

theorem congr (h : EntryAt m off d) (hm : ∀ p, off ≤ p → p < off + entrySize d → m' p = m p) :
    EntryAt m' off d := by
  unfold entrySize at hm
  refine ⟨(word_congr fun p h₁ h₂ => hm p h₁ (by omega)).trans h.size, ?_, h.length_lt⟩
  exact (read_congr fun p h₁ h₂ => hm p (by omega) (by omega)).trans h.data

theorem toNat_size (h : EntryAt m off d) : (m.word off).toNat = d.length := by
  rw [h.size, UInt32.toNat_ofNat', Nat.mod_eq_of_lt h.length_lt]

end EntryAt

theorem writeEntry_at (hd : d.length < 2 ^ 32) : EntryAt (m.writeEntry off d) off d := by
  refine ⟨?_, read_write_self, hd⟩
  rw [Memory.writeEntry, word_write_of_disjoint (.inl (le_refl _)), word_setWord_self]

theorem writeEntry_apply {p : Nat} (h : p < off ∨ off + entrySize d ≤ p) : m.writeEntry off d p = m p := by
  unfold entrySize at h
  rw [Memory.writeEntry, write_apply_of_outside (by omega), setWord]
  exact write_apply_of_outside (by rw [length_wordBytes]; omega)

namespace Entries

theorem le (h : Entries m lo hi items) : lo ≤ hi := by
  induction items generalizing lo with
  | nil => exact Nat.le_of_eq h
  | cons d rest ih => exact (Nat.le_add_right ..).trans (ih h.2)

theorem eq_nil_iff (h : Entries m lo hi items) : lo = hi ↔ items = [] := by
  cases items with
  | nil => exact ⟨fun _ => rfl, fun _ => h⟩
  | cons d rest =>
    have := h.2.le
    have := entrySize_pos d
    exact ⟨fun heq => by omega, fun heq => by cases heq⟩

theorem congr (h : Entries m lo hi items) (hm : ∀ p, lo ≤ p → p < hi → m' p = m p) :
    Entries m' lo hi items := by
  induction items generalizing lo with
  | nil => exact h
  | cons d rest ih =>
    have hle := h.2.le
    exact ⟨h.1.congr fun p h₁ h₂ => hm p h₁ (by omega), ih h.2 fun p h₁ h₂ => hm p (by omega) h₂⟩

theorem snoc (h : Entries m lo hi items) (hd : EntryAt m hi d) :
    Entries m lo (hi + entrySize d) (items ++ [d]) := by
  induction items generalizing lo with
  | nil =>
    obtain rfl : lo = hi := h
    exact ⟨hd, rfl⟩
  | cons d' rest ih => exact ⟨h.1, ih h.2⟩

theorem writeEntry (h : Entries m lo hi items) (hd : d.length < 2 ^ 32) :
    Entries (m.writeEntry hi d) lo (hi + entrySize d) (items ++ [d]) :=
  (h.congr fun _ _ h₂ => writeEntry_apply (.inl h₂)).snoc (writeEntry_at hd)

theorem writeEntry_of_disjoint (h : Entries m lo hi items) (hoff : hi ≤ off ∨ off + entrySize d ≤ lo) :
    Entries (m.writeEntry off d) lo hi items :=
  h.congr fun _ h₁ h₂ => writeEntry_apply (by omega)

end Entries

end Lib
