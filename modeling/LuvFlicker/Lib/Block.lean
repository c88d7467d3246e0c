import Mathlib.Tactic

/-!
# Blocks of an array

An array is seen as a function of the index. `slice` reads a block, `memcpy`
writes one and `memmove` moves one.
-/

namespace LuvFlicker.Block

open Function List

universe u

variable {α : Type u} (f : Nat → α)

/-- Copies the `n` elements from `src` on to `dst` on; the ranges may overlap. -/
def memmove (dst src n : Nat) : Nat → α :=
  fun i => if dst ≤ i ∧ i < dst + n then f (src + (i - dst)) else f i

variable {dst n i pos start : Nat} {src : Nat}

theorem memmove_of_lt (h : i < dst) : memmove f dst src n i = f i := if_neg (by omega)

theorem memmove_of_mem (h : dst ≤ i) (h' : i < dst + n) : memmove f dst src n i = f (src + (i - dst)) :=
  if_pos ⟨h, h'⟩

/-- The array with a new element at `pos`, the elements from `pos` to `count` moved up by one. -/
def openGap (pos count : Nat) (x : α) : Nat → α := update (memmove f (pos + 1) pos (count - pos)) pos x

theorem openGap_of_lt {count : Nat} (x : α) (h : i < pos) : openGap f pos count x i = f i := by
  rw [openGap, update_of_ne (by omega), memmove_of_lt f (by omega)]

theorem openGap_self (pos count : Nat) (x : α) : openGap f pos count x pos = x := update_self ..

theorem openGap_succ {count : Nat} (x : α) (h : pos ≤ i) (h' : i < count) : openGap f pos count x (i + 1) = f i := by
  rw [openGap, update_of_ne (by omega), memmove_of_mem f (by omega) (by omega)]
  congr 1
  omega

/-- The array with the element at `pos` dropped, the later ones moved down by one. -/
def closeGap (pos last : Nat) : Nat → α := memmove f pos (pos + 1) (last - pos)

theorem closeGap_of_lt {last : Nat} (h : i < pos) : closeGap f pos last i = f i := memmove_of_lt f h

theorem closeGap_of_le {last : Nat} (h : pos ≤ i) (h' : i < last) : closeGap f pos last i = f (i + 1) := by
  rw [closeGap, memmove_of_mem f h (by omega)]
  congr 1
  omega

/-! ## Reading and writing a block -/

def slice (start n : Nat) : List α := (List.range n).map fun k => f (start + k)

@[simp]
theorem length_slice (start n : Nat) : (slice f start n).length = n := by
  rw [slice, length_map, length_range]

@[simp]
theorem slice_zero (start : Nat) : slice f start 0 = [] := rfl

theorem getElem?_slice (start n k : Nat) : (slice f start n)[k]? = if k < n then some (f (start + k)) else none := by
  rw [slice, getElem?_map]
  split
  · rw [getElem?_range ‹_›, Option.map_some]
  · rw [getElem?_eq_none (by rw [length_range]; omega), Option.map_none]

theorem slice_congr {f g : Nat → α} {start' : Nat} (h : ∀ k < n, f (start + k) = g (start' + k)) :
    slice f start n = slice g start' n :=
  map_congr_left fun k hk => h k (mem_range.mp hk)

theorem slice_add (start m n : Nat) : slice f start (m + n) = slice f start m ++ slice f (start + m) n := by
  rw [slice, range_add, map_append, map_map]
  congr 1
  exact map_congr_left fun k _ => by rw [Function.comp_apply, add_assoc]

theorem take_slice {m : Nat} (h : m ≤ n) : (slice f start n).take m = slice f start m := by
  obtain ⟨k, rfl⟩ := Nat.exists_eq_add_of_le h
  rw [slice_add, take_left' (length_slice ..)]

theorem drop_slice (start m n : Nat) : (slice f start n).drop m = slice f (start + m) (n - m) := by
  rcases le_total m n with h | h
  · obtain ⟨k, rfl⟩ := Nat.exists_eq_add_of_le h
    rw [slice_add, drop_left' (length_slice ..), Nat.add_sub_cancel_left]
  · rw [drop_eq_nil_of_le (by rwa [length_slice]), Nat.sub_eq_zero_of_le h, slice_zero]

theorem slice_memmove (dst src n : Nat) : slice (memmove f dst src n) dst n = slice f src n :=
  slice_congr fun k hk => by rw [memmove_of_mem f (by omega) (by omega), Nat.add_sub_cancel_left]

def memcpy (dst : Nat) (xs : List α) : Nat → α :=
  fun i => if dst ≤ i then xs[i - dst]?.getD (f i) else f i

theorem slice_memcpy (dst : Nat) (xs : List α) : slice (memcpy f dst xs) dst xs.length = xs := by
  apply ext_getElem?
  intro k
  rw [getElem?_slice]
  split
  next hk =>
    rw [memcpy, if_pos (Nat.le_add_right ..), Nat.add_sub_cancel_left, getElem?_eq_getElem hk, Option.getD_some]
  · rw [getElem?_eq_none (by omega)]

theorem slice_memcpy_of_le (xs : List α) (h : start + n ≤ dst) : slice (memcpy f dst xs) start n = slice f start n :=
  slice_congr fun k hk => if_neg (by omega)

theorem slice_memcpy_of_ge (n : Nat) (xs : List α) (h : dst + xs.length ≤ start) :
    slice (memcpy f dst xs) start n = slice f start n := by
  refine slice_congr fun k _ => ?_
  rw [memcpy, if_pos (by omega), getElem?_eq_none (by omega), Option.getD_none]

theorem slice_memcpy_append (n : Nat) (xs : List α) : slice (memcpy f n xs) 0 (n + xs.length) = slice f 0 n ++ xs := by
  rw [slice_add, slice_memcpy_of_le f xs (by omega), zero_add, slice_memcpy]

end LuvFlicker.Block
