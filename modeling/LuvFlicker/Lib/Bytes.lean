import Mathlib.Tactic

/-!
# Fields of byte strings

Numbers as little-endian bytes, and the field of a byte string at a given offset
and width, as a struct overlay reads it; the same for network byte order; and
strings that are cut into records of one size.
-/

namespace LuvFlicker.Bytes

open List

def ascii (text : String) : List UInt8 := text.toList.map fun c => UInt8.ofNat c.toNat

def toBytes : Nat → Nat → List UInt8
  | 0, _ => []
  | width + 1, x => UInt8.ofNat x :: toBytes width (x / 256)

def ofBytes : List UInt8 → Nat
  | [] => 0
  | byte :: rest => byte.toNat + 256 * ofBytes rest

variable (width x : Nat)

@[simp]
theorem length_toBytes : (toBytes width x).length = width := by
  induction width generalizing x with
  | zero => rfl
  | succ width ih => rw [toBytes, length_cons, ih]

theorem ofBytes_toBytes : ofBytes (toBytes width x) = x % 256 ^ width := by
  induction width generalizing x with
  | zero => rw [toBytes, ofBytes, pow_zero, Nat.mod_one]
  | succ width ih =>
    have hByte : (UInt8.ofNat x).toNat = x % 256 := by simp
    rw [toBytes, ofBytes, ih, hByte, pow_succ, mul_comm _ 256, Nat.mod_mul]

variable (bytes : List UInt8)

theorem toBytes_ofBytes : toBytes bytes.length (ofBytes bytes) = bytes := by
  induction bytes with
  | nil => rfl
  | cons byte rest ih =>
    have hByte := byte.toNat_lt
    have hLow : UInt8.ofNat (byte.toNat + 256 * ofBytes rest) = byte := by
      apply UInt8.toNat_inj.mp
      rw [UInt8.toNat_ofNat']
      omega
    have hHigh : (byte.toNat + 256 * ofBytes rest) / 256 = ofBytes rest := by omega
    rw [ofBytes, length_cons, toBytes, hLow, hHigh, ih]

def field (offset width : Nat) : Nat := ofBytes ((bytes.drop offset).take width)

theorem field_skip (front rest : List UInt8) {offset width : Nat} (h : front.length ≤ offset) :
    field (front ++ rest) offset width = field rest (offset - front.length) width := by
  rw [field, field, drop_append, drop_eq_nil_of_le h, nil_append]

theorem field_toBytes (rest : List UInt8) : field (toBytes width x ++ rest) 0 width = x % 256 ^ width := by
  rw [field, drop_zero, take_append_of_le_length (by simp), take_of_length_le (by simp), ofBytes_toBytes]

/-! ## Fixed-width numbers -/

theorem ofNat_uint8 (x : UInt8) : UInt8.ofNat (x.toNat % 256 ^ 1) = x := by
  rw [Nat.mod_eq_of_lt (by exact x.toNat_lt), UInt8.ofNat_toNat]

theorem ofNat_uint16 (x : UInt16) : UInt16.ofNat (x.toNat % 256 ^ 2) = x := by
  rw [Nat.mod_eq_of_lt (by exact x.toNat_lt), UInt16.ofNat_toNat]

theorem ofNat_uint32 (x : UInt32) : UInt32.ofNat (x.toNat % 256 ^ 4) = x := by
  rw [Nat.mod_eq_of_lt (by exact x.toNat_lt), UInt32.ofNat_toNat]

theorem ofNat_uint64 (x : UInt64) : UInt64.ofNat (x.toNat % 256 ^ 8) = x := by
  rw [Nat.mod_eq_of_lt (by exact x.toNat_lt), UInt64.ofNat_toNat]

theorem ofNat_bitVec {w width : Nat} (h : 2 ^ w ≤ 256 ^ width) (x : BitVec w) :
    BitVec.ofNat w (x.toNat % 256 ^ width) = x := by
  rw [Nat.mod_eq_of_lt (lt_of_lt_of_le x.isLt h), BitVec.ofNat_toNat, BitVec.setWidth_eq]

/-! ## Network byte order -/

def byteAt (offset : Nat) : UInt8 := bytes.getD offset 0

def beField (offset width : Nat) : Nat := ofBytes ((bytes.drop offset).take width).reverse

def toBytesBe : List UInt8 := (toBytes width x).reverse

theorem ofBytes_lt : ofBytes bytes < 256 ^ bytes.length := by
  induction bytes with
  | nil => exact Nat.one_pos
  | cons byte rest ih =>
    have hByte := byte.toNat_lt
    rw [ofBytes, length_cons]
    omega

theorem beField_lt {offset width : Nat} : beField bytes offset width < 256 ^ width := by
  refine lt_of_lt_of_le (ofBytes_lt _) (Nat.pow_le_pow_right (by decide) ?_)
  rw [length_reverse, length_take]
  exact min_le_left ..

@[simp]
theorem length_toBytesBe : (toBytesBe width x).length = width := by
  rw [toBytesBe, length_reverse, length_toBytes]

theorem beField_skip (front rest : List UInt8) (width : Nat) :
    beField (front ++ rest) front.length width = beField rest 0 width := by
  rw [beField, beField, drop_left, drop_zero]

theorem beField_toBytesBe (rest : List UInt8) : beField (toBytesBe width x ++ rest) 0 width = x % 256 ^ width := by
  rw [beField, drop_zero, take_append_of_le_length (by simp), take_of_length_le (by simp), toBytesBe,
    reverse_reverse, ofBytes_toBytes]

theorem toBytesBe_beField {bytes : List UInt8} {offset width : Nat} (h : offset + width ≤ bytes.length) :
    toBytesBe width (beField bytes offset width) = (bytes.drop offset).take width := by
  have hLength : ((bytes.drop offset).take width).reverse.length = width := by
    rw [length_reverse, length_take, length_drop]
    omega
  have hBytes := toBytes_ofBytes ((bytes.drop offset).take width).reverse
  rw [hLength] at hBytes
  rw [toBytesBe, beField, hBytes, reverse_reverse]

/-! ## Length-prefixed messages -/

def framed (messages : List (List UInt8)) : List UInt8 := messages.flatMap fun raw => toBytesBe 2 raw.length ++ raw

def framedOffset (messages : List (List UInt8)) (i : Nat) : Nat := (framed (messages.take i)).length

variable {messages : List (List UInt8)} {i : Nat}

theorem framed_cons (raw : List UInt8) (messages : List (List UInt8)) :
    framed (raw :: messages) = toBytesBe 2 raw.length ++ (raw ++ framed messages) := by
  rw [framed, flatMap_cons, append_assoc, framed]

theorem framed_append (front back : List (List UInt8)) : framed (front ++ back) = framed front ++ framed back :=
  flatMap_append

section

variable (h : i < messages.length)

theorem framed_split : framed messages = framed (messages.take i) ++ (toBytesBe 2 (messages.get ⟨i, h⟩).length ++
      (messages.get ⟨i, h⟩ ++ framed (messages.drop (i + 1)))) := by
  rw [← framed_cons, ← framed_append, get_eq_getElem, ← drop_eq_getElem_cons h, take_append_drop]

theorem framedOffset_succ :
    framedOffset messages (i + 1) = framedOffset messages i + 2 + (messages.get ⟨i, h⟩).length := by
  have hLast : framed [messages.get ⟨i, h⟩] = toBytesBe 2 (messages.get ⟨i, h⟩).length ++ messages.get ⟨i, h⟩ := by
    rw [framed_cons, framed, flatMap_nil, append_nil]
  rw [framedOffset, take_succ_eq_append_getElem h, framed_append, ← get_eq_getElem (i := ⟨i, h⟩), hLast,
    length_append, length_append, length_toBytesBe, framedOffset, add_assoc]

theorem framedOffset_length : framedOffset messages messages.length = (framed messages).length := by
  rw [framedOffset, take_length]

theorem framed_reads (hLength : (messages.get ⟨i, h⟩).length < 256 ^ 2) :
    beField (framed messages) (framedOffset messages i) 2 = (messages.get ⟨i, h⟩).length ∧
    ((framed messages).drop (framedOffset messages i + 2)).take (messages.get ⟨i, h⟩).length = messages.get ⟨i, h⟩ ∧
    framedOffset messages i + 2 + (messages.get ⟨i, h⟩).length ≤ (framed messages).length := by
  have hSplit := framed_split h
  refine ⟨?_, ?_, ?_⟩
  · rw [hSplit, framedOffset, beField_skip, beField_toBytesBe, Nat.mod_eq_of_lt hLength]
  · rw [hSplit, framedOffset, ← drop_drop, drop_left, drop_left' (length_toBytesBe 2 _), take_left]
  · rw [hSplit, framedOffset]
    simp only [length_append, length_toBytesBe]
    omega

end

/-! ## Records of one size -/

section Chunks

variable {size index : Nat} {file chunk : List UInt8}

theorem chunk_append {rest : List UInt8} (h : index < file.length / size) :
    ((file ++ rest).drop (size * index)).take size = (file.drop (size * index)).take size := by
  have hEnd := (Nat.mul_le_mul_left size (Nat.succ_le_of_lt h)).trans (Nat.mul_div_le ..)
  rw [Nat.mul_succ] at hEnd
  rw [drop_append, take_append_of_le_length]
  rw [length_drop]
  omega

theorem chunk_last (hWhole : file.length % size = 0) (hChunk : chunk.length = size) :
    ((file ++ chunk).drop (size * (file.length / size))).take size = chunk := by
  have hLength := Nat.mul_div_cancel' (Nat.dvd_of_mod_eq_zero hWhole)
  rw [hLength, drop_left, take_of_length_le hChunk.le]

theorem length_div_append (hPos : 0 < size) (hChunk : chunk.length = size) :
    (file ++ chunk).length / size = file.length / size + 1 := by
  rw [length_append, hChunk, Nat.add_div_right _ hPos]

theorem map_chunk_append {α : Type} (read : List UInt8 → α) (hPos : 0 < size) (hWhole : file.length % size = 0)
    (hChunk : chunk.length = size) :
    (List.range ((file ++ chunk).length / size)).map
        (fun index => read (((file ++ chunk).drop (size * index)).take size)) =
      (List.range (file.length / size)).map (fun index => read ((file.drop (size * index)).take size)) ++
        [read chunk] := by
  rw [length_div_append hPos hChunk, range_succ, map_append, map_singleton, chunk_last hWhole hChunk]
  congr 1
  exact map_congr_left fun index hIndex => congrArg read (chunk_append (mem_range.mp hIndex))

end Chunks

theorem foldl_or_eq_zero_iff {ι : Type} (f : ι → UInt8) (cells : List ι) (start : UInt8) :
    cells.foldl (fun found i => found ||| f i) start = 0 ↔ start = 0 ∧ ∀ i ∈ cells, f i = 0 := by
  induction cells generalizing start with
  | nil => exact ⟨fun h => ⟨h, fun _ hMem => absurd hMem not_mem_nil⟩, fun h => h.1⟩
  | cons i cells ih => rw [foldl_cons, ih, UInt8.or_eq_zero_iff, and_assoc, forall_mem_cons]

end LuvFlicker.Bytes
