import LuvFlicker.Lib.Block
import LuvFlicker.Lib.Bytes
import LuvFlicker.Lib.Run
import LuvFlicker.Lib.Scan
import LuvFlicker.Lib.Text

/-!
# The store of bearer keys

Keys stand in cells of a fixed width, filled up with zero bytes.
-/

namespace LuvFlicker.Http

open Block Bytes Run Scan Text Function List UInt8

def kMaxBearerTokenBytes : Nat := 64

def kMaxApiKeys : Nat := 32

structure Key where
  length : UInt8 := 0
  value : Nat → UInt8 := fun _ => 0

structure BearerKeyStore where
  keys : Nat → Key := fun _ => {}

namespace BearerKeyStore

def add (token : List UInt8) (store : BearerKeyStore) : Bool × BearerKeyStore :=
  let length := min (cstr token).length kMaxBearerTokenBytes
  if length = 0 ∨ length ≥ kMaxBearerTokenBytes then (false, store)
  else
    match firstIndex (fun k => (store.keys k).length = 0) kMaxApiKeys with
    | none => (false, store)
    | some k =>
      let key : Key := ⟨.ofNat length, memcpy (store.keys k).value 0 ((cstr token).take length)⟩
      (true, { store with keys := update store.keys k key })

def diff (key : Key) (token : List UInt8) : UInt8 :=
  (List.range kMaxBearerTokenBytes).foldl (fun diff i => diff ||| (key.value i ^^^ token[i]?.getD 0))
    (key.length ^^^ .ofNat token.length)

def validate (store : BearerKeyStore) (token : List UInt8) : Bool :=
  if token.length = 0 ∨ token.length ≥ kMaxBearerTokenBytes then false
  else
    (List.range kMaxApiKeys).foldl (fun found k =>
      found ||| if diff (store.keys k) token = 0 ∧ (store.keys k).length ≠ 0 then (1 : UInt8) else 0) 0 ≠ 0

def stored (tokens : List (List UInt8)) : List (List UInt8) :=
  history add (fun token _ ok keys => if ok then cstr token :: keys else keys) tokens {} []

/-! ## What is accepted -/

def cellOf (key : List UInt8) : Key := ⟨.ofNat key.length, memcpy (fun _ => 0) 0 key⟩

def Storable (key : List UInt8) : Prop := key ≠ [] ∧ key.length < kMaxBearerTokenBytes

theorem ofNat_length_inj {m n : Nat} (hm : m < kMaxBearerTokenBytes) (hn : n < kMaxBearerTokenBytes)
    (h : UInt8.ofNat m = UInt8.ofNat n) : m = n := by
  have hNat := congrArg UInt8.toNat h
  change m < 64 at hm
  change n < 64 at hn
  rw [toNat_ofNat', toNat_ofNat'] at hNat
  omega

theorem value_cellOf (key : List UInt8) (i : Nat) : (cellOf key).value i = key[i]?.getD 0 := by
  change memcpy (fun _ => 0) 0 key i = _
  rw [memcpy, if_pos (Nat.zero_le i), Nat.sub_zero]

theorem diff_cellOf_eq_zero_iff {key token : List UInt8} (hKey : key.length < kMaxBearerTokenBytes)
    (hToken : token.length < kMaxBearerTokenBytes) : diff (cellOf key) token = 0 ↔ token = key := by
  rw [diff, foldl_or_eq_zero_iff, xor_eq_zero_iff]
  constructor
  · rintro ⟨hLength, hCells⟩
    have hLength := ofNat_length_inj hKey hToken hLength
    apply ext_getElem hLength.symm
    intro i hi hi'
    have hCell := hCells i (mem_range.mpr (lt_trans hi hToken))
    rw [value_cellOf, xor_eq_zero_iff, getElem?_eq_getElem hi, getElem?_eq_getElem hi'] at hCell
    exact hCell.symm
  · rintro rfl
    refine ⟨rfl, fun i _ => ?_⟩
    rw [value_cellOf, UInt8.xor_self]

structure Holds (store : BearerKeyStore) (keys : List (List UInt8)) : Prop where
  storable : ∀ key ∈ keys, Storable key
  cells : ∀ k, store.keys k = {} ∨ ∃ key ∈ keys, store.keys k = cellOf key
  kept : ∀ key ∈ keys, ∃ k < kMaxApiKeys, store.keys k = cellOf key

variable {store : BearerKeyStore} {keys : List (List UInt8)} {key : List UInt8}

theorem Storable.length_ne_zero (h : Storable key) : (cellOf key).length ≠ 0 := by
  intro hZero
  have hNil := ofNat_length_inj h.2 (by decide : 0 < kMaxBearerTokenBytes) hZero
  exact h.1 (length_eq_zero_iff.mp hNil)

section

variable (h : Holds store keys)
include h

theorem Holds.free {k : Nat} (hFree : (store.keys k).length = 0) : store.keys k = {} := by
  rcases h.cells k with hEmpty | ⟨key, hMem, hCell⟩
  · exact hEmpty
  · rw [hCell] at hFree
    exact absurd hFree (h.storable key hMem).length_ne_zero

theorem Holds.place {k : Nat} (hk : k < kMaxApiKeys) (hFree : store.keys k = {}) (hKey : Storable key) :
    Holds { store with keys := update store.keys k (cellOf key) } (key :: keys) where
  storable := forall_mem_cons.mpr ⟨hKey, h.storable⟩
  cells j := by
    dsimp only
    rcases eq_or_ne j k with rfl | hj
    · rw [update_self]
      exact .inr ⟨key, mem_cons_self, rfl⟩
    rw [update_of_ne hj]
    rcases h.cells j with hEmpty | ⟨old, hOld, hCell⟩
    · exact .inl hEmpty
    · exact .inr ⟨old, mem_cons_of_mem _ hOld, hCell⟩
  kept := by
    rw [forall_mem_cons]
    refine ⟨⟨k, hk, update_self ..⟩, fun old hOld => ?_⟩
    obtain ⟨j, hj, hCell⟩ := h.kept old hOld
    refine ⟨j, hj, ?_⟩
    have hjk : j ≠ k := by
      rintro rfl
      have hZero : (cellOf old).length = 0 := by rw [← hCell, hFree]
      exact (h.storable old hOld).length_ne_zero hZero
    exact (update_of_ne hjk _ _).trans hCell

theorem Holds.add (token : List UInt8) :
    Holds (store.add token).2 (if (store.add token).1 then cstr token :: keys else keys) := by
  rw [BearerKeyStore.add]
  split
  · exact h
  rename_i hLength
  have hLong : (cstr token).length < kMaxBearerTokenBytes := by omega
  have hNonempty : cstr token ≠ [] := fun hNil => hLength (.inl (by rw [hNil]; rfl))
  rw [min_eq_left hLong.le, take_length]
  split
  · exact h
  rename_i k hFirst
  obtain ⟨hk, hZero, -⟩ := (firstIndex_eq_some_iff _ _ _).mp hFirst
  have hFree := h.free (of_decide_eq_true hZero)
  rw [hFree]
  exact h.place hk hFree ⟨hNonempty, hLong⟩

theorem Holds.validate_iff (token : List UInt8) : store.validate token = true ↔ token ∈ keys := by
  rw [validate]
  split
  next hLength =>
    refine iff_of_false nofun fun hMem => ?_
    obtain ⟨hNonempty, hLong⟩ := h.storable _ hMem
    rcases hLength with hNil | _
    · exact hNonempty (length_eq_zero_iff.mp hNil)
    · omega
  rename_i hLength
  have hLong : token.length < kMaxBearerTokenBytes := by omega
  rw [decide_eq_true_iff, Ne, foldl_or_eq_zero_iff]
  constructor
  · intro hSome
    by_contra hAbsent
    refine hSome ⟨rfl, fun k _ => if_neg ?_⟩
    rintro ⟨hSame, hUsed⟩
    rcases h.cells k with hEmpty | ⟨key, hMem, hCell⟩
    · rw [hEmpty] at hUsed
      exact hUsed rfl
    · rw [hCell, diff_cellOf_eq_zero_iff (h.storable key hMem).2 hLong] at hSame
      exact hAbsent (hSame ▸ hMem)
  · rintro hMem ⟨-, hNone⟩
    obtain ⟨k, hk, hCell⟩ := h.kept _ hMem
    have hZero := hNone k (mem_range.mpr hk)
    rw [hCell, if_pos ⟨(diff_cellOf_eq_zero_iff hLong hLong).mpr rfl, (h.storable _ hMem).length_ne_zero⟩] at hZero
    cases hZero

end

theorem holds_stored (tokens : List (List UInt8)) : Holds (final BearerKeyStore.add tokens {}) (stored tokens) := by
  refine @history_invariant _ _ _ _ _ _ _ _ (fun _ _ _ h => h.add _) _ _ ?_
  exact ⟨fun _ hMem => absurd hMem not_mem_nil, fun _ => .inl rfl, fun _ hMem => absurd hMem not_mem_nil⟩

end BearerKeyStore

end LuvFlicker.Http
