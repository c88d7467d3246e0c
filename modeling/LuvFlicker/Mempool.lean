import LuvFlicker.Lib.Chain
import LuvFlicker.Lib.Run
import LuvFlicker.Lib.Tally

/-!
# The lock-free block pool

Free blocks are linked through an array of indices, from a head that carries a tag.
`allocate` and `deallocate` are sequences of atomic operations on the head and the
links, and other threads may come in between any two of them.
-/

namespace LuvFlicker.LockFreePool

open Run Tally Function Multiset UInt32

def kInvalidIndex : UInt32 := 0xFFFFFFFF

structure TaggedIndex where
  index : UInt32 := 0
  tag : UInt32 := 0
  deriving DecidableEq, Repr

/-- `head_` and `freelist_`. -/
structure Pool where
  head : TaggedIndex := {}
  freelist : Nat → UInt32

def Pool.new (capacity : Nat) : Pool where
  freelist := update (fun i => .ofNat (i + 1)) (capacity - 1) kInvalidIndex

inductive Pc where
  | idle
  | allocLoad
  | allocRead (oldHead : TaggedIndex)
  | allocSwap (oldHead : TaggedIndex) (nextIdx : UInt32)
  | construct (index : UInt32)
  | freeLoad (idx : UInt32)
  | freeWrite (idx : UInt32) (oldHead : TaggedIndex)
  | freeSwap (idx : UInt32) (oldHead : TaggedIndex)
  deriving DecidableEq, Repr

inductive Outcome where
  | working
  | null
  | block (index : Nat)
  | freed
  deriving DecidableEq, Repr

structure After where
  pc : Pc := .idle
  outcome : Outcome := .working
  pool : Pool

def allocLoop (pool : Pool) : After :=
  if pool.head.index = kInvalidIndex then { outcome := .null, pool := pool }
  else { pc := .allocRead pool.head, pool := pool }

def exec (spurious : Bool) (pc : Pc) (pool : Pool) : After :=
  match pc with
  | .idle => { pool := pool }
  | .allocLoad => allocLoop pool
  | .allocRead oldHead => { pc := .allocSwap oldHead (pool.freelist oldHead.index.toNat), pool := pool }
  | .allocSwap oldHead nextIdx =>
    if pool.head = oldHead ∧ spurious = false then
      { pc := .construct oldHead.index, pool := { pool with head := ⟨nextIdx, oldHead.tag + 1⟩ } }
    else allocLoop pool
  | .construct index => { outcome := .block index.toNat, pool := pool }
  | .freeLoad idx => { pc := .freeWrite idx pool.head, pool := pool }
  | .freeWrite idx oldHead =>
    { pc := .freeSwap idx oldHead
      pool := { pool with freelist := update pool.freelist idx.toNat oldHead.index } }
  | .freeSwap idx oldHead =>
    if pool.head = oldHead ∧ spurious = false then
      { outcome := .freed, pool := { pool with head := ⟨idx, oldHead.tag + 1⟩ } }
    else { pc := .freeWrite idx pool.head, pool := pool }

/-- The pool and the threads, with the blocks that are handed out, the number of updates of the head, and that number
at the start of each thread's call. -/
structure Threads where
  pool : Pool
  pc : Nat → Pc := fun _ => .idle
  owned : Multiset Nat := 0
  version : Nat := 0
  started : Nat → Nat := fun _ => 0

inductive Action where
  | allocate (thread : Nat)
  | deallocate (thread block : Nat)
  | run (thread : Nat) (spurious : Bool)
  deriving DecidableEq, Repr

def Outcome.received : Outcome → Multiset Nat
  | .block index => {index}
  | _ => 0

namespace Threads

def apply (s : Threads) (t : Nat) (a : After) : Threads where
  pool := a.pool
  pc := update s.pc t a.pc
  owned := a.outcome.received + s.owned
  version := if a.pool.head = s.pool.head then s.version else s.version + 1
  started := s.started

def call (s : Threads) (t : Nat) (pc : Pc) : Threads :=
  { s with pc := update s.pc t pc, started := update s.started t s.version }

def step (capacity : Nat) (action : Action) (s : Threads) : Outcome × Threads :=
  match action with
  | .allocate t => (.working, s.call t .allocLoad)
  | .deallocate t block =>
    let s := { s with owned := s.owned.erase block }
    if block ≥ capacity then (.freed, s) else (.working, s.call t (.freeLoad (.ofNat block)))
  | .run t spurious => ((exec spurious (s.pc t) s.pool).outcome, s.apply t (exec spurious (s.pc t) s.pool))

/-- One of `n` threads starts a call when it is in none, and returns only blocks that are handed out; it makes a step
fewer than 2^32 updates of the head after the start of its call. -/
def Permitted (n : Nat) (action : Action) (s : Threads) : Prop :=
  match action with
  | .allocate t => t < n ∧ s.pc t = .idle
  | .deallocate t block => t < n ∧ s.pc t = .idle ∧ block ∈ s.owned
  | .run t _ => t < n ∧ s.version < s.started t + 2 ^ 32

instance (n : Nat) (action : Action) (s : Threads) : Decidable (s.Permitted n action) :=
  match action with
  | .allocate _ => inferInstanceAs (Decidable (_ ∧ _))
  | .deallocate _ _ => inferInstanceAs (Decidable (_ ∧ _ ∧ _))
  | .run _ _ => inferInstanceAs (Decidable (_ ∧ _))

end Threads

/-! ## The free list -/

def toLink (index : UInt32) : Option Nat := if index = kInvalidIndex then none else some index.toNat

def Pool.links (pool : Pool) (i : Nat) : Option Nat := toLink (pool.freelist i)

def Pc.held : Pc → Multiset Nat
  | .construct index | .freeLoad index | .freeWrite index _ | .freeSwap index _ => {index.toNat}
  | _ => 0

def Threads.inFlight (n : Nat) (s : Threads) : Multiset Nat := total n Pc.held s.pc

/-- The free list from the head, its blocks, those handed out and those in flight. -/
structure Partitioned (n capacity : Nat) (s : Threads) (path : List Nat) : Prop where
  chain : Chain s.pool.links (toLink s.pool.head.index) path
  acyclic : path.Nodup
  owned_once : s.owned.Nodup
  partition : (path : Multiset Nat) + s.owned + s.inFlight n = Multiset.range capacity

/-- What holds after a step: the blocks are partitioned, and a call that returns null finds the free list empty. -/
def Threads.Safe (n capacity : Nat) (action : Action) (s : Threads) : Prop :=
  ∃ path, Partitioned n capacity (s.step capacity action).2 path ∧ ((s.step capacity action).1 = .null → path = [])

/-! ## Threads that stand in a call -/

def Since (pool : Pool) (version start : Nat) (oldHead : TaggedIndex) (P : Prop) : Prop :=
  ∃ v, start ≤ v ∧ v ≤ version ∧ oldHead.tag = .ofNat v ∧ (v = version → oldHead.index = pool.head.index ∧ P)

def Pc.Sound (pool : Pool) (version start : Nat) : Pc → Prop
  | .allocRead oldHead => oldHead.index ≠ kInvalidIndex ∧ Since pool version start oldHead True
  | .allocSwap oldHead nextIdx => oldHead.index ≠ kInvalidIndex ∧
    Since pool version start oldHead (pool.freelist oldHead.index.toNat = nextIdx)
  | .freeSwap idx oldHead => pool.freelist idx.toNat = oldHead.index
  | _ => True

section Threads

variable {pool : Pool} {version start : Nat} {pc : Pc} {index : UInt32}

theorem toLink_eq_some (h : index ≠ kInvalidIndex) : toLink index = some index.toNat := if_neg h

theorem ofNat_inj_of_near {v w : Nat} (hLe : v ≤ w) (hLt : w < v + 2 ^ 32) (h : ofNat v = ofNat w) : v = w := by
  have hMod := congrArg toNat h
  rw [toNat_ofNat', toNat_ofNat'] at hMod
  omega

variable {oldHead : TaggedIndex}

theorem Since.advance {P Q : Prop} (h : Since pool version start oldHead P) (pool' : Pool) :
    Since pool' (version + 1) start oldHead Q := by
  obtain ⟨v, hStart, hLe, hTag, _⟩ := h
  exact ⟨v, hStart, Nat.le_succ_of_le hLe, hTag, fun hEq => absurd hLe (by omega)⟩

theorem Pc.Sound.advance (h : pc.Sound pool version start) (head : TaggedIndex) :
    pc.Sound { pool with head := head } (version + 1) start := by
  cases pc with
  | allocRead | allocSwap => exact ⟨h.1, h.2.advance _⟩
  | freeSwap idx oldHead => exact h
  | idle | allocLoad | construct | freeLoad | freeWrite => trivial

theorem Pc.Sound.write (h : pc.Sound pool version start) {i : Nat} (hHead : toLink pool.head.index ≠ some i)
    (hHeld : i ∉ pc.held) (target : UInt32) :
    pc.Sound { pool with freelist := update pool.freelist i target } version start := by
  cases pc with
  | allocRead oldHead => exact h
  | allocSwap oldHead nextIdx =>
    obtain ⟨hValid, v, hStart, hLe, hTag, hSame⟩ := h
    refine ⟨hValid, v, hStart, hLe, hTag, fun hEq => ?_⟩
    obtain ⟨hIndex, hNext⟩ := hSame hEq
    refine ⟨hIndex, (update_of_ne ?_ ..).trans hNext⟩
    rintro rfl
    rw [← hIndex, toLink_eq_some hValid] at hHead
    exact hHead rfl
  | freeSwap idx oldHead =>
    refine (update_of_ne ?_ ..).trans h
    rintro rfl
    exact hHeld (mem_singleton_self _)
  | idle | allocLoad | construct | freeLoad | freeWrite => trivial

end Threads

/-! ## The invariant -/

structure Inv (n capacity : Nat) (s : Threads) (path : List Nat) : Prop where
  chain : Chain s.pool.links (toLink s.pool.head.index) path
  tag : s.pool.head.tag = .ofNat s.version
  partition : (path : Multiset Nat) + s.owned + s.inFlight n = Multiset.range capacity
  started : ∀ t, s.started t ≤ s.version
  sound : ∀ t < n, (s.pc t).Sound s.pool s.version (s.started t)

namespace Inv

variable {n capacity t : Nat} {s : Threads} {path path' : List Nat} {a : After}

section

variable (h : Inv n capacity s path)
include h

theorem partitioned : Partitioned n capacity s path := by
  have hNodup := nodup_range capacity
  rw [← h.partition, nodup_add, nodup_add] at hNodup
  exact ⟨h.chain, coe_nodup.mp hNodup.1.1, hNodup.1.2.1, h.partition⟩

theorem alone (ht : t < n) {b : Nat} (hHeld : b ∈ (s.pc t).held) :
    b < capacity ∧ b ∉ path ∧ ∀ u < n, u ≠ t → b ∉ (s.pc u).held := by
  have hTotal : total n Pc.held (update s.pc t .idle) + (s.pc t).held = s.inFlight n :=
    (total_update_add ht).trans (add_zero _)
  have hNodup := nodup_range capacity
  rw [← h.partition, nodup_add, ← hTotal, nodup_add (s := total ..)] at hNodup
  obtain ⟨_, ⟨_, _, hOthers⟩, hPath⟩ := hNodup
  have hFlight : b ∈ total n Pc.held (update s.pc t .idle) + (s.pc t).held := mem_add.mpr (.inr hHeld)
  refine ⟨?_, fun hIn => ?_, fun u hu hne hOther => ?_⟩
  · rw [← mem_range, ← h.partition, ← hTotal]
    exact mem_add.mpr (.inr hFlight)
  · exact disjoint_left.mp hPath (mem_add.mpr (.inl (mem_coe.mpr hIn))) hFlight
  · refine disjoint_left.mp hOthers (mem_sum.mpr ⟨u, Finset.mem_range.mpr hu, ?_⟩) hHeld
    rw [update_of_ne hne]
    exact hOther

theorem partition_apply (ht : t < n)
    (hMove : (path' : Multiset Nat) + a.outcome.received + a.pc.held = path + (s.pc t).held) :
    (path' : Multiset Nat) + (s.apply t a).owned + (s.apply t a).inFlight n = range capacity := by
  have hTotal : (s.apply t a).inFlight n + (s.pc t).held = s.inFlight n + a.pc.held := total_update_add ht
  refine add_right_cancel (b := (s.pc t).held) ?_
  calc (path' : Multiset Nat) + (a.outcome.received + s.owned) + (s.apply t a).inFlight n + (s.pc t).held
      = path' + a.outcome.received + s.owned + ((s.apply t a).inFlight n + (s.pc t).held) := by abel
    _ = path' + a.outcome.received + a.pc.held + (s.owned + s.inFlight n) := by rw [hTotal]; abel
    _ = path + s.owned + s.inFlight n + (s.pc t).held := by rw [hMove]; abel
    _ = range capacity + (s.pc t).held := by rw [h.partition]

end

theorem sound_update {pool : Pool} {version : Nat} {pc : Pc} (hOwn : pc.Sound pool version (s.started t))
    (hOthers : ∀ u < n, u ≠ t → (s.pc u).Sound pool version (s.started u)) :
    ∀ u < n, (update s.pc t pc u).Sound pool version (s.started u) := by
  intro u hu
  rcases eq_or_ne u t with rfl | hne
  · rw [update_self]
    exact hOwn
  · rw [update_of_ne hne]
    exact hOthers u hu hne

section

variable (h : Inv n capacity s path)

include h

section

variable (ht : t < n)
include ht

theorem quiet (hPool : a.pool = s.pool)
    (hMove : a.outcome.received + a.pc.held = (s.pc t).held) (hOwn : a.pc.Sound s.pool s.version (s.started t)) :
    Inv n capacity (s.apply t a) path := by
  have hVersion : (s.apply t a).version = s.version := if_pos (by rw [hPool])
  have hSame : (s.apply t a).pool = s.pool := hPool
  refine ⟨?_, ?_, h.partition_apply ht ?_, fun u => (h.started u).trans_eq hVersion.symm, ?_⟩
  · rw [hSame]
    exact h.chain
  · rw [hSame, hVersion]
    exact h.tag
  · rw [add_assoc, hMove]
  · rw [hSame, hVersion]
    exact sound_update hOwn fun u hu _ => h.sound u hu

theorem swap (hPool : a.pool = { s.pool with head := ⟨index, s.pool.head.tag + 1⟩ })
    (hChain : Chain s.pool.links (toLink index) path')
    (hMove : (path' : Multiset Nat) + a.outcome.received + a.pc.held = path + (s.pc t).held)
    (hOwn : a.pc.Sound a.pool (s.version + 1) (s.started t)) : Inv n capacity (s.apply t a) path' := by
  have hVersion : (s.apply t a).version = s.version + 1 := by
    refine if_neg fun hSame => ?_
    have hTag := congrArg TaggedIndex.tag hSame
    rw [hPool] at hTag
    exact absurd hTag (by simp)
  have hSame : (s.apply t a).pool = { s.pool with head := ⟨index, s.pool.head.tag + 1⟩ } := hPool
  refine ⟨?_, ?_, h.partition_apply ht hMove, fun u => ?_, ?_⟩
  · rw [hSame]
    exact hChain
  · rw [hSame, hVersion, ofNat_add, ← h.tag]
    rfl
  · rw [hVersion]
    exact Nat.le_succ_of_le (h.started u)
  · rw [hVersion]
    refine sound_update hOwn fun u hu _ => ?_
    change (s.pc u).Sound a.pool _ _
    rw [hPool]
    exact (h.sound u hu).advance _

theorem allocLoop (hHeld : (s.pc t).held = 0) : Inv n capacity (s.apply t (LockFreePool.allocLoop s.pool)) path ∧
      ((LockFreePool.allocLoop s.pool).outcome = .null → path = []) := by
  rw [LockFreePool.allocLoop]
  split
  next hEmpty =>
    refine ⟨h.quiet ht rfl hHeld.symm trivial, fun _ => ?_⟩
    have hChain := h.chain
    rw [hEmpty] at hChain
    exact Chain.eq_nil hChain
  next hSome =>
    have hSince : Since s.pool s.version (s.started t) s.pool.head True :=
      ⟨_, h.started t, le_rfl, h.tag, fun _ => ⟨rfl, trivial⟩⟩
    exact ⟨h.quiet ht rfl hHeld.symm ⟨hSome, hSince⟩, nofun⟩

theorem pop {nextIdx : UInt32}
    (hPc : s.pc t = .allocSwap s.pool.head nextIdx) (hNear : s.version < s.started t + 2 ^ 32) :
    ∃ path', Inv n capacity (s.apply t { pc := .construct s.pool.head.index
                                         pool := { s.pool with head := ⟨nextIdx, s.pool.head.tag + 1⟩ } }) path' := by
  have hSound := h.sound t ht
  rw [hPc] at hSound
  obtain ⟨hValid, v, hStart, hLe, hTag, hSame⟩ := hSound
  have hEq : v = s.version := ofNat_inj_of_near hLe (by omega) (hTag.symm.trans h.tag)
  have hNext := (hSame hEq).2
  have hChain := h.chain
  rw [toLink_eq_some hValid] at hChain
  obtain ⟨rest, rfl, hRest⟩ := hChain.pop
  refine ⟨rest, h.swap ht rfl ?_ ?_ trivial⟩
  · rw [← hNext]
    exact hRest
  · rw [hPc]
    change (rest : Multiset Nat) + 0 + {s.pool.head.index.toNat} = (s.pool.head.index.toNat :: rest : List Nat) + 0
    rw [add_zero, add_zero, ← cons_coe, ← singleton_add, add_comm]

theorem write {idx : UInt32} (hPc : s.pc t = .freeWrite idx oldHead) : Inv n capacity (s.apply t
      { pc := .freeSwap idx oldHead
        pool := { s.pool with freelist := update s.pool.freelist idx.toNat oldHead.index } }) path := by
  obtain ⟨_, hFresh, hOthers⟩ := h.alone ht (b := idx.toNat) (by rw [hPc]; exact mem_singleton_self _)
  have hVersion (a : After) (hHead : a.pool.head = s.pool.head) : (s.apply t a).version = s.version := if_pos hHead
  have hHead : toLink s.pool.head.index ≠ some idx.toNat := by
    intro hTop
    have hChain := h.chain
    rw [hTop] at hChain
    obtain ⟨rest, rfl, _⟩ := hChain.pop
    exact hFresh List.mem_cons_self
  refine ⟨?_, ?_, h.partition_apply ht ?_, fun u => ?_, ?_⟩
  · have hLinks : Pool.links { s.pool with freelist := update s.pool.freelist idx.toNat oldHead.index } =
        update s.pool.links idx.toNat (toLink oldHead.index) := Function.comp_update ..
    have hChain := h.chain.update hFresh (toLink oldHead.index)
    rw [← hLinks] at hChain
    exact hChain
  · rw [hVersion _ rfl]
    exact h.tag
  · rw [hPc]
    exact add_assoc ..
  · rw [hVersion _ rfl]
    exact h.started u
  · rw [hVersion _ rfl]
    refine sound_update (update_self ..) fun u hu hne => ?_
    exact (h.sound u hu).write hHead (hOthers u hu hne) _

theorem call (hIdle : s.pc t = .idle) {owned : Multiset Nat} {pc : Pc}
    (hMove : owned + pc.held = s.owned) (hSound : ∀ pool version start, pc.Sound pool version start) :
    Inv n capacity (Threads.call { s with owned := owned } t pc) path := by
  refine ⟨h.chain, h.tag, ?_, fun u => ?_, fun u hu => ?_⟩
  · have hTotal : total n Pc.held (update s.pc t pc) + (s.pc t).held = s.inFlight n + pc.held := total_update_add ht
    rw [hIdle] at hTotal
    change total n Pc.held (update s.pc t pc) + 0 = _ at hTotal
    change (path : Multiset Nat) + owned + total n Pc.held (update s.pc t pc) = _
    rw [add_zero] at hTotal
    rw [hTotal, ← h.partition, ← hMove]
    abel
  · rcases eq_or_ne u t with rfl | hne
    · exact (update_self ..).le
    change update s.started t s.version u ≤ s.version
    rw [update_of_ne hne]
    exact h.started u
  · rcases eq_or_ne u t with rfl | hne
    · change (update s.pc u pc u).Sound _ _ _
      rw [update_self]
      exact hSound ..
    · change (update s.pc t pc u).Sound s.pool s.version (update s.started t s.version u)
      rw [update_of_ne hne, update_of_ne hne]
      exact h.sound u hu

end

section

variable (hCapacity : capacity < 2 ^ 32)
include hCapacity

theorem push (ht : t < n) {idx : UInt32} (hPc : s.pc t = .freeSwap idx s.pool.head) :
    Inv n capacity (s.apply t { outcome := .freed, pool := { s.pool with head := ⟨idx, s.pool.head.tag + 1⟩ } })
      (idx.toNat :: path) := by
  have hSound := h.sound t ht
  have hAlone := h.alone ht (b := idx.toNat) (by rw [hPc]; exact mem_singleton_self _)
  rw [hPc] at hSound
  have hValid : idx ≠ kInvalidIndex := by
    rintro rfl
    have hMax : kInvalidIndex.toNat = 2 ^ 32 - 1 := by decide
    omega
  refine h.swap ht rfl ?_ ?_ trivial
  · rw [toLink_eq_some hValid]
    exact h.chain.push (congrArg _ hSound)
  · rw [hPc]
    change ((idx.toNat :: path : List Nat) : Multiset Nat) + 0 + 0 = path + {idx.toNat}
    rw [add_zero, add_zero, ← cons_coe, ← singleton_add, add_comm]

theorem run (ht : t < n) (hNear : s.version < s.started t + 2 ^ 32) (spurious : Bool) :
    ∃ path', Inv n capacity (s.apply t (exec spurious (s.pc t) s.pool)) path' ∧
      ((exec spurious (s.pc t) s.pool).outcome = .null → path' = []) := by
  have hSound := h.sound t ht
  cases hPc : s.pc t with
  | idle => exact ⟨path, h.quiet ht rfl (by rw [hPc]; rfl) trivial, nofun⟩
  | allocLoad => exact ⟨path, h.allocLoop ht (by rw [hPc]; rfl)⟩
  | allocRead oldHead =>
    rw [hPc] at hSound
    obtain ⟨hValid, v, hStart, hLe, hTag, hSame⟩ := hSound
    have hSince : Since s.pool s.version (s.started t) oldHead
        (s.pool.freelist oldHead.index.toNat = s.pool.freelist oldHead.index.toNat) :=
      ⟨v, hStart, hLe, hTag, fun hEq => ⟨(hSame hEq).1, rfl⟩⟩
    exact ⟨path, h.quiet ht rfl (by rw [hPc]; rfl) ⟨hValid, hSince⟩, nofun⟩
  | allocSwap oldHead nextIdx =>
    rw [exec]
    split
    next hSwap =>
      obtain ⟨rfl, _⟩ := hSwap
      obtain ⟨path', hInv⟩ := h.pop ht hPc hNear
      exact ⟨_, hInv, nofun⟩
    · exact ⟨path, h.allocLoop ht (by rw [hPc]; rfl)⟩
  | construct index => exact ⟨path, h.quiet ht rfl (by rw [hPc]; exact add_zero _) trivial, nofun⟩
  | freeLoad idx => exact ⟨path, h.quiet ht rfl (by rw [hPc]; exact zero_add _) trivial, nofun⟩
  | freeWrite idx oldHead => exact ⟨path, h.write ht hPc, nofun⟩
  | freeSwap idx oldHead =>
    rw [exec]
    split
    next hSwap =>
      obtain ⟨rfl, _⟩ := hSwap
      exact ⟨_, h.push hCapacity ht hPc, nofun⟩
    · exact ⟨path, h.quiet ht rfl (by rw [hPc]; exact zero_add _) trivial, nofun⟩

theorem step {action : Action} (hPermitted : s.Permitted n action) :
    ∃ path', Inv n capacity (s.step capacity action).2 path' ∧ ((s.step capacity action).1 = .null → path' = []) := by
  cases action with
  | allocate t => exact ⟨path, h.call hPermitted.1 hPermitted.2 (add_zero _) fun _ _ _ => trivial, nofun⟩
  | deallocate t block =>
    obtain ⟨ht, hIdle, hOwned⟩ := hPermitted
    have hBlock : block < capacity := by
      rw [← mem_range, ← h.partition]
      exact mem_add.mpr (.inl (mem_add.mpr (.inr hOwned)))
    have hIndex := toNat_ofNat_of_lt' (hBlock.trans hCapacity)
    rw [Threads.step, if_neg (not_le.mpr hBlock)]
    refine ⟨path, h.call ht hIdle ?_ fun _ _ _ => trivial, nofun⟩
    change s.owned.erase block + {(ofNat block).toNat} = s.owned
    rw [hIndex, add_comm, singleton_add, cons_erase hOwned]
  | run t spurious => exact h.run hCapacity hPermitted.1 hPermitted.2 _

end

end

theorem new (n : Nat) (hPos : 0 < capacity) (hCapacity : capacity < 2 ^ 32) :
    Inv n capacity { pool := .new capacity } (List.range capacity) := by
  have hLink (i : Nat) (h : i + 1 < capacity) : (Pool.new capacity).links i = some (i + 1) := by
    have hIndex := toNat_ofNat_of_lt' (h.trans hCapacity)
    have hValid : ofNat (i + 1) ≠ kInvalidIndex := by
      intro hSame
      have hMax : kInvalidIndex.toNat = 2 ^ 32 - 1 := by decide
      rw [← hSame] at hMax
      omega
    rw [Pool.links, Pool.new]
    dsimp only
    rw [update_of_ne (by omega), toLink_eq_some hValid, hIndex]
  have hLast (i : Nat) (h : i + 1 = capacity) : (Pool.new capacity).links i = none := by
    rw [Pool.links, Pool.new, ← h]
    dsimp only
    rw [Nat.add_sub_cancel, update_self]
    rfl
  refine ⟨?_, rfl, ?_, fun _ => le_refl 0, fun _ _ => trivial⟩
  · have hChain : Chain (Pool.new capacity).links (if capacity = 0 then none else some 0) (List.range' 0 capacity) :=
      Chain.range' (fun j _ hj => hLink j (by omega)) (fun j hj => hLast j (by omega))
    rw [if_neg (ne_of_gt hPos), ← List.range_eq_range'] at hChain
    exact hChain
  · have hIdle : Threads.inFlight n { pool := .new capacity } = 0 := total_eq_zero fun _ => rfl
    rw [hIdle, add_zero]
    exact add_zero _

end Inv

/-- **The pool never hands out a block twice.** However many threads, and however their operations interleave: as long
as only blocks that are handed out are returned, and no call lasts for 2^32 updates of the head, the free list does
not run in a circle, every block is in exactly one place, and `allocate` returns null only when the list is empty. -/
theorem pool_safe (n capacity : Nat) (hPos : 0 < capacity) (hCapacity : capacity < 2 ^ 32) (actions : List Action)
    (hRun : Always (Threads.step capacity) (Threads.Permitted n) actions { pool := .new capacity }) :
    Always (Threads.step capacity) (Threads.Safe n capacity) actions { pool := .new capacity } := by
  have hStart : ∃ path, Inv n capacity { pool := .new capacity } path := ⟨_, .new n hPos hCapacity⟩
  refine (hRun.iff_of_invariant (fun s => ∃ path, Inv n _ s path) (fun action s hPermitted hInv => ?_)
    (fun action s hPermitted (_ : True) hInv => ?_) hStart).mpr (always_of_forall (fun _ _ => trivial) _ _)
  · obtain ⟨path, h⟩ := hInv
    obtain ⟨path', hNext, hNull⟩ := h.step hCapacity hPermitted
    exact iff_true_intro ⟨_, hNext.partitioned, hNull⟩
  · obtain ⟨path, h⟩ := hInv
    obtain ⟨path', hNext, _⟩ := h.step hCapacity hPermitted
    exact ⟨_, hNext⟩

def race : List Action :=
  [.allocate 0, .allocate 1, .run 0 false, .run 1 false, .run 0 false, .run 1 false, .run 0 false, .run 0 false,
    .run 1 false, .run 1 false, .run 1 false, .run 1 false, .allocate 1, .deallocate 0 0, .run 1 false, .run 0 false,
    .run 0 false, .run 0 true, .run 0 false, .run 0 false]

theorem race_safe : (run (Threads.step 2) race { pool := .new 2 }).1.filter (· ≠ .working) =
      [.block 0, .block 1, .null, .freed] ∧
    Always (Threads.step 2) (Threads.Safe 2 2) race { pool := .new 2 } :=
  ⟨by decide +kernel, pool_safe 2 2 (by decide) (by decide) race (by decide +kernel)⟩

end LuvFlicker.LockFreePool
