import LuvFlicker.Lib.ReplayWindow
import LuvFlicker.Lib.Run
import LuvFlicker.Session.Guard

/-!
# The replay window of a session

As long as no message is turned down for its signature, the window holds exactly the
sequence numbers of the accepted messages, and a genuine message that is new and not
too old is accepted.
-/

namespace LuvFlicker.Session

open ReplayWindow Run

namespace SessionSecurityGuard

/-! ## Bits -/

variable {diff : UInt64}

section

variable (hDiff : diff.toNat < 64)

include hDiff

theorem testBit_mask (d : Nat) : ((1 : UInt64) <<< diff).toNat.testBit d = true ↔ d = diff.toNat := by
  rw [UInt64.toNat_shiftLeft, Nat.mod_eq_of_lt hDiff, Nat.testBit_mod_two_pow, UInt64.toNat_one, Nat.one_shiftLeft,
    Nat.testBit_two_pow]
  simp only [Bool.and_eq_true, decide_eq_true_eq]
  omega

variable (bitmap : UInt64)

theorem testBit_shift {d : Nat} (hd : d < 64) : ((bitmap <<< diff) ||| 1).toNat.testBit d = true ↔
      d = 0 ∨ diff.toNat ≤ d ∧ bitmap.toNat.testBit (d - diff.toNat) = true := by
  rw [UInt64.toNat_or, Nat.testBit_or, UInt64.toNat_shiftLeft, Nat.mod_eq_of_lt hDiff, Nat.testBit_mod_two_pow,
    Nat.testBit_shiftLeft, UInt64.toNat_one, Bool.or_eq_true, Nat.testBit_one_eq_true_iff_self_eq_zero]
  simp only [Bool.and_eq_true, decide_eq_true_eq]
  rw [or_comm, and_iff_right hd]

theorem testBit_or_mask (d : Nat) :
    (bitmap ||| ((1 : UInt64) <<< diff)).toNat.testBit d = true ↔ bitmap.toNat.testBit d = true ∨ d = diff.toNat := by
  rw [UInt64.toNat_or, Nat.testBit_or, Bool.or_eq_true, testBit_mask hDiff]

theorem and_mask_eq_zero_iff : bitmap &&& ((1 : UInt64) <<< diff) = 0 ↔ ¬ bitmap.toNat.testBit diff.toNat = true := by
  have hBits (d : Nat) : (bitmap &&& ((1 : UInt64) <<< diff)).toNat.testBit d = true ↔
      bitmap.toNat.testBit d = true ∧ d = diff.toNat := by
    rw [UInt64.toNat_and, Nat.testBit_and, Bool.and_eq_true, testBit_mask hDiff]
  constructor
  · intro hZero hBit
    have hHere := (hBits _).mpr ⟨hBit, rfl⟩
    rw [hZero, UInt64.toNat_zero, Nat.zero_testBit] at hHere
    cases hHere
  · intro hBit
    rw [← UInt64.toNat_inj]
    apply Nat.eq_of_testBit_eq
    intro d
    rw [UInt64.toNat_zero, Nat.zero_testBit, Bool.eq_false_iff, Ne, hBits]
    rintro ⟨hThere, rfl⟩
    exact hBit hThere

end

/-! ## The window -/

def Holds (s : SessionSecurityGuard) (accepted : List UInt64) : Prop :=
  Exact 64 s.maxSeqSeen.toNat s.replayBitmap.toNat.testBit (accepted.map UInt64.toNat)

variable {accepted : List UInt64} {seqNum : UInt64}

theorem mem_map_toNat : seqNum.toNat ∈ accepted.map UInt64.toNat ↔ seqNum ∈ accepted :=
  List.mem_map_of_injective fun _ _ h => UInt64.toNat_inj.mp h

variable {s s' : SessionSecurityGuard} {accepted : List UInt64} {seqNum : UInt64}

theorem Holds.enter (h : Holds s accepted) (hEnter : s.enter seqNum = some s') : Holds s' (seqNum :: accepted) := by
  rw [SessionSecurityGuard.enter] at hEnter
  split at hEnter
  · cases hEnter
  split at hEnter
  next hHigher =>
    cases hEnter
    have hDiff := UInt64.toNat_sub_of_le _ _ (UInt64.le_iff_toNat_le.mpr hHigher.le)
    refine Exact.advance h hHigher fun d hd => ?_
    rw [← hDiff]
    split
    next hNear => exact testBit_shift (UInt64.lt_iff_toNat_lt.mp hNear) _ hd
    rename_i hFar
    have hFar : 64 ≤ (seqNum - s.maxSeqSeen).toNat := not_lt.mp fun hNear => hFar (UInt64.lt_iff_toNat_lt.mpr hNear)
    rw [UInt64.toNat_one, Nat.testBit_one_eq_true_iff_self_eq_zero]
    exact (or_iff_left fun _ => by omega).symm
  next hLe =>
    have hLe := UInt64.le_iff_toNat_le.mp (UInt64.not_lt.mp hLe)
    have hDiff := UInt64.toNat_sub_of_le _ _ (UInt64.le_iff_toNat_le.mpr hLe)
    dsimp only at hEnter
    split at hEnter
    · cases hEnter
    rename_i hNear
    have hNear := UInt64.lt_iff_toNat_lt.mp (UInt64.not_le.mp hNear)
    split at hEnter
    · cases hEnter
    cases hEnter
    refine Exact.mark h hLe fun d _ => ?_
    rw [← hDiff]
    exact testBit_or_mask hNear _ d

theorem Holds.isSome_enter_iff (h : Holds s accepted) :
    (s.enter seqNum).isSome = true ↔ seqNum ≠ 0 ∧ s.maxSeqSeen.toNat < seqNum.toNat + 64 ∧ seqNum ∉ accepted := by
  rw [SessionSecurityGuard.enter]
  split
  next hZero => exact iff_of_false nofun fun hAll => hAll.1 hZero
  rename_i hZero
  split
  next hHigher =>
    have hHigher := UInt64.lt_iff_toNat_lt.mp hHigher
    refine iff_of_true rfl ⟨hZero, by omega, fun hMem => ?_⟩
    have hBelow := h.le _ (mem_map_toNat.mpr hMem)
    omega
  rename_i hLe
  have hLe := UInt64.le_iff_toNat_le.mp (UInt64.not_lt.mp hLe)
  have hDiff := UInt64.toNat_sub_of_le _ _ (UInt64.le_iff_toNat_le.mpr hLe)
  dsimp only
  split
  next hFar =>
    have hFar : 64 ≤ (s.maxSeqSeen - seqNum).toNat := UInt64.le_iff_toNat_le.mp hFar
    exact iff_of_false nofun fun hAll => by omega
  rename_i hNear
  have hNear : (s.maxSeqSeen - seqNum).toNat < 64 := UInt64.lt_iff_toNat_lt.mp (UInt64.not_le.mp hNear)
  have hBit := h.bit_iff hLe (hDiff ▸ hNear)
  rw [← hDiff, mem_map_toNat] at hBit
  split
  next hSeen =>
    rw [Ne, and_mask_eq_zero_iff hNear, not_not] at hSeen
    exact iff_of_false nofun fun hAll => hAll.2.2 (hBit.mp hSeen)
  next hNew =>
    rw [Ne, and_mask_eq_zero_iff hNear, not_not] at hNew
    exact iff_of_true rfl ⟨hZero, by omega, fun hMem => hNew (hBit.mpr hMem)⟩

theorem enter_changes (hEnter : s.enter seqNum = some s') :
    ¬ (s'.maxSeqSeen = s.maxSeqSeen ∧ s'.replayBitmap = s.replayBitmap) := by
  rintro ⟨hMax, hBitmap⟩
  rw [enter] at hEnter
  split at hEnter
  · cases hEnter
  split at hEnter
  next hHigher =>
    cases hEnter
    dsimp only at hMax
    rw [hMax] at hHigher
    exact UInt64.lt_irrefl _ hHigher
  dsimp only at hEnter
  split at hEnter
  · cases hEnter
  rename_i hNear
  have hNear := UInt64.lt_iff_toNat_lt.mp (UInt64.not_le.mp hNear)
  split at hEnter
  · cases hEnter
  rename_i hNew
  cases hEnter
  rw [Ne, not_not, and_mask_eq_zero_iff hNear] at hNew
  apply hNew
  rw [← hBitmap]
  exact (testBit_or_mask hNear s.replayBitmap _).mpr (.inr rfl)

end SessionSecurityGuard

/-! ## Runs -/

structure Watched where
  guard : SessionSecurityGuard := {}
  accepted : List UInt64 := []

open SessionSecurityGuard

section Run

variable (hmac : List UInt8 → List UInt8 → Mac) (config : SessionSecurityConfig)

def GuardOp.watch (op : GuardOp) (w : Watched) : Option AuthResult × Watched :=
  match op with
  | .inbound call =>
    let out := w.guard.validateInboundMessage hmac config call
    (some out.1, { guard := out.2, accepted := if out.1 = .success then call.seqNum :: w.accepted else w.accepted })
  | .terminate => (none, { w with guard := w.guard.terminateSession })

/-- A message with a wrong signature that gets as far as its signature. -/
def Forged (call : Inbound) (s : SessionSecurityGuard) : Prop :=
  Passes config call s ∧ call.hmacSignature ≠ none ∧ ¬ Signed hmac config call

/-- A correctly signed message that is new and not too old. -/
def Genuine (call : Inbound) (accepted : List UInt64) : Prop :=
  Signed hmac config call ∧ call.admitted = true ∧ call.seqNum ∉ accepted ∧
    ∀ n ∈ accepted, n.toNat < call.seqNum.toNat + 64

/-- A message turned down for its signature leaves the window as it was, and genuine messages are accepted. -/
def GuardOp.Unblocked (op : GuardOp) (w : Watched) : Prop :=
  match op with
  | .inbound call =>
    let out := w.guard.validateInboundMessage hmac config call
    (out.1 = .invalidSignature → out.2.maxSeqSeen = w.guard.maxSeqSeen ∧ out.2.replayBitmap = w.guard.replayBitmap) ∧
    (Genuine hmac config call w.accepted → out.1 = .success)
  | .terminate => True

/-- No forged message gets as far as its signature, and genuine messages come from the authorised address in an active
session, with a sequence number other than zero. -/
def GuardOp.Clean (op : GuardOp) (w : Watched) : Prop :=
  match op with
  | .inbound call =>
    ¬ Forged hmac config call w.guard ∧
    (Genuine hmac config call w.accepted →
      w.guard.isActive = true ∧ (config.authorizedIpv4 = 0 ∨ call.peerIpv4 = config.authorizedIpv4) ∧ call.seqNum ≠ 0)
  | .terminate => True

theorem leavesWindow_iff (call : Inbound) (s : SessionSecurityGuard) :
    ((s.validateInboundMessage hmac config call).1 = .invalidSignature →
      (s.validateInboundMessage hmac config call).2.maxSeqSeen = s.maxSeqSeen ∧
        (s.validateInboundMessage hmac config call).2.replayBitmap = s.replayBitmap) ↔
    ¬ Forged hmac config call s := by
  have hValidated := validated hmac config call s
  generalize s.validateInboundMessage hmac config call = out at hValidated
  cases hValidated with
  | stopped hNot _ hSignature =>
    exact iff_of_true (fun hResult => absurd hResult hSignature) fun hForged => hNot hForged.1
  | accepted _ _ hSigned => exact iff_of_true nofun fun hForged => hSigned.elim hForged.2.1 hForged.2.2
  | forged hPasses hEnter hNone hSigned =>
    exact iff_of_false (fun hLeaves => enter_changes hEnter (hLeaves rfl)) (not_not.mpr ⟨hPasses, hNone, hSigned⟩)

theorem Holds.recent_iff {s : SessionSecurityGuard} (h : Holds s accepted) (seqNum : UInt64) :
    s.maxSeqSeen.toNat < seqNum.toNat + 64 ↔ ∀ n ∈ accepted, n.toNat < seqNum.toNat + 64 := by
  constructor
  · intro hMax n hn
    exact (h.le _ (mem_map_toNat.mpr hn)).trans_lt hMax
  intro hAll
  rcases h.top with _ | hTop
  · omega
  · exact hAll _ (mem_map_toNat.mp hTop)

variable {hmac config} {w : Watched}

theorem unblocked_iff_clean (op : GuardOp) (h : Holds w.guard w.accepted) :
    op.Unblocked hmac config w ↔ op.Clean hmac config w := by
  cases op with
  | terminate => exact Iff.rfl
  | inbound call =>
    refine and_congr (leavesWindow_iff hmac _ call _) (forall_congr' fun hGenuine => ?_)
    obtain ⟨hSigned, hAdmitted, hNew, hRecent⟩ := hGenuine
    have hMax := (Holds.recent_iff h _).mpr hRecent
    rw [success_iff, and_iff_left (.inr hSigned), Passes, h.isSome_enter_iff, and_iff_right hAdmitted,
      and_iff_left (⟨hMax, hNew⟩ : _ ∧ _)]

theorem Holds.watch {op : GuardOp} (hClean : op.Clean hmac config w) (h : Holds w.guard w.accepted) :
    Holds (op.watch hmac config w).2.guard (op.watch hmac config w).2.accepted := by
  cases op with
  | terminate => exact h
  | inbound call =>
    have hValidated := validated hmac config call w.guard
    rw [GuardOp.watch]
    generalize w.guard.validateInboundMessage hmac config call = out at hValidated
    cases hValidated with
    | stopped _ hSuccess =>
      rw [if_neg hSuccess]
      exact h
    | accepted _ hEnter => exact h.enter hEnter
    | forged hPasses _ hNone hSigned => exact absurd ⟨hPasses, hNone, hSigned⟩ hClean.1

/-- The rate limiter lets the message pass, its sender is authorised and its signature is not a wrong one. -/
def Valid (hmac : List UInt8 → List UInt8 → Mac) (config : SessionSecurityConfig) (call : Inbound) : Prop :=
  call.admitted = true ∧ (config.authorizedIpv4 = 0 ∨ call.peerIpv4 = config.authorizedIpv4) ∧
    (call.hmacSignature = none ∨ Signed hmac config call)

/-- The number is new and greater than the highest accepted one less 64. -/
def Fresh (seqNum : UInt64) (accepted : List UInt64) : Prop :=
  seqNum ≠ 0 ∧ seqNum ∉ accepted ∧ ∀ n ∈ accepted, n.toNat < seqNum.toNat + 64

theorem success_iff_fresh {call : Inbound} (hValid : Valid hmac config call)
    (hActive : w.guard.isActive = true) (h : Holds w.guard w.accepted) :
    (w.guard.validateInboundMessage hmac config call).1 = .success ↔ Fresh call.seqNum w.accepted := by
  rw [success_iff, and_iff_left hValid.2.2, Passes, and_iff_right hActive, and_iff_right hValid.2.1,
    and_iff_right hValid.1, h.isSome_enter_iff, Holds.recent_iff h]
  exact and_congr_right fun _ => and_comm

structure Exactly (w : Watched) : Prop where
  active : w.guard.isActive = true
  holds : Holds w.guard w.accepted
  nodup : w.accepted.Nodup

theorem enter_isActive {s s' : SessionSecurityGuard} (hEnter : s.enter seqNum = some s') :
    s'.isActive = s.isActive := by
  rw [enter] at hEnter
  split at hEnter
  · cases hEnter
  split at hEnter
  · cases hEnter
    rfl
  dsimp only at hEnter
  split at hEnter
  · cases hEnter
  · split at hEnter <;> cases hEnter
    rfl

theorem Exactly.watch {call : Inbound} (hValid : Valid hmac config call) (h : Exactly w) :
    Exactly (GuardOp.watch hmac config (.inbound call) w).2 := by
  have hFresh := success_iff_fresh hValid h.active h.holds
  have hValidated := validated hmac config call w.guard
  rw [GuardOp.watch]
  generalize w.guard.validateInboundMessage hmac config call = out at hFresh hValidated
  cases hValidated with
  | stopped _ hSuccess =>
    rw [if_neg hSuccess]
    exact h
  | accepted _ hEnter =>
    exact ⟨(enter_isActive hEnter).trans h.active, h.holds.enter hEnter, h.nodup.cons (hFresh.mp rfl).2.1⟩
  | forged _ _ hNone hSigned => exact absurd hValid.2.2 (not_or.mpr ⟨hNone, hSigned⟩)

end Run

/-- With the rate limiter and the signatures out of the way the window accepts exactly the fresh numbers, each once. -/
theorem window_exact (hmac : List UInt8 → List UInt8 → Mac) (config : SessionSecurityConfig) (calls : List Inbound)
    (hValid : ∀ call ∈ calls, Valid hmac config call) :
    Always (fun call => GuardOp.watch hmac config (.inbound call))
      (fun call w => (w.guard.validateInboundMessage hmac config call).1 = .success ↔ Fresh call.seqNum w.accepted)
      calls {} ∧
      (final (fun call => GuardOp.watch hmac config (.inbound call)) calls {}).accepted.Nodup := by
  have hStart : Exactly {} := ⟨rfl, exact_nil Nat.zero_testBit, List.nodup_nil⟩
  have hAll : Always (fun call => GuardOp.watch hmac config (.inbound call)) (fun call _ => Valid hmac config call)
      calls {} := always_of_forall_mem hValid _
  refine ⟨?_, (hAll.invariant _ (fun _ _ => Exactly.watch) hStart).nodup⟩
  refine (hAll.iff_of_invariant _ (fun call w hCall h => ?_) (fun _ _ hCall _ => Exactly.watch hCall) hStart).mpr
    (always_of_forall (fun _ _ => trivial) _ _)
  exact iff_of_true (success_iff_fresh hCall h.active h.holds) trivial

/-- Numbers 2, 1 and 2 again: the last one is refused. -/
theorem window_exact_three : Always (fun call => GuardOp.watch (fun _ _ _ => 0) {} (.inbound call))
      (fun call w => (w.guard.validateInboundMessage (fun _ _ _ => 0) {} call).1 = .success ↔
        Fresh call.seqNum w.accepted)
      [⟨0, 2, [], none, true⟩, ⟨0, 1, [], none, true⟩, ⟨0, 2, [], none, true⟩] {} ∧
      (final (fun call => GuardOp.watch (fun _ _ _ => 0) {} (.inbound call))
        [⟨0, 2, [], none, true⟩, ⟨0, 1, [], none, true⟩, ⟨0, 2, [], none, true⟩] {}).accepted.Nodup :=
  window_exact _ _ _ (by simp [Valid])

/-- Badly signed messages do no harm exactly in the runs in which none of them gets as far as its signature. -/
theorem unblocked_run_iff (hmac : List UInt8 → List UInt8 → Mac) (config : SessionSecurityConfig) (ops : List GuardOp) :
    Always (GuardOp.watch hmac config) (GuardOp.Unblocked hmac config) ops {} ↔
      Always (GuardOp.watch hmac config) (GuardOp.Clean hmac config) ops {} := by
  have hAll : Always (GuardOp.watch hmac config) (fun _ _ => True) ops {} := always_of_forall (fun _ _ => trivial) ops _
  refine hAll.iff_of_invariant (fun w => Holds _ _) (fun op w _ h => unblocked_iff_clean op h)
    (fun op w _ hClean h => Holds.watch hClean h) ?_
  exact exact_nil Nat.zero_testBit

/-- A forged message uses up the sequence number of the genuine one. -/
theorem forged_message_blocks : ∃ hmac config forged genuine, Signed hmac config genuine ∧ genuine.seqNum = 1 ∧
      (run (GuardOp.watch hmac config) [.inbound forged, .inbound genuine] {}).1 =
        [some .invalidSignature, some .replayDetected] ∧
      ¬ Always (GuardOp.watch hmac config) (GuardOp.Unblocked hmac config) [.inbound forged, .inbound genuine] {} := by
  refine ⟨fun _ _ _ => 1, {}, { seqNum := 1, hmacSignature := some fun _ => 0 },
    { seqNum := 1, hmacSignature := some fun _ => 1 }, rfl, rfl, by decide +kernel, ?_⟩
  rintro ⟨⟨hWindow, -⟩, -⟩
  have hUnchanged := hWindow (by decide +kernel)
  exact absurd hUnchanged (by decide +kernel)

end LuvFlicker.Session
