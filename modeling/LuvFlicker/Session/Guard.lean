import LuvFlicker.Lib.Bytes

/-!
# The session guard

A message is checked for the state of the session, the address of its sender, the
rate, its sequence number and last for its signature.
-/

namespace LuvFlicker.Session

open Bytes

inductive AuthResult where
  | success
  | invalidSignature
  | replayDetected
  | rateLimitExceeded
  | ipUnauthorized
  | sessionTerminated
  deriving DecidableEq

abbrev Mac : Type := Fin 32 → UInt8

structure SessionSecurityConfig where
  authorizedIpv4 : UInt32 := 0
  secretKey : List UInt8 := List.replicate 32 0

structure SessionSecurityGuard where
  maxSeqSeen : UInt64 := 0
  replayBitmap : UInt64 := 0
  isActive : Bool := true
  deriving DecidableEq

structure Inbound where
  peerIpv4 : UInt32 := 0
  seqNum : UInt64
  payload : List UInt8 := []
  hmacSignature : Option Mac := none
  /-- The rate limiter lets the message pass. -/
  admitted : Bool := true

def kReplayWindowBits : UInt64 := 64

def constantTimeMemcmp (a b : Mac) : Bool :=
  (List.finRange 32).foldl (fun diff i => diff ||| (a i ^^^ b i)) (0 : UInt8) = 0

namespace SessionSecurityGuard

def enter (seqNum : UInt64) (s : SessionSecurityGuard) : Option SessionSecurityGuard :=
  if seqNum = 0 then none
  else if seqNum > s.maxSeqSeen then
    let diff := seqNum - s.maxSeqSeen
    some
      { s with
        replayBitmap := if diff < kReplayWindowBits then (s.replayBitmap <<< diff) ||| 1 else 1
        maxSeqSeen := seqNum }
  else
    let diff := s.maxSeqSeen - seqNum
    if diff ≥ kReplayWindowBits then none
    else if s.replayBitmap &&& (1 <<< diff) ≠ 0 then none
    else some { s with replayBitmap := s.replayBitmap ||| (1 <<< diff) }

variable (hmac : List UInt8 → List UInt8 → Mac) (config : SessionSecurityConfig) (call : Inbound)

variable (s : SessionSecurityGuard)

def validateInboundMessage : AuthResult × SessionSecurityGuard :=
  if ¬ s.isActive then (.sessionTerminated, s)
  else if config.authorizedIpv4 ≠ 0 ∧ call.peerIpv4 ≠ config.authorizedIpv4 then (.ipUnauthorized, s)
  else if ¬ call.admitted then (.rateLimitExceeded, s)
  else
    match s.enter call.seqNum with
    | none => (.replayDetected, s)
    | some s =>
      match call.hmacSignature with
      | none => (.success, s)
      | some signature =>
        if constantTimeMemcmp signature (hmac config.secretKey call.payload) then (.success, s)
        else (.invalidSignature, s)

def terminateSession : SessionSecurityGuard := { s with isActive := false }

/-! ## One call -/

def Passes : Prop :=
  s.isActive = true ∧ (config.authorizedIpv4 = 0 ∨ call.peerIpv4 = config.authorizedIpv4) ∧ call.admitted = true ∧
    (s.enter call.seqNum).isSome = true

def Signed : Prop := call.hmacSignature = some (hmac config.secretKey call.payload)

inductive Validated (call : Inbound) (s : SessionSecurityGuard) : AuthResult × SessionSecurityGuard → Prop
  | stopped (hNot : ¬ Passes config call s) {result : AuthResult} (hSuccess : result ≠ .success)
      (hSignature : result ≠ .invalidSignature) : Validated call s (result, s)
  | accepted (hPasses : Passes config call s) {s' : SessionSecurityGuard} (hEnter : s.enter call.seqNum = some s')
      (hSigned : call.hmacSignature = none ∨ Signed hmac config call) : Validated call s (.success, s')
  | forged (hPasses : Passes config call s) {s' : SessionSecurityGuard} (hEnter : s.enter call.seqNum = some s')
      (hNone : call.hmacSignature ≠ none) (hSigned : ¬ Signed hmac config call) : Validated call s (.invalidSignature, s')

theorem constantTimeMemcmp_iff {a b : Mac} : constantTimeMemcmp a b = true ↔ a = b := by
  rw [constantTimeMemcmp, decide_eq_true_iff, foldl_or_eq_zero_iff, and_iff_right rfl]
  constructor
  · intro h
    funext i
    exact UInt8.xor_eq_zero_iff.mp (h i (List.mem_finRange i))
  · rintro rfl i -
    exact UInt8.xor_self

theorem validated : Validated hmac config call s (s.validateInboundMessage hmac config call) := by
  rw [validateInboundMessage]
  split
  next hInactive => exact .stopped (fun hPasses => hInactive hPasses.1) nofun nofun
  rename_i hActive
  split
  next hAddress =>
    refine .stopped (fun hPasses => ?_) nofun nofun
    exact hPasses.2.1.elim hAddress.1 hAddress.2
  rename_i hAddress
  split
  next hRate => exact .stopped (fun hPasses => hRate hPasses.2.2.1) nofun nofun
  rename_i hRate
  rw [not_not] at hActive hRate
  rw [not_and_or, not_not, not_not] at hAddress
  split
  next hEnter =>
    refine .stopped (fun hPasses => ?_) nofun nofun
    have hSome := hPasses.2.2.2
    rw [hEnter] at hSome
    cases hSome
  rename_i s' hEnter
  have hPasses : Passes config call s := ⟨hActive, hAddress, hRate, by rw [hEnter]; rfl⟩
  split
  next hNone => exact .accepted hPasses hEnter (.inl hNone)
  rename_i signature hSome
  split
  next hRight =>
    have hSame := constantTimeMemcmp_iff.mp hRight
    exact .accepted hPasses hEnter (.inr (hSome.trans (congrArg some hSame)))
  next hWrong =>
    refine .forged hPasses hEnter (by rw [hSome]; exact nofun) fun hSigned => ?_
    exact hWrong (constantTimeMemcmp_iff.mpr (Option.some.inj (hSome.symm.trans hSigned)))

theorem success_iff : (s.validateInboundMessage hmac config call).1 = .success ↔
      Passes config call s ∧ (call.hmacSignature = none ∨ Signed hmac config call) := by
  have hValidated := validated hmac config call s
  generalize s.validateInboundMessage hmac config call = out at hValidated
  cases hValidated with
  | stopped hNot hSuccess => exact iff_of_false hSuccess fun hBoth => hNot hBoth.1
  | accepted hPasses _ hSigned => exact iff_of_true rfl ⟨hPasses, hSigned⟩
  | forged _ _ hNone hWrong => exact iff_of_false nofun fun hBoth => hBoth.2.elim hNone hWrong

end SessionSecurityGuard

inductive GuardOp where
  | inbound (call : Inbound)
  | terminate

end LuvFlicker.Session
