import LuvFlicker.Http.Bridge
import LuvFlicker.Http.Keys
import LuvFlicker.Http.OrderBody

/-!
# What a complete request asks for

The first part of `dispatch_client`: the request is authenticated, its method and
path are scanned, and it is refused or turned into a command.
-/

namespace LuvFlicker.Http

open Bytes Text List

/-- A response of the server's own, with the JSON text of its body. -/
structure Refusal where
  status : Nat
  reason : String
  body : String
  deriving DecidableEq, Repr

inductive Routed where
  | refuse (refusal : Refusal)
  | upgrade (id : UInt64) (key preRead : List UInt8)
  | submit (order : OrderIntent)
  | ask (command : Command) (orderId : UInt64)
  deriving DecidableEq, Repr

def Routed.HasEffect : Routed → Prop
  | .refuse _ => False
  | .upgrade _ _ _ => True
  | .submit _ => True
  | .ask _ _ => True

def unauthorized : Refusal := ⟨401, "Unauthorized", "\x7b\"error\":\"unauthorized\"\x7d"⟩

def badRequest : Refusal := ⟨400, "Bad Request", "\x7b\"error\":\"bad_request\"\x7d"⟩

def invalidUpgrade : Refusal := ⟨400, "Bad Request", "\x7b\"error\":\"invalid_websocket_upgrade\"\x7d"⟩

def invalidKey : Refusal := ⟨400, "Bad Request", "\x7b\"error\":\"Invalid WebSocket key\"\x7d"⟩

def invalidOrder : Refusal := ⟨400, "Bad Request", "\x7b\"error\":\"invalid_order\"\x7d"⟩

def notFound : Refusal := ⟨404, "Not Found", "\x7b\"error\":\"not_found\"\x7d"⟩

def kBearer : List UInt8 := ascii "Bearer"

def bearerToken (authorization : List UInt8) : Option (List UInt8) :=
  if authorization.length ≤ kBearer.length + 1 ∨ ¬ asciiEqual (authorization.take kBearer.length) kBearer ∨
      ¬ blank (authorization[kBearer.length]?.getD 0) then none
  else some ((authorization.drop kBearer.length).dropWhile blank)

def authorized (keys : BearerKeyStore) (request : List UInt8) (blockEnd : Nat) : Bool :=
  match (header request blockEnd (ascii "Authorization")).bind bearerToken with
  | none => false
  | some auth => auth ≠ [] ∧ keys.validate auth

def scanRequest (request : List UInt8) : Option (List UInt8 × List UInt8) := do
  let (method, rest) ← scanToken 7 request
  let (path, _) ← scanToken 127 rest
  some (method, path)

def kMaxUpgradePreReadBytes : Nat := 2048

def routeUpgrade (path incoming : List UInt8) (headerSize requiredSize : Nat) : Routed :=
  let request := cstr incoming
  let blockEnd := headerSize - 4
  let version := header request blockEnd (ascii "Sec-WebSocket-Version")
  match pathNumber path (ascii "/api/v1/stream/"), header request blockEnd (ascii "Sec-WebSocket-Key") with
  | some id, some key =>
    if ¬ headerHasToken (header request blockEnd (ascii "Upgrade")) (ascii "websocket") ∨
        ¬ headerHasToken (header request blockEnd (ascii "Connection")) (ascii "Upgrade") ∨
        ¬ version.any fun value => asciiEqual value (ascii "13") then .refuse invalidUpgrade
    else if key.length ≥ 32 then .refuse invalidKey
    else if requiredSize ≠ headerSize ∨ incoming.length < headerSize ∨
        incoming.length - headerSize > kMaxUpgradePreReadBytes then .refuse invalidUpgrade
    else .upgrade id (cstr key) (incoming.drop headerSize)
  | _, _ => .refuse invalidUpgrade

def asksUpgrade (websocket : Bool) (method path : List UInt8) : Bool :=
  method = ascii "GET" ∧ websocket ∧ ascii "/api/v1/stream/" <+: path

def postsOrder (method path : List UInt8) : Bool := method = ascii "POST" ∧ path = ascii "/api/v1/orders"

def routeOrder (body : List UInt8) : Routed :=
  match submitOrder body with
  | some order => .submit order
  | none => .refuse invalidOrder

def routeQuery (method path : List UInt8) : Routed :=
  if method = ascii "GET" ∧ path = ascii "/api/v1/positions" then .ask .kPositions 0
  else
    match orderId path with
    | some id =>
      if method = ascii "GET" then .ask .kQuery id
      else if method = ascii "DELETE" then .ask .kCancel id
      else .refuse notFound
    | none => .refuse notFound

def route (keys : BearerKeyStore) (websocket : Bool) (incoming : List UInt8) (headerSize requiredSize : Nat) : Routed :=
  let request := cstr incoming
  if ¬ authorized keys request (headerSize - 4) then .refuse unauthorized
  else
    match scanRequest request with
    | none => .refuse badRequest
    | some (method, path) =>
      if asksUpgrade websocket method path then routeUpgrade path incoming headerSize requiredSize
      else if postsOrder method path then routeOrder (cstr (incoming.drop headerSize))
      else routeQuery method path

/-! ## Only authenticated requests have an effect -/

/-- The value is the scheme, in any case, then spaces or tabs, then the token. -/
def BearerValue (value token : List UInt8) : Prop :=
  ∃ scheme gap, value = scheme ++ gap ++ token ∧ scheme.map asciiLower = kBearer.map asciiLower ∧
    gap ≠ [] ∧ ∀ byte ∈ gap, byte = 32 ∨ byte = 9

/-- The header block, which ends at the first empty line, carries one of the keys. -/
def Authenticated (keys : List (List UInt8)) (received : List UInt8) : Prop :=
  ∃ blockEnd value token, strstr (crlf ++ crlf) received = some blockEnd ∧
    HasHeader (received.take blockEnd) (ascii "Authorization") value ∧ BearerValue value token ∧ token ∈ keys

theorem bearerValue_of_token {value token : List UInt8} (h : bearerToken value = some token) :
    BearerValue value token := by
  rw [bearerToken] at h
  split at h
  · cases h
  rename_i hScheme
  cases h
  rw [not_or, not_or, not_not, not_not] at hScheme
  obtain ⟨_, hBearer, hBlank⟩ := hScheme
  have hInside : kBearer.length < value.length := by omega
  rw [getElem?_eq_getElem hInside, Option.getD_some] at hBlank
  refine ⟨_, (value.drop kBearer.length).takeWhile blank, ?_, asciiEqual_iff.mp hBearer, ?_, ?_⟩
  · rw [append_assoc, takeWhile_append_dropWhile, take_append_drop]
  · rw [drop_eq_getElem_cons hInside, takeWhile_cons_of_pos hBlank]
    exact cons_ne_nil _ _
  · intro byte hByte
    have hAll := all_eq_true.mp all_takeWhile byte hByte
    exact of_decide_eq_true hAll

variable {keys : BearerKeyStore}

theorem bearer_of_authorized {stored : List (List UInt8)} (hKeys : keys.Holds stored)
    {request : List UInt8} {blockEnd : Nat} (hEnd : crlf <+: request.drop blockEnd)
    (h : authorized keys request blockEnd = true) :
    ∃ value token, HasHeader (request.take blockEnd) (ascii "Authorization") value ∧ BearerValue value token ∧
      token ∈ stored := by
  rw [authorized] at h
  split at h
  · cases h
  rename_i auth hAuth
  obtain ⟨value, hValue, hToken⟩ := Option.bind_eq_some_iff.mp hAuth
  obtain ⟨-, hValid⟩ := of_decide_eq_true h
  exact ⟨_, auth, header_sound hEnd hValue, bearerValue_of_token hToken, (hKeys.validate_iff auth).mp hValid⟩

theorem authorized_of_effect {websocket : Bool} {incoming : List UInt8}
    {headerSize requiredSize : Nat} (h : (route keys websocket incoming headerSize requiredSize).HasEffect) :
    authorized keys (cstr incoming) (headerSize - 4) = true := by
  by_contra hNot
  rw [route, if_pos hNot] at h
  exact h

end LuvFlicker.Http
