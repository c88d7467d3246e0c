import LuvFlicker.Http.Dispatch

/-!
# Requests and the segments they arrive in

A request is dispatched when its header block and the declared number of body bytes
have been received; by then more bytes may be there. The header block is read to its
end only, so queries and refusals do not depend on the rest.
-/

namespace LuvFlicker.Http

open Bytes Run Text List Option

def declared (head : List UInt8) : Option Nat :=
  match header (head ++ (crlf ++ crlf)) head.length (ascii "Content-Length") with
  | none => some 0
  | some text => headerDecimalSize text

/-- A header block without an empty line inside it, and a body of the size that it declares. -/
structure Complete (head body : List UInt8) : Prop where
  ends : strstr (crlf ++ crlf) (head ++ (crlf ++ crlf)) = some head.length
  size : declared head = some body.length

def requestBytes (head body : List UInt8) : List UInt8 := head ++ (crlf ++ crlf) ++ body

/-- What is dispatched for a request: nothing if a zero byte hides the end of its header block or it is too long. -/
def outcome (keys : BearerKeyStore) (websocket : Bool) (head body : List UInt8) : Option Routed :=
  if 0 ∈ head ∨ (requestBytes head body).length ≥ kMaxRequestBytes then none
  else some (route keys websocket (requestBytes head body) (head.length + 4) (requestBytes head body).length)

def AsksUpgrade (websocket : Bool) (request : List UInt8) : Prop :=
  ∃ method path, scanRequest (cstr request) = some (method, path) ∧ asksUpgrade websocket method path = true

def PostsOrder (request : List UInt8) : Prop :=
  ∃ method path, scanRequest (cstr request) = some (method, path) ∧ postsOrder method path = true

/-- An order of a known client whose body has no zero byte is parsed to the end of what has been received. -/
def ReadsOn (keys : BearerKeyStore) (head body : List UInt8) : Prop :=
  authorized keys (head ++ (crlf ++ crlf)) head.length = true ∧ PostsOrder (requestBytes head body) ∧ 0 ∉ body

/-! ## Method and path -/

theorem visible_of_lower {byte : UInt8} (h : 97 ≤ asciiLower byte) : isSpace byte = false := by
  by_contra hSpace
  rw [Bool.not_eq_false] at hSpace
  have hSmall : byte ≤ 32 := by
    rcases of_decide_eq_true hSpace with rfl | ⟨-, hTab⟩
    · exact UInt8.le_refl _
    · exact UInt8.le_trans hTab (by decide)
  rw [asciiLower, if_neg] at h
  · exact absurd (UInt8.le_trans h hSmall) (by decide)
  · rintro ⟨hLetter, -⟩
    exact absurd (UInt8.le_trans hLetter hSmall) (by decide)

theorem visible_of_hasHeader {block value : List UInt8} (h : HasHeader block (ascii "Authorization") value) :
    13 ≤ block.countP fun byte => !isSpace byte := by
  obtain ⟨_, front, _, ⟨_, _, rfl, -, -⟩, rfl, -, hName, -⟩ := h
  have hLetters : ∀ byte ∈ (ascii "Authorization").map asciiLower, 97 ≤ byte := by decide +kernel
  have hLength : front.length = 13 := by
    have hMapped := congrArg List.length hName
    rwa [length_map] at hMapped
  have hAll : front.countP (fun byte => !isSpace byte) = front.length := by
    rw [countP_eq_length]
    intro byte hByte
    rw [visible_of_lower (hLetters _ (hName ▸ mem_map_of_mem hByte))]
    rfl
  simp only [countP_append]
  omega

theorem scanRequest_append {block : List UInt8} (h : 8 ≤ block.countP fun byte => !isSpace byte) (more : List UInt8) :
    scanRequest (block ++ (crlf ++ crlf) ++ more) = scanRequest (block ++ (crlf ++ crlf)) := by
  have hCount : 8 ≤ (block ++ (crlf ++ crlf)).countP fun byte => !isSpace byte := by
    rw [countP_append]
    omega
  have hSome {text : List UInt8} (hText : 0 < text.countP fun byte => !isSpace byte) :
      ∃ byte ∈ text, isSpace byte = false := by
    obtain ⟨byte, hByte, hVisible⟩ := countP_pos_iff.mp hText
    exact ⟨byte, hByte, by rwa [Bool.not_eq_true'] at hVisible⟩
  obtain ⟨_, rest, hMethod⟩ := @exists_scanToken _ 7 (by decide) (hSome (lt_of_lt_of_le (by decide) hCount))
  have hLeft : 0 < rest.countP fun byte => !isSpace byte := by
    have hTaken := countP_scanToken hMethod
    omega
  obtain ⟨_, rest', hPath⟩ := @exists_scanToken _ 127 (by decide) (hSome hLeft)
  have hRest : rest ≠ [] := by
    rintro rfl
    exact lt_irrefl _ hLeft
  have hRest' : rest' ≠ [] := by
    rintro rfl
    -- the last byte of the block's end would be a visible one
    obtain ⟨_, hText, -⟩ := scanToken_eq_some hMethod
    obtain ⟨_, rfl, -, hNonempty, -, hVisible⟩ := scanToken_eq_some hPath
    have hLast := congrArg List.getLast? hText
    rw [append_nil, ← append_assoc, ← append_assoc, ← append_assoc, getLast?_append_of_ne_nil _ hNonempty] at hLast
    have hEnd : (block ++ crlf ++ crlf).getLast? = some 10 := getLast?_append_of_ne_nil _ (by decide)
    have hMem := mem_of_getLast? (hLast.symm.trans hEnd)
    exact absurd (hVisible 10 hMem) (by decide)
  have hMethod' := scanToken_append hMethod hRest more
  have hPath' := scanToken_append hPath hRest' more
  rw [scanRequest, scanRequest, hMethod, hMethod']
  dsimp only [bind, Option.bind]
  rw [hPath, hPath']

/-! ## Routing -/

variable {keys : BearerKeyStore} {websocket : Bool} {head body : List UInt8}

variable {blockEnd : Nat} {received rest body : List UInt8} {order : OrderIntent} {request : List UInt8}

theorem authorized_append (h : strstr (crlf ++ crlf) request = some blockEnd) (more : List UInt8) :
    authorized keys (request ++ more) blockEnd = authorized keys request blockEnd := by
  rw [authorized, authorized, header_append h]

theorem visible_of_authorized (hEnd : crlf <+: request.drop blockEnd) (h : authorized keys request blockEnd = true) :
    8 ≤ (request.take blockEnd).countP fun byte => !isSpace byte := by
  rw [authorized] at h
  split at h
  · cases h
  next auth hAuth =>
    obtain ⟨_, hValue, -⟩ := bind_eq_some_iff.mp hAuth
    exact le_trans (by decide) (visible_of_hasHeader (header_sound hEnd hValue))

theorem cstr_requestBytes (hHead : 0 ∉ head) (body more : List UInt8) :
    cstr (requestBytes head body ++ more) = head ++ (crlf ++ crlf) ++ cstr (body ++ more) := by
  have hFront : 0 ∉ head ++ (crlf ++ crlf) := by
    rw [mem_append, not_or]
    exact ⟨hHead, by decide⟩
  rw [requestBytes, append_assoc _ body more, cstr_append hFront]

theorem drop_requestBytes (head body more : List UInt8) :
    (requestBytes head body ++ more).drop (head.length + 4) = body ++ more := by
  rw [requestBytes, append_assoc]
  exact drop_left' (length_append ..)

variable (hEnds : strstr (crlf ++ crlf) (head ++ (crlf ++ crlf)) = some head.length) (hHead : 0 ∉ head)

include hEnds hHead in
theorem route_eq (body more : List UInt8) (size : Nat) :
    route keys websocket (requestBytes head body ++ more) (head.length + 4) size =
      if ¬ authorized keys (head ++ (crlf ++ crlf)) head.length then .refuse unauthorized
      else
        match scanRequest (head ++ (crlf ++ crlf)) with
        | none => .refuse badRequest
        | some (method, path) =>
          if asksUpgrade websocket method path then
            routeUpgrade path (requestBytes head body ++ more) (head.length + 4) size
          else if postsOrder method path then routeOrder (cstr (body ++ more))
          else routeQuery method path := by
  rw [route, Nat.add_sub_cancel, cstr_requestBytes hHead, authorized_append hEnds, drop_requestBytes]
  by_cases hKnown : authorized keys (head ++ (crlf ++ crlf)) head.length = true
  · have hVisible := visible_of_authorized (crlf_prefix_of_strstr hEnds) hKnown
    rw [take_left] at hVisible
    rewrite [scanRequest_append hVisible]
    rfl
  · rw [if_pos hKnown, if_pos hKnown]

include hEnds hHead in
theorem scanRequest_requestBytes (hKnown : authorized keys (head ++ (crlf ++ crlf)) head.length = true) (body : List UInt8) :
    scanRequest (cstr (requestBytes head body)) = scanRequest (head ++ (crlf ++ crlf)) := by
  have hVisible := visible_of_authorized (crlf_prefix_of_strstr hEnds) hKnown
  have hText := cstr_requestBytes hHead body []
  rw [append_nil] at hText
  rw [take_left] at hVisible
  rw [hText, scanRequest_append hVisible]

include hEnds hHead in
theorem route_append (hUpgrade : ¬ AsksUpgrade websocket (requestBytes head body)) {more : List UInt8}
    (hOrder : ¬ ReadsOn keys head body ∨ more = []) (size : Nat) :
    route keys websocket (requestBytes head body ++ more) (head.length + 4) size =
      route keys websocket (requestBytes head body) (head.length + 4) size := by
  have hAlone := @route_eq keys websocket head hEnds hHead body [] size
  rw [append_nil, append_nil] at hAlone
  rw [route_eq hEnds hHead, hAlone]
  by_cases hKnown : authorized keys (head ++ (crlf ++ crlf)) head.length = true
  · rw [AsksUpgrade, scanRequest_requestBytes hEnds hHead hKnown] at hUpgrade
    rw [ReadsOn, PostsOrder, scanRequest_requestBytes hEnds hHead hKnown] at hOrder
    rw [if_neg (not_not.mpr hKnown), if_neg (not_not.mpr hKnown)]
    cases hAsked : scanRequest (head ++ (crlf ++ crlf)) with
    | none => rfl
    | some asked =>
      obtain ⟨method, path⟩ := asked
      rw [hAsked] at hUpgrade hOrder
      have hPlain : ¬ asksUpgrade websocket method path = true := fun hAsks => hUpgrade ⟨method, path, rfl, hAsks⟩
      dsimp only
      rw [if_neg hPlain, if_neg hPlain]
      split
      next hPosts =>
        rcases hOrder with hOther | rfl
        · have hZero : 0 ∈ body := by_contra fun hZero => hOther ⟨hKnown, ⟨method, path, rfl, hPosts⟩, hZero⟩
          rw [cstr_append_of_mem hZero]
        · rw [append_nil]
      · rfl
  · rw [if_pos hKnown, if_pos hKnown]

/-! ## What is received -/

theorem head_of_strstr (hEnds : strstr (crlf ++ crlf) (head ++ (crlf ++ crlf)) = some head.length)
    (hStream : received <+: head ++ (crlf ++ crlf) ++ rest)
    (h : strstr (crlf ++ crlf) (cstr received) = some blockEnd) :
    blockEnd = head.length ∧ 0 ∉ head ∧ ∃ more, cstr received = head ++ (crlf ++ crlf) ++ more := by
  have hPrefix := cstr_isPrefix.trans hStream
  have hFirst := strstr_append hEnds rest
  obtain ⟨more, hMore⟩ := hPrefix
  have hHere := strstr_append h more
  rw [hMore, hFirst] at hHere
  cases hHere
  obtain ⟨_, hSplit⟩ := eq_of_strstr h
  have hTake : (cstr received).take head.length = head := by
    have hLong := (strstr_eq_some_iff.mp h).1.length_le
    rw [length_drop, length_append, length_crlf] at hLong
    have hTaken := congrArg (List.take head.length) hMore
    rwa [take_append_of_le_length (by omega), append_assoc, take_left] at hTaken
  rw [hTake] at hSplit
  refine ⟨rfl, fun hZero => ?_, _, hSplit⟩
  apply zero_notMem_cstr
  rw [hSplit, append_assoc]
  exact mem_append_left _ hZero

theorem length_requestBytes (head body : List UInt8) : (requestBytes head body).length = head.length + 4 + body.length := by
  rw [requestBytes, length_append, length_append]
  rfl

theorem measure_of_text (hComplete : Complete head body) {more : List UInt8}
    (hText : cstr received = head ++ (crlf ++ crlf) ++ more) :
    measure received = measureBody (head.length + 4) body.length := by
  have hSize := hComplete.size
  rw [declared] at hSize
  rw [measure, hText, strstr_append hComplete.ends]
  dsimp only
  rw [header_append hComplete.ends]
  generalize header (head ++ (crlf ++ crlf)) head.length (ascii "Content-Length") = found at hSize ⊢
  cases found with
  | none => rw [← Option.some.inj hSize]
  | some text =>
    dsimp only at hSize ⊢
    rw [hSize]

theorem size_of_measure (hComplete : Complete head body)
    (hStream : received <+: requestBytes head body ++ rest) {headerSize requiredSize : Nat}
    (h : measure received = .complete headerSize requiredSize) :
    headerSize = head.length + 4 ∧ requiredSize = (requestBytes head body).length ∧ 0 ∉ head ∧
      (requestBytes head body).length < kMaxRequestBytes := by
  obtain ⟨hEnd, -, -⟩ := measure_complete h
  rw [requestBytes, append_assoc _ body rest] at hStream
  obtain ⟨-, hHead, _, hText⟩ := head_of_strstr hComplete.ends hStream hEnd
  rw [measure_of_text hComplete hText, measureBody] at h
  split at h
  · cases h
  · cases h
    rw [length_requestBytes]
    exact ⟨rfl, rfl, hHead, by omega⟩

variable {config : ListenerConfig}

theorem PeerOk.outcome {peer : Peer} (h : PeerOk config keys peer) (hComplete : Complete head body)
    (hUpgrade : ¬ AsksUpgrade config.websocket (requestBytes head body))
    (hStream : peer.stream = requestBytes head body ++ rest)
    (hOrder : ¬ ReadsOn keys head body ∨ peer.received = requestBytes head body) :
    peer.routed = none ∨ peer.routed = outcome keys config.websocket head body := by
  cases hRouted : peer.routed with
  | none => exact .inl rfl
  | some routed =>
    obtain ⟨_, _, hMeasure, hLong, rfl⟩ := h.routed _ hRouted
    have hSound := h.sound
    rw [hStream] at hSound
    obtain ⟨rfl, rfl, hHead, hShort⟩ := size_of_measure hComplete hSound hMeasure
    obtain ⟨more, hMore⟩ := prefix_of_prefix_length_le (prefix_append _ _) hSound hLong
    rw [← hMore] at hOrder ⊢
    have hAlone := hOrder.imp_right fun hSame => append_cancel_left (hSame.trans (append_nil _).symm)
    rw [Http.outcome, if_neg (not_or.mpr ⟨hHead, Nat.not_le.mpr hShort⟩), route_append hComplete.ends hHead hUpgrade hAlone]
    exact .inr rfl

variable {key : List UInt8}

end LuvFlicker.Http
