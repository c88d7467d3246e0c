import LuvFlicker.Http.Routing
import LuvFlicker.Ws.Frames

/-!
# The HTTP server

The I/O thread owns a table of client slots, a table of the request ids whose
replies are awaited, and one buffer for the body of a positions response. The
operations are the parts of a turn of `serve`; they may come in any order.
-/

namespace LuvFlicker.Http

open Bytes Scan Text Function

def kMaxClientSlots : Nat := 64

def kMaxRequestBytes : Nat := 2048

def kMaxClientReadBytes : Nat := 4096

def kMaxPendingExecutionResponses : Nat := 8

def kMaxInlineResponseBytes : Nat := 1024

def kResponseWriteTimeoutNs : UInt64 := 5000000000

def kDefaultWriteChunkBytes : Nat := 16384

def kMaxPositionsJsonBytes : Nat := 65536

structure ListenerConfig where
  responseWaitMs : UInt32 := 100
  maxWriteChunkBytes : UInt32 := 16384
  /-- There is a WebSocket server. -/
  websocket : Bool := false

structure ClientSlot where
  fd : Option Nat := none
  deadlineNs : UInt64 := 0
  requestId : UInt64 := 0
  /-- The first `incoming_size` bytes of the buffer; a zero byte follows them. -/
  incoming : List UInt8 := []
  headerSize : Nat := 0
  requiredSize : Nat := 0
  command : Command := .kSubmit
  headerComplete : Bool := false
  waitingResponse : Bool := false
  sendingResponse : Bool := false
  ownsPositionsBody : Bool := false
  /-- The first `outgoing_size` bytes of the buffer. -/
  outgoing : List UInt8 := []
  outgoingOffset : Nat := 0
  positionsBodyOffset : Nat := 0
  deriving DecidableEq

inductive Call where
  | submit (request : Request) (ok : Bool)
  | enqueueUpgrade (id : UInt64) (key preRead : List UInt8)
  deriving DecidableEq

/-- A complete response message, and the reply of the bridge that it was made from. -/
structure Answer where
  message : List UInt8
  response : Option Response
  deriving DecidableEq

structure Peer where
  /-- All bytes the peer sends. -/
  stream : List UInt8 := []
  received : List UInt8 := []
  routed : Option Routed := none
  calls : List Call := []
  /-- The id of the request that the bridge took. -/
  issued : Option UInt64 := none
  answer : Option Answer := none
  sent : List UInt8 := []
  closed : Bool := false

structure Server where
  clients : Nat → ClientSlot := fun _ => {}
  outstandingResponseIds : Nat → UInt64 := fun _ => 0
  /-- The first `positions_body_size_` bytes of the buffer. -/
  positionsBody : List UInt8 := []
  positionsBodyOwner : Option Nat := none
  nextOrderId : UInt32 := 1
  /-- `g_next_http_request_id`. -/
  nextRequestId : UInt64 := 1
  /-- The number of connections accepted so far. -/
  accepted : Nat := 0
  peers : Nat → Peer := fun _ => {}
  /-- The ids submitted since the listener was started whose reply has not been taken. -/
  pending : List UInt64 := []

inductive SendResult where
  | sent (count : Nat)
  | blocked
  | failed
  deriving DecidableEq

structure Write where
  nowNs : UInt64
  send : SendResult

inductive UpgradeResult where
  | kAccepted
  | kInvalidKey
  | kInvalidUpgrade
  | kPoolExhausted
  | kQueueFull
  deriving DecidableEq

structure Surroundings where
  orderNs : UInt64
  /-- `dup` succeeds. -/
  retained : Bool
  upgradeResult : UpgradeResult
  /-- The request queue of the bridge has room. -/
  bridgeTakes : Bool
  waitNs : UInt64
  write : Write

def requestTooLarge : Refusal := ⟨413, "Payload Too Large", "\x7b\"error\":\"request_too_large\"\x7d"⟩

def invalidContentLength : Refusal := ⟨400, "Bad Request", "\x7b\"error\":\"invalid_content_length\"\x7d"⟩

def poolExhausted : Refusal := ⟨503, "Service Unavailable", "\x7b\"error\":\"Connection pool exhausted\"\x7d"⟩

def connectionPoolExhausted : Refusal :=
  ⟨503, "Service Unavailable", "\x7b\"error\":\"connection_pool_exhausted\"\x7d"⟩

def orderIdExhausted : Refusal := ⟨503, "Service Unavailable", "\x7b\"error\":\"order_id_exhausted\"\x7d"⟩

def requestIdExhausted : Refusal := ⟨503, "Service Unavailable", "\x7b\"error\":\"request_id_exhausted\"\x7d"⟩

def positionsResponseBusy : Refusal := ⟨503, "Service Unavailable", "\x7b\"error\":\"positions_response_busy\"\x7d"⟩

def responseQueueFull : Refusal := ⟨503, "Service Unavailable", "\x7b\"error\":\"response_queue_full\"\x7d"⟩

def queueFull : Refusal := ⟨503, "Service Unavailable", "\x7b\"error\":\"queue_full\"\x7d"⟩

def responseFormatFailed : Refusal := ⟨500, "Internal Server Error", "\x7b\"error\":\"response_format_failed\"\x7d"⟩

def positionsTooLarge : Refusal := ⟨500, "Internal Server Error", "\x7b\"error\":\"positions_response_too_large\"\x7d"⟩

def executionTimeout : Refusal := ⟨504, "Gateway Timeout", "\x7b\"error\":\"execution_timeout\"\x7d"⟩

def requestTimeout : Refusal := ⟨408, "Request Timeout", "\x7b\"error\":\"request_timeout\"\x7d"⟩

/-! ## The texts of responses -/

def responseHead (status : Nat) (reason : String) (bodySize : Nat) : List UInt8 :=
  ascii ("HTTP/1.1 " ++ toString status ++ " " ++ reason ++ "\r\nContent-Type: application/json\r\nContent-Length: " ++
    toString bodySize ++ "\r\nConnection: close\r\n\r\n")

def OrderStatus.name : OrderStatus → String
  | .kPending => "pending"
  | .kLive => "live"
  | .kPartial => "partial"
  | .kCancelled => "cancelled"
  | .kDone => "done"
  | .kRejected => "rejected"
  | .kNotFound => "not_found"

def orderText (order : OrderSnapshot) : List UInt8 :=
  ascii ("\x7b\"order_id\":" ++ toString order.orderId ++ ",\"status\":\"" ++ order.status.name ++ "\",\"symbol_idx\":" ++
    toString order.symbolIdx ++ ",\"qty\":" ++ toString order.quantity ++ ",\"filled_qty\":" ++
    toString order.filledQuantity ++ ",\"price\":" ++ toString order.price ++ "\x7d")

def acceptedText (orderId : UInt32) : List UInt8 :=
  ascii ("\x7b\"order_id\":" ++ toString orderId ++ ",\"status\":\"accepted\"\x7d")

def positionText (first : Bool) (position : PositionSnapshot) : List UInt8 :=
  ascii ((if first then "" else ",") ++ "\x7b\"symbol_idx\":" ++ toString position.symbolIdx ++ ",\"net_position\":" ++
    toString position.netPosition ++ ",\"gross_exposure\":" ++ toString position.grossExposure ++ "\x7d")

def positionsLoop (text : List UInt8) (first : Bool) : List PositionSnapshot → Option (List UInt8)
  | [] => some text
  | position :: rest =>
    let piece := positionText first position
    if piece.length ≥ kMaxPositionsJsonBytes - text.length then none else positionsLoop (text ++ piece) false rest

def positionsText (positions : List PositionSnapshot) : Option (List UInt8) :=
  match positionsLoop (ascii "\x7b\"positions\":[") true positions with
  | none => none
  | some text => if text.length + 3 > kMaxPositionsJsonBytes then none else some (text ++ ascii "]\x7d")

/-! ## Reading a request -/

inductive Measured where
  | incomplete
  | refuse (refusal : Refusal)
  | complete (headerSize requiredSize : Nat)
  deriving DecidableEq

def measureBody (headerSize bodySize : Nat) : Measured :=
  if headerSize ≥ kMaxRequestBytes ∨ bodySize > kMaxRequestBytes - 1 - headerSize then .refuse requestTooLarge
  else .complete headerSize (headerSize + bodySize)

def measure (incoming : List UInt8) : Measured :=
  let request := cstr incoming
  match strstr (crlf ++ crlf) request with
  | none => .incomplete
  | some blockEnd =>
    match header request blockEnd (ascii "Content-Length") with
    | none => measureBody (blockEnd + 4) 0
    | some text =>
      match headerDecimalSize text with
      | none => .refuse invalidContentLength
      | some bodySize => measureBody (blockEnd + 4) bodySize

namespace ClientSlot

variable (client : ClientSlot)

def readLimit : Nat := if client.headerComplete then kMaxClientReadBytes else kMaxRequestBytes

def full : Bool := client.incoming.length + 1 ≥ client.readLimit

def complete : Bool := client.headerComplete ∧ client.incoming.length ≥ client.requiredSize

end ClientSlot

inductive ReadEnd where
  | done
  | refuse (refusal : Refusal)
  | close
  deriving DecidableEq

/-- The bytes `recv` returns: no more than the peer sent and no more than were asked for. -/
def chunk (count : Nat) (client : ClientSlot) (peer : Peer) : List UInt8 :=
  (peer.stream.drop peer.received.length).take (min count (client.readLimit - client.incoming.length - 1))

/-- The loop of `read_client`; when the list of results is used up the socket has no more bytes. -/
def readLoop : List Ws.RecvResult → ClientSlot → Peer → ReadEnd × ClientSlot × Peer
  | results, client, peer =>
    if client.full then (if client.headerComplete then .done else .refuse requestTooLarge, client, peer)
    else
      match results with
      | [] => (.done, client, peer)
      | .wouldBlock :: _ => (.done, client, peer)
      | .failed :: _ => (.close, client, peer)
      | .ended :: _ => (if client.complete then .done else .close, client, peer)
      | .interrupted :: results => readLoop results client peer
      | .bytes count :: results =>
        let bytes := chunk count client peer
        if bytes = [] then (.done, client, peer)
        else
          let client := { client with incoming := client.incoming ++ bytes }
          let peer := { peer with received := peer.received ++ bytes }
          if client.headerComplete then readLoop results client peer
          else
            match measure client.incoming with
            | .incomplete => readLoop results client peer
            | .refuse refusal => (.refuse refusal, client, peer)
            | .complete headerSize requiredSize =>
              readLoop results
                { client with headerSize := headerSize, requiredSize := requiredSize, headerComplete := true } peer

def takeHttpRequestId (nextRequestId : UInt64) : UInt64 × UInt64 :=
  if nextRequestId = 0 then (0, 0)
  else (nextRequestId, if nextRequestId = 0xFFFFFFFFFFFFFFFF then 0 else nextRequestId + 1)

namespace Server

variable (config : ListenerConfig) (s : Server) (i : Nat)

def setClient (client : ClientSlot) : Server := { s with clients := update s.clients i client }

def setPeer (fd : Nat) (peer : Peer) : Server := { s with peers := update s.peers fd peer }

def record (note : Peer → Peer) : Server :=
  match (s.clients i).fd with
  | none => s
  | some fd => s.setPeer fd (note (s.peers fd))

/-! ## Tables -/

def reserveResponseId (requestId : UInt64) : Bool × Server :=
  if requestId = 0 then (false, s)
  else
    match firstIndex (fun k => s.outstandingResponseIds k = 0) kMaxPendingExecutionResponses with
    | none => (false, s)
    | some k => (true, { s with outstandingResponseIds := update s.outstandingResponseIds k requestId })

def releaseResponseId (requestId : UInt64) : Bool × Server :=
  if requestId = 0 then (false, s)
  else
    match firstIndex (fun k => s.outstandingResponseIds k = requestId) kMaxPendingExecutionResponses with
    | none => (false, s)
    | some k => (true, { s with outstandingResponseIds := update s.outstandingResponseIds k 0 })

def reservePositionsBody : Bool × Server :=
  if (s.clients i).ownsPositionsBody ∨ s.positionsBodyOwner ≠ none then (false, s)
  else
    (true, { s with positionsBodyOwner := some i, positionsBody := [] }.setClient i
        { s.clients i with ownsPositionsBody := true })

def releasePositionsBody : Server :=
  if (s.clients i).ownsPositionsBody then
    let client := { s.clients i with ownsPositionsBody := false, positionsBodyOffset := 0 }
    if s.positionsBodyOwner = some i then
      { s with positionsBodyOwner := none, positionsBody := [] }.setClient i client
    else s.setClient i client
  else s

/-! ## Writing -/

def closeClient : Server :=
  ((s.releasePositionsBody i).record i fun peer => { peer with closed := true }).setClient i {}

/-- One attempt to send from a buffer; `advance` moves the offset of the buffer. -/
def sendFrom (bytes : List UInt8) (offset : Nat) (advance : Nat → ClientSlot → ClientSlot)
    (send : SendResult) : Server :=
  let configuredChunk :=
    if config.maxWriteChunkBytes = 0 then kDefaultWriteChunkBytes else config.maxWriteChunkBytes.toNat
  let sendSize := min (bytes.length - offset) configuredChunk
  match send with
  | .sent count =>
    if min count sendSize = 0 then s.closeClient i
    else
      (s.record i fun peer => { peer with sent := peer.sent ++ (bytes.drop offset).take (min count sendSize) }).setClient
        i (advance (min count sendSize) (s.clients i))
  | .blocked => s
  | .failed => s.closeClient i

def flushClient (send : SendResult) : Server :=
  let client := s.clients i
  if client.fd = none ∨ ¬ client.sendingResponse then s
  else if client.outgoingOffset < client.outgoing.length then
    s.sendFrom config i client.outgoing client.outgoingOffset
      (fun n client => { client with outgoingOffset := client.outgoingOffset + n }) send
  else if client.ownsPositionsBody ∧ client.positionsBodyOffset < s.positionsBody.length then
    s.sendFrom config i s.positionsBody client.positionsBodyOffset
      (fun n client => { client with positionsBodyOffset := client.positionsBodyOffset + n }) send
  else s.closeClient i

/-- The client starts to send; what `message` has behind `outgoing` is the positions body. -/
def startSending (outgoing : List UInt8) (answer : Answer) (write : Write) : Server :=
  ((s.record i fun peer => { peer with answer := some answer }).setClient i
    { s.clients i with
      outgoing := outgoing, outgoingOffset := 0, positionsBodyOffset := 0, waitingResponse := false,
      sendingResponse := true, deadlineNs := write.nowNs + kResponseWriteTimeoutNs }).flushClient config i write.send

def queueInlineJson (status : Nat) (reason : String) (body : List UInt8) (response : Option Response)
    (write : Write) : Server :=
  if (s.clients i).fd = none then s
  else
    let s := s.releasePositionsBody i
    let head := responseHead status reason body.length
    if head.length ≥ kMaxInlineResponseBytes ∨ body.length > kMaxInlineResponseBytes - head.length then s.closeClient i
    else s.startSending config i (head ++ body) ⟨head ++ body, response⟩ write

def refuse (refusal : Refusal) (write : Write) : Server :=
  s.queueInlineJson config i refusal.status refusal.reason (ascii refusal.body) none write

def queuePositionsJson (response : Response) (write : Write) : Server :=
  if (s.clients i).fd = none ∨ ¬ (s.clients i).ownsPositionsBody then s
  else
    match positionsText response.positions with
    | none => s.refuse config i positionsTooLarge write
    | some body =>
      let s := { s with positionsBody := body }
      let head := responseHead 200 "OK" body.length
      if head.length ≥ kMaxInlineResponseBytes then s.refuse config i responseFormatFailed write
      else s.startSending config i head ⟨head ++ body, some response⟩ write

def sendResponse (response : Response) (write : Write) : Server :=
  if (s.clients i).command = .kPositions then s.queuePositionsJson config i response write
  else
    let body := orderText response.order
    if body.length ≥ 256 then s.refuse config i responseFormatFailed write
    else if response.order.status = .kNotFound then
      s.queueInlineJson config i 404 "Not Found" body (some response) write
    else s.queueInlineJson config i 200 "OK" body (some response) write

/-! ## Dispatching -/

def waitDeadline (nowNs : UInt64) : UInt64 := nowNs + config.responseWaitMs.toUInt64 * 1000000

variable (around : Surroundings)

def upgradeClient (i : Nat) (id : UInt64) (key preRead : List UInt8) : Server :=
  if around.retained then
    let s := s.record i fun peer => { peer with calls := peer.calls ++ [.enqueueUpgrade id key preRead] }
    match around.upgradeResult with
    | .kAccepted => s.closeClient i
    | .kInvalidKey => s.refuse config i invalidKey around.write
    | .kInvalidUpgrade => s.refuse config i invalidUpgrade around.write
    | .kPoolExhausted => s.refuse config i poolExhausted around.write
    | .kQueueFull => s.refuse config i poolExhausted around.write
  else s.refuse config i poolExhausted around.write

def postOrder (i : Nat) (order : OrderIntent) : Server :=
  let (id, nextOrderId) := takeOrderId s.nextOrderId
  let s := { s with nextOrderId := nextOrderId }
  if id = 0 then s.refuse config i orderIdExhausted around.write
  else
    let request : Request :=
      { command := .kSubmit
        order := { order with alphaTimestampNs := around.orderNs, nowNs := around.orderNs, clientOrderId := id } }
    let s := s.record i fun peer => { peer with calls := peer.calls ++ [.submit request around.bridgeTakes] }
    if ¬ around.bridgeTakes then s.refuse config i queueFull around.write
    else if (acceptedText id).length ≥ 96 then s.refuse config i responseFormatFailed around.write
    else s.queueInlineJson config i 202 "Accepted" (acceptedText id) none around.write

def submitAsk (i : Nat) (request : Request) : Server :=
  let s := s.record i fun peer => { peer with calls := peer.calls ++ [.submit request around.bridgeTakes] }
  if ¬ around.bridgeTakes then
    ((s.releaseResponseId request.requestId).2.releasePositionsBody i).refuse config i queueFull around.write
  else
    ({ s with pending := s.pending ++ [request.requestId] }.record i fun peer =>
      { peer with issued := some request.requestId }).setClient i
      { s.clients i with
        requestId := request.requestId, command := request.command, waitingResponse := true,
        deadlineNs := waitDeadline config around.waitNs }

def ask (i : Nat) (command : Command) (orderId : UInt64) : Server :=
  let (id, nextRequestId) := takeHttpRequestId s.nextRequestId
  let s := { s with nextRequestId := nextRequestId }
  let request : Request := { command := command, requestId := id, orderId := orderId }
  if id = 0 then s.refuse config i requestIdExhausted around.write
  else
    match if command = .kPositions then s.reservePositionsBody i else (true, s) with
    | (false, s) => s.refuse config i positionsResponseBusy around.write
    | (true, s) =>
      match s.reserveResponseId id with
      | (false, s) => (s.releasePositionsBody i).refuse config i responseQueueFull around.write
      | (true, s) => s.submitAsk config around i request

def dispatchClient (keys : BearerKeyStore) (around : Surroundings) (i : Nat) : Server :=
  let client := s.clients i
  let routed := route keys config.websocket client.incoming client.headerSize client.requiredSize
  let s := s.record i fun peer => { peer with routed := some routed }
  match routed with
  | .refuse refusal => s.refuse config i refusal around.write
  | .upgrade id key preRead => s.upgradeClient config around i id key preRead
  | .submit order => s.postOrder config around i order
  | .ask command orderId => s.ask config around i command orderId

def readClient (keys : BearerKeyStore) (around : Surroundings) (i : Nat) (results : List Ws.RecvResult) : Server :=
  match (s.clients i).fd with
  | none => s
  | some fd =>
    match readLoop results (s.clients i) (s.peers fd) with
    | (.refuse refusal, client, peer) => ((s.setPeer fd peer).setClient i client).refuse config i refusal around.write
    | (.close, client, peer) => ((s.setPeer fd peer).setClient i client).closeClient i
    | (.done, client, peer) =>
      if client.complete then ((s.setPeer fd peer).setClient i client).dispatchClient config keys around i
      else (s.setPeer fd peer).setClient i client

/-! ## The event loop -/

/-- A connection without a slot: the response goes to the socket directly, as far as `send` takes it. -/
def rejectUnownedConnection (refusal : Refusal) (stream : List UInt8) (taken : Nat) : Peer :=
  let message := responseHead refusal.status refusal.reason (ascii refusal.body).length ++ ascii refusal.body
  { stream := stream, answer := some ⟨message, none⟩, sent := message.take taken, closed := true }

/-- One turn of the loop of `accept_clients`; `usable` is false when the socket cannot be made nonblocking. -/
def acceptClient (usable : Bool) (stream : List UInt8) (nowNs : UInt64) (taken : Nat) : Server :=
  let fd := s.accepted
  let s := { s with accepted := fd + 1 }
  if usable then
    match firstIndex (fun i => (s.clients i).fd = none) kMaxClientSlots with
    | none => s.setPeer fd (rejectUnownedConnection connectionPoolExhausted stream taken)
    | some i =>
      (s.setPeer fd { stream := stream }).setClient i { fd := some fd, deadlineNs := waitDeadline config nowNs }
  else s.setPeer fd { stream := stream, closed := true }

def drainResponse (response : Response) (write : Write) : Server :=
  let s := { s with pending := s.pending.erase response.requestId }
  match s.releaseResponseId response.requestId with
  | (false, s) => s
  | (true, s) =>
    let waits (i : Nat) : Bool :=
      (s.clients i).fd ≠ none ∧ (s.clients i).waitingResponse ∧ (s.clients i).requestId = response.requestId
    match firstIndex waits kMaxClientSlots with
    | none => s
    | some i => (s.setClient i { s.clients i with waitingResponse := false }).sendResponse config i response write

def expireClient (now : UInt64) (i : Nat) (write : Write) : Server :=
  let client := s.clients i
  if client.fd = none ∨ now < client.deadlineNs then s
  else if client.sendingResponse then s.closeClient i
  else if client.waitingResponse then s.refuse config i executionTimeout write
  else s.refuse config i requestTimeout write

def restart : Server :=
  let s := (List.range kMaxClientSlots).foldl closeClient s
  { s with outstandingResponseIds := fun _ => 0, positionsBody := [], positionsBodyOwner := none, pending := [] }

end Server

inductive ServerOp where
  | accept (usable : Bool) (stream : List UInt8) (nowNs : UInt64) (taken : Nat)
  | readable (i : Nat) (around : Surroundings) (results : List Ws.RecvResult)
  | writable (i : Nat) (send : SendResult)
  | hangup (i : Nat)
  | drain (response : Response) (write : Write)
  | expire (i : Nat) (now : UInt64) (write : Write)
  | restart
  /-- A listener elsewhere in the process takes a request id. -/
  | takeElsewhere

def ServerOp.step (config : ListenerConfig) (keys : BearerKeyStore) (op : ServerOp) (s : Server) : Unit × Server :=
  match op with
  | .accept usable stream nowNs taken => ((), s.acceptClient config usable stream nowNs taken)
  | .readable i around results =>
    if (s.clients i).sendingResponse ∨ (s.clients i).waitingResponse then ((), s)
    else ((), s.readClient config keys around i results)
  | .writable i send => ((), s.flushClient config i send)
  | .hangup i => if (s.clients i).fd = none then ((), s) else ((), s.closeClient i)
  | .drain response write => ((), s.drainResponse config response write)
  | .expire i now write => ((), s.expireClient config now i write)
  | .restart => ((), s.restart)
  | .takeElsewhere => ((), { s with nextRequestId := (takeHttpRequestId s.nextRequestId).2 })

end LuvFlicker.Http
