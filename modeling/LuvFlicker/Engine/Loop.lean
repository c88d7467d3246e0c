import LuvFlicker.Http.Bridge

/-!
# The engine

The HTTP thread gives the orders it receives ids from a counter of its own and
passes them to the bridge.
-/

namespace LuvFlicker

open Exec Http

structure RunConfig where
  httpPort : UInt16 := 0
  modelPath : Option String := none
  deriving DecidableEq, Repr

structure ServerConfig where
  firstOrderId : UInt32 := 1
  deriving DecidableEq, Repr

structure Engine where
  bridge : Bridge
  /-- `HttpServer::next_order_id_`. -/
  nextOrderId : UInt32
  /-- The counter of the strategy. -/
  clientOrderId : UInt32

structure Signal where
  symbol : Nat
  direction : Int
  price : Int64
  alphaTimestampNs : UInt64
  nowNs : UInt64

inductive EngineAction where
  /-- HTTP thread: an order in a request body that `submit_order` parsed. -/
  | post (order : OrderIntent)
  /-- HTTP thread: a query, a cancel or a positions request. -/
  | ask (request : Request) (asks : request.asks = true)
  /-- HTTP thread: `try_take_response`. -/
  | take
  /-- Execution thread: `process_one` up to and with its next queue operation. -/
  | process (env : GatewayEnv)
  /-- Execution thread: what follows the processing of a tick. -/
  | tick (signal : Signal) (env : GatewayEnv)
  /-- Execution thread: a fill of the simulated venue. -/
  | fill (symbol : Nat) (report : ExecutionReport) (env : GatewayEnv)
  /-- Execution thread: the way back from an order that could not leave. -/
  | reject (symbol : Nat) (orderId : UInt64) (env : GatewayEnv)

inductive EngineOutput where
  | idle
  /-- 202 with the order id. -/
  | accepted (orderId : UInt32)
  /-- 503, `order_id_exhausted`. -/
  | exhausted
  /-- 503, `queue_full`. -/
  | queueFull
  | bridge (output : Output)
  /-- The strategy's order was handed to `try_build`. -/
  | built (intent : OrderIntent) (reply : GatewayReply)

namespace Engine

def init (gateway : ExecutionGateway) : Engine where
  bridge := .init gateway
  nextOrderId := ({} : ServerConfig).firstOrderId
  clientOrderId := 1

def gateway (e : Engine) : ExecutionGateway := e.bridge.gateway

def onBridge (action : Action) (e : Engine) : EngineOutput × Engine :=
  (.bridge (e.bridge.step action).1, { e with bridge := (e.bridge.step action).2 })

def post (order : OrderIntent) (e : Engine) : EngineOutput × Engine :=
  let (id, nextOrderId) := takeOrderId e.nextOrderId
  let e := { e with nextOrderId := nextOrderId }
  if id = 0 then (.exhausted, e)
  else
    let request : Request := { command := .kSubmit, order := { order with clientOrderId := id } }
    match e.bridge.requests.tryPush request with
    | none => (.queueFull, e)
    | some requests => (.accepted id, { e with bridge := { e.bridge with requests := requests } })

def strategyIntent (signal : Signal) (e : Engine) : OrderIntent where
  symbolIdx := signal.symbol
  side := if signal.direction > 0 then kBuy else kSell
  qty := 1
  price := signal.price
  alphaTimestampNs := signal.alphaTimestampNs
  nowNs := signal.nowNs
  clientOrderId := e.clientOrderId

def trade (signal : Signal) (env : GatewayEnv) (e : Engine) : EngineOutput × Engine :=
  let intent := e.strategyIntent signal
  let (reply, gateway) := e.gateway.step ⟨.tryBuild intent {}, env⟩
  (.built intent reply, { e with bridge := { e.bridge with gateway := gateway }, clientOrderId := e.clientOrderId + 1 })

def step (config : RunConfig) (action : EngineAction) (e : Engine) : EngineOutput × Engine :=
  match action with
  | .post order => if config.httpPort = 0 then (.idle, e) else e.post order
  | .ask request _ => if config.httpPort = 0 then (.idle, e) else e.onBridge (.submit request)
  | .take => e.onBridge .take
  | .process env => e.onBridge (.process env {})
  | .tick signal env =>
    -- the thread is inside process_one, or there is no order to send
    if e.bridge.phase ≠ .idle ∨ config.modelPath = none ∨ signal.direction = 0 ∨ signal.price ≤ 0 then (.idle, e)
    else e.trade signal env
  | .fill symbol report env => e.onBridge (.call ⟨.executionReport symbol report, env⟩)
  | .reject symbol orderId env => e.onBridge (.call ⟨.rejectReport symbol orderId, env⟩)

end Engine

end LuvFlicker
