import Mathlib.Logic.Function.Basic
import DexAggregator.Documents

set_option autoImplicit false

/-! # The contract on bytes

The contract as it runs: its storage maps keys to bytes, the messages it receives and sends are
bytes, and the handlers are in the order of the source, so that a storage that was already written
is lost with an error that follows. One call of it does what `handle` does on the values that the
bytes stand for (`Serde.run_handle`). -/

namespace DexAggregator

/-- The storage of the contract. -/
abbrev RawStorage := Bytes → Option Bytes

/-- Code that runs on the storage. An error or a panic takes it back. -/
abbrev Deps (α : Type) := StateT RawStorage Outcome α

/-- The messages of a response, with their content as bytes. -/
inductive RawCosmosMsg where
  | execute (contractAddr : HumanAddr) (callbackCodeHash : String) (msg : Bytes) (send : List Coin)
  | bankSend (fromAddress toAddress : HumanAddr) (amount : List Coin)

structure RawHandleResponse where
  messages : List RawCosmosMsg
  log : List LogAttribute
  data : Option Bytes

namespace Serde

variable (serde : Serde)

/-! ## Values as bytes -/

/-- The bytes of a document that is attached to a message. -/
def document : Binary → Bytes
  | .route route => serde.toBinary Route.codec route
  | .swapTokensForExact path => serde.toBinary swapTokensForExactCodec (path, ())
  | .swap expectedReturn receiver => serde.toBinary swapCodec (expectedReturn, receiver, ())
  | .other bytes => bytes.map UInt8.ofNat

/-- The document that bytes stand for. -/
def documentOf (bytes : Bytes) : Binary :=
  match (serde.fromSlice bytes).bind Route.codec.decode with
  | some route => .route route
  | none => .other (bytes.map UInt8.toNat)

def rawHandleMsg : HandleMsg → RawHandleMsg
  | .receive fromAddr msg amount => .receive fromAddr (msg.map serde.document) amount
  | .finalizeRoute => .finalizeRoute
  | .registerTokens tokens => .registerTokens tokens
  | .rescueTokens amount denom token => .rescueTokens amount denom token

def handleMsgOf : RawHandleMsg → HandleMsg
  | .receive fromAddr msg amount => .receive fromAddr (msg.map serde.documentOf) amount
  | .finalizeRoute => .finalizeRoute
  | .registerTokens tokens => .registerTokens tokens
  | .rescueTokens amount denom token => .rescueTokens amount denom token

def rawSnip20Msg : Snip20Msg → RawSnip20Msg
  | .send recipient amount msg padding => .send recipient amount (msg.map serde.document) padding
  | .transfer recipient amount padding => .transfer recipient amount padding
  | .redeem amount denom padding => .redeem amount denom padding
  | .registerReceive codeHash padding => .registerReceive codeHash padding

/-- What the message builders make of their arguments. -/
def rawCosmosMsg : CosmosMsg → RawCosmosMsg
  | .execute contractAddr callbackCodeHash (.handle msg) send =>
    .execute contractAddr callbackCodeHash
      (serde.toBinary serde.handleMsg (serde.rawHandleMsg msg)) send
  | .execute contractAddr callbackCodeHash (.deposit padding blockSize) send =>
    .execute contractAddr callbackCodeHash
      (serde.spacePad blockSize (serde.toBinary depositCodec (padding, ()))) send
  | .bankSend fromAddress toAddress amount => .bankSend fromAddress toAddress amount
  | .snip20 msg blockSize callbackCodeHash contractAddr =>
    .execute contractAddr callbackCodeHash
      (serde.spacePad blockSize (serde.toVec (serde.snip20 (serde.rawSnip20Msg msg)))) []

def rawResponse (response : HandleResponse) : RawHandleResponse :=
  ⟨response.messages.map serde.rawCosmosMsg, response.log, response.data.map serde.document⟩

/-! ## The storage -/

def routeStateKey : Bytes := serde.toLengthPrefixed keyRouteState

def loadConfig : Deps Config := do
  match (← get) configKey with
  | none => throw (.err .notFound)
  | some bytes =>
    match serde.deserialize bytes with
    | some config => return config
    | none => throw (.err .parseErr)

def storeConfig (config : Config) : Deps Unit :=
  modify fun storage => Function.update storage configKey (some (serde.serialize config))

def storeRouteState (data : RouteState) : Deps Unit :=
  modify fun storage =>
    Function.update storage serde.routeStateKey (some (serde.toBinary RouteState.codec data))

def readRouteState : Deps (Option RouteState) := do
  match (← get) serde.routeStateKey with
  | none => return none
  | some bytes =>
    let data ← serde.fromBinary RouteState.codec bytes
    return some data

def deleteRouteState : Deps Unit :=
  modify fun storage => Function.update storage serde.routeStateKey none

/-! ## The handlers -/

def init (env : Env) : Deps InitResponse := do
  serde.storeConfig ⟨env.message.sender⟩
  return ⟨[], []⟩

def handleFirstHop (env : Env) (fromAddr : HumanAddr) (msg : Bytes) (amount : Uint128) :
    Deps RawHandleResponse := do
  let route ← serde.fromBinary Route.codec msg
  if route.hops.length < 2 then
    throw (.err (.genericErr "Route must have at least 2 hops."))
  let firstHop ← unwrap route.hops.head?
  let hops := route.hops.tail
  validateReceivedToken firstHop.fromToken amount env
  validateUserIsTheReceiver firstHop.fromToken fromAddr route.to env.message.sender
  serde.storeRouteState ⟨firstHop, { route with hops := hops }⟩
  let messages ← hopMessages firstHop amount env
  return serde.rawResponse ⟨messages ++ [finalizeRouteMsg env], [], none⟩

def handleHop (env : Env) (fromAddr : HumanAddr) (amount : Uint128) : Deps RawHandleResponse := do
  let config ← serde.loadConfig
  match ← serde.readRouteState with
  | some ⟨currentHop, ⟨hops, estimatedAmount, minimumAcceptableAmount, «to»⟩⟩ =>
    match hops with
    | [] => throw (.err (.genericErr "Route must be at least 1 hop."))
    | nextHop :: hops =>
      let route : Route := ⟨hops, estimatedAmount, minimumAcceptableAmount, «to»⟩
      validateReceivedToken nextHop.fromToken amount env
      validateReceivedFromAnAllowedAddress currentHop nextHop env fromAddr
      let (messages, logs) ← nextHopMessages config env currentHop nextHop amount route
      serde.storeRouteState ⟨nextHop, route⟩
      return serde.rawResponse ⟨messages, logs, none⟩
  | none => throw (.err (.genericErr "cannot find route"))

def finalizeRoute (env : Env) : Deps RawHandleResponse := do
  match ← serde.readRouteState with
  | some ⟨_, remainingRoute⟩ =>
    authorize env.contract.address env.message.sender
    if !remainingRoute.hops.isEmpty then
      throw (.err (.genericErrRoute "cannot finalize: route still contains hops: " remainingRoute))
    serde.deleteRouteState
    return serde.rawResponse .default
  | none => throw (.err (.genericErr "no route to finalize"))

def registerTokens (env : Env) (tokens : List SecretContract) : Deps RawHandleResponse :=
  return serde.rawResponse ⟨tokens.map fun token =>
    registerReceiveMsg env.contractCodeHash none blockSize token.contractHash token.address, [],
    none⟩

def rescueTokens (env : Env) (amount : Uint128) (denom : Option String)
    (token : Option SecretContract) : Deps RawHandleResponse := do
  -- the load is unwrapped, so that it panics where the other handlers return an error
  let config ← fun storage => unwrapResult (serde.loadConfig storage)
  authorize config.admin env.message.sender
  let coins := denom.toList.map fun denom =>
    .bankSend env.contract.address config.admin [⟨denom, amount⟩]
  let tokens := token.toList.map fun token =>
    transferMsg config.admin amount none blockSize token.contractHash token.address
  return serde.rawResponse ⟨coins ++ tokens, [], none⟩

def handle (env : Env) : RawHandleMsg → Deps RawHandleResponse
  | .receive fromAddr (some msg) amount => serde.handleFirstHop env fromAddr msg amount
  | .receive fromAddr none amount => serde.handleHop env fromAddr amount
  | .finalizeRoute => serde.finalizeRoute env
  | .registerTokens tokens => serde.registerTokens env tokens
  | .rescueTokens amount denom token => serde.rescueTokens env amount denom token

def query : QueryMsg → Deps Bytes
  | .config => do
    let config ← serde.loadConfig
    return serde.toBinary Config.codec config

/-! ## The entry points of `lib.rs` -/

def doInit (env : Env) (msg : Bytes) : Deps InitResponse := do
  let _ ← serde.fromBinary initMsg msg
  serde.init env

def doHandle (env : Env) (msg : Bytes) : Deps RawHandleResponse := do
  let msg ← serde.fromBinary serde.handleMsg msg
  serde.handle env msg

def doQuery (msg : Bytes) : Deps Bytes := do
  let msg ← serde.fromBinary QueryMsg.codec msg
  serde.query msg

/-! ## One call -/

/-- The bytes of a storage. -/
def storage (storage : Storage) : RawStorage := fun key =>
  if key = configKey then storage.config.map serde.serialize
  else if key = serde.routeStateKey then
    storage.routeState.map (serde.toBinary RouteState.codec)
  else none

/-- The response and the storage of a call, as bytes. -/
def raw (r : HandleResponse × Storage) : RawHandleResponse × RawStorage :=
  (serde.rawResponse r.1, serde.storage r.2)

theorem routeStateKey_ne : serde.routeStateKey ≠ configKey := by
  intro h
  have hlength : serde.routeStateKey.length = keyRouteState.length + 2 :=
    serde.length_toLengthPrefixed keyRouteState
  rw [h] at hlength
  exact absurd hlength (by decide)

variable {serde} (s : Storage) {env : Env}

@[simp] theorem storage_configKey :
    serde.storage s configKey = s.config.map serde.serialize := by
  simp [storage]

@[simp] theorem storage_routeStateKey : serde.storage s serde.routeStateKey
    = s.routeState.map (serde.toBinary RouteState.codec) := by
  simp [storage, serde.routeStateKey_ne]

theorem update_configKey (config : Config) :
    Function.update (serde.storage s) configKey (some (serde.serialize config))
      = serde.storage { s with config := some config } := by
  funext key
  by_cases hkey : key = configKey <;> simp [storage, hkey]

theorem update_routeStateKey (state : Option RouteState) :
    Function.update (serde.storage s) serde.routeStateKey
        (state.map (serde.toBinary RouteState.codec))
      = serde.storage { s with routeState := state } := by
  funext key
  by_cases hkey : key = serde.routeStateKey
  · subst hkey
    simp
  · simp [storage, hkey]

/-! ### The storage functions on the bytes of a storage -/

theorem run_loadConfig : serde.loadConfig.run (serde.storage s)
    = (·, serde.storage s) <$> DexAggregator.loadConfig s := by
  cases hconfig : s.config with
  | none =>
      simp only [Serde.loadConfig, DexAggregator.loadConfig, hconfig, StateT.run_bind,
        StateT.run_get, pure_bind, storage_configKey, Option.map_none]
      rfl
  | some config =>
      simp [Serde.loadConfig, DexAggregator.loadConfig, hconfig, serde.deserialize_serialize]

theorem run_readRouteState :
    serde.readRouteState.run (serde.storage s) = .ok (s.routeState, serde.storage s) := by
  cases hstate : s.routeState with
  | none => simp [Serde.readRouteState, hstate]
  | some state => simp [Serde.readRouteState, hstate]

theorem run_storeRouteState (data : RouteState) :
    (serde.storeRouteState data).run (serde.storage s)
      = .ok ((), serde.storage { s with routeState := some data }) :=
  congrArg (fun t => Except.ok ((), t)) (update_routeStateKey s (some data))

theorem run_deleteRouteState : serde.deleteRouteState.run (serde.storage s)
    = .ok ((), serde.storage { s with routeState := none }) :=
  congrArg (fun t => Except.ok ((), t)) (update_routeStateKey s none)

/-! ### The handlers on the bytes of a storage -/

theorem ok_bind {α β : Type} (a : α) (f : α → Outcome β) :
    (Except.ok a >>= f) = f a := rfl

theorem bind_ok_comp {α β : Type} (x : Outcome α) (f : α → β) :
    (x >>= fun a => .ok (f a)) = f <$> x := by
  cases x <;> rfl

theorem fromBinary_documentOf (bytes : Bytes) :
    DexAggregator.fromBinary (serde.documentOf bytes) = serde.fromBinary Route.codec bytes := by
  unfold Serde.documentOf Serde.fromBinary
  split
  · next h => rw [h]; rfl
  · next h => rw [h]; rfl

/-- The documents that the contract attaches to a message to swap are not routes. -/
theorem fromBinary_document (b : Binary) (hother : ∀ bytes, b ≠ .other bytes) :
    serde.fromBinary Route.codec (serde.document b) = DexAggregator.fromBinary b := by
  have hnone : ∀ doc, Route.codec.decode doc = none →
      serde.fromBinary Route.codec (serde.toVec doc) = .error (.err .parseErr) := by
    intro doc hdoc
    rw [Serde.fromBinary, serde.fromSlice_toVec, Option.bind_some, hdoc]
  cases b with
  | route route => exact serde.fromBinary_toBinary Route.codec route
  | swapTokensForExact path =>
      refine hnone _ (Json.Codec.decode_refine_eq_none (Json.object_decode_eq_none ?_ _) _ _ _)
      show "hops" ∉ ["swap_tokens_for_exact"]
      decide
  | swap expectedReturn receiver =>
      refine hnone _ (Json.Codec.decode_refine_eq_none (Json.object_decode_eq_none ?_ _) _ _ _)
      show "hops" ∉ ["swap"]
      decide
  | other bytes => exact absurd rfl (hother bytes)

theorem run_handleFirstHop (fromAddr : HumanAddr) (msg : Bytes) (amount : Uint128) :
    (serde.handleFirstHop env fromAddr msg amount).run (serde.storage s)
      = serde.raw <$>
        DexAggregator.handleFirstHop s env fromAddr (serde.documentOf msg) amount := by
  rw [Serde.handleFirstHop, DexAggregator.handleFirstHop, fromBinary_documentOf]
  cases serde.fromBinary Route.codec msg with
  | error e => rfl
  | ok route =>
      by_cases hlen : route.hops.length < 2
      · simp only [ExceptT.stM_eq, bind_pure_comp, StateT.run_bind, StateT.run_monadLift,
          monadLift_self, Except.map_ok, ok_bind, hlen, if_true, StateT.run_throw, StateT.run_map,
          Functor.map_map, bind_map_left]
        rfl
      · simp only [ExceptT.stM_eq, bind_pure_comp, StateT.run_bind, StateT.run_monadLift,
          monadLift_self, Except.map_ok, ok_bind, hlen, if_false, StateT.run_map, Functor.map_map,
          bind_map_left, run_storeRouteState, map_bind, Serde.raw]

theorem run_handleHop (fromAddr : HumanAddr) (amount : Uint128) :
    (serde.handleHop env fromAddr amount).run (serde.storage s)
      = serde.raw <$> DexAggregator.handleHop s env fromAddr amount := by
  rw [Serde.handleHop, DexAggregator.handleHop, StateT.run_bind, run_loadConfig]
  cases DexAggregator.loadConfig s with
  | error e => rfl
  | ok config =>
      rcases hstate : s.routeState with _ | ⟨currentHop, hops, estimatedAmount, minimum, receiver⟩
      · simp [ok_bind, run_readRouteState, hstate]
        rfl
      · cases hops with
        | nil =>
            simp [ok_bind, run_readRouteState, hstate]
            rfl
        | cons nextHop hops =>
            simp [ok_bind, bind_ok_comp, run_readRouteState, hstate, run_storeRouteState, Serde.raw]

theorem run_finalizeRoute : (serde.finalizeRoute env).run (serde.storage s)
    = serde.raw <$> DexAggregator.finalizeRoute s env := by
  rw [Serde.finalizeRoute, DexAggregator.finalizeRoute, StateT.run_bind, run_readRouteState]
  rcases s.routeState with _ | ⟨currentHop, route⟩
  · rfl
  · by_cases hhops : route.hops = []
    · simp [ok_bind, bind_ok_comp, hhops, run_deleteRouteState, Serde.raw]
    · simp [ok_bind, hhops]
      rfl

theorem run_rescueTokens (amount : Uint128) (denom : Option String)
    (token : Option SecretContract) :
    (serde.rescueTokens env amount denom token).run (serde.storage s)
      = serde.raw <$> DexAggregator.rescueTokens s env amount denom token := by
  have hload : unwrapResult (serde.loadConfig.run (serde.storage s))
      = (·, serde.storage s) <$> unwrapResult (DexAggregator.loadConfig s) := by
    rw [run_loadConfig]
    cases DexAggregator.loadConfig s <;> rfl
  rw [Serde.rescueTokens, DexAggregator.rescueTokens, StateT.run_bind]
  show (unwrapResult (serde.loadConfig.run (serde.storage s)) >>= _) = _
  rw [hload]
  simp [Serde.raw]

/-- A call on the bytes of a storage does what `handle` does on the storage, errors included. -/
theorem run_handle (msg : RawHandleMsg) : (serde.handle env msg).run (serde.storage s)
    = serde.raw <$> DexAggregator.handle s env (serde.handleMsgOf msg) := by
  match msg with
  | .receive fromAddr (some msg) amount => exact run_handleFirstHop s fromAddr msg amount
  | .receive fromAddr none amount => exact run_handleHop s fromAddr amount
  | .finalizeRoute => exact run_finalizeRoute s
  | .registerTokens tokens => rfl
  | .rescueTokens amount denom token => exact run_rescueTokens s amount denom token

theorem run_init : (serde.init env).run (serde.storage s)
    = (fun r => (r.1, serde.storage r.2)) <$> DexAggregator.init s env := by
  show Except.ok (_, Function.update (serde.storage s) configKey _) = _
  rw [update_configKey]
  rfl

theorem run_query : (serde.query .config).run (serde.storage s)
    = (fun config => (serde.toBinary Config.codec config, serde.storage s))
      <$> DexAggregator.loadConfig s := by
  rw [Serde.query, StateT.run_bind, run_loadConfig]
  simp

end Serde

end DexAggregator
