import DexAggregator.Authorize

set_option autoImplicit false

/-! # The handlers of `contract.rs`

`init`, `handle` and what they call. A handler takes the storage it runs on and returns the response
with the storage it leaves; on an error or a panic the host discards the storage, so none is
returned. -/

namespace DexAggregator

/-- `BLOCK_SIZE` of `constants.rs`. -/
def blockSize : ℕ := 256

/-! ## Message builders -/

/-- `snip20::send_msg` of the toolkit. -/
def sendMsg (recipient : HumanAddr) (amount : Uint128) (msg : Option Binary)
    (padding : Option String) (blockSize : ℕ) (callbackCodeHash : String)
    (contractAddr : HumanAddr) : CosmosMsg :=
  .snip20 (.send recipient amount msg padding) blockSize callbackCodeHash contractAddr

/-- `snip20::transfer_msg` of the toolkit. -/
def transferMsg (recipient : HumanAddr) (amount : Uint128) (padding : Option String)
    (blockSize : ℕ) (callbackCodeHash : String) (contractAddr : HumanAddr) : CosmosMsg :=
  .snip20 (.transfer recipient amount padding) blockSize callbackCodeHash contractAddr

/-- `snip20::redeem_msg` of the toolkit. -/
def redeemMsg (amount : Uint128) (denom padding : Option String) (blockSize : ℕ)
    (callbackCodeHash : String) (contractAddr : HumanAddr) : CosmosMsg :=
  .snip20 (.redeem amount denom padding) blockSize callbackCodeHash contractAddr

/-- `snip20::register_receive_msg` of the toolkit. -/
def registerReceiveMsg (yourContractsCodeHash : String) (padding : Option String) (blockSize : ℕ)
    (callbackCodeHash : String) (contractAddr : HumanAddr) : CosmosMsg :=
  .snip20 (.registerReceive yourContractsCodeHash padding) blockSize callbackCodeHash contractAddr

/-- `Snip20::Deposit { padding }.to_cosmos_msg(..)` of `msg.rs`. -/
def depositToCosmosMsg (padding : Option String) (blockSize : ℕ) (callbackCodeHash : String)
    (contractAddr : HumanAddr) (coin : Option Coin) : CosmosMsg :=
  -- can not have block size of 0
  let blockSize := if blockSize = 0 then 1 else blockSize
  .execute contractAddr callbackCodeHash (.deposit padding blockSize) coin.toList

/-- The self-call that every first hop queues last. -/
def finalizeRouteMsg (env : Env) : CosmosMsg :=
  .execute env.contract.address env.contractCodeHash (.handle .finalizeRoute) []

def hopMessages (hop : Hop) (amount : Uint128) (env : Env) : Outcome (List CosmosMsg) :=
  match hop.fromToken with
  | .snip20 ⟨address, contractHash⟩ =>
    if hop.shadeProtocolRouterPath.isSome then do
      let smartContract ← unwrap hop.smartContract
      let path ← unwrap hop.shadeProtocolRouterPath
      return [sendMsg smartContract.address amount (some (.swapTokensForExact path)) none blockSize
        contractHash address]
    else if hop.migrateToToken.isSome then do
      let smartContract ← unwrap hop.smartContract
      let migrateToToken ← unwrap hop.migrateToToken
      return [sendMsg smartContract.address amount none none blockSize contractHash address,
        sendMsg env.contract.address amount none none blockSize migrateToToken.contractHash
          migrateToToken.address]
    else if hop.redeemDenom.isSome then do
      let redeemDenom ← unwrap hop.redeemDenom
      return [redeemMsg amount hop.redeemDenom none blockSize contractHash address,
        .execute env.contract.address env.contractCodeHash
          (.handle (.receive env.contract.address none amount)) [⟨redeemDenom, amount⟩]]
    else do
      let smartContract ← unwrap hop.smartContract
      -- expected_return is none: slippage is not checked mid-route
      return [sendMsg smartContract.address amount (some (.swap none (some env.contract.address)))
        none blockSize contractHash address]
  | .native ⟨address, contractHash⟩ => do
    let redeemDenom ← unwrap hop.redeemDenom
    return [depositToCosmosMsg none blockSize contractHash address (some ⟨redeemDenom, amount⟩),
      sendMsg env.contract.address amount none none blockSize contractHash address]

/-! ## The handlers -/

/-- Load `CONFIG_KEY`. -/
def loadConfig (storage : Storage) : Outcome Config :=
  match storage.config with
  | some config => .ok config
  | none => .error (.err .notFound)

def init (storage : Storage) (env : Env) : Outcome (InitResponse × Storage) :=
  .ok (⟨[], []⟩, { storage with config := some ⟨env.message.sender⟩ })

/-- The first message of a route: store the remaining route, execute the first hop, and queue the
    `FinalizeRoute` that reverts the transaction unless the route was completed. -/
def handleFirstHop (storage : Storage) (env : Env) (fromAddr : HumanAddr) (msg : Binary)
    (amount : Uint128) : Outcome (HandleResponse × Storage) := do
  let route ← fromBinary msg
  if route.hops.length < 2 then
    throw (.err (.genericErr "Route must have at least 2 hops."))
  else
    let firstHop ← unwrap route.hops.head?
    let hops := route.hops.tail
    validateReceivedToken firstHop.fromToken amount env
    validateUserIsTheReceiver firstHop.fromToken fromAddr route.to env.message.sender
    let messages ← hopMessages firstHop amount env
    return (⟨messages ++ [finalizeRouteMsg env], [], none⟩,
      { storage with routeState := some ⟨firstHop, { route with hops := hops }⟩ })

/-- The message that sends `amount` of the asset of the last hop to `recipient`: `build` builds the
    Snip20 message, a native coin goes through the bank in the denom of the current hop. -/
def payoutMsg (env : Env) (currentHop nextHop : Hop) (recipient : HumanAddr) (amount : Uint128)
    (build : SecretContract → CosmosMsg) : Outcome CosmosMsg :=
  match nextHop.fromToken with
  | .snip20 contract => .ok (build contract)
  | .native _ => do
    let denom ← unwrap currentHop.redeemDenom
    return .bankSend env.contract.address recipient [⟨denom, amount⟩]

/-- Send the excess over the estimate to the admin; the second component is the amount that is left
    for the user. -/
def sendExcess (config : Config) (env : Env) (currentHop nextHop : Hop)
    (amount estimatedAmount : Uint128) : Outcome (List CosmosMsg × Uint128) :=
  if estimatedAmount.u128 < amount.u128 then do
    let excess ← unwrapResult (amount.sub estimatedAmount)
    let message ← payoutMsg env currentHop nextHop config.admin excess fun contract =>
      transferMsg config.admin excess none blockSize contract.contractHash contract.address
    return ([message], estimatedAmount)
  else return ([], amount)

/-- The messages and the log of the last hop. -/
def lastHopMessages (config : Config) (env : Env) (currentHop nextHop : Hop) (amount : Uint128)
    (route : Route) : Outcome (List CosmosMsg × List LogAttribute) :=
  if amount.u128 < route.minimumAcceptableAmount.u128 then
    throw (.err (.genericErr "Operation fell short of minimum_acceptable_amount"))
  else do
    let (messages, amount) ← sendExcess config env currentHop nextHop amount route.estimatedAmount
    let message ← payoutMsg env currentHop nextHop route.to amount fun contract =>
      sendMsg route.to amount none none blockSize contract.contractHash contract.address
    return (messages ++ [message], [⟨"return_amount", toString amount.u128⟩])

/-- The messages and the log of `handleHop` on `nextHop`, with `route.hops` still to come. -/
def nextHopMessages (config : Config) (env : Env) (currentHop nextHop : Hop) (amount : Uint128)
    (route : Route) : Outcome (List CosmosMsg × List LogAttribute) :=
  if route.hops.isEmpty then lastHopMessages config env currentHop nextHop amount route
  else do
    let messages ← hopMessages nextHop amount env
    return (messages, [])

def handleHop (storage : Storage) (env : Env) (fromAddr : HumanAddr) (amount : Uint128) :
    Outcome (HandleResponse × Storage) := do
  let config ← loadConfig storage
  match storage.routeState with
  | some ⟨currentHop, ⟨hops, estimatedAmount, minimumAcceptableAmount, «to»⟩⟩ =>
    match hops with
    | [] => throw (.err (.genericErr "Route must be at least 1 hop."))
    | nextHop :: hops =>
      let route : Route := ⟨hops, estimatedAmount, minimumAcceptableAmount, «to»⟩
      validateReceivedToken nextHop.fromToken amount env
      validateReceivedFromAnAllowedAddress currentHop nextHop env fromAddr
      let (messages, logs) ← nextHopMessages config env currentHop nextHop amount route
      return (⟨messages, logs, none⟩, { storage with routeState := some ⟨nextHop, route⟩ })
  | none => throw (.err (.genericErr "cannot find route"))

def finalizeRoute (storage : Storage) (env : Env) : Outcome (HandleResponse × Storage) :=
  match storage.routeState with
  | some ⟨_, remainingRoute⟩ => do
    authorize env.contract.address env.message.sender
    if !remainingRoute.hops.isEmpty then
      throw (.err (.genericErrRoute "cannot finalize: route still contains hops: " remainingRoute))
    else
      return (.default, { storage with routeState := none })
  | none => throw (.err (.genericErr "no route to finalize"))

def registerTokens (storage : Storage) (env : Env) (tokens : List SecretContract) :
    Outcome (HandleResponse × Storage) :=
  .ok (⟨tokens.map fun token =>
    registerReceiveMsg env.contractCodeHash none blockSize token.contractHash token.address,
    [], none⟩, storage)

def rescueTokens (storage : Storage) (env : Env) (amount : Uint128) (denom : Option String)
    (token : Option SecretContract) : Outcome (HandleResponse × Storage) := do
  let config ← unwrapResult (loadConfig storage)
  authorize config.admin env.message.sender
  let coins := denom.toList.map fun denom =>
    .bankSend env.contract.address config.admin [⟨denom, amount⟩]
  let tokens := token.toList.map fun token =>
    transferMsg config.admin amount none blockSize token.contractHash token.address
  return (⟨coins ++ tokens, [], none⟩, storage)

def handle (storage : Storage) (env : Env) : HandleMsg → Outcome (HandleResponse × Storage)
  | .receive fromAddr (some msg) amount => handleFirstHop storage env fromAddr msg amount
  | .receive fromAddr none amount => handleHop storage env fromAddr amount
  | .finalizeRoute => finalizeRoute storage env
  | .registerTokens tokens => registerTokens storage env tokens
  | .rescueTokens amount denom token => rescueTokens storage env amount denom token

end DexAggregator
