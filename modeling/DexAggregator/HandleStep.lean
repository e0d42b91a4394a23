import DexAggregator.Contract

set_option autoImplicit false

/-! # What a successful call can do

One inductive view for each function with branches: `HopMessages` for `hopMessages`,
`LastHopMessages` for `lastHopMessages`, and `HandleStep` for `handle`. Each is equivalent to the
success of its function and lists everything that success says, so that the proofs about calls are
case analyses on these views and unfold no handler. -/

namespace DexAggregator

/-! ## The messages of a hop -/

/-- The branches of `hopMessages`, in the order in which it tries them. -/
inductive HopMessages (hop : Hop) (amount : Uint128) (env : Env) : List CosmosMsg → Prop
  | shade {token smartContract : SecretContract} {path : List SecretContractForShadeProtocol} :
      hop.fromToken = .snip20 token → hop.shadeProtocolRouterPath = some path →
      hop.smartContract = some smartContract →
      HopMessages hop amount env [sendMsg smartContract.address amount
        (some (.swapTokensForExact path)) none blockSize token.contractHash token.address]
  | migrate {token smartContract migrateToToken : SecretContract} :
      hop.fromToken = .snip20 token → hop.shadeProtocolRouterPath = none →
      hop.migrateToToken = some migrateToToken → hop.smartContract = some smartContract →
      HopMessages hop amount env
        [sendMsg smartContract.address amount none none blockSize token.contractHash token.address,
          sendMsg env.contract.address amount none none blockSize migrateToToken.contractHash
            migrateToToken.address]
  | redeem {token : SecretContract} {denom : String} :
      hop.fromToken = .snip20 token → hop.shadeProtocolRouterPath = none →
      hop.migrateToToken = none → hop.redeemDenom = some denom →
      HopMessages hop amount env
        [redeemMsg amount (some denom) none blockSize token.contractHash token.address,
          .execute env.contract.address env.contractCodeHash
            (.handle (.receive env.contract.address none amount)) [⟨denom, amount⟩]]
  | swap {token smartContract : SecretContract} :
      hop.fromToken = .snip20 token → hop.shadeProtocolRouterPath = none →
      hop.migrateToToken = none → hop.redeemDenom = none →
      hop.smartContract = some smartContract →
      HopMessages hop amount env [sendMsg smartContract.address amount
        (some (.swap none (some env.contract.address))) none blockSize token.contractHash
        token.address]
  | deposit {token : SecretContract} {denom : String} :
      hop.fromToken = .native token → hop.redeemDenom = some denom →
      HopMessages hop amount env
        [depositToCosmosMsg none blockSize token.contractHash token.address (some ⟨denom, amount⟩),
          sendMsg env.contract.address amount none none blockSize token.contractHash token.address]

theorem hopMessages_iff {hop : Hop} {amount : Uint128} {env : Env} {messages : List CosmosMsg} :
    hopMessages hop amount env = .ok messages ↔ HopMessages hop amount env messages := by
  constructor
  · intro h
    cases htoken : hop.fromToken with
    | native token =>
        simp only [hopMessages, htoken, bind_eq_ok, unwrap_eq_ok, pure_eq_ok] at h
        obtain ⟨denom, hredeem, rfl⟩ := h
        exact .deposit htoken hredeem
    | snip20 token =>
        -- the fields are looked at in the order of the branches
        cases hpath : hop.shadeProtocolRouterPath with
        | some path =>
            simp only [hopMessages, htoken, hpath, Option.isSome_some, if_true, bind_eq_ok,
              unwrap_eq_ok, pure_eq_ok] at h
            obtain ⟨contract, hsmart, _, ⟨⟩, rfl⟩ := h
            exact .shade htoken hpath hsmart
        | none =>
            cases hmigrate : hop.migrateToToken with
            | some migrateToToken =>
                simp only [hopMessages, htoken, hpath, hmigrate, Option.isSome_none,
                  Option.isSome_some, Bool.false_eq_true, if_false, if_true, bind_eq_ok,
                  unwrap_eq_ok, pure_eq_ok] at h
                obtain ⟨contract, hsmart, _, ⟨⟩, rfl⟩ := h
                exact .migrate htoken hpath hmigrate hsmart
            | none =>
                cases hredeem : hop.redeemDenom with
                | some denom =>
                    simp only [hopMessages, htoken, hpath, hmigrate, hredeem, Option.isSome_none,
                      Option.isSome_some, Bool.false_eq_true, if_false, if_true, bind_eq_ok,
                      unwrap_eq_ok, pure_eq_ok] at h
                    obtain ⟨_, ⟨⟩, rfl⟩ := h
                    exact .redeem htoken hpath hmigrate hredeem
                | none =>
                    simp only [hopMessages, htoken, hpath, hmigrate, hredeem, Option.isSome_none,
                      Bool.false_eq_true, if_false, bind_eq_ok, unwrap_eq_ok, pure_eq_ok] at h
                    obtain ⟨contract, hsmart, rfl⟩ := h
                    exact .swap htoken hpath hmigrate hredeem hsmart
  · intro h
    cases h with
    | shade htoken hpath hsmart =>
        simp [-bind_pure_comp, hopMessages, htoken, hpath, hsmart]
    | migrate htoken hpath hmigrate hsmart =>
        simp [-bind_pure_comp, hopMessages, htoken, hpath, hmigrate, hsmart]
    | redeem htoken hpath hmigrate hredeem =>
        simp [-bind_pure_comp, hopMessages, htoken, hpath, hmigrate, hredeem]
    | swap htoken hpath hmigrate hredeem hsmart =>
        simp [-bind_pure_comp, hopMessages, htoken, hpath, hmigrate, hredeem, hsmart]
    | deposit htoken hredeem =>
        simp [-bind_pure_comp, hopMessages, htoken, hredeem]

/-! ## The messages of the last hop -/

/-- The branches of `lastHopMessages`: the asset of the last hop is a Snip20 token or a native coin,
    and the amount received is within the estimate or exceeds it. -/
inductive LastHopMessages (config : Config) (env : Env) (currentHop nextHop : Hop)
    (amount : Uint128) (route : Route) : List CosmosMsg → List LogAttribute → Prop
  | snip20 {token : SecretContract} :
      nextHop.fromToken = .snip20 token →
      route.minimumAcceptableAmount.u128 ≤ amount.u128 →
      amount.u128 ≤ route.estimatedAmount.u128 →
      LastHopMessages config env currentHop nextHop amount route
        [sendMsg route.to amount none none blockSize token.contractHash token.address]
        [⟨"return_amount", toString amount.u128⟩]
  | snip20Excess {token : SecretContract} {excess : Uint128} :
      nextHop.fromToken = .snip20 token →
      route.minimumAcceptableAmount.u128 ≤ amount.u128 →
      route.estimatedAmount.u128 < amount.u128 →
      excess.u128 = amount.u128 - route.estimatedAmount.u128 →
      LastHopMessages config env currentHop nextHop amount route
        [transferMsg config.admin excess none blockSize token.contractHash token.address,
          sendMsg route.to route.estimatedAmount none none blockSize token.contractHash
            token.address]
        [⟨"return_amount", toString route.estimatedAmount.u128⟩]
  | native {token : SecretContract} {denom : String} :
      nextHop.fromToken = .native token → currentHop.redeemDenom = some denom →
      route.minimumAcceptableAmount.u128 ≤ amount.u128 →
      amount.u128 ≤ route.estimatedAmount.u128 →
      LastHopMessages config env currentHop nextHop amount route
        [.bankSend env.contract.address route.to [⟨denom, amount⟩]]
        [⟨"return_amount", toString amount.u128⟩]
  | nativeExcess {token : SecretContract} {denom : String} {excess : Uint128} :
      nextHop.fromToken = .native token → currentHop.redeemDenom = some denom →
      route.minimumAcceptableAmount.u128 ≤ amount.u128 →
      route.estimatedAmount.u128 < amount.u128 →
      excess.u128 = amount.u128 - route.estimatedAmount.u128 →
      LastHopMessages config env currentHop nextHop amount route
        [.bankSend env.contract.address config.admin [⟨denom, excess⟩],
          .bankSend env.contract.address route.to [⟨denom, route.estimatedAmount⟩]]
        [⟨"return_amount", toString route.estimatedAmount.u128⟩]

variable {config : Config} {env : Env} {currentHop nextHop : Hop} {amount : Uint128} {route : Route}
  {messages : List CosmosMsg} {logs : List LogAttribute}

theorem payoutMsg_snip20 {token : SecretContract} (h : nextHop.fromToken = .snip20 token)
    (recipient : HumanAddr) (build : SecretContract → CosmosMsg) :
    payoutMsg env currentHop nextHop recipient amount build = .ok (build token) := by
  simp [payoutMsg, h]

theorem payoutMsg_native {token : SecretContract} (h : nextHop.fromToken = .native token)
    (recipient : HumanAddr) (build : SecretContract → CosmosMsg) (message : CosmosMsg) :
    payoutMsg env currentHop nextHop recipient amount build = .ok message
      ↔ ∃ denom, currentHop.redeemDenom = some denom ∧
        .bankSend env.contract.address recipient [⟨denom, amount⟩] = message := by
  simp only [payoutMsg, h, bind_eq_ok, unwrap_eq_ok, pure_eq_ok]

theorem lastHopMessages_iff :
    lastHopMessages config env currentHop nextHop amount route = .ok (messages, logs)
      ↔ LastHopMessages config env currentHop nextHop amount route messages logs := by
  constructor
  · intro h
    unfold lastHopMessages at h
    split at h
    · cases h
    · next hmin =>
        have hmin : route.minimumAcceptableAmount.u128 ≤ amount.u128 := Nat.le_of_not_lt hmin
        simp only [bind_eq_ok, pure_eq_ok, Prod.mk.injEq] at h
        obtain ⟨⟨fees, paid⟩, hfees, payout, hpayout, rfl, rfl⟩ := h
        unfold sendExcess at hfees
        split at hfees
        · next hexcess =>
            simp only [bind_eq_ok, unwrapResult_eq_ok, Uint128.sub_eq_ok, pure_eq_ok,
              Prod.mk.injEq] at hfees
            obtain ⟨excess, ⟨_, hsub⟩, fee, hfee, rfl, rfl⟩ := hfees
            cases htoken : nextHop.fromToken with
            | snip20 token =>
                simp only [payoutMsg_snip20 htoken, Except.ok.injEq] at hfee hpayout
                subst hfee hpayout
                exact .snip20Excess htoken hmin hexcess hsub
            | native token =>
                simp only [payoutMsg_native htoken] at hfee hpayout
                obtain ⟨denom, hdenom, rfl⟩ := hfee
                obtain ⟨_, hdenom', rfl⟩ := hpayout
                cases hdenom.symm.trans hdenom'
                exact .nativeExcess htoken hdenom hmin hexcess hsub
        · next hexcess =>
            have hexcess : amount.u128 ≤ route.estimatedAmount.u128 := Nat.le_of_not_lt hexcess
            simp only [pure_eq_ok, Prod.mk.injEq] at hfees
            obtain ⟨rfl, rfl⟩ := hfees
            cases htoken : nextHop.fromToken with
            | snip20 token =>
                simp only [payoutMsg_snip20 htoken, Except.ok.injEq] at hpayout
                subst hpayout
                exact .snip20 htoken hmin hexcess
            | native token =>
                simp only [payoutMsg_native htoken] at hpayout
                obtain ⟨denom, hdenom, rfl⟩ := hpayout
                exact .native htoken hdenom hmin hexcess
  · intro h
    cases h with
    | snip20 htoken hmin hest =>
        simp [-bind_pure_comp, lastHopMessages, sendExcess, Nat.not_lt.2 hmin, Nat.not_lt.2 hest,
          payoutMsg_snip20 htoken]
    | snip20Excess htoken hmin hest hexcess =>
        simp [-bind_pure_comp, lastHopMessages, sendExcess, Nat.not_lt.2 hmin, hest,
          payoutMsg_snip20 htoken, Uint128.sub_eq_ok_of_lt hest hexcess]
    | native htoken hdenom hmin hest =>
        simp [-bind_pure_comp, lastHopMessages, sendExcess, Nat.not_lt.2 hmin, Nat.not_lt.2 hest,
          payoutMsg_native htoken, hdenom]
    | nativeExcess htoken hdenom hmin hest hexcess =>
        simp [-bind_pure_comp, lastHopMessages, sendExcess, Nat.not_lt.2 hmin, hest,
          payoutMsg_native htoken, hdenom, Uint128.sub_eq_ok_of_lt hest hexcess]

/-- The recipient and the amount of a message that pays tokens or one coin to an address. -/
def CosmosMsg.payment? : CosmosMsg → Option (HumanAddr × Uint128)
  | .snip20 (.send recipient amount _ _) _ _ _ => some (recipient, amount)
  | .snip20 (.transfer recipient amount _) _ _ _ => some (recipient, amount)
  | .bankSend _ toAddress [coin] => some (toAddress, coin.amount)
  | _ => none

/-- The payment that is sent last: on the last hop the one to the user, after the excess. -/
def lastPayment? (messages : List CosmosMsg) : Option (HumanAddr × Uint128) :=
  messages.getLast?.bind CosmosMsg.payment?

/-- The user is paid the amount received, up to the estimate. -/
theorem LastHopMessages.lastPayment
    (h : LastHopMessages config env currentHop nextHop amount route messages logs) :
    ∃ paid, lastPayment? messages = some (route.to, paid) ∧
      paid.u128 = min amount.u128 route.estimatedAmount.u128 := by
  cases h with
  | snip20 _ _ hest => exact ⟨amount, rfl, (Nat.min_eq_left hest).symm⟩
  | snip20Excess _ _ hest =>
      exact ⟨route.estimatedAmount, rfl, (Nat.min_eq_right (Nat.le_of_lt hest)).symm⟩
  | native _ _ _ hest => exact ⟨amount, rfl, (Nat.min_eq_left hest).symm⟩
  | nativeExcess _ _ _ hest =>
      exact ⟨route.estimatedAmount, rfl, (Nat.min_eq_right (Nat.le_of_lt hest)).symm⟩

theorem LastHopMessages.minimumAcceptableAmount_le
    (h : LastHopMessages config env currentHop nextHop amount route messages logs) :
    route.minimumAcceptableAmount.u128 ≤ amount.u128 := by
  cases h <;> assumption

/-! ## The calls of `handle` -/

/-- The storage with `currentHop` in progress and `route` still to come. -/
def Storage.withRoute (storage : Storage) (currentHop : Hop) (route : Route) : Storage :=
  { storage with routeState := some ⟨currentHop, route⟩ }

/-- The successful calls of `handle`. In `hop` the route still to come is `route` with `nextHop` in
    front; `messages` and `logs` are those of `nextHopMessages`. -/
inductive HandleStep (storage : Storage) (env : Env) :
    HandleMsg → HandleResponse → Storage → Prop
  | firstHop {fromAddr : HumanAddr} {amount : Uint128} {route : Route} {firstHop nextHop : Hop}
      {hops : List Hop} {messages : List CosmosMsg} :
      route.hops = firstHop :: nextHop :: hops →
      validateReceivedToken firstHop.fromToken amount env = .ok () →
      validateUserIsTheReceiver firstHop.fromToken fromAddr route.to env.message.sender = .ok () →
      HopMessages firstHop amount env messages →
      HandleStep storage env (.receive fromAddr (some (.route route)) amount)
        ⟨messages ++ [finalizeRouteMsg env], [], none⟩
        (storage.withRoute firstHop { route with hops := nextHop :: hops })
  | hop {fromAddr : HumanAddr} {amount : Uint128} {config : Config} {currentHop nextHop : Hop}
      {route : Route} {messages : List CosmosMsg} {logs : List LogAttribute} :
      storage.config = some config →
      storage.routeState = some ⟨currentHop, { route with hops := nextHop :: route.hops }⟩ →
      validateReceivedToken nextHop.fromToken amount env = .ok () →
      validateReceivedFromAnAllowedAddress currentHop nextHop env fromAddr = .ok () →
      nextHopMessages config env currentHop nextHop amount route = .ok (messages, logs) →
      HandleStep storage env (.receive fromAddr none amount) ⟨messages, logs, none⟩
        (storage.withRoute nextHop route)
  | finalizeRoute {currentHop : Hop} {route : Route} :
      storage.routeState = some ⟨currentHop, route⟩ → route.hops = [] →
      env.message.sender = env.contract.address →
      HandleStep storage env .finalizeRoute .default { storage with routeState := none }
  | registerTokens (tokens : List SecretContract) :
      HandleStep storage env (.registerTokens tokens)
        ⟨tokens.map fun token =>
          registerReceiveMsg env.contractCodeHash none blockSize token.contractHash token.address,
          [], none⟩ storage
  | rescueTokens {amount : Uint128} {denom : Option String} {token : Option SecretContract}
      {config : Config} :
      storage.config = some config → env.message.sender = config.admin →
      HandleStep storage env (.rescueTokens amount denom token)
        ⟨(denom.toList.map fun denom =>
            .bankSend env.contract.address config.admin [⟨denom, amount⟩]) ++
          token.toList.map fun token =>
            transferMsg config.admin amount none blockSize token.contractHash token.address,
          [], none⟩ storage

theorem loadConfig_eq_ok {storage : Storage} {config : Config} :
    loadConfig storage = .ok config ↔ storage.config = some config := by
  unfold loadConfig
  cases storage.config <;> simp

/-- The messages and the log of a hop that is not the last one. -/
theorem nextHopMessages_of_ne_nil (h : route.hops ≠ []) :
    nextHopMessages config env currentHop nextHop amount route = .ok (messages, logs)
      ↔ HopMessages nextHop amount env messages ∧ logs = [] := by
  have hempty : route.hops.isEmpty = false := by simpa using h
  simp only [nextHopMessages, hempty, Bool.false_eq_true, if_false, bind_eq_ok, pure_eq_ok,
    Prod.mk.injEq, hopMessages_iff]
  constructor
  · rintro ⟨_, hmsgs, rfl, rfl⟩
    exact ⟨hmsgs, rfl⟩
  · rintro ⟨hmsgs, rfl⟩
    exact ⟨messages, hmsgs, rfl, rfl⟩

/-- The messages and the log of the last hop. -/
theorem nextHopMessages_of_nil (h : route.hops = []) :
    nextHopMessages config env currentHop nextHop amount route = .ok (messages, logs)
      ↔ LastHopMessages config env currentHop nextHop amount route messages logs := by
  simp only [nextHopMessages, h, List.isEmpty_nil, if_true, lastHopMessages_iff]

theorem handleFirstHop_step {storage storage' : Storage} {fromAddr : HumanAddr} {msg : Binary}
    {response : HandleResponse}
    (h : handleFirstHop storage env fromAddr msg amount = .ok (response, storage')) :
    HandleStep storage env (.receive fromAddr (some msg) amount) response storage' := by
  simp only [handleFirstHop, bind_eq_ok, fromBinary_eq_ok] at h
  obtain ⟨route, rfl, h⟩ := h
  split at h
  · cases h
  · next hlen =>
      simp only [bind_eq_ok, unwrap_eq_ok, pure_eq_ok, Prod.mk.injEq] at h
      obtain ⟨firstHop, hfirst, ⟨⟩, htoken, ⟨⟩, huser, messages, hmsgs, rfl, rfl⟩ := h
      obtain ⟨hops, estimatedAmount, minimumAcceptableAmount, receiver⟩ := route
      rcases hops with _ | ⟨hop, _ | ⟨nextHop, hops⟩⟩
      · simp at hfirst
      · simp at hlen
      · obtain rfl : hop = firstHop := by simpa using hfirst
        exact .firstHop rfl htoken huser (hopMessages_iff.1 hmsgs)

theorem handleHop_step {storage storage' : Storage} {fromAddr : HumanAddr}
    {response : HandleResponse}
    (h : handleHop storage env fromAddr amount = .ok (response, storage')) :
    HandleStep storage env (.receive fromAddr none amount) response storage' := by
  simp only [handleHop, bind_eq_ok, loadConfig_eq_ok] at h
  obtain ⟨config, hconfig, h⟩ := h
  split at h
  · next currentHop hops estimatedAmount minimumAcceptableAmount receiver hstate =>
      split at h
      · cases h
      · next nextHop hops =>
          simp only [bind_eq_ok, pure_eq_ok, Prod.mk.injEq] at h
          obtain ⟨⟨⟩, htoken, ⟨⟩, hfrom, ⟨messages, logs⟩, hmsgs, rfl, rfl⟩ := h
          exact .hop hconfig hstate htoken hfrom hmsgs
  · cases h

theorem finalizeRoute_step {storage storage' : Storage} {response : HandleResponse}
    (h : finalizeRoute storage env = .ok (response, storage')) :
    HandleStep storage env .finalizeRoute response storage' := by
  unfold finalizeRoute at h
  split at h
  · next currentHop remainingRoute hstate =>
      simp only [bind_eq_ok, authorize_eq_ok] at h
      obtain ⟨_, hsender, h⟩ := h
      split at h
      · cases h
      · next hhops =>
          simp only [pure_eq_ok, Prod.mk.injEq] at h
          obtain ⟨rfl, rfl⟩ := h
          exact .finalizeRoute hstate (by simpa using hhops) hsender.symm
  · cases h

theorem rescueTokens_step {storage storage' : Storage} {denom : Option String}
    {token : Option SecretContract} {response : HandleResponse}
    (h : rescueTokens storage env amount denom token = .ok (response, storage')) :
    HandleStep storage env (.rescueTokens amount denom token) response storage' := by
  simp only [rescueTokens, bind_eq_ok, unwrapResult_eq_ok, loadConfig_eq_ok, authorize_eq_ok,
    pure_eq_ok, Prod.mk.injEq] at h
  obtain ⟨config, hconfig, _, hadmin, rfl, rfl⟩ := h
  exact .rescueTokens hconfig hadmin.symm

/-- `HandleStep` is the success of `handle`. -/
theorem handle_iff {storage storage' : Storage} {msg : HandleMsg} {response : HandleResponse} :
    handle storage env msg = .ok (response, storage')
      ↔ HandleStep storage env msg response storage' := by
  constructor
  · intro h
    match msg, h with
    | .receive _ (some _) _, h => exact handleFirstHop_step h
    | .receive _ none _, h => exact handleHop_step h
    | .finalizeRoute, h => exact finalizeRoute_step h
    | .registerTokens tokens, h =>
        cases h
        exact .registerTokens tokens
    | .rescueTokens _ _ _, h => exact rescueTokens_step h
  · intro h
    cases h with
    | @firstHop _ _ route _ _ hops _ hhops htoken huser hmsgs =>
        have hlen : ¬ route.hops.length < 2 := by
          rw [hhops]
          exact Nat.not_lt.2 (Nat.le_add_left 2 hops.length)
        show (if route.hops.length < 2 then _ else _) = Except.ok _
        rw [if_neg hlen]
        simp [-bind_pure_comp, hhops, htoken, huser, hopMessages_iff.2 hmsgs, Storage.withRoute]
    | hop hconfig hstate htoken hfrom hmsgs =>
        simp [-bind_pure_comp, handle, handleHop, loadConfig, hconfig, hstate, htoken, hfrom,
          hmsgs, Storage.withRoute]
    | finalizeRoute hstate hhops hsender =>
        simp [-bind_pure_comp, handle, finalizeRoute, hstate, hhops, hsender]
    | registerTokens tokens => rfl
    | rescueTokens hconfig hadmin =>
        simp [-bind_pure_comp, handle, rescueTokens, loadConfig, hconfig, hadmin]

/-- With no route stored there is nothing to advance. -/
theorem handle_receive_of_none {storage : Storage} {fromAddr : HumanAddr}
    (hconfig : storage.config = some config) (hnone : storage.routeState = none) :
    handle storage env (.receive fromAddr none amount)
      = .error (.err (.genericErr "cannot find route")) := by
  simp only [handle, handleHop, loadConfig, hconfig, hnone]
  rfl

/-- With no route stored there is nothing to finalize. -/
theorem handle_finalizeRoute_of_none {storage : Storage} (hnone : storage.routeState = none) :
    handle storage env .finalizeRoute = .error (.err (.genericErr "no route to finalize")) := by
  simp only [handle, finalizeRoute, hnone]
  rfl

/-- Only the contract itself can finalize a route. -/
theorem HandleStep.sender_of_finalizeRoute {storage storage' : Storage} {msg : HandleMsg}
    {response : HandleResponse} (h : HandleStep storage env msg response storage')
    (hmsg : msg = .finalizeRoute) : env.message.sender = env.contract.address := by
  cases h with
  | finalizeRoute _ _ hsender => exact hsender
  | _ => cases hmsg

end DexAggregator
