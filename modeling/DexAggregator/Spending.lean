import DexAggregator.Ledger

set_option autoImplicit false

/-! # What a call spends

A `Receive` that succeeds spends exactly the amount that was reported to it, in the asset of the
hop it consumes: the messages to the hop's token, which is the one that called, or the coins of the
deposit or the payout add up to that amount (`HandleStep.spending`). Whatever else is sent in a
token goes from the contract to itself. On the last hop the amount is split between the admin and
the user at the estimate (`SplitsExcess`). -/

namespace DexAggregator

/-! ## Reading a response -/

/-- The amount that a message asks a token to move. -/
def Snip20Msg.amount : Snip20Msg → ℕ
  | .send _ amount _ _ => amount.u128
  | .transfer _ amount _ => amount.u128
  | .redeem amount _ _ => amount.u128
  | .registerReceive _ _ => 0

/-- The amount that a message asks the token at `token` to move. -/
def CosmosMsg.tokenAmount (token : HumanAddr) : CosmosMsg → ℕ
  | .snip20 msg _ _ contractAddr => if contractAddr = token then msg.amount else 0
  | _ => 0

/-- The amount of the coins of a deposit or of a bank payout. -/
def CosmosMsg.coinAmount : CosmosMsg → ℕ
  | .execute _ _ (.deposit _ _) send => (send.map fun coin => coin.amount.u128).sum
  | .bankSend _ _ amount => (amount.map fun coin => coin.amount.u128).sum
  | _ => 0

def CosmosMsg.isSnip20 : CosmosMsg → Bool
  | .snip20 _ _ _ _ => true
  | _ => false

/-- A `Send`, `Transfer` or `Redeem` executed on the token at `token`. -/
def CosmosMsg.movesOn (token : HumanAddr) : CosmosMsg → Bool
  | .snip20 (.registerReceive _ _) _ _ _ => false
  | .snip20 _ _ _ contractAddr => contractAddr = token
  | _ => false

/-- A `Send` of `amount` to `own`. -/
def CosmosMsg.sendsBack (own : HumanAddr) (amount : Uint128) : CosmosMsg → Bool
  | .snip20 (.send recipient sent _ _) _ _ _ => recipient = own && sent = amount
  | _ => false

/-- The asset in which a message pays. -/
def CosmosMsg.asset? : CosmosMsg → Option Asset
  | .snip20 _ _ _ contractAddr => some (.snip20 contractAddr)
  | .bankSend _ _ [coin] => some (.native coin.denom)
  | _ => none

/-- The message pays `amount` of `asset` to `recipient`. -/
def CosmosMsg.Pays (message : CosmosMsg) (asset : Asset) (recipient : HumanAddr)
    (amount : Uint128) : Prop :=
  message.asset? = some asset ∧ message.payment? = some (recipient, amount)

/-! ## Where the migrate branch is taken -/

/-- The hops on which `hopMessages` takes its migrate branch. -/
def Hop.migrates (hop : Hop) : Bool :=
  match hop.fromToken with
  | .snip20 _ => hop.shadeProtocolRouterPath.isNone && hop.migrateToToken.isSome
  | .native _ => false

/-- The stored route, when a `Receive` is about to consume its last hop. -/
def lastRoute? (storage : Storage) : HandleMsg → Option Route
  | .receive _ none _ => storage.routeState.bind fun state =>
    match state.remainingRoute.hops with
    | [_] => some state.remainingRoute
    | _ => none
  | _ => none

/-- The messages of a hop that is not the last one, in two parts: of the migrate branch the second
    message, the `Send` from the contract to itself, is set aside. -/
def Hop.setAside (hop : Hop) (messages : List CosmosMsg) : List CosmosMsg × List CosmosMsg :=
  if hop.migrates then (messages.eraseIdx 1, messages[1]?.toList) else (messages, [])

/-- The messages of the response to a `Receive`, in the same two parts. -/
def setAsideReturn (storage : Storage) (msg : HandleMsg) (messages : List CosmosMsg) :
    List CosmosMsg × List CosmosMsg :=
  match consumedHop? storage msg, lastRoute? storage msg with
  | some hop, none => hop.setAside messages
  | _, _ => (messages, [])

/-- The two parts make up the response. -/
theorem setAsideReturn_perm (storage : Storage) (msg : HandleMsg) (messages : List CosmosMsg) :
    List.Perm
      ((setAsideReturn storage msg messages).1 ++ (setAsideReturn storage msg messages).2)
      messages := by
  unfold setAsideReturn
  split
  · unfold Hop.setAside
    split
    · rcases messages with _ | ⟨first, _ | ⟨second, rest⟩⟩
      · exact .refl []
      · exact .refl [first]
      · exact (List.perm_append_singleton second rest).cons first
    · rw [List.append_nil]
  · rw [List.append_nil]

/-! ## Spending an amount -/

/-- `counted` moves exactly `amount` on the token at `token`; every other SNIP-20 message, and what
    is set aside, sends `amount` from the contract to itself. -/
structure SpendsToken (own token : HumanAddr) (amount : Uint128)
    (counted setAside : List CosmosMsg) : Prop where
  sum : (counted.map (CosmosMsg.tokenAmount token)).sum = amount.u128
  others : ∀ message ∈ counted, message.isSnip20 = true →
    message.movesOn token = true ∨ message.sendsBack own amount = true
  setAside : ∀ message ∈ setAside, message.sendsBack own amount = true

/-- The coins of `messages` add up to `amount`, and every SNIP-20 message sends `amount` from the
    contract to itself. -/
structure SpendsCoins (own : HumanAddr) (amount : Uint128) (messages : List CosmosMsg) : Prop where
  sum : (messages.map CosmosMsg.coinAmount).sum = amount.u128
  others : ∀ message ∈ messages, message.isSnip20 = true → message.sendsBack own amount = true

/-- What a `Receive` of `amount` spends, by the kind of the hop it consumes. -/
inductive Spending (storage : Storage) (env : Env) (msg : HandleMsg) (amount : Uint128)
    (messages : List CosmosMsg) : Prop
  | snip20 {hop : Hop} {token : SecretContract} :
      consumedHop? storage msg = some hop → hop.fromToken = .snip20 token →
      env.message.sender = token.address →
      SpendsToken env.contract.address token.address amount (setAsideReturn storage msg messages).1
        (setAsideReturn storage msg messages).2 →
      Spending storage env msg amount messages
  | native {hop : Hop} {token : SecretContract} :
      consumedHop? storage msg = some hop → hop.fromToken = .native token →
      SpendsCoins env.contract.address amount messages →
      Spending storage env msg amount messages

/-- At the last hop of `route` the user is paid the amount up to the estimate, which is logged, and
    the admin gets what exceeds the estimate, if anything does, in the same asset. -/
structure SplitsExcess (config : Config) (route : Route) (amount : Uint128)
    (messages : List CosmosMsg) (logs : List LogAttribute) (fee : Option CosmosMsg)
    (payout : CosmosMsg) (asset : Asset) : Prop where
  messages : messages = fee.toList ++ [payout]
  payout : ∃ paid, payout.Pays asset route.to paid ∧
    paid.u128 = min amount.u128 route.estimatedAmount.u128 ∧
    logs = [⟨"return_amount", toString paid.u128⟩]
  fee_iff : fee.isSome = true ↔ route.estimatedAmount.u128 < amount.u128
  fee : ∀ message ∈ fee, ∃ excess, message.Pays asset config.admin excess ∧
    excess.u128 = amount.u128 - route.estimatedAmount.u128

/-! ## The messages of one hop -/

section Hops

variable {own : HumanAddr} {token : SecretContract} {amount : Uint128} {env : Env}
  {config : Config} {hop currentHop nextHop : Hop} {route : Route} {message : CosmosMsg}
  {messages rest setAside : List CosmosMsg} {logs : List LogAttribute}

theorem CosmosMsg.tokenAmount_of_not_isSnip20 (h : message.isSnip20 = false) (token : HumanAddr) :
    message.tokenAmount token = 0 := by
  cases message with
  | snip20 => cases h
  | execute => rfl
  | bankSend => rfl

/-- One message that moves the whole amount, followed by messages to no token. -/
theorem SpendsToken.single (hmoves : message.movesOn token.address = true)
    (hamount : message.tokenAmount token.address = amount.u128)
    (hrest : ∀ m ∈ rest, m.isSnip20 = false)
    (hback : ∀ m ∈ setAside, m.sendsBack own amount = true) :
    SpendsToken own token.address amount (message :: rest) setAside where
  sum := by
    have hzero : (rest.map (CosmosMsg.tokenAmount token.address)).sum = 0 := by
      rw [List.sum_eq_zero_iff_forall_eq_nat]
      intro x hx
      obtain ⟨m, hm, rfl⟩ := List.mem_map.1 hx
      exact m.tokenAmount_of_not_isSnip20 (hrest m hm) token.address
    rw [List.map_cons, List.sum_cons, hamount, hzero, Nat.add_zero]
  others := by
    intro m hm hsnip20
    rcases List.mem_cons.1 hm with rfl | hm
    · exact .inl hmoves
    · rw [hrest m hm] at hsnip20
      cases hsnip20
  setAside := hback

theorem SpendsToken.send (recipient : HumanAddr) (msg : Option Binary)
    (hrest : ∀ m ∈ rest, m.isSnip20 = false)
    (hback : ∀ m ∈ setAside, m.sendsBack own amount = true) :
    SpendsToken own token.address amount
      (sendMsg recipient amount msg none blockSize token.contractHash token.address :: rest)
      setAside :=
  .single (by simp [CosmosMsg.movesOn, sendMsg])
    (by simp [CosmosMsg.tokenAmount, Snip20Msg.amount, sendMsg]) hrest hback

/-- A Snip20 hop that is not the last one spends its amount on its own token, in one message. -/
theorem HopMessages.spendsToken (h : HopMessages hop amount env messages)
    (htoken : hop.fromToken = .snip20 token) (hrest : ∀ m ∈ rest, m.isSnip20 = false) :
    SpendsToken env.contract.address token.address amount (hop.setAside (messages ++ rest)).1
      (hop.setAside (messages ++ rest)).2 := by
  cases h with
  | @shade token' smartContract path htoken' hpath hsmart =>
      obtain rfl : token = token' := Token.snip20.inj (htoken.symm.trans htoken')
      have hmigrates : hop.migrates = false := by simp [Hop.migrates, htoken, hpath]
      rw [Hop.setAside, hmigrates]
      exact .send _ _ hrest (by simp)
  | @migrate token' smartContract migrateToToken htoken' hpath hmigrate hsmart =>
      obtain rfl : token = token' := Token.snip20.inj (htoken.symm.trans htoken')
      have hmigrates : hop.migrates = true := by simp [Hop.migrates, htoken, hpath, hmigrate]
      rw [Hop.setAside, hmigrates]
      exact .send _ _ hrest (by simp [CosmosMsg.sendsBack, sendMsg])
  | @redeem token' denom htoken' hpath hmigrate hredeem =>
      obtain rfl : token = token' := Token.snip20.inj (htoken.symm.trans htoken')
      have hmigrates : hop.migrates = false := by simp [Hop.migrates, htoken, hmigrate]
      rw [Hop.setAside, hmigrates]
      -- the self-call carries coins, and asks no token to move anything
      refine .single (by simp [CosmosMsg.movesOn, redeemMsg])
        (by simp [CosmosMsg.tokenAmount, Snip20Msg.amount, redeemMsg]) ?_ (by simp)
      intro m hm
      rcases List.mem_cons.1 hm with rfl | hm
      · rfl
      · exact hrest m hm
  | @swap token' smartContract htoken' hpath hmigrate hredeem hsmart =>
      obtain rfl : token = token' := Token.snip20.inj (htoken.symm.trans htoken')
      have hmigrates : hop.migrates = false := by simp [Hop.migrates, htoken, hmigrate]
      rw [Hop.setAside, hmigrates]
      exact .send _ _ hrest (by simp)
  | deposit htoken' => cases htoken.symm.trans htoken'

/-- A native hop that is not the last one spends its amount with the deposit. -/
theorem HopMessages.spendsCoins (h : HopMessages hop amount env messages)
    (htoken : hop.fromToken = .native token) (hrest : ∀ m ∈ rest, m.isSnip20 = false)
    (hcoins : (rest.map CosmosMsg.coinAmount).sum = 0) :
    SpendsCoins env.contract.address amount (messages ++ rest) := by
  cases h with
  | deposit =>
      constructor
      · simp [CosmosMsg.coinAmount, depositToCosmosMsg, sendMsg, hcoins]
      · intro m hm hsnip20
        simp only [List.cons_append, List.nil_append, List.mem_cons] at hm
        rcases hm with rfl | rfl | hm
        · cases hsnip20
        · simp [CosmosMsg.sendsBack, sendMsg]
        · rw [hrest m hm] at hsnip20
          cases hsnip20
  | shade htoken' => cases htoken.symm.trans htoken'
  | migrate htoken' => cases htoken.symm.trans htoken'
  | redeem htoken' => cases htoken.symm.trans htoken'
  | swap htoken' => cases htoken.symm.trans htoken'

/-- A Snip20 last hop spends its amount on its own token, in one part or two. -/
theorem LastHopMessages.spendsToken
    (h : LastHopMessages config env currentHop nextHop amount route messages logs)
    (htoken : nextHop.fromToken = .snip20 token) (own : HumanAddr) :
    SpendsToken own token.address amount messages [] := by
  cases h with
  | @snip20 token' htoken' =>
      obtain rfl : token = token' := Token.snip20.inj (htoken.symm.trans htoken')
      exact .send _ _ (by simp) (by simp)
  | @snip20Excess token' excess htoken' _ hest hexcess =>
      obtain rfl : token = token' := Token.snip20.inj (htoken.symm.trans htoken')
      constructor
      · -- the estimate is below the amount, so the subtraction gives the rest exactly
        simp only [List.map_cons, List.map_nil, List.sum_cons, List.sum_nil,
          CosmosMsg.tokenAmount, Snip20Msg.amount, transferMsg, sendMsg, if_true, hexcess]
        omega
      · intro m hm _
        simp only [List.mem_cons, List.not_mem_nil, or_false] at hm
        rcases hm with rfl | rfl
        · simp [CosmosMsg.movesOn, transferMsg]
        · simp [CosmosMsg.movesOn, sendMsg]
      · simp
  | native htoken' => cases htoken.symm.trans htoken'
  | nativeExcess htoken' => cases htoken.symm.trans htoken'

/-- A native last hop spends its amount through the bank, in one part or two. -/
theorem LastHopMessages.spendsCoins
    (h : LastHopMessages config env currentHop nextHop amount route messages logs)
    (htoken : nextHop.fromToken = .native token) (own : HumanAddr) :
    SpendsCoins own amount messages := by
  cases h with
  | native =>
      constructor
      · simp [CosmosMsg.coinAmount]
      · simp [CosmosMsg.isSnip20]
  | nativeExcess _ _ _ hest hexcess =>
      constructor
      · simp only [List.map_cons, List.map_nil, List.sum_cons, List.sum_nil,
          CosmosMsg.coinAmount, hexcess]
        omega
      · simp [CosmosMsg.isSnip20]
  | snip20 htoken' => cases htoken.symm.trans htoken'
  | snip20Excess htoken' => cases htoken.symm.trans htoken'

/-- The last hop splits its amount at the estimate. -/
theorem LastHopMessages.splitsExcess
    (h : LastHopMessages config env currentHop nextHop amount route messages logs) :
    ∃ fee payout asset, SplitsExcess config route amount messages logs fee payout asset := by
  cases h with
  | @snip20 token _ _ hest =>
      exact ⟨none, _, .snip20 token.address, rfl,
        ⟨amount, ⟨rfl, rfl⟩, (Nat.min_eq_left hest).symm, rfl⟩, by simpa using hest, by simp⟩
  | @snip20Excess token excess _ _ hest hexcess =>
      exact ⟨some _, _, .snip20 token.address, rfl,
        ⟨route.estimatedAmount, ⟨rfl, rfl⟩, (Nat.min_eq_right (Nat.le_of_lt hest)).symm, rfl⟩,
        iff_of_true rfl hest, by
          rintro _ ⟨⟩
          exact ⟨excess, ⟨rfl, rfl⟩, hexcess⟩⟩
  | @native _ denom _ _ _ hest =>
      exact ⟨none, _, .native denom, rfl,
        ⟨amount, ⟨rfl, rfl⟩, (Nat.min_eq_left hest).symm, rfl⟩, by simpa using hest, by simp⟩
  | @nativeExcess _ denom excess _ _ _ hest hexcess =>
      exact ⟨some _, _, .native denom, rfl,
        ⟨route.estimatedAmount, ⟨rfl, rfl⟩, (Nat.min_eq_right (Nat.le_of_lt hest)).symm, rfl⟩,
        iff_of_true rfl hest, by
          rintro _ ⟨⟩
          exact ⟨excess, ⟨rfl, rfl⟩, hexcess⟩⟩

end Hops

/-! ## A whole call -/

section Calls

variable {storage storage' : Storage} {env : Env} {fromAddr : HumanAddr} {amount : Uint128}
  {response : HandleResponse}

/-- What a `Receive` spends, whichever hop of a route it consumes. -/
theorem HandleStep.spending {msg : Option Binary}
    (h : HandleStep storage env (.receive fromAddr msg amount) response storage') :
    Spending storage env (.receive fromAddr msg amount) amount response.messages := by
  cases h with
  | @firstHop _ _ route firstHop nextHop hops messages hhops hvalid _ hmsgs =>
      have hconsumed : consumedHop? storage (.receive fromAddr (some (.route route)) amount)
          = some firstHop := by simp [consumedHop?, hhops]
      have hfinal : ∀ m ∈ [finalizeRouteMsg env], m.isSnip20 = false := by
        simp [finalizeRouteMsg, CosmosMsg.isSnip20]
      cases htoken : firstHop.fromToken with
      | snip20 token =>
          rw [htoken, validateReceivedToken_snip20] at hvalid
          refine .snip20 hconsumed htoken hvalid ?_
          rw [setAsideReturn, hconsumed]
          exact hmsgs.spendsToken htoken hfinal
      | native token =>
          exact .native hconsumed htoken (hmsgs.spendsCoins htoken hfinal rfl)
  | @hop _ _ config currentHop nextHop route messages logs _ hstate hvalid _ hmsgs =>
      have hconsumed : consumedHop? storage (.receive fromAddr none amount) = some nextHop := by
        simp [consumedHop?, hstate]
      by_cases hnil : route.hops = []
      · have hlast : lastRoute? storage (.receive fromAddr none amount)
            = some { route with hops := [nextHop] } := by simp [lastRoute?, hstate, hnil]
        have hmsgs := (nextHopMessages_of_nil hnil).1 hmsgs
        cases htoken : nextHop.fromToken with
        | snip20 token =>
            rw [htoken, validateReceivedToken_snip20] at hvalid
            refine .snip20 hconsumed htoken hvalid ?_
            rw [setAsideReturn, hconsumed, hlast]
            exact hmsgs.spendsToken htoken env.contract.address
        | native token =>
            exact .native hconsumed htoken (hmsgs.spendsCoins htoken env.contract.address)
      · obtain ⟨hmsgs, _⟩ := (nextHopMessages_of_ne_nil hnil).1 hmsgs
        obtain ⟨hop, hops, hhops⟩ := List.exists_cons_of_ne_nil hnil
        have hlast : lastRoute? storage (.receive fromAddr none amount) = none := by
          simp [lastRoute?, hstate, hhops]
        have hrest : ∀ m ∈ ([] : List CosmosMsg), m.isSnip20 = false := by simp
        rw [← List.append_nil messages]
        cases htoken : nextHop.fromToken with
        | snip20 token =>
            rw [htoken, validateReceivedToken_snip20] at hvalid
            refine .snip20 hconsumed htoken hvalid ?_
            rw [setAsideReturn, hconsumed, hlast]
            exact hmsgs.spendsToken htoken hrest
        | native token =>
            exact .native hconsumed htoken (hmsgs.spendsCoins htoken hrest rfl)

/-- A `Receive` that consumes the last hop of a route splits its amount at the route's estimate. -/
theorem HandleStep.splitsExcess {msg : Option Binary} {route : Route}
    (h : HandleStep storage env (.receive fromAddr msg amount) response storage')
    (hlast : lastRoute? storage (.receive fromAddr msg amount) = some route) :
    ∃ config fee payout asset, storage.config = some config ∧
      SplitsExcess config route amount response.messages response.log fee payout asset := by
  cases h with
  | firstHop => cases hlast
  | @hop _ _ config currentHop nextHop rest messages logs hconfig hstate _ _ hmsgs =>
      by_cases hnil : rest.hops = []
      · obtain rfl : { rest with hops := [nextHop] } = route := by
          simpa [lastRoute?, hstate, hnil] using hlast
        obtain ⟨fee, payout, asset, hsplit⟩ :=
          ((nextHopMessages_of_nil hnil).1 hmsgs).splitsExcess
        exact ⟨config, fee, payout, asset, hconfig, hsplit.messages, hsplit.payout, hsplit.fee_iff,
          hsplit.fee⟩
      · obtain ⟨hop, hops, hhops⟩ := List.exists_cons_of_ne_nil hnil
        simp [lastRoute?, hstate, hhops] at hlast

end Calls

/-- Each accepted `Receive` spends exactly what was reported, and only in the asset of the hop it
    consumes; on the last hop of a route the user is paid up to the estimate, and the admin is sent
    the excess when there is one. -/
theorem receive_spends_reported (storage storage' : Storage) (env : Env) (fromAddr : HumanAddr)
    (msg : Option Binary) (amount : Uint128) (response : HandleResponse)
    (h : handle storage env (.receive fromAddr msg amount) = .ok (response, storage')) :
    Spending storage env (.receive fromAddr msg amount) amount response.messages ∧
    ∀ route, lastRoute? storage (.receive fromAddr msg amount) = some route →
      ∃ config fee payout asset, storage.config = some config ∧
        SplitsExcess config route amount response.messages response.log fee payout asset := by
  have hstep := handle_iff.1 h
  exact ⟨hstep.spending, fun route hlast => hstep.splitsExcess hlast⟩

/-- At the second call of the swap of the fixtures: of 11 reported the user is paid the estimate of
    10, and the admin the rest. -/
theorem receive_spends_reported_mockSwap :
    let response := (mockSwapTrace.get ⟨1, by decide⟩).response
    Spending mockSwapStorage (mockContract.env mockButton.address [])
        (.receive mockPairContract.address none ⟨11, by decide⟩) ⟨11, by decide⟩
        response.messages ∧
      ∃ config fee payout asset, mockSwapStorage.config = some config ∧
        SplitsExcess config { mockSwapRoute with hops := [mockButtonHop] } ⟨11, by decide⟩
          response.messages response.log fee payout asset := by
  have h := receive_spends_reported mockSwapStorage _ (mockContract.env mockButton.address [])
    mockPairContract.address none ⟨11, by decide⟩ _ (Event.ok (mockSwapTrace.get ⟨1, by decide⟩))
  exact ⟨h.1, h.2 _ rfl⟩

end DexAggregator
