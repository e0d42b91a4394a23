import DexAggregator.WellFormed

set_option autoImplicit false

/-! # Honest runs

In an honest environment the messages of each hop lead back to exactly one call of `handle`, from
the source that the next hop expects and with the amount that was sent (`Presents`, and with what
follows the call `Delivers`). `honestHops` lists the choices of such an environment for a whole
route; a well-linked route runs to its end under them. -/

namespace DexAggregator

open WorkStack (run run_nil run_cons run_append run_frame run_seq run_item)

/-! ## Well-linked routes -/

/-- The kinds of hops that can follow each other: a swap or Shade hop before a Snip20 hop, a migrate
    hop before the Snip20 hop of its new token, a redeem hop before a native hop, and a native hop
    before the Snip20 hop of the same token contract. -/
inductive Hop.Linked (hop nextHop : Hop) : Prop
  | swap {token smartContract next : SecretContract} :
      hop = ⟨.snip20 token, some smartContract, none, none, none⟩ →
      nextHop.fromToken = .snip20 next → Hop.Linked hop nextHop
  | shade {token smartContract next : SecretContract}
      {path : List SecretContractForShadeProtocol} :
      hop = ⟨.snip20 token, some smartContract, none, none, some path⟩ →
      nextHop.fromToken = .snip20 next → Hop.Linked hop nextHop
  | migrate {token smartContract migrateToToken next : SecretContract} :
      hop = ⟨.snip20 token, some smartContract, none, some migrateToToken, none⟩ →
      nextHop.fromToken = .snip20 next → next.address = migrateToToken.address →
      Hop.Linked hop nextHop
  | redeem {token next : SecretContract} {denom : String} :
      hop.fromToken = .snip20 token → hop.redeemDenom = some denom → hop.migrateToToken = none →
      hop.shadeProtocolRouterPath = none → nextHop.fromToken = .native next →
      Hop.Linked hop nextHop
  | native {token next : SecretContract} {denom : String} :
      hop.fromToken = .native token → hop.redeemDenom = some denom →
      nextHop.fromToken = .snip20 next → next.address = token.address → Hop.Linked hop nextHop

/-- Every two consecutive hops are linked, and there are at least two. -/
structure Route.WellLinked (route : Route) : Prop where
  length : 2 ≤ route.hops.length
  linked : List.IsChain Hop.Linked route.hops

/-- The token of the hop is another contract. -/
def Hop.Foreign (self : Contract) (hop : Hop) : Prop := hop.tokenAddress ≠ self.address

/-! ## The choices of an honest environment -/

/-- A hop whose smart contract hands back another token, in an amount of its own. -/
def Hop.swaps (hop : Hop) : Bool :=
  match hop.fromToken with
  | .snip20 _ => hop.redeemDenom.isNone && hop.migrateToToken.isNone
  | .native _ => false

/-- The amount that arrives after a hop of `amount`: what its smart contract returned, or all. -/
def Hop.handsBack (hop : Hop) (returned amount : Uint128) : Uint128 :=
  if hop.swaps then returned else amount

/-- The amount that arrives at the end of some hops, the smart contract of hop `i` having returned
    `returned i`. -/
def lastReceived (returned : ℕ → Uint128) : ℕ → Uint128 → List Hop → Uint128
  | _, amount, [] => amount
  | i, amount, hop :: hops => lastReceived returned (i + 1) (hop.handsBack (returned i) amount) hops

/-- The choices while `messages` are executed before `nextHop`. A send with a message to swap makes
    the token of the next hop call `Receive` with what is handed back; the send to this contract
    that ends a migration or a deposit makes the token call `Receive` with what was sent; and a
    message to this contract is the call itself. `inner` are the choices during that call. Nothing
    else leads to a call. -/
def honestReplies (self : Contract) (nextHop : Hop) (received : Uint128) (inner : List Choice) :
    List CosmosMsg → List Choice
  | [] => []
  | .snip20 (.send recipient _ (some _) _) _ _ _ :: messages =>
    .proceed :: .call nextHop.tokenAddress [] (.receive recipient none received) ::
      (inner ++ [.proceed]) ++ honestReplies self nextHop received inner messages
  | [.snip20 (.send _ amount none _) _ _ contractAddr] =>
    .proceed :: .call contractAddr [] (.receive self.address none amount) :: (inner ++ [.proceed])
  | .snip20 _ _ _ _ :: messages =>
    [.proceed, .proceed] ++ honestReplies self nextHop received inner messages
  | .execute contractAddr _ _ _ :: messages =>
    (if contractAddr = self.address then .proceed :: inner else [.proceed, .proceed]) ++
      honestReplies self nextHop received inner messages
  | .bankSend _ _ _ :: messages => .proceed :: honestReplies self nextHop received inner messages

/-- The choices while a payout is executed, which leads to no call. -/
def quietReplies : List CosmosMsg → List Choice
  | [] => []
  | .bankSend _ _ _ :: messages => .proceed :: quietReplies messages
  | _ :: messages => .proceed :: .proceed :: quietReplies messages

/-- The messages of a hop of this contract. -/
def Contract.hopMessages (self : Contract) (hop : Hop) (amount : Uint128) : List CosmosMsg :=
  (DexAggregator.hopMessages hop amount (self.env self.address [])).toOption.getD []

/-- The messages of the last hop of this contract. -/
def Contract.lastHopMessages (self : Contract) (config : Config) (currentHop nextHop : Hop)
    (amount : Uint128) (route : Route) : List CosmosMsg :=
  ((DexAggregator.lastHopMessages config (self.env self.address []) currentHop nextHop amount
    route).toOption.map Prod.fst).getD []

/-- The choices while the messages of hop `i` are executed, with `hops` still to come. -/
def honestHops (self : Contract) (config : Config) (route : Route) (returned : ℕ → Uint128) :
    ℕ → Hop → Uint128 → List Hop → List Choice
  | _, _, _, [] => []
  | i, hop, amount, nextHop :: hops =>
    let received := hop.handsBack (returned i) amount
    let inner := match hops with
      | [] => quietReplies
        (self.lastHopMessages config hop nextHop received { route with hops := [] })
      | _ => honestHops self config route returned (i + 1) nextHop received hops
    honestReplies self nextHop received inner (self.hopMessages hop amount)

/-- A transaction in which `sender` calls with `route`, and the environment is honest. -/
def honestTransaction (self : Contract) (config : Config) (route : Route)
    (returned : ℕ → Uint128) (sender : HumanAddr) (sentFunds : List Coin) (fromAddr : HumanAddr)
    (amount : Uint128) : List Choice :=
  .call sender sentFunds (.receive fromAddr (some (.route route)) amount) ::
    ((route.hops.head?.toList.flatMap fun firstHop =>
      honestHops self config route returned 0 firstHop amount route.hops.tail) ++
    -- the queued `FinalizeRoute`, and the return of the outside code
    [.proceed, .proceed])

/-- The swap of the fixtures is an honest run. -/
example : honestTransaction mockContract ⟨"btn.group"⟩ mockSwapRoute (fun _ => ⟨11, by decide⟩)
    mockSscrt.address [] mockUserAddress ⟨12, by decide⟩ = mockSwapChoices := by decide

/-! ## Executing one message -/

section Messages

variable {self : Contract} {storage storage' : Storage} {e : Event} {trace : List Event}
  {inner : List Choice} {contractAddr sender : HumanAddr} {sentFunds : List Coin}

/-- The outside code returns. -/
theorem run_returns : run (exec self) storage [.outside] [.proceed] = some ([], storage, []) := rfl

/-- A message to another contract hands control to outside code. -/
theorem run_external {message : CosmosMsg} (haddr : message.contractAddr? = some contractAddr)
    (hne : contractAddr ≠ self.address) (storage : Storage) :
    run (exec self) storage [.msg message] [.proceed] = some ([], storage, [.outside]) := by
  rw [run_cons (exec_external haddr hne storage), run_nil]
  rfl

/-- A token that outside code makes call. -/
theorem exec_outside_call (hsender : sender ≠ self.address) (msg : HandleMsg) (storage : Storage) :
    exec self storage .outside (.call sender [] msg)
      = (callHandle storage (self.env sender []) msg).map fun e =>
        (some e, e.post, e.items ++ [.outside]) := by
  simp [exec, hsender]

theorem run_snip20_quiet (h : contractAddr ≠ self.address) (msg : Snip20Msg) (blockSize : ℕ)
    (callbackCodeHash : String) :
    run (exec self) storage [.msg (.snip20 msg blockSize callbackCodeHash contractAddr)]
      [.proceed, .proceed] = some ([], storage, []) :=
  run_item (exec_external rfl h storage) run_returns

theorem run_deposit_quiet (h : contractAddr ≠ self.address) (blockSize : ℕ)
    (callbackCodeHash : String) (coin : Option Coin) :
    run (exec self) storage
      [.msg (depositToCosmosMsg none blockSize callbackCodeHash contractAddr coin)]
      [.proceed, .proceed] = some ([], storage, []) :=
  run_item (exec_external rfl h storage) run_returns

/-- Outside code makes one call, whose messages are executed, and returns. -/
theorem run_outsideCall (henv : e.env = self.env sender sentFunds)
    (hsender : sender ≠ self.address)
    (hinner : run (exec self) e.post e.items inner = some (trace, storage', [])) :
    run (exec self) e.pre [.outside] (.call sender sentFunds e.msg :: (inner ++ [.proceed]))
      = some (e :: trace, storage', []) := by
  have hitems := run_seq hinner (@run_returns self storage')
  rw [List.append_nil] at hitems
  exact run_item (exec_outsideCall henv hsender) hitems

theorem run_selfCall (callbackCodeHash : String) (henv : e.env = self.env self.address sentFunds)
    (hinner : run (exec self) e.post e.items inner = some (trace, storage', [])) :
    run (exec self) e.pre
      [.msg (.execute self.address callbackCodeHash (.handle e.msg) sentFunds)] (.proceed :: inner)
      = some (e :: trace, storage', []) :=
  run_item (exec_selfCall henv callbackCodeHash) hinner

/-- The messages of a payout are executed without a call. -/
theorem LastHopMessages.run_quietReplies {config : Config} {env : Env} {currentHop nextHop : Hop}
    {amount : Uint128} {route : Route} {messages : List CosmosMsg} {logs : List LogAttribute}
    (h : LastHopMessages config env currentHop nextHop amount route messages logs)
    (hforeign : nextHop.tokenAddress ≠ self.address) :
    run (exec self) storage (messages.map .msg) (quietReplies messages)
      = some ([], storage, []) := by
  cases h with
  | snip20 htoken =>
      rw [Hop.tokenAddress, htoken] at hforeign
      exact run_snip20_quiet hforeign _ _ _
  | snip20Excess htoken =>
      rw [Hop.tokenAddress, htoken] at hforeign
      exact run_seq (run_snip20_quiet hforeign _ _ _) (run_snip20_quiet hforeign _ _ _)
  | native => rfl
  | nativeExcess => rfl

end Messages

/-! ## From one hop to the next -/

section Hops

variable {self : Contract} {hop nextHop : Hop} {amount : Uint128}

theorem Contract.hopMessages_eq {sender : HumanAddr} {sentFunds : List Coin}
    {messages : List CosmosMsg}
    (h : HopMessages hop amount (self.env sender sentFunds) messages) :
    self.hopMessages hop amount = messages := by
  -- the messages depend on the contract, not on who calls it
  have hsame : DexAggregator.hopMessages hop amount (self.env self.address [])
      = DexAggregator.hopMessages hop amount (self.env sender sentFunds) := rfl
  rw [Contract.hopMessages, hsame, hopMessages_iff.2 h]
  rfl

/-- What a linked hop does: a message on its own is a send to swap, and of two messages the second
    one brings what the first one has made of the amount to the next hop. -/
inductive Hop.Hands (contract : Contract) (hop nextHop : Hop) (amount : Uint128) : Prop
  | swap {token smartContract next : SecretContract} {msg : Binary} :
      contract.hopMessages hop amount = [sendMsg smartContract.address amount (some msg) none
        blockSize token.contractHash token.address] →
      hop.fromToken = .snip20 token → hop.smartContract = some smartContract →
      hop.redeemDenom = none → hop.migrateToToken = none → nextHop.fromToken = .snip20 next →
      Hop.Hands contract hop nextHop amount
  | migrate {token smartContract next : SecretContract} {contractHash : String} :
      contract.hopMessages hop amount =
        [sendMsg smartContract.address amount none none blockSize token.contractHash token.address,
          sendMsg contract.address amount none none blockSize contractHash next.address] →
      hop.fromToken = .snip20 token → hop.smartContract = some smartContract →
      hop.migrateToToken.isSome = true → nextHop.fromToken = .snip20 next →
      Hop.Hands contract hop nextHop amount
  | redeem {token next : SecretContract} {denom : String} :
      contract.hopMessages hop amount =
        [redeemMsg amount (some denom) none blockSize token.contractHash token.address,
          .execute contract.address contract.codeHash
            (.handle (.receive contract.address none amount)) [⟨denom, amount⟩]] →
      hop.fromToken = .snip20 token → hop.redeemDenom = some denom →
      nextHop.fromToken = .native next → Hop.Hands contract hop nextHop amount
  | deposit {token next : SecretContract} {denom : String} :
      contract.hopMessages hop amount =
        [depositToCosmosMsg none blockSize token.contractHash token.address (some ⟨denom, amount⟩),
          sendMsg contract.address amount none none blockSize token.contractHash next.address] →
      hop.fromToken = .native token → hop.redeemDenom = some denom →
      nextHop.fromToken = .snip20 next → next.address = token.address →
      Hop.Hands contract hop nextHop amount

theorem Hop.Linked.hands {hop nextHop : Hop} (h : hop.Linked nextHop) (self : Contract)
    (amount : Uint128) : hop.Hands self nextHop amount := by
  cases h with
  | @swap token smartContract next hhop hnext =>
      subst hhop
      have hmsgs : HopMessages ⟨.snip20 token, some smartContract, none, none, none⟩ amount
        (self.env self.address []) _ := .swap rfl rfl rfl rfl rfl
      exact .swap (Contract.hopMessages_eq hmsgs) rfl rfl rfl rfl hnext
  | @shade token smartContract next path hhop hnext =>
      subst hhop
      have hmsgs : HopMessages ⟨.snip20 token, some smartContract, none, none, some path⟩ amount
        (self.env self.address []) _ := .shade rfl rfl rfl
      exact .swap (Contract.hopMessages_eq hmsgs) rfl rfl rfl rfl hnext
  | @migrate token smartContract migrateToToken next hhop hnext haddr =>
      subst hhop
      have hmsgs : HopMessages ⟨.snip20 token, some smartContract, none, some migrateToToken, none⟩
        amount (self.env self.address []) _ := .migrate rfl rfl rfl rfl
      have hmsgs := Contract.hopMessages_eq hmsgs
      rw [Contract.env_address, ← haddr] at hmsgs
      exact .migrate hmsgs rfl rfl rfl hnext
  | @redeem token next denom htoken hredeem hmigrate hpath hnext =>
      have hmsgs : HopMessages hop amount (self.env self.address []) _ :=
        .redeem htoken hpath hmigrate hredeem
      exact .redeem (Contract.hopMessages_eq hmsgs) htoken hredeem hnext
  | @native token next denom htoken hredeem hnext haddr =>
      have hmsgs : HopMessages hop amount (self.env self.address []) _ := .deposit htoken hredeem
      have hmsgs := Contract.hopMessages_eq hmsgs
      have hsecond : sendMsg self.address amount none none blockSize token.contractHash
          token.address
        = sendMsg self.address amount none none blockSize token.contractHash next.address := by
        rw [haddr]
      rw [Contract.env_address, hsecond] at hmsgs
      exact .deposit hmsgs htoken hredeem hnext haddr

/-- A hop that redeems, migrates or deposits hands back all that it was given. -/
theorem Hop.handsBack_of_isSome {hop : Hop}
    (h : hop.redeemDenom.isSome = true ∨ hop.migrateToToken.isSome = true)
    (returned amount : Uint128) : hop.handsBack returned amount = amount := by
  have hswaps : hop.swaps = false := by
    unfold Hop.swaps
    split
    · rcases h with h | h
      · simp [Option.isSome_iff_ne_none.1 h]
      · simp [h]
    · rfl
  rw [Hop.handsBack, hswaps]
  rfl

/-- How an honest environment comes to the call of `handleHop` on `nextHop`: after the choices
    `lead` the item that makes the call is the only one left of the messages of `hop`, and under
    `choice` it calls. What follows the call is `push`, under the choices `after`. -/
structure Presents (contract : Contract) (hop nextHop : Hop) (amount received : Uint128)
    (env : Env) (fromAddr : HumanAddr) (lead after : List Choice) (item : Item) (choice : Choice)
    (push : List Item) : Prop where
  token : validateReceivedToken nextHop.fromToken received env = .ok ()
  source : validateReceivedFromAnAllowedAddress hop nextHop env fromAddr = .ok ()
  replies : ∀ inner : List Choice,
    honestReplies contract nextHop received inner (contract.hopMessages hop amount)
      = lead ++ choice :: (inner ++ after)
  leads : ∀ storage : Storage,
    run (exec contract) storage ((contract.hopMessages hop amount).map .msg) lead
      = some ([], storage, [item])
  calls : ∀ storage : Storage, exec contract storage item choice
    = (callHandle storage env (.receive fromAddr none received)).map fun e =>
      (some e, e.post, e.items ++ push)
  returns : ∀ storage : Storage, run (exec contract) storage push after = some ([], storage, [])

variable {received : Uint128} {token smartContract next : SecretContract}

/-- The token of the next hop calls when control comes to outside code. -/
theorem presents_of_outside {fromAddr : HumanAddr} {lead : List Choice}
    (hnext : nextHop.fromToken = .snip20 next) (hnextSelf : next.address ≠ self.address)
    (hsource : validateReceivedFromAnAllowedAddress hop nextHop (self.env next.address []) fromAddr
      = .ok ())
    (hreplies : ∀ inner : List Choice,
      honestReplies self nextHop received inner (self.hopMessages hop amount)
        = lead ++ .call next.address [] (.receive fromAddr none received) :: (inner ++ [.proceed]))
    (hleads : ∀ storage : Storage,
      run (exec self) storage ((self.hopMessages hop amount).map .msg) lead
        = some ([], storage, [.outside])) :
    Presents self hop nextHop amount received (self.env next.address []) fromAddr lead [.proceed]
      .outside (.call next.address [] (.receive fromAddr none received)) [.outside] where
  token := by
    rw [hnext]
    exact validateReceivedToken_snip20.2 rfl
  source := hsource
  replies := hreplies
  leads := hleads
  calls := exec_outside_call hnextSelf _
  returns _ := run_returns

/-- After a swap or a Shade send the token of the next hop calls with what is handed back. -/
theorem presents_of_swap {msg : Binary}
    (hmsgs : self.hopMessages hop amount = [sendMsg smartContract.address amount (some msg) none
      blockSize token.contractHash token.address])
    (htokenSelf : token.address ≠ self.address) (hnextSelf : next.address ≠ self.address)
    (hsmart : hop.smartContract = some smartContract) (hredeem : hop.redeemDenom = none)
    (hmigrate : hop.migrateToToken = none) (hnext : nextHop.fromToken = .snip20 next)
    (received : Uint128) :
    Presents self hop nextHop amount received (self.env next.address []) smartContract.address
      [.proceed] [.proceed] .outside
      (.call next.address [] (.receive smartContract.address none received)) [.outside] := by
  refine presents_of_outside hnext hnextSelf
    ((validateFrom_smartContract hnext hredeem hmigrate hsmart).2 rfl) ?_ ?_
  · intro inner
    simp [hmsgs, sendMsg, honestReplies, Hop.tokenAddress, hnext, Token.contract]
  · intro storage
    rw [hmsgs]
    exact run_external rfl htokenSelf storage

/-- After a message that leads to no call, a send to this contract makes the token call with what
    was sent. -/
theorem presents_of_selfSend {first : CosmosMsg} {contractHash : String}
    (hmsgs : self.hopMessages hop amount = [first, sendMsg self.address amount none none
      blockSize contractHash next.address])
    (hquiet : ∀ storage : Storage, run (exec self) storage [.msg first] [.proceed, .proceed]
      = some ([], storage, []))
    (hreplies : ∀ (received : Uint128) (inner : List Choice) (second : CosmosMsg),
      honestReplies self nextHop received inner [first, second]
        = [.proceed, .proceed] ++ honestReplies self nextHop received inner [second])
    (hnextSelf : next.address ≠ self.address)
    (hself : hop.redeemDenom.isSome = true ∨ hop.migrateToToken.isSome = true)
    (hnext : nextHop.fromToken = .snip20 next) :
    Presents self hop nextHop amount amount (self.env next.address []) self.address
      [.proceed, .proceed, .proceed] [.proceed] .outside
      (.call next.address [] (.receive self.address none amount)) [.outside] := by
  refine presents_of_outside hnext hnextSelf ((validateFrom_self hnext hself).2 rfl) ?_ ?_
  · intro inner
    rw [hmsgs, hreplies]
    simp [sendMsg, honestReplies]
  · intro storage
    rw [hmsgs]
    exact run_seq (hquiet storage) (run_external rfl hnextSelf storage)

/-- After a redeem the contract calls itself with the coin. -/
theorem presents_of_redeem {denom : String}
    (hmsgs : self.hopMessages hop amount =
      [redeemMsg amount (some denom) none blockSize token.contractHash token.address,
        .execute self.address self.codeHash (.handle (.receive self.address none amount))
          [⟨denom, amount⟩]])
    (htokenSelf : token.address ≠ self.address) (hnext : nextHop.fromToken = .native next) :
    Presents self hop nextHop amount amount (self.env self.address [⟨denom, amount⟩]) self.address
      [.proceed, .proceed] []
      (.msg (.execute self.address self.codeHash (.handle (.receive self.address none amount))
        [⟨denom, amount⟩])) .proceed [] where
  token := by
    rw [hnext]
    exact validateReceivedToken_native.2 ⟨denom, rfl⟩
  source := (validateFrom_native hnext).2 rfl
  replies := by
    intro inner
    simp [hmsgs, redeemMsg, honestReplies]
  leads := by
    intro storage
    have hfirst := @run_snip20_quiet self storage _ htokenSelf (.redeem amount (some denom) none)
      blockSize token.contractHash
    rw [hmsgs]
    exact run_frame hfirst _
  calls := by
    intro storage
    simp [exec, deliver]
  returns storage := run_nil storage []

/-- Before every linked hop the honest environment comes to the call. -/
theorem Hop.Linked.presents (h : hop.Linked nextHop) (hforeign : hop.Foreign self)
    (hnextForeign : nextHop.Foreign self) (amount returned : Uint128) :
    ∃ sender sentFunds fromAddr lead after item choice push,
      Presents self hop nextHop amount (hop.handsBack returned amount)
        (self.env sender sentFunds) fromAddr lead after item choice push := by
  have htokenSelf : hop.tokenAddress ≠ self.address := hforeign
  have hnextSelf : nextHop.tokenAddress ≠ self.address := hnextForeign
  cases h.hands self amount with
  | @swap token smartContract next msg hmsgs htoken hsmart hredeem hmigrate hnext =>
      rw [Hop.tokenAddress, htoken] at htokenSelf
      rw [Hop.tokenAddress, hnext] at hnextSelf
      exact ⟨_, _, _, _, _, _, _, _, presents_of_swap hmsgs htokenSelf hnextSelf hsmart hredeem
        hmigrate hnext _⟩
  | @migrate token smartContract next contractHash hmsgs htoken hsmart hmigrate hnext =>
      rw [Hop.tokenAddress, htoken] at htokenSelf
      rw [Hop.tokenAddress, hnext] at hnextSelf
      rw [Hop.handsBack_of_isSome (.inr hmigrate)]
      exact ⟨_, _, _, _, _, _, _, _, presents_of_selfSend hmsgs
        (fun _ => run_snip20_quiet htokenSelf _ _ _) (fun _ _ _ => rfl) hnextSelf (.inr hmigrate)
        hnext⟩
  | @redeem token next denom hmsgs htoken hredeem hnext =>
      rw [Hop.tokenAddress, htoken] at htokenSelf
      rw [Hop.handsBack_of_isSome (.inl (by rw [hredeem]; rfl))]
      exact ⟨_, _, _, _, _, _, _, _, presents_of_redeem hmsgs htokenSelf hnext⟩
  | @deposit token next denom hmsgs htoken hredeem hnext haddr =>
      rw [Hop.tokenAddress, hnext] at hnextSelf
      have hnextSelf' : token.address ≠ self.address := haddr ▸ hnextSelf
      have hredeem' : hop.redeemDenom.isSome = true := by rw [hredeem]; rfl
      rw [Hop.handsBack_of_isSome (.inl hredeem')]
      exact ⟨_, _, _, _, _, _, _, _, presents_of_selfSend hmsgs
        (fun _ => run_deposit_quiet hnextSelf' _ _ _)
        (fun _ _ _ => by simp [depositToCosmosMsg, honestReplies, hnextSelf'])
        hnextSelf (.inl hredeem') hnext⟩

/-- What an honest environment makes of the messages of a hop before a linked one: one call that
    passes the checks of `handleHop`. -/
structure Delivers (contract : Contract) (hop nextHop : Hop) (amount received : Uint128)
    (sender : HumanAddr) (sentFunds : List Coin) (fromAddr : HumanAddr) : Prop where
  token : validateReceivedToken nextHop.fromToken received (contract.env sender sentFunds) = .ok ()
  source : validateReceivedFromAnAllowedAddress hop nextHop (contract.env sender sentFunds) fromAddr
    = .ok ()
  run : ∀ {e : Event} {trace : List Event} {storage' : Storage} {inner : List Choice},
    e.env = contract.env sender sentFunds → e.msg = .receive fromAddr none received →
    run (exec contract) e.post e.items inner = some (trace, storage', []) →
    run (exec contract) e.pre ((contract.hopMessages hop amount).map .msg)
      (honestReplies contract nextHop received inner (contract.hopMessages hop amount))
      = some (e :: trace, storage', [])

/-- The call that the environment comes to is the only one. -/
theorem Presents.delivers {sender fromAddr : HumanAddr} {sentFunds : List Coin}
    {lead after : List Choice} {item : Item} {choice : Choice} {push : List Item}
    (h : Presents self hop nextHop amount received (self.env sender sentFunds) fromAddr lead after
      item choice push) :
    Delivers self hop nextHop amount received sender sentFunds fromAddr where
  token := h.token
  source := h.source
  run := by
    intro e trace storage' inner henv hmsg hinner
    have hcall : exec self e.pre item choice = some (some e, e.post, e.items ++ push) := by
      rw [h.calls, callHandle_eq_some.2 ⟨rfl, henv, hmsg⟩]
      rfl
    have hitem := run_item hcall (run_seq hinner (h.returns storage'))
    rw [h.replies, run_append, h.leads, Option.bind_some, hitem]
    simp

/-- Before every linked hop the honest environment delivers. -/
theorem Hop.Linked.delivers (h : hop.Linked nextHop) (hforeign : hop.Foreign self)
    (hnextForeign : nextHop.Foreign self) (amount returned : Uint128) :
    ∃ sender sentFunds fromAddr, Delivers self hop nextHop amount (hop.handsBack returned amount)
      sender sentFunds fromAddr := by
  obtain ⟨sender, sentFunds, fromAddr, _, _, _, _, _, hpresents⟩ :=
    h.presents hforeign hnextForeign amount returned
  exact ⟨sender, sentFunds, fromAddr, hpresents.delivers⟩

theorem Hop.Linked.emittable (h : hop.Linked nextHop) : hop.emittable = true := by
  cases h with
  | swap hhop => rw [hhop]; rfl
  | shade hhop => rw [hhop]; rfl
  | migrate hhop => rw [hhop]; rfl
  | redeem htoken hredeem hmigrate hpath =>
      simp [Hop.emittable, htoken, hredeem, hmigrate, hpath]
  | native htoken hredeem => simp [Hop.emittable, htoken, hredeem]

theorem Hop.Linked.paysOut (h : hop.Linked nextHop) : hop.paysOut nextHop = true := by
  cases h with
  | redeem _ hredeem _ _ hnext => simp [Hop.paysOut, hnext, hredeem]
  | swap _ hnext => simp [Hop.paysOut, hnext]
  | shade _ hnext => simp [Hop.paysOut, hnext]
  | migrate _ hnext => simp [Hop.paysOut, hnext]
  | native _ _ hnext => simp [Hop.paysOut, hnext]

theorem Contract.lastHopMessages_eq {config : Config} {sender : HumanAddr} {sentFunds : List Coin}
    {route : Route} {messages : List CosmosMsg} {logs : List LogAttribute}
    (h : LastHopMessages config (self.env sender sentFunds) hop nextHop amount route messages
      logs) :
    self.lastHopMessages config hop nextHop amount route = messages := by
  have hsame : DexAggregator.lastHopMessages config (self.env self.address []) hop nextHop amount
        route
      = DexAggregator.lastHopMessages config (self.env sender sentFunds) hop nextHop amount route :=
    rfl
  rw [Contract.lastHopMessages, hsame, lastHopMessages_iff.2 h]
  rfl

end Hops

/-! ## Whole runs -/

section Runs

variable {self : Contract} {config : Config} {route : Route} {returned : ℕ → Uint128}

/-- The honest environment completes linked hops, one call of `handleHop` each. The induction is on
    the hops that remain; what one of them emits is executed inside the call that consumes it. -/
theorem honestHops_complete (hops : List Hop) :
    ∀ (i : ℕ) (hop : Hop) (amount : Uint128) (storage : Storage),
      storage.config = some config →
      storage.routeState = some ⟨hop, { route with hops := hops }⟩ → hops ≠ [] →
      List.IsChain Hop.Linked (hop :: hops) → (∀ h ∈ hop :: hops, h.Foreign self) →
      route.minimumAcceptableAmount.u128
        ≤ (lastReceived returned i amount (hop :: hops).dropLast).u128 →
      ∃ trace lastHop,
        run (exec self) storage ((self.hopMessages hop amount).map .msg)
            (honestHops self config route returned i hop amount hops)
          = some (trace, storage.withRoute lastHop { route with hops := [] }, []) ∧
        (∀ e ∈ trace, e.msg.advances = true) ∧ trace.length = hops.length := by
  induction hops with
  | nil =>
      intro i hop amount storage _ _ hne
      exact absurd rfl hne
  | cons nextHop hops ih =>
      intro i hop amount storage hconfig hstate _ hchain hforeign hmin
      obtain ⟨hlinked, hchain⟩ := List.isChain_cons_cons.1 hchain
      have hhop := hforeign hop List.mem_cons_self
      have hrest : ∀ h ∈ nextHop :: hops, h.Foreign self :=
        fun h hmem => hforeign h (List.mem_cons_of_mem hop hmem)
      have hnext := hrest nextHop List.mem_cons_self
      obtain ⟨sender, sentFunds, fromAddr, hdelivers⟩ :=
        hlinked.delivers hhop hnext amount (returned i)
      cases hops with
      | nil =>
          -- `nextHop` is the last one: it is paid out
          have hmin : route.minimumAcceptableAmount.u128
            ≤ (hop.handsBack (returned i) amount).u128 := hmin
          obtain ⟨messages, logs, hmsgs⟩ := @Hop.exists_lastHopMessages hop nextHop _
            { route with hops := [] } hlinked.paysOut hmin config (self.env sender sentFunds)
          have hstep := HandleStep.hop hconfig hstate hdelivers.token hdelivers.source
            ((nextHopMessages_of_nil rfl).2 hmsgs)
          let e : Event := ⟨_, _, _, _, _, handle_iff.2 hstep⟩
          have hinner : run (exec self) e.post e.items (quietReplies messages)
              = some ([], e.post, []) := hmsgs.run_quietReplies hnext
          refine ⟨[e], nextHop, ?_, fun e' he' => ?_, rfl⟩
          · rw [honestHops, Contract.lastHopMessages_eq hmsgs]
            exact hdelivers.run rfl rfl hinner
          · rw [List.mem_singleton.1 he']
            rfl
      | cons hop₂ hops =>
          have hnextLinked := (List.isChain_cons_cons.1 hchain).1
          obtain ⟨messages, hmsgs⟩ := Hop.exists_hopMessages hnextLinked.emittable
            (hop.handsBack (returned i) amount) (self.env sender sentFunds)
          have hstep := @HandleStep.hop storage (self.env sender sentFunds) fromAddr _ config hop
            nextHop { route with hops := hop₂ :: hops } _ _ hconfig hstate hdelivers.token
            hdelivers.source ((nextHopMessages_of_ne_nil (List.cons_ne_nil _ _)).2 ⟨hmsgs, rfl⟩)
          let e : Event := ⟨_, _, _, _, _, handle_iff.2 hstep⟩
          -- the rest of the route is executed by the messages that `e` queues
          obtain ⟨trace, lastHop, hinner, hadvances, hlength⟩ := ih (i + 1) nextHop _ e.post hconfig
            rfl (List.cons_ne_nil _ _) hchain hrest hmin
          rw [Contract.hopMessages_eq hmsgs] at hinner
          refine ⟨e :: trace, lastHop, hdelivers.run rfl rfl hinner, ?_, ?_⟩
          · intro e' he'
            rcases List.mem_cons.1 he' with rfl | he'
            · rfl
            · exact hadvances e' he'
          · simp [hlength]

/-- A well-linked route has a second hop. -/
theorem Route.WellLinked.exists_hops (h : route.WellLinked) {firstHop : Hop}
    (hfirst : route.hops.head? = some firstHop) :
    ∃ nextHop hops, route.hops = firstHop :: nextHop :: hops := by
  match hroute : route.hops, h.length, hfirst with
  | [_], hlength, _ => exact absurd hlength (by simp)
  | hop :: nextHop :: hops, _, hfirst =>
      obtain rfl : hop = firstHop := by simpa using hfirst
      exact ⟨nextHop, hops, rfl⟩

/-- A first call, the hops that the environment completes while its messages are executed, and the
    `FinalizeRoute` queued last make a transaction. -/
theorem runTransaction_honestTransaction {firstHop : Hop} {hops : List Hop} {sender : HumanAddr}
    {sentFunds : List Coin} {fromAddr : HumanAddr} {amount : Uint128} {first final : Event}
    {messages : List CosmosMsg} {during : List Event} (hhops : route.hops = firstHop :: hops)
    (henv : first.env = self.env sender sentFunds) (hsender : sender ≠ self.address)
    (hmsg : first.msg = .receive fromAddr (some (.route route)) amount)
    (hresponse : first.response.messages = messages ++ [finalizeRouteMsg first.env])
    (hduring : run (exec self) first.post (messages.map .msg)
      (honestHops self config route returned 0 firstHop amount hops)
        = some (during, final.pre, []))
    (hfinalEnv : final.env = self.env self.address []) (hfinalMsg : final.msg = .finalizeRoute)
    (hquiet : final.items = []) :
    runTransaction self first.pre
        (honestTransaction self config route returned sender sentFunds fromAddr amount)
      = some (first :: (during ++ [final]), final.post) := by
  have hfinal : run (exec self) final.pre [.msg (finalizeRouteMsg first.env)] [.proceed]
      = some ([final], final.post, []) := by
    rw [finalizeRouteMsg, henv, ← hfinalMsg]
    exact run_selfCall self.codeHash hfinalEnv (by rw [hquiet, run_nil])
  have hitems : first.items = messages.map .msg ++ [.msg (finalizeRouteMsg first.env)] := by
    rw [Event.items, hresponse, List.map_append, List.map_singleton]
  have hchoices : honestTransaction self config route returned sender sentFunds fromAddr amount
      = .call sender sentFunds first.msg ::
        ((honestHops self config route returned 0 firstHop amount hops ++ [.proceed])
          ++ [.proceed]) := by
    simp [honestTransaction, hhops, hmsg]
  have hinner := run_seq hduring hfinal
  rw [← hitems] at hinner
  rw [runTransaction_eq_some, hchoices]
  exact run_outsideCall henv hsender hinner

/-- An honest run of a well-linked route always completes: after any first call that the contract
    accepts, whatever the smart contracts hand back along the way, the transaction succeeds with one
    call of `handleHop` for each further hop, `FinalizeRoute` at the end, and no route left. -/
theorem honest_run_completes (self : Contract) (config : Config) (storage : Storage)
    (hconfig : storage.config = some config) (route : Route) (hlinked : route.WellLinked)
    (hforeign : ∀ hop ∈ route.hops, hop.Foreign self) (firstHop : Hop)
    (hfirst : route.hops.head? = some firstHop) (sender : HumanAddr) (sentFunds : List Coin)
    (fromAddr : HumanAddr) (amount : Uint128) (hsender : sender ≠ self.address)
    (htoken : validateReceivedToken firstHop.fromToken amount (self.env sender sentFunds) = .ok ())
    (huser : validateUserIsTheReceiver firstHop.fromToken fromAddr route.to sender = .ok ())
    (returned : ℕ → Uint128)
    (hmin : route.minimumAcceptableAmount.u128
      ≤ (lastReceived returned 0 amount route.hops.dropLast).u128) :
    ∃ first during final,
      runTransaction self storage
          (honestTransaction self config route returned sender sentFunds fromAddr amount)
        = some (first :: during ++ [final], { storage with routeState := none }) ∧
      first.msg = .receive fromAddr (some (.route route)) amount ∧
      (∀ e ∈ during, e.msg.advances = true) ∧ during.length + 1 = route.hops.length ∧
      final.msg = .finalizeRoute := by
  obtain ⟨nextHop, hops, hhops⟩ := hlinked.exists_hops hfirst
  have hchain := hlinked.linked
  rw [hhops] at hchain hforeign hmin
  have hemittable := (List.isChain_cons_cons.1 hchain).1.emittable
  obtain ⟨messages, hmsgs⟩ :=
    Hop.exists_hopMessages hemittable amount (self.env sender sentFunds)
  have hstep := @HandleStep.firstHop storage _ _ _ _ _ _ _ _ hhops htoken huser hmsgs
  let first : Event := ⟨_, _, _, _, _, handle_iff.2 hstep⟩
  obtain ⟨during, lastHop, hduring, hadvances, hcount⟩ := @honestHops_complete self config route
    returned (nextHop :: hops) 0 firstHop amount first.post hconfig rfl (List.cons_ne_nil _ _)
    hchain hforeign hmin
  rw [Contract.hopMessages_eq hmsgs] at hduring
  have hfinalize := @HandleStep.finalizeRoute
    (first.post.withRoute lastHop { route with hops := [] }) (self.env self.address []) lastHop _
    rfl rfl rfl
  let final : Event := ⟨_, _, _, _, _, handle_iff.2 hfinalize⟩
  refine ⟨first, during, final, ?_, rfl, hadvances, by simp [hcount, hhops], rfl⟩
  rw [List.cons_append]
  exact @runTransaction_honestTransaction self config route returned firstHop (nextHop :: hops)
    sender sentFunds fromAddr amount first final messages during hhops rfl hsender rfl rfl hduring
    rfl rfl rfl

end Runs

/-- At the swap of the fixtures. -/
theorem honest_run_completes_mockSwap :
    ∃ first during final,
      runTransaction mockContract mockStorage
          (honestTransaction mockContract ⟨"btn.group"⟩ mockSwapRoute (fun _ => ⟨11, by decide⟩)
            mockSscrt.address [] mockUserAddress ⟨12, by decide⟩)
        = some (first :: during ++ [final], mockStorage) ∧
      first.msg = .receive mockUserAddress (some (.route mockSwapRoute)) ⟨12, by decide⟩ ∧
      (∀ e ∈ during, e.msg.advances = true) ∧ during.length + 1 = mockSwapRoute.hops.length ∧
      final.msg = .finalizeRoute :=
  honest_run_completes mockContract ⟨"btn.group"⟩ mockStorage rfl mockSwapRoute
    ⟨by decide, List.isChain_cons_cons.2 ⟨.swap rfl rfl, .singleton _⟩⟩
    (by simp [mockSwapRoute, Hop.Foreign, Hop.tokenAddress, Token.contract, mockSscrt, mockButton,
      mockPairContract, mockContract])
    _ rfl mockSscrt.address [] mockUserAddress ⟨12, by decide⟩ (by decide) rfl rfl
    (fun _ => ⟨11, by decide⟩) (by decide)

end DexAggregator
