import DexAggregator.Funds
import DexAggregator.Settlement

set_option autoImplicit false

/-! # Honest runs on the ledger

An honest environment with balances: tokens are honest, whoever hands something back gives it to the
contract first, and nobody gives anything else. A well-linked route then runs to its end whatever
the contract holds, by the calls of the honest run of the host, and every balance is in the end what
it was (`honest_run_keeps_balances`). -/

namespace DexAggregator

open WorkStack (run run_nil run_seq run_item)

/-! ## The assets of a route -/

/-- What arrives after `hop` is what `nextHop` spends. -/
def Hop.Passes (hop nextHop : Hop) : Prop := nextHop.spends = hop.arrival nextHop

/-! ## The choices of an honest environment -/

/-- The choices while the messages of a hop are executed, `received` of `asset` being handed back. A
    message on its own is a send with a message to swap: the smart contract sends what it hands back
    through the token of the next hop. Of two messages the first one is given `asset` for, and the
    second one is the call. `inner` are the choices during the call. -/
def ledgerReplies (nextHop : Hop) (asset : Asset) (received : Uint128)
    (inner : List LedgerChoice) : List CosmosMsg → List LedgerChoice
  | [message] =>
    match message with
    | .snip20 (.send recipient _ _ _) _ _ _ =>
      .proceed :: .tokenSend nextHop.tokenAddress recipient none received :: (inner ++ [.proceed])
    | _ => []
  | [_, message] =>
    [.proceed, .give asset received.u128, .proceed] ++
      match message with
      | .snip20 _ _ _ _ => .proceed :: (inner ++ [.proceed])
      | _ => .proceed :: inner
  | _ => []

/-- The choices while a payout is executed, which leads to no call. -/
def payoutReplies : List CosmosMsg → List LedgerChoice
  | [] => []
  | .snip20 (.send _ _ _ _) _ _ _ :: messages => [.proceed, .proceed] ++ payoutReplies messages
  | _ :: messages => .proceed :: payoutReplies messages

/-- The choices while the messages of hop `i` are executed, with `hops` still to come. -/
def honestLedgerHops (self : Contract) (config : Config) (route : Route) (returned : ℕ → Uint128) :
    ℕ → Hop → Uint128 → List Hop → List LedgerChoice
  | _, _, _, [] => []
  | i, hop, amount, nextHop :: hops =>
    let received := hop.handsBack (returned i) amount
    let inner := match hops with
      | [] => payoutReplies
        (self.lastHopMessages config hop nextHop received { route with hops := [] })
      | _ => honestLedgerHops self config route returned (i + 1) nextHop received hops
    ledgerReplies nextHop (hop.arrival nextHop) received inner (self.hopMessages hop amount)

/-- A transaction in which `sender` calls with `route`, and the environment is honest. -/
def honestLedgerTransaction (self : Contract) (config : Config) (route : Route)
    (returned : ℕ → Uint128) (sender : HumanAddr) (sentFunds : List Coin) (fromAddr : HumanAddr)
    (amount : Uint128) : List LedgerChoice :=
  match route.hops with
  | [] => []
  | firstHop :: hops =>
    (match firstHop.fromToken with
      | .snip20 contract =>
        .tokenSend contract.address fromAddr (some (.route route)) amount
      | .native _ => .call sender sentFunds (.receive fromAddr (some (.route route)) amount)) ::
    (honestLedgerHops self config route returned 0 firstHop amount hops ++
    -- the queued `FinalizeRoute`, and the return of the outside code
    [.proceed, .proceed])

/-! ## Balances -/

@[simp] theorem Ledger.credit_zero (ledger : Ledger) (asset : Asset) :
    ledger.credit asset 0 = ledger := by
  funext x
  simp [Ledger.credit]

/-- A part of what was credited is taken away. -/
theorem Ledger.debit_credit (ledger : Ledger) (asset : Asset) {a b c : ℕ} (h : c = a + b) :
    (ledger.credit asset c).debit asset a = some (ledger.credit asset b) := by
  have hle : a ≤ ledger.credit asset c asset := by
    rw [Ledger.credit_apply, if_pos rfl]
    omega
  rw [Ledger.debit, if_pos hle]
  congr 1
  funext x
  by_cases hx : x = asset
  · simp only [if_pos hx, Ledger.credit_apply]
    omega
  · simp [hx, Ledger.credit]

theorem Ledger.debit_credit_self (ledger : Ledger) (asset : Asset) (a : ℕ) :
    (ledger.credit asset a).debit asset a = some ledger := by
  rw [Ledger.debit_credit ledger asset (Nat.add_zero a).symm, Ledger.credit_zero]

theorem Ledger.debitCoins_singleton (ledger : Ledger) (coin : Coin) :
    ledger.debitCoins [coin] = ledger.debit (.native coin.denom) coin.amount.u128 := by
  simp [Ledger.debitCoins]

/-! ## Executing one message -/

section Messages

variable {self : Contract} {honest : HumanAddr → Bool} {storage storage' : Storage}
  {ledger ledger' : Ledger} {token recipient callbackCodeHash : String} {amount : Uint128}
  {calls : List Call} {e : Event} {inner : List LedgerChoice}

theorem ledgerExec_honest (htoken : honest token = true) (hself : token ≠ self.address)
    (msg : Snip20Msg) (blockSize : ℕ) (callbackCodeHash : String) (chain : Chain)
    (choice : LedgerChoice) :
    ledgerExec self honest chain (.msg (.snip20 msg blockSize callbackCodeHash token)) choice
      = execHonest self token chain msg choice := by
  simp [ledgerExec, ledgerDeliver, hself, htoken]

/-- A send to another contract hands control to outside code. -/
theorem ledgerExec_send (htoken : honest token = true) (hself : token ≠ self.address)
    (hrecipient : recipient ≠ self.address)
    (hdebit : ledger.debit (.snip20 token) amount.u128 = some ledger') (msg : Option Binary)
    (padding : Option String) (blockSize : ℕ) (callbackCodeHash : String) :
    ledgerExec self honest ⟨storage, ledger⟩
        (.msg (.snip20 (.send recipient amount msg padding) blockSize callbackCodeHash token))
        .proceed
      = some (none, ⟨storage, ledger'⟩, [.outside]) := by
  simp [ledgerExec_honest htoken hself, execHonest, hdebit, hrecipient]

theorem ledgerExec_transfer (htoken : honest token = true) (hself : token ≠ self.address)
    (hrecipient : recipient ≠ self.address)
    (hdebit : ledger.debit (.snip20 token) amount.u128 = some ledger')
    (padding : Option String) (blockSize : ℕ) (callbackCodeHash : String) :
    ledgerExec self honest ⟨storage, ledger⟩
        (.msg (.snip20 (.transfer recipient amount padding) blockSize callbackCodeHash token))
        .proceed
      = some (none, ⟨storage, ledger'⟩, []) := by
  simp [ledgerExec_honest htoken hself, execHonest, hdebit, hrecipient]

theorem ledgerExec_redeem (htoken : honest token = true) (hself : token ≠ self.address)
    (hdebit : ledger.debit (.snip20 token) amount.u128 = some ledger') (denom : Option String)
    (padding : Option String) (blockSize : ℕ) (callbackCodeHash : String) :
    ledgerExec self honest ⟨storage, ledger⟩
        (.msg (.snip20 (.redeem amount denom padding) blockSize callbackCodeHash token)) .proceed
      = some (none, ⟨storage, ledger'⟩, [.outside]) := by
  simp [ledgerExec_honest htoken hself, execHonest, hdebit]

theorem ledgerExec_deposit (hself : token ≠ self.address) {coin : Coin}
    (hdebit : ledger.debit (.native coin.denom) coin.amount.u128 = some ledger') (blockSize : ℕ)
    (callbackCodeHash : String) :
    ledgerExec self honest ⟨storage, ledger⟩
        (.msg (depositToCosmosMsg none blockSize callbackCodeHash token (some coin))) .proceed
      = some (none, ⟨storage, ledger'⟩, [.outside]) := by
  simp [ledgerExec, ledgerDeliver, depositToCosmosMsg, Ledger.debitCoins_singleton, hdebit, hself]

theorem ledgerExec_bankSend (hrecipient : recipient ≠ self.address) {coin : Coin}
    (hdebit : ledger.debit (.native coin.denom) coin.amount.u128 = some ledger')
    (fromAddress : HumanAddr) :
    ledgerExec self honest ⟨storage, ledger⟩ (.msg (.bankSend fromAddress recipient [coin]))
        .proceed
      = some (none, ⟨storage, ledger'⟩, []) := by
  simp [ledgerExec, ledgerDeliver, Ledger.debitCoins_singleton, hdebit, hrecipient]

/-- Outside code gives an asset and returns. -/
theorem run_give (asset : Asset) (a : ℕ) :
    run (ledgerExec self honest) ⟨storage, ledger⟩ [.outside] [.give asset a, .proceed]
      = some ([], ⟨storage, ledger.credit asset a⟩, []) := rfl

/-- A call queues its messages, after which outside code returns. -/
theorem run_items_returns
    (hinner : run (ledgerExec self honest) ⟨e.post, ledger'⟩ e.items inner
      = some (calls, ⟨storage', ledger⟩, [])) :
    run (ledgerExec self honest) ⟨e.post, ledger'⟩ (e.items ++ [.outside]) (inner ++ [.proceed])
      = some (calls, ⟨storage', ledger⟩, []) := by
  have hreturns : run (ledgerExec self honest) ⟨storage', ledger⟩ [.outside] [.proceed]
    = some ([], ⟨storage', ledger⟩, []) := rfl
  simpa using run_seq hinner hreturns

/-- Outside code sends the contract a token, and returns. -/
theorem run_tokenSend (htoken : honest token = true) {fromAddr : HumanAddr}
    (hfrom : fromAddr ≠ self.address) {msg : Option Binary} (henv : e.env = self.env token [])
    (hmsg : e.msg = .receive fromAddr msg amount)
    (hinner : run (ledgerExec self honest)
        ⟨e.post, ledger'.credit (.snip20 token) amount.u128⟩ e.items inner
      = some (calls, ⟨storage', ledger⟩, [])) :
    run (ledgerExec self honest) ⟨e.pre, ledger'⟩ [.outside]
        (.tokenSend token fromAddr msg amount :: (inner ++ [.proceed]))
      = some (⟨e, ledger'.credit (.snip20 token) amount.u128⟩ :: calls, ⟨storage', ledger⟩,
        []) := by
  have hexec : ledgerExec self honest ⟨e.pre, ledger'⟩ .outside
      (.tokenSend token fromAddr msg amount)
      = some (some ⟨e, ledger'.credit (.snip20 token) amount.u128⟩,
        ⟨e.post, ledger'.credit (.snip20 token) amount.u128⟩, e.items ++ [.outside]) := by
    simp [ledgerExec, htoken, hfrom, callWith, callHandle_eq_some.2 ⟨rfl, henv, hmsg⟩]
  exact run_item hexec (run_items_returns hinner)

/-- Outside code calls with coins, and returns. -/
theorem run_callWithCoins {sender : HumanAddr} {coins : List Coin} (hsender : sender ≠ self.address)
    (hhonest : honest sender = false) (henv : e.env = self.env sender coins)
    (hinner : run (ledgerExec self honest) ⟨e.post, ledger'.creditCoins coins⟩ e.items inner
      = some (calls, ⟨storage', ledger⟩, [])) :
    run (ledgerExec self honest) ⟨e.pre, ledger'⟩ [.outside]
        (.call sender coins e.msg :: (inner ++ [.proceed]))
      = some (⟨e, ledger'.creditCoins coins⟩ :: calls, ⟨storage', ledger⟩, []) := by
  have hexec : ledgerExec self honest ⟨e.pre, ledger'⟩ .outside (.call sender coins e.msg)
      = some (some ⟨e, ledger'.creditCoins coins⟩, ⟨e.post, ledger'.creditCoins coins⟩,
        e.items ++ [.outside]) := by
    simp [ledgerExec, hsender, hhonest, callWith, callHandle_eq_some.2 ⟨rfl, henv, rfl⟩]
  exact run_item hexec (run_items_returns hinner)

/-- What the contract sends itself comes back as a call. -/
theorem run_selfSend (htoken : honest token = true) (hself : token ≠ self.address)
    {msg : Option Binary} (henv : e.env = self.env token [])
    (hmsg : e.msg = .receive self.address msg amount)
    (hle : ∃ ledger'', ledger'.debit (.snip20 token) amount.u128 = some ledger'')
    (padding : Option String) (blockSize : ℕ) (callbackCodeHash : String)
    (hinner : run (ledgerExec self honest) ⟨e.post, ledger'⟩ e.items inner
      = some (calls, ⟨storage', ledger⟩, [])) :
    run (ledgerExec self honest) ⟨e.pre, ledger'⟩
        [.msg (.snip20 (.send self.address amount msg padding) blockSize callbackCodeHash token)]
        (.proceed :: (inner ++ [.proceed]))
      = some (⟨e, ledger'⟩ :: calls, ⟨storage', ledger⟩, []) := by
  obtain ⟨ledger'', hdebit⟩ := hle
  have hexec : ledgerExec self honest ⟨e.pre, ledger'⟩
      (.msg (.snip20 (.send self.address amount msg padding) blockSize callbackCodeHash token))
      .proceed
      = some (some ⟨e, ledger'⟩, ⟨e.post, ledger'⟩, e.items ++ [.outside]) := by
    simp [ledgerExec_honest htoken hself, execHonest, hdebit, callWith,
      callHandle_eq_some.2 ⟨rfl, henv, hmsg⟩]
  exact run_item hexec (run_items_returns hinner)

/-- The contract calls itself with coins that it holds. -/
theorem run_selfCallWithCoins {coins : List Coin} (henv : e.env = self.env self.address coins)
    (hle : ∃ ledger'', ledger'.debitCoins coins = some ledger'') (callbackCodeHash : String)
    (hinner : run (ledgerExec self honest) ⟨e.post, ledger'⟩ e.items inner
      = some (calls, ⟨storage', ledger⟩, [])) :
    run (ledgerExec self honest) ⟨e.pre, ledger'⟩
        [.msg (.execute self.address callbackCodeHash (.handle e.msg) coins)] (.proceed :: inner)
      = some (⟨e, ledger'⟩ :: calls, ⟨storage', ledger⟩, []) := by
  obtain ⟨ledger'', hdebit⟩ := hle
  have hexec : ledgerExec self honest ⟨e.pre, ledger'⟩
      (.msg (.execute self.address callbackCodeHash (.handle e.msg) coins)) .proceed
      = some (some ⟨e, ledger'⟩, ⟨e.post, ledger'⟩, e.items) := by
    simp [ledgerExec, ledgerDeliver, hdebit, callWith, callHandle_eq_some.2 ⟨rfl, henv, rfl⟩]
  exact run_item hexec hinner

/-- A message that is given an asset for, and one that is executed with it. -/
theorem run_pair {first second : CosmosMsg} {asset : Asset} {a : ℕ} {choices : List LedgerChoice}
    {chain : Chain}
    (hfirst : ledgerExec self honest chain (.msg first) .proceed
      = some (none, ⟨storage, ledger⟩, [.outside]))
    (hsecond : run (ledgerExec self honest) ⟨storage, ledger.credit asset a⟩ [.msg second] choices
      = some (calls, ⟨storage', ledger'⟩, [])) :
    run (ledgerExec self honest) chain [.msg first, .msg second]
        ([.proceed, .give asset a, .proceed] ++ choices)
      = some (calls, ⟨storage', ledger'⟩, []) :=
  run_seq (run_item hfirst (run_give asset a)) hsecond

/-- What arrived at the last hop is paid out, all of it and nothing else. -/
theorem LastHopMessages.run_payoutReplies {config : Config} {sender : HumanAddr}
    {sentFunds : List Coin} {currentHop nextHop : Hop} {route : Route} {messages : List CosmosMsg}
    {logs : List LogAttribute}
    (h : LastHopMessages config (self.env sender sentFunds) currentHop nextHop amount route
      messages logs)
    (hhonest : honest nextHop.tokenAddress = true) (hself : nextHop.tokenAddress ≠ self.address)
    (hadmin : config.admin ≠ self.address) (hreceiver : route.to ≠ self.address) :
    run (ledgerExec self honest)
        ⟨storage, ledger.credit (currentHop.arrival nextHop) amount.u128⟩ (messages.map .msg)
        (payoutReplies messages)
      = some ([], ⟨storage, ledger⟩, []) := by
  have hreturns : ∀ chain : Chain, run (ledgerExec self honest) chain [.outside] [.proceed]
    = some ([], chain, []) := fun _ => rfl
  cases h with
  | @snip20 token htoken =>
      have hdebit := ledger.debit_credit_self (.snip20 token.address) amount.u128
      rw [Hop.tokenAddress, htoken] at hhonest hself
      rw [Hop.arrival_snip20 htoken]
      exact run_item (ledgerExec_send hhonest hself hreceiver hdebit _ _ _ _) (hreturns _)
  | @snip20Excess token excess htoken hmin hest hexcess =>
      have hfee := ledger.debit_credit (.snip20 token.address)
        (show amount.u128 = excess.u128 + route.estimatedAmount.u128 by omega)
      have hdebit := ledger.debit_credit_self (.snip20 token.address) route.estimatedAmount.u128
      rw [Hop.tokenAddress, htoken] at hhonest hself
      rw [Hop.arrival_snip20 htoken]
      exact run_seq
        (run_item (ledgerExec_transfer hhonest hself hadmin hfee _ _ _) (run_nil _ []))
        (run_item (ledgerExec_send hhonest hself hreceiver hdebit _ _ _ _) (hreturns _))
  | @native token denom htoken hdenom =>
      have hdebit := ledger.debit_credit_self (.native denom) amount.u128
      rw [Hop.arrival_native htoken hdenom]
      exact run_item (@ledgerExec_bankSend self honest storage _ _ _ hreceiver ⟨denom, amount⟩
        hdebit _) (run_nil _ [])
  | @nativeExcess token denom excess htoken hdenom hmin hest hexcess =>
      have hfee := ledger.debit_credit (.native denom)
        (show amount.u128 = excess.u128 + route.estimatedAmount.u128 by omega)
      have hdebit := ledger.debit_credit_self (.native denom) route.estimatedAmount.u128
      rw [Hop.arrival_native htoken hdenom]
      exact run_seq
        (run_item (@ledgerExec_bankSend self honest storage _ _ _ hadmin ⟨denom, excess⟩ hfee _)
          (run_nil _ []))
        (run_item (@ledgerExec_bankSend self honest storage _ _ _ hreceiver
          ⟨denom, route.estimatedAmount⟩ hdebit _) (run_nil _ []))

end Messages

/-! ## From one hop to the next -/

/-- What an honest environment makes of the messages of a hop before a linked one, on the host and
    on the ledger: the call that passes the checks of `handleHop`, when all that `hop` spends is
    spent and exactly what it reports has arrived. -/
structure LedgerDelivers (contract : Contract) (honest : HumanAddr → Bool) (hop nextHop : Hop)
    (amount received : Uint128) (sender : HumanAddr) (sentFunds : List Coin)
    (fromAddr : HumanAddr) : Prop where
  delivers : Delivers contract hop nextHop amount received sender sentFunds fromAddr
  reported : ∀ x : Asset, x.vouched honest = true →
    (HandleMsg.receive fromAddr none received).reported (contract.env sender sentFunds) x
      = if x = hop.arrival nextHop then received.u128 else 0
  run : ∀ {e : Event} {calls : List Call} {storage' : Storage} {ledger : Ledger}
    {inner : List LedgerChoice},
    e.env = contract.env sender sentFunds → e.msg = .receive fromAddr none received →
    run (ledgerExec contract honest) ⟨e.post, ledger.credit (hop.arrival nextHop) received.u128⟩
        e.items inner
      = some (calls, ⟨storage', ledger⟩, []) →
    run (ledgerExec contract honest) ⟨e.pre, ledger.credit hop.spends amount.u128⟩
        ((contract.hopMessages hop amount).map .msg)
        (ledgerReplies nextHop (hop.arrival nextHop) received inner
          (contract.hopMessages hop amount))
      = some (⟨e, ledger.credit (hop.arrival nextHop) received.u128⟩ :: calls,
        ⟨storage', ledger⟩, [])

section Hops

variable {self : Contract} {honest : HumanAddr → Bool} {hop nextHop : Hop} {amount : Uint128}
  {token smartContract next : SecretContract}

/-- An honest token is another contract. -/
theorem ne_of_honest (hself : honest self.address = false) {address : HumanAddr}
    (h : honest address = true) : address ≠ self.address := by
  rintro rfl
  exact Bool.noConfusion (h.symm.trans hself)

/-- A call with a coin, by whoever is no honest token, reports the coin. -/
theorem reported_of_coin {sender fromAddr : HumanAddr} {msg : Option Binary} {denom : String}
    (hsender : honest sender = false) {x : Asset} (hx : x.vouched honest = true) :
    (HandleMsg.receive fromAddr msg amount).reported (self.env sender [⟨denom, amount⟩]) x
      = if x = .native denom then amount.u128 else 0 := by
  cases x with
  | native denom' => simp [HandleMsg.reported, eq_comm]
  | snip20 token =>
      have hne : sender ≠ token := by
        rintro rfl
        exact Bool.noConfusion (hsender.symm.trans hx)
      simp [HandleMsg.reported, Contract.env, hne]

theorem ledgerDelivers_of_swap {msg : Binary}
    (hmsgs : self.hopMessages hop amount = [sendMsg smartContract.address amount (some msg) none
      blockSize token.contractHash token.address])
    (htoken : hop.fromToken = .snip20 token) (hnext : nextHop.fromToken = .snip20 next)
    (hself : honest self.address = false) (hhonest : honest token.address = true)
    (hnextHonest : honest next.address = true) (hsmart : smartContract.address ≠ self.address)
    {received : Uint128}
    (hdelivers : Delivers self hop nextHop amount received next.address [] smartContract.address) :
    LedgerDelivers self honest hop nextHop amount received next.address []
      smartContract.address where
  delivers := hdelivers
  reported := by
    intro x _
    rw [reported_of_token smartContract.address none received rfl x, Hop.arrival_snip20 hnext]
    rfl
  run := by
    intro e calls storage' ledger inner henv hmsg hinner
    have hdebit := ledger.debit_credit_self (.snip20 token.address) amount.u128
    have haddress : nextHop.tokenAddress = next.address := by
      rw [Hop.tokenAddress, hnext, Token.contract]
    rw [Hop.arrival_snip20 hnext] at hinner ⊢
    rw [Hop.spends_snip20 htoken, hmsgs, sendMsg, ledgerReplies]
    simp only [haddress]
    exact run_item (ledgerExec_send hhonest (ne_of_honest hself hhonest) hsmart hdebit _ _ _ _)
      (run_tokenSend hnextHonest hsmart henv hmsg hinner)

/-- After a message for which the next token is given, a send to this contract makes it call. -/
theorem ledgerDelivers_of_selfSend {first : CosmosMsg} {contractHash : String}
    (hmsgs : self.hopMessages hop amount = [first, sendMsg self.address amount none none
      blockSize contractHash next.address])
    (hnext : nextHop.fromToken = .snip20 next) (hself : honest self.address = false)
    (hnextHonest : honest next.address = true)
    (hfirst : ∀ (storage : Storage) (ledger : Ledger),
      ledgerExec self honest ⟨storage, ledger.credit hop.spends amount.u128⟩ (.msg first) .proceed
        = some (none, ⟨storage, ledger⟩, [.outside]))
    (hdelivers : Delivers self hop nextHop amount amount next.address [] self.address) :
    LedgerDelivers self honest hop nextHop amount amount next.address [] self.address where
  delivers := hdelivers
  reported := by
    intro x _
    rw [reported_of_token self.address none amount rfl x, Hop.arrival_snip20 hnext]
    rfl
  run := by
    intro e calls storage' ledger inner henv hmsg hinner
    have hdebit := ledger.debit_credit_self (.snip20 next.address) amount.u128
    rw [Hop.arrival_snip20 hnext] at hinner ⊢
    rw [hmsgs]
    exact run_pair (hfirst e.pre ledger)
      (run_selfSend hnextHonest (ne_of_honest hself hnextHonest) henv hmsg ⟨ledger, hdebit⟩ none
        blockSize contractHash hinner)

/-- After a redeem, for which the coin is given, the contract calls itself with it. -/
theorem ledgerDelivers_of_redeem {denom : String}
    (hmsgs : self.hopMessages hop amount =
      [redeemMsg amount (some denom) none blockSize token.contractHash token.address,
        .execute self.address self.codeHash (.handle (.receive self.address none amount))
          [⟨denom, amount⟩]])
    (htoken : hop.fromToken = .snip20 token) (hredeem : hop.redeemDenom = some denom)
    (hnext : nextHop.fromToken = .native next) (hself : honest self.address = false)
    (hhonest : honest token.address = true)
    (hdelivers : Delivers self hop nextHop amount amount self.address [⟨denom, amount⟩]
      self.address) :
    LedgerDelivers self honest hop nextHop amount amount self.address [⟨denom, amount⟩]
      self.address where
  delivers := hdelivers
  reported := by
    intro x hx
    rw [reported_of_coin hself hx, Hop.arrival_native hnext hredeem]
  run := by
    intro e calls storage' ledger inner henv hmsg hinner
    have hdebit := ledger.debit_credit_self (.snip20 token.address) amount.u128
    have hcoin := ledger.debit_credit_self (.native denom) amount.u128
    rw [← Ledger.debitCoins_singleton _ ⟨denom, amount⟩] at hcoin
    rw [Hop.arrival_native hnext hredeem] at hinner ⊢
    rw [Hop.spends_snip20 htoken, hmsgs, ← hmsg]
    exact run_pair
      (ledgerExec_redeem hhonest (ne_of_honest hself hhonest) hdebit (some denom) none blockSize
        token.contractHash)
      (run_selfCallWithCoins henv ⟨ledger, hcoin⟩ self.codeHash hinner)

/-- Before every linked hop the honest environment delivers, on the host and on the ledger. -/
theorem Hop.Linked.ledgerDelivers (h : hop.Linked nextHop) (hself : honest self.address = false)
    (hhonest : honest hop.tokenAddress = true) (hnextHonest : honest nextHop.tokenAddress = true)
    (hsmart : ∀ contract ∈ hop.smartContract, contract.address ≠ self.address)
    (amount returned : Uint128) :
    ∃ sender sentFunds fromAddr, LedgerDelivers self honest hop nextHop amount
      (hop.handsBack returned amount) sender sentFunds fromAddr := by
  have htokenSelf := ne_of_honest hself hhonest
  have hnextSelf := ne_of_honest hself hnextHonest
  cases h.hands self amount with
  | @swap token smartContract next msg hmsgs htoken hcontract hredeem hmigrate hnext =>
      rw [Hop.tokenAddress, htoken] at hhonest htokenSelf
      rw [Hop.tokenAddress, hnext] at hnextHonest hnextSelf
      have hpresents := presents_of_swap hmsgs htokenSelf hnextSelf hcontract hredeem hmigrate hnext
        (hop.handsBack returned amount)
      exact ⟨_, _, _, ledgerDelivers_of_swap hmsgs htoken hnext hself hhonest hnextHonest
        (hsmart smartContract hcontract) hpresents.delivers⟩
  | @migrate token smartContract next contractHash hmsgs htoken hcontract hmigrate hnext =>
      rw [Hop.tokenAddress, htoken] at hhonest htokenSelf
      rw [Hop.tokenAddress, hnext] at hnextHonest hnextSelf
      have hpresents := presents_of_selfSend hmsgs (fun _ => run_snip20_quiet htokenSelf _ _ _)
        (fun _ _ _ => rfl) hnextSelf (.inr hmigrate) hnext
      rw [Hop.handsBack_of_isSome (.inr hmigrate)]
      refine ⟨_, _, _, ledgerDelivers_of_selfSend hmsgs hnext hself hnextHonest ?_
        hpresents.delivers⟩
      intro storage ledger
      rw [Hop.spends_snip20 htoken]
      exact ledgerExec_send hhonest htokenSelf (hsmart smartContract hcontract)
        (ledger.debit_credit_self _ _) none none blockSize token.contractHash
  | @redeem token next denom hmsgs htoken hredeem hnext =>
      rw [Hop.tokenAddress, htoken] at hhonest htokenSelf
      rw [Hop.handsBack_of_isSome (.inl (by rw [hredeem]; rfl))]
      exact ⟨_, _, _, ledgerDelivers_of_redeem hmsgs htoken hredeem hnext hself hhonest
        (presents_of_redeem hmsgs htokenSelf hnext).delivers⟩
  | @deposit token next denom hmsgs htoken hredeem hnext haddr =>
      have hredeemSome : hop.redeemDenom.isSome = true := by rw [hredeem]; rfl
      rw [Hop.tokenAddress, htoken] at htokenSelf
      rw [Hop.tokenAddress, hnext] at hnextHonest hnextSelf
      have hpresents := presents_of_selfSend hmsgs (fun _ => run_deposit_quiet htokenSelf _ _ _)
        (fun _ _ _ => by
          simp [depositToCosmosMsg, honestReplies, show token.address ≠ _ from htokenSelf])
        hnextSelf (.inl hredeemSome) hnext
      rw [Hop.handsBack_of_isSome (.inl hredeemSome)]
      refine ⟨_, _, _, ledgerDelivers_of_selfSend hmsgs hnext hself hnextHonest ?_
        hpresents.delivers⟩
      intro storage ledger
      rw [Hop.spends_native htoken hredeem]
      exact @ledgerExec_deposit self honest storage _ _ token.address htokenSelf ⟨denom, amount⟩
        (ledger.debit_credit_self _ _) blockSize token.contractHash

end Hops

/-! ## Whole runs -/

section Runs

variable {self : Contract} {honest : HumanAddr → Bool} {config : Config} {route : Route}
  {returned : ℕ → Uint128}

/-- An honest environment on the ledger: tokens are honest, and no smart contract of the route is
    this contract. -/
structure Hop.Honest (contract : Contract) (honest : HumanAddr → Bool) (hop : Hop) : Prop where
  token : honest hop.tokenAddress = true
  smartContract : ∀ smartContract ∈ hop.smartContract, smartContract.address ≠ contract.address

/-- On top of the balances `start` the contract holds exactly what the call reports. -/
def Call.Holds (honest : HumanAddr → Bool) (start : Ledger) (call : Call) : Prop :=
  ∀ x : Asset, x.vouched honest = true →
    call.ledger x = start x + call.event.msg.reported call.event.env x

theorem LedgerDelivers.holds {hop nextHop : Hop} {amount received : Uint128} {sender : HumanAddr}
    {sentFunds : List Coin} {fromAddr : HumanAddr}
    (h : LedgerDelivers self honest hop nextHop amount received sender sentFunds fromAddr)
    {e : Event} (henv : e.env = self.env sender sentFunds)
    (hmsg : e.msg = .receive fromAddr none received) (ledger : Ledger) :
    Call.Holds honest ledger ⟨e, ledger.credit (hop.arrival nextHop) received.u128⟩ := by
  intro x hx
  show ledger.credit (hop.arrival nextHop) received.u128 x = ledger x + e.msg.reported e.env x
  rw [henv, hmsg, h.reported x hx, Ledger.credit_apply]

/-- From a balance on top of which it holds what the hop spends, the contract completes the hops
    and is left with the balance, by the calls of the honest run of the host. The induction is on
    the hops that remain. -/
theorem honestLedgerHops_complete (hself : honest self.address = false)
    (hadmin : config.admin ≠ self.address) (hreceiver : route.to ≠ self.address)
    (hops : List Hop) :
    ∀ (i : ℕ) (hop : Hop) (amount : Uint128) (storage : Storage) (ledger : Ledger),
      storage.config = some config →
      storage.routeState = some ⟨hop, { route with hops := hops }⟩ → hops ≠ [] →
      List.IsChain Hop.Linked (hop :: hops) → List.IsChain Hop.Passes (hop :: hops).dropLast →
      (∀ h ∈ hop :: hops, h.Honest self honest) →
      route.minimumAcceptableAmount.u128
        ≤ (lastReceived returned i amount (hop :: hops).dropLast).u128 →
      ∃ calls lastHop,
        run (ledgerExec self honest) ⟨storage, ledger.credit hop.spends amount.u128⟩
            ((self.hopMessages hop amount).map .msg)
            (honestLedgerHops self config route returned i hop amount hops)
          = some (calls, ⟨storage.withRoute lastHop { route with hops := [] }, ledger⟩, []) ∧
        run (exec self) storage ((self.hopMessages hop amount).map .msg)
            (honestHops self config route returned i hop amount hops)
          = some (calls.map Call.event, storage.withRoute lastHop { route with hops := [] }, []) ∧
        ∀ call ∈ calls, call.Holds honest ledger := by
  induction hops with
  | nil =>
      intro i hop amount storage ledger _ _ hne
      exact absurd rfl hne
  | cons nextHop hops ih =>
      intro i hop amount storage ledger hconfig hstate _ hchain hpasses hhonest hmin
      obtain ⟨hlinked, hchain⟩ := List.isChain_cons_cons.1 hchain
      have hhop := hhonest hop List.mem_cons_self
      have hrest : ∀ h ∈ nextHop :: hops, h.Honest self honest :=
        fun h hmem => hhonest h (List.mem_cons_of_mem hop hmem)
      have hnext := hrest nextHop List.mem_cons_self
      obtain ⟨sender, sentFunds, fromAddr, hdelivers⟩ :=
        hlinked.ledgerDelivers hself hhop.token hnext.token hhop.smartContract amount (returned i)
      have hnextSelf := ne_of_honest hself hnext.token
      cases hops with
      | nil =>
          -- `nextHop` is the last one: it is paid out
          have hmin : route.minimumAcceptableAmount.u128
            ≤ (hop.handsBack (returned i) amount).u128 := hmin
          obtain ⟨messages, logs, hmsgs⟩ := @Hop.exists_lastHopMessages hop nextHop _
            { route with hops := [] } hlinked.paysOut hmin config (self.env sender sentFunds)
          have hstep := HandleStep.hop hconfig hstate hdelivers.delivers.token
            hdelivers.delivers.source ((nextHopMessages_of_nil rfl).2 hmsgs)
          let e : Event := ⟨_, _, _, _, _, handle_iff.2 hstep⟩
          have hhost : run (exec self) e.post e.items (quietReplies messages)
              = some ([], e.post, []) := hmsgs.run_quietReplies hnextSelf
          have hledger := @LastHopMessages.run_payoutReplies self honest e.post ledger _ _ _ _ _ _ _
            _ _ hmsgs hnext.token hnextSelf hadmin hreceiver
          let received :=
            ledger.credit (hop.arrival nextHop) (hop.handsBack (returned i) amount).u128
          refine ⟨[⟨e, received⟩], nextHop, ?_, ?_,
            List.forall_mem_singleton.2 (hdelivers.holds rfl rfl ledger)⟩
          · rw [honestLedgerHops, Contract.lastHopMessages_eq hmsgs]
            exact hdelivers.run rfl rfl hledger
          · rw [honestHops, Contract.lastHopMessages_eq hmsgs]
            exact hdelivers.delivers.run rfl rfl hhost
      | cons hop₂ hops =>
          have hnextLinked := (List.isChain_cons_cons.1 hchain).1
          obtain ⟨hpass, hpasses⟩ := List.isChain_cons_cons.1 hpasses
          obtain ⟨messages, hmsgs⟩ := Hop.exists_hopMessages hnextLinked.emittable
            (hop.handsBack (returned i) amount) (self.env sender sentFunds)
          have hstep := @HandleStep.hop storage (self.env sender sentFunds) fromAddr _ config hop
            nextHop { route with hops := hop₂ :: hops } _ _ hconfig hstate hdelivers.delivers.token
            hdelivers.delivers.source
            ((nextHopMessages_of_ne_nil (List.cons_ne_nil _ _)).2 ⟨hmsgs, rfl⟩)
          let e : Event := ⟨_, _, _, _, _, handle_iff.2 hstep⟩
          -- the rest of the route is executed by the messages that `e` queues
          obtain ⟨calls, lastHop, hledger, hhost, hholds⟩ := ih (i + 1) nextHop _ e.post ledger
            hconfig rfl (List.cons_ne_nil _ _) hchain hpasses hrest hmin
          rw [Contract.hopMessages_eq hmsgs] at hledger hhost
          rw [show nextHop.spends = _ from hpass] at hledger
          exact ⟨⟨e, _⟩ :: calls, lastHop, hdelivers.run rfl rfl hledger,
            hdelivers.delivers.run rfl rfl hhost,
            List.forall_mem_cons.2 ⟨hdelivers.holds rfl rfl ledger, hholds⟩⟩

/-- How the first call of a route is made: through an honest token, for someone else than this
    contract, or with the coin that the hop spends. -/
inductive FirstCaller (contract : Contract) (honest : HumanAddr → Bool) (firstHop : Hop)
    (amount : Uint128) : HumanAddr → List Coin → HumanAddr → Prop
  | token {token : SecretContract} {fromAddr : HumanAddr} :
      firstHop.fromToken = .snip20 token → fromAddr ≠ contract.address →
      FirstCaller contract honest firstHop amount token.address [] fromAddr
  | coin {token : SecretContract} {denom : String} {sender fromAddr : HumanAddr} :
      firstHop.fromToken = .native token → firstHop.redeemDenom = some denom →
      sender ≠ contract.address → honest sender = false →
      FirstCaller contract honest firstHop amount sender [⟨denom, amount⟩] fromAddr

section FirstCall

variable {firstHop : Hop} {amount : Uint128} {sender fromAddr : HumanAddr} {sentFunds : List Coin}

theorem FirstCaller.sender_ne
    (h : FirstCaller self honest firstHop amount sender sentFunds fromAddr)
    (hself : honest self.address = false) (hhonest : firstHop.Honest self honest) :
    sender ≠ self.address := by
  cases h with
  | token htoken =>
      have hne := ne_of_honest hself hhonest.token
      rwa [Hop.tokenAddress, htoken] at hne
  | coin _ _ hsender => exact hsender

theorem FirstCaller.validateReceivedToken
    (h : FirstCaller self honest firstHop amount sender sentFunds fromAddr) :
    validateReceivedToken firstHop.fromToken amount (self.env sender sentFunds) = .ok () := by
  cases h with
  | token htoken =>
      rw [htoken]
      exact validateReceivedToken_snip20.2 rfl
  | coin htoken =>
      rw [htoken]
      exact validateReceivedToken_native.2 ⟨_, rfl⟩

/-- The receiver is the one the first call is made for, or by. -/
theorem FirstCaller.receiver_ne
    (h : FirstCaller self honest firstHop amount sender sentFunds fromAddr) {receiver : HumanAddr}
    (huser : validateUserIsTheReceiver firstHop.fromToken fromAddr receiver sender = .ok ()) :
    receiver ≠ self.address := by
  rw [validateUserIsTheReceiver_eq_ok] at huser
  cases h with
  | token htoken hfrom =>
      rw [htoken] at huser
      rwa [huser]
  | coin htoken _ hsender =>
      rw [htoken] at huser
      rwa [huser]

theorem FirstCaller.reported
    (h : FirstCaller self honest firstHop amount sender sentFunds fromAddr) (msg : Option Binary)
    {x : Asset} (hx : x.vouched honest = true) :
    (HandleMsg.receive fromAddr msg amount).reported (self.env sender sentFunds) x
      = if x = firstHop.spends then amount.u128 else 0 := by
  cases h with
  | token htoken =>
      rw [reported_of_token fromAddr msg amount rfl x, Hop.spends_snip20 htoken]
      rfl
  | coin htoken hredeem _ hsender =>
      rw [reported_of_coin hsender hx, Hop.spends_native htoken hredeem]

/-- The first call is made when the contract holds what the first hop spends. -/
theorem FirstCaller.run {e : Event} {calls : List Call} {storage' : Storage}
    {ledger ledger' : Ledger} {inner : List LedgerChoice} {hops : List Hop}
    (h : FirstCaller self honest firstHop amount sender sentFunds fromAddr)
    (hhonest : firstHop.Honest self honest) (hroute : route.hops = firstHop :: hops)
    (henv : e.env = self.env sender sentFunds)
    (hmsg : e.msg = .receive fromAddr (some (.route route)) amount)
    (hchoices : honestLedgerHops self config route returned 0 firstHop amount hops ++ [.proceed]
      = inner)
    (hinner : run (ledgerExec self honest) ⟨e.post, ledger.credit firstHop.spends amount.u128⟩
      e.items inner = some (calls, ⟨storage', ledger'⟩, [])) :
    run (ledgerExec self honest) ⟨e.pre, ledger⟩ [.outside]
        (honestLedgerTransaction self config route returned sender sentFunds fromAddr amount)
      = some (⟨e, ledger.credit firstHop.spends amount.u128⟩ :: calls, ⟨storage', ledger'⟩,
        []) := by
  have hrest : honestLedgerHops self config route returned 0 firstHop amount hops
      ++ [.proceed, .proceed] = inner ++ [.proceed] := by
    rw [← hchoices, List.append_assoc]
    rfl
  rw [honestLedgerTransaction, hroute]
  simp only [hrest]
  cases h with
  | @token token fromAddr htoken hfrom =>
      have htokenHonest := hhonest.token
      rw [Hop.tokenAddress, htoken] at htokenHonest
      rw [Hop.spends_snip20 htoken] at hinner ⊢
      simp only [htoken]
      exact run_tokenSend htokenHonest hfrom henv hmsg hinner
  | @coin token denom sender fromAddr htoken hredeem hsender hnotHonest =>
      rw [Hop.spends_native htoken hredeem] at hinner ⊢
      simp only [htoken]
      rw [← hmsg]
      exact run_callWithCoins hsender hnotHonest henv hinner

end FirstCall

/-- An honest run of a well-linked route needs nothing of what the contract holds, and leaves it all
    as it was: whatever the balances are at the start, the transaction succeeds on the ledger by the
    calls of the honest run of the host, at each of them the contract holds exactly what is reported
    on top of the balances, and at the end it holds the balances. -/
theorem honest_run_keeps_balances (self : Contract) (config : Config) (honest : HumanAddr → Bool)
    (hself : honest self.address = false) (hadmin : config.admin ≠ self.address)
    (storage : Storage) (hconfig : storage.config = some config) (route : Route)
    (hlinked : route.WellLinked) (hhonest : ∀ hop ∈ route.hops, hop.Honest self honest)
    (hpasses : List.IsChain Hop.Passes route.hops.dropLast) (firstHop : Hop)
    (hfirst : route.hops.head? = some firstHop) (sender : HumanAddr) (sentFunds : List Coin)
    (fromAddr : HumanAddr) (amount : Uint128)
    (hcaller : FirstCaller self honest firstHop amount sender sentFunds fromAddr)
    (huser : validateUserIsTheReceiver firstHop.fromToken fromAddr route.to sender = .ok ())
    (returned : ℕ → Uint128)
    (hmin : route.minimumAcceptableAmount.u128
      ≤ (lastReceived returned 0 amount route.hops.dropLast).u128) (ledger : Ledger) :
    ∃ calls,
      runLedger self honest storage ledger
          (honestLedgerTransaction self config route returned sender sentFunds fromAddr amount)
        = some (calls, ⟨{ storage with routeState := none }, ledger⟩) ∧
      runTransaction self storage
          (honestTransaction self config route returned sender sentFunds fromAddr amount)
        = some (calls.map Call.event, { storage with routeState := none }) ∧
      ∀ call ∈ calls, call.Holds honest ledger := by
  obtain ⟨nextHop, hops, hhops⟩ := hlinked.exists_hops hfirst
  have hchain := hlinked.linked
  rw [hhops] at hchain hhonest hpasses hmin
  have hfirstHonest := hhonest firstHop List.mem_cons_self
  have hsender := hcaller.sender_ne hself hfirstHonest
  obtain ⟨messages, hmsgs⟩ := Hop.exists_hopMessages (List.isChain_cons_cons.1 hchain).1.emittable
    amount (self.env sender sentFunds)
  have hstep := @HandleStep.firstHop storage _ _ _ _ _ _ _ _ hhops hcaller.validateReceivedToken
    huser hmsgs
  let first : Event := ⟨_, _, _, _, _, handle_iff.2 hstep⟩
  obtain ⟨during, lastHop, hledger, hhost, hholds⟩ := @honestLedgerHops_complete self honest config
    route returned hself hadmin (hcaller.receiver_ne huser) (nextHop :: hops) 0 firstHop amount
    first.post ledger hconfig rfl (List.cons_ne_nil _ _) hchain hpasses hhonest hmin
  rw [Contract.hopMessages_eq hmsgs] at hledger hhost
  have hfinalize := @HandleStep.finalizeRoute
    (first.post.withRoute lastHop { route with hops := [] }) (self.env self.address []) lastHop _
    rfl rfl rfl
  let final : Event := ⟨_, _, _, _, _, handle_iff.2 hfinalize⟩
  refine ⟨⟨first, ledger.credit firstHop.spends amount.u128⟩ :: (during ++ [⟨final, ledger⟩]),
    runLedger_eq_some.2 ?_, ?_, ?_⟩
  · have hfinal : run (ledgerExec self honest) ⟨final.pre, ledger⟩
        [.msg (finalizeRouteMsg first.env)] [.proceed]
        = some ([⟨final, ledger⟩], ⟨final.post, ledger⟩, []) :=
      @run_selfCallWithCoins self honest _ ledger ledger [] final [] [] rfl ⟨ledger, rfl⟩
        self.codeHash (run_nil _ [])
    have hitems := run_seq hledger hfinal
    rw [← List.map_singleton, ← List.map_append] at hitems
    exact hcaller.run hfirstHonest hhops rfl rfl rfl hitems
  · have hwhole := @runTransaction_honestTransaction self config route returned firstHop
      (nextHop :: hops) sender sentFunds fromAddr amount first final messages _ hhops rfl hsender
      rfl rfl hhost rfl rfl rfl
    rw [List.map_cons, List.map_append]
    exact hwhole
  · refine List.forall_mem_cons.2 ⟨?_, List.forall_mem_append.2
      ⟨hholds, List.forall_mem_singleton.2 fun x _ => rfl⟩⟩
    intro x hx
    show ledger.credit firstHop.spends amount.u128 x
      = ledger x + (HandleMsg.receive fromAddr (some (.route route)) amount).reported
        (self.env sender sentFunds) x
    rw [hcaller.reported _ hx, Ledger.credit_apply]

end Runs

/-- The rewrapping swap runs to its end when the contract holds nothing. -/
theorem honest_run_keeps_balances_mockRewrap :
    ∃ calls,
      runLedger mockContract mockHonest mockStorage (fun _ => 0)
          (honestLedgerTransaction mockContract ⟨"btn.group"⟩ mockRewrapRoute
            (fun _ => ⟨11, by decide⟩) mockSscrt.address [] mockUserAddress ⟨12, by decide⟩)
        = some (calls, ⟨mockStorage, fun _ => 0⟩) ∧
      runTransaction mockContract mockStorage
          (honestTransaction mockContract ⟨"btn.group"⟩ mockRewrapRoute
            (fun _ => ⟨11, by decide⟩) mockSscrt.address [] mockUserAddress ⟨12, by decide⟩)
        = some (calls.map Call.event, mockStorage) ∧
      ∀ call ∈ calls, call.Holds mockHonest (fun _ => 0) := by
  have hchain : List.IsChain Hop.Linked mockRewrapRoute.hops :=
    .cons_cons (.redeem rfl rfl rfl rfl rfl) (.cons_cons (.native rfl rfl rfl rfl)
      (.cons_cons (.swap rfl rfl) (.singleton _)))
  have hhonest : ∀ hop ∈ mockRewrapRoute.hops, hop.Honest mockContract mockHonest := by
    intro hop hhop
    have hboth : mockHonest hop.tokenAddress = true ∧
        ∀ contract ∈ hop.smartContract, contract.address ≠ mockContract.address := by
      revert hop
      decide
    exact ⟨hboth.1, hboth.2⟩
  exact honest_run_keeps_balances mockContract ⟨"btn.group"⟩ mockHonest rfl (by decide) mockStorage
    rfl mockRewrapRoute ⟨by decide, hchain⟩ hhonest (.cons_cons rfl (.cons_cons rfl (.singleton _)))
    _ rfl mockSscrt.address [] mockUserAddress ⟨12, by decide⟩ (.token rfl (by decide)) rfl
    (fun _ => ⟨11, by decide⟩) (by decide) fun _ => 0

end DexAggregator
