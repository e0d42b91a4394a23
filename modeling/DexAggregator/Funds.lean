import DexAggregator.Flow
import DexAggregator.Spending

set_option autoImplicit false

/-! # The funds of the contract

A call sends out, and queues to report to itself, no more than was reported to it and what it asks
outside contracts to give to it: the coins of a redeem, the new token of a migration, the token of a
deposit (`HandleStep.moved_le`). What others report has arrived, and what the contract reports to
itself it has queued. So a transaction takes from the contract at most what was asked for and not
given (`runLedger_loss_le`), and its balances are kept as long as no `RescueTokens` succeeds, coins
are spent in the denom in which they are attached, and the outside contracts give what they are
asked for (`funds_kept`). The contract checks none of this, and neither of the last two can be left
out (`not_funds_kept_mockDrainRoute`). -/

namespace DexAggregator

open WorkStack (Run)

/-! ## What is asked of a transaction -/

/-- A `RescueTokens`, the message with which the admin takes funds. -/
def HandleMsg.rescues : HandleMsg → Bool
  | .rescueTokens _ _ _ => true
  | _ => false

/-- A native hop spends the denom in which its coin is attached. -/
def spendsAttached (storage : Storage) (env : Env) (msg : HandleMsg) : Bool :=
  (consumedHop? storage msg).all fun hop => match hop.fromToken with
    | .snip20 _ => true
    | .native _ => env.message.sentFunds.all fun coin => spentDenom? storage msg = some coin.denom

/-- The asset that outside contracts are asked to give when a hop is executed, without a call: a
    redeem asks the token for coins, a migration the smart contract for the new token, a deposit the
    token for itself. A swap is asked to send, which is a call. -/
def Hop.asksFor (hop : Hop) : Option Asset :=
  match hop.fromToken with
  | .native contract => some (.snip20 contract.address)
  | .snip20 _ =>
    if hop.shadeProtocolRouterPath.isSome then none
    else match hop.migrateToToken, hop.redeemDenom with
      | some contract, _ => some (.snip20 contract.address)
      | none, some denom => some (.native denom)
      | none, none => none

/-- The amount of an asset that the messages of a call ask outside contracts to give: with every hop
    but the last one, which is paid out, the amount of the call. -/
def HandleMsg.asked (storage : Storage) (msg : HandleMsg) (x : Asset) : ℕ :=
  match msg, consumedHop? storage msg, lastRoute? storage msg with
  | .receive _ _ amount, some hop, none => if hop.asksFor = some x then amount.u128 else 0
  | _, _, _ => 0

/-! ## What a hop spends -/

/-- The asset that a hop spends. -/
def Hop.spends (hop : Hop) : Asset :=
  match hop.fromToken with
  | .snip20 contract => .snip20 contract.address
  | .native _ => .native (hop.redeemDenom.getD "")

/-- The asset that arrives at `nextHop` after `hop`. -/
def Hop.arrival (hop nextHop : Hop) : Asset :=
  match nextHop.fromToken with
  | .snip20 contract => .snip20 contract.address
  | .native _ => .native (hop.redeemDenom.getD "")

section Assets

variable {hop nextHop : Hop} {token : SecretContract} {denom : String}

theorem Hop.spends_snip20 (h : hop.fromToken = .snip20 token) :
    hop.spends = .snip20 token.address := by
  rw [Hop.spends, h]

theorem Hop.spends_native (h : hop.fromToken = .native token)
    (hredeem : hop.redeemDenom = some denom) : hop.spends = .native denom := by
  rw [Hop.spends, h, hredeem, Option.getD_some]

theorem Hop.arrival_snip20 (h : nextHop.fromToken = .snip20 token) :
    hop.arrival nextHop = .snip20 token.address := by
  rw [Hop.arrival, h]

theorem Hop.arrival_native (h : nextHop.fromToken = .native token)
    (hredeem : hop.redeemDenom = some denom) : hop.arrival nextHop = .native denom := by
  rw [Hop.arrival, h, hredeem, Option.getD_some]

end Assets

/-! ## What a call moves -/

/-- The amount of an asset that a message takes away from `own`, or makes it report to itself. -/
def Asset.moved (own : HumanAddr) (x : Asset) (message : CosmosMsg) : ℕ :=
  x.out own message + x.selfReport own message

section Moved

variable {own : HumanAddr} (x : Asset) (recipient contractAddr : HumanAddr) (amount : Uint128)
  (contractHash denom : String)

/-- A send counts once, whoever it goes to. -/
theorem Asset.moved_send (msg : Option Binary) :
    x.moved own (sendMsg recipient amount msg none blockSize contractHash contractAddr)
      = if .snip20 contractAddr = x then amount.u128 else 0 := by
  by_cases hself : recipient = own <;> cases x <;>
    simp [Asset.moved, Asset.out, Asset.selfReport, CosmosMsg.nativeOut, CosmosMsg.tokenOut,
      sendMsg, hself, eq_comm]

theorem Asset.moved_transfer_le :
    x.moved own (transferMsg recipient amount none blockSize contractHash contractAddr)
      ≤ if .snip20 contractAddr = x then amount.u128 else 0 := by
  by_cases hself : recipient = own <;> cases x <;>
    simp [Asset.moved, Asset.out, Asset.selfReport, CosmosMsg.nativeOut, CosmosMsg.tokenOut,
      transferMsg, hself]

theorem Asset.moved_redeem (denom : Option String) :
    x.moved own (redeemMsg amount denom none blockSize contractHash contractAddr)
      = if .snip20 contractAddr = x then amount.u128 else 0 := by
  cases x <;>
    simp [Asset.moved, Asset.out, Asset.selfReport, CosmosMsg.nativeOut, CosmosMsg.tokenOut,
      redeemMsg]

theorem Asset.moved_registerReceive (callbackCodeHash : String) :
    x.moved own (registerReceiveMsg callbackCodeHash none blockSize contractHash contractAddr)
      = 0 := by
  cases x <;> rfl

/-- A self-call reports its coins. -/
theorem Asset.moved_selfCall (msg : HandleMsg) (coins : List Coin) :
    x.moved own (.execute own contractHash (.handle msg) coins) = x.ofCoins coins := by
  rw [Asset.moved, x.out_selfCall]
  simp [Asset.selfReport]

theorem Asset.moved_deposit_le :
    x.moved own (depositToCosmosMsg none blockSize contractHash contractAddr (some ⟨denom, amount⟩))
      ≤ if .native denom = x then amount.u128 else 0 := by
  by_cases hself : contractAddr = own <;> cases x <;>
    simp [Asset.moved, Asset.out, Asset.selfReport, CosmosMsg.nativeOut, CosmosMsg.tokenOut,
      depositToCosmosMsg, coinsOf_singleton, hself]

theorem Asset.moved_bankSend_le (fromAddress : HumanAddr) :
    x.moved own (.bankSend fromAddress recipient [⟨denom, amount⟩])
      ≤ if .native denom = x then amount.u128 else 0 := by
  by_cases hself : recipient = own <;> cases x <;>
    simp [Asset.moved, Asset.out, Asset.selfReport, CosmosMsg.nativeOut, CosmosMsg.tokenOut,
      coinsOf_singleton, hself]

end Moved

section Calls

variable {own : HumanAddr} {env : Env} {hop currentHop nextHop : Hop} {amount : Uint128}
  {config : Config} {route : Route} {messages : List CosmosMsg} {logs : List LogAttribute}

/-- The messages of a hop move what the hop spends; and what they make the contract report to itself
    besides, they ask for. -/
theorem HopMessages.moved_le (h : HopMessages hop amount env messages) (x : Asset) :
    (messages.map (x.moved env.contract.address)).sum
      ≤ (if hop.spends = x then amount.u128 else 0)
        + if hop.asksFor = some x then amount.u128 else 0 := by
  cases h with
  | shade htoken hpath => simp [x.moved_send, Hop.spends_snip20 htoken]
  | @migrate token smartContract migrateToToken htoken hpath hmigrate =>
      have hasks : hop.asksFor = some (.snip20 migrateToToken.address) := by
        simp [Hop.asksFor, htoken, hpath, hmigrate]
      simp [x.moved_send, Hop.spends_snip20 htoken, hasks]
  | @redeem token denom htoken hpath hmigrate hredeem =>
      have hasks : hop.asksFor = some (.native denom) := by
        simp [Hop.asksFor, htoken, hpath, hmigrate, hredeem]
      simp [x.moved_redeem, x.moved_selfCall, x.ofCoins_cons, Hop.spends_snip20 htoken, hasks,
        eq_comm]
  | swap htoken => simp [x.moved_send, Hop.spends_snip20 htoken]
  | @deposit token denom htoken hredeem =>
      have hasks : hop.asksFor = some (.snip20 token.address) := by simp [Hop.asksFor, htoken]
      simp [x.moved_send, Hop.spends_native htoken hredeem, hasks, x.moved_deposit_le]

/-- The two parts of an amount that is split. -/
theorem add_le_of_split {P : Prop} [Decidable P] {fee paid a b total : ℕ}
    (hfee : fee ≤ if P then a else 0) (hpaid : paid ≤ if P then b else 0) (hsum : a + b = total) :
    fee + paid ≤ if P then total else 0 := by
  split_ifs at hfee hpaid ⊢ with h
  · omega
  · omega

/-- The messages of the last hop move no more than has arrived. -/
theorem LastHopMessages.moved_le
    (h : LastHopMessages config env currentHop nextHop amount route messages logs) (x : Asset) :
    (messages.map (x.moved own)).sum
      ≤ if currentHop.arrival nextHop = x then amount.u128 else 0 := by
  cases h with
  | snip20 htoken => simp [x.moved_send, Hop.arrival_snip20 htoken]
  | @snip20Excess token excess htoken _ hest hexcess =>
      have hfee := @Asset.moved_transfer_le own x config.admin token.address excess
        token.contractHash
      rw [Hop.arrival_snip20 htoken]
      simp only [List.map_cons, List.map_nil, List.sum_cons, List.sum_nil, x.moved_send]
      exact add_le_of_split hfee le_rfl (by omega)
  | @native token denom htoken hdenom =>
      have hpaid := @Asset.moved_bankSend_le own x route.to amount denom env.contract.address
      simpa [Hop.arrival_native htoken hdenom] using hpaid
  | @nativeExcess token denom excess htoken hdenom _ hest hexcess =>
      have hfee := @Asset.moved_bankSend_le own x config.admin excess denom env.contract.address
      have hpaid := @Asset.moved_bankSend_le own x route.to route.estimatedAmount denom
        env.contract.address
      rw [Hop.arrival_native htoken hdenom]
      simp only [List.map_cons, List.map_nil, List.sum_cons, List.sum_nil]
      exact add_le_of_split hfee hpaid (by omega)

/-- What a `Receive` spends was reported to it: a Snip20 hop by its token, and a native hop by the
    coin that is attached, when that is the denom it spends. -/
theorem spent_le_reported {storage : Storage} {fromAddr : HumanAddr} {msg : Option Binary}
    {asset : Asset}
    (hconsumed : consumedHop? storage (.receive fromAddr msg amount) = some hop)
    (hvalid : validateReceivedToken hop.fromToken amount env = .ok ())
    (hattached : spendsAttached storage env (.receive fromAddr msg amount) = true)
    (hsnip20 : ∀ token, hop.fromToken = .snip20 token → asset = .snip20 token.address)
    (hnative : ∀ token denom, hop.fromToken = .native token →
      spentDenom? storage (.receive fromAddr msg amount) = some denom → asset = .native denom)
    (x : Asset) :
    (if asset = x then amount.u128 else 0)
      ≤ (HandleMsg.receive fromAddr msg amount).reported env x := by
  cases htoken : hop.fromToken with
  | snip20 token =>
      rw [htoken, validateReceivedToken_snip20] at hvalid
      rw [hsnip20 token htoken, ← hvalid]
      cases x <;> simp [HandleMsg.reported]
  | native token =>
      rw [htoken, validateReceivedToken_native] at hvalid
      obtain ⟨denom, hfunds⟩ := hvalid
      have hdenom : spentDenom? storage (.receive fromAddr msg amount) = some denom := by
        simpa [spendsAttached, hconsumed, htoken, hfunds] using hattached
      rw [hnative token denom htoken hdenom]
      cases x <;> simp [HandleMsg.reported, hfunds, coinsOf_singleton]

/-- A call that is no `RescueTokens` moves no more of an asset than was reported to it, and what it
    asks for. -/
theorem HandleStep.moved_le {pre post : Storage} {msg : HandleMsg} {response : HandleResponse}
    (h : HandleStep pre env msg response post) (hrescue : msg.rescues = false)
    (hattached : spendsAttached pre env msg = true) (x : Asset) :
    (response.messages.map (x.moved env.contract.address)).sum
      ≤ msg.reported env x + msg.asked pre x := by
  cases h with
  | @firstHop fromAddr amount route firstHop nextHop hops messages hhops hvalid _ hmsgs =>
      have hconsumed : consumedHop? pre (.receive fromAddr (some (.route route)) amount)
          = some firstHop := by simp [consumedHop?, hhops]
      have hasked : (HandleMsg.receive fromAddr (some (.route route)) amount).asked pre x
          = if firstHop.asksFor = some x then amount.u128 else 0 := by
        simp [HandleMsg.asked, hconsumed, lastRoute?]
      have hspent := spent_le_reported hconsumed hvalid hattached
        (fun _ => Hop.spends_snip20)
        (fun _ _ htoken hdenom => Hop.spends_native htoken (by
          simpa [spentDenom?, hhops] using hdenom)) x
      have hfinalize : x.moved env.contract.address (finalizeRouteMsg env) = 0 := by
        rw [finalizeRouteMsg, x.moved_selfCall, x.ofCoins_nil]
      rw [hasked, List.map_append, List.sum_append, List.map_singleton, List.sum_singleton,
        hfinalize, Nat.add_zero]
      exact (hmsgs.moved_le x).trans (Nat.add_le_add_right hspent _)
  | @hop fromAddr amount config currentHop nextHop route messages logs _ hstate hvalid _ hmsgs =>
      have hconsumed : consumedHop? pre (.receive fromAddr none amount) = some nextHop := by
        simp [consumedHop?, hstate]
      by_cases hnil : route.hops = []
      · have hspent := spent_le_reported hconsumed hvalid hattached
          (fun _ => @Hop.arrival_snip20 currentHop nextHop _)
          (fun _ _ htoken hdenom => Hop.arrival_native htoken (by
            simpa [spentDenom?, hstate, hnil] using hdenom)) x
        have hmoved := @LastHopMessages.moved_le env.contract.address _ _ _ _ _ _ _ _
          ((nextHopMessages_of_nil hnil).1 hmsgs) x
        exact (hmoved.trans hspent).trans (Nat.le_add_right _ _)
      · obtain ⟨hop₂, hops, hhops⟩ := List.exists_cons_of_ne_nil hnil
        have hasked : (HandleMsg.receive fromAddr none amount).asked pre x
            = if nextHop.asksFor = some x then amount.u128 else 0 := by
          simp [HandleMsg.asked, hconsumed, lastRoute?, hstate, hhops]
        have hspent := spent_le_reported hconsumed hvalid hattached
          (fun _ => Hop.spends_snip20)
          (fun _ _ htoken hdenom => Hop.spends_native htoken (by
            simpa [spentDenom?, hstate, hhops] using hdenom)) x
        rw [hasked]
        exact (((nextHopMessages_of_ne_nil hnil).1 hmsgs).1.moved_le x).trans
          (Nat.add_le_add_right hspent _)
  | finalizeRoute => exact Nat.zero_le _
  | registerTokens tokens =>
      simp [Function.comp_def, x.moved_registerReceive]
  | rescueTokens => cases hrescue

end Calls

/-! ## Whole transactions -/

/-- What is reported to a call arrives with it, or is reported by the contract to itself. -/
theorem Event.reported_le {self : Contract} {honest : HumanAddr → Bool} (e : Event) {x : Asset}
    (hx : x.vouched honest = true) :
    e.msg.reported e.env x ≤ e.arrived self honest x + e.selfReported self honest x := by
  unfold Event.arrived Event.selfReported
  split
  · rw [Nat.zero_add]
  · split
    · exact le_rfl
    · next hhonest => exact reported_le_of_not_honest e.msg hx (Bool.not_eq_true _ ▸ hhonest)

/-- The contract loses at most what outside code was asked for and has not given, in a transaction
    in which no `RescueTokens` succeeds and every native hop spends the denom attached. -/
theorem runLedger_loss_le {self : Contract} {honest : HumanAddr → Bool}
    (hself : honest self.address = false) {storage : Storage} {start : Ledger}
    {choices : List LedgerChoice} {trace : List Call} {chain' : Chain}
    (h : runLedger self honest storage start choices = some (trace, chain'))
    (hrescue : ∀ call ∈ trace, call.event.msg.rescues = false)
    (hattached : ∀ call ∈ trace,
      spendsAttached call.event.pre call.event.env call.event.msg = true) {x : Asset}
    (hx : x.vouched honest = true) :
    start x + given x choices
      ≤ chain'.ledger x + (trace.map fun call => call.event.msg.asked call.event.pre x).sum := by
  have hrun : Run (ledgerExec self honest) ⟨storage, start⟩ [.outside] trace chain' [] :=
    Run.of_run choices (runLedger_eq_some.1 h)
  have hcalls : ∀ call ∈ trace,
      call.event.out self.address x + call.event.selfQueued self.address x
        ≤ call.event.arrived self honest x + call.event.selfReported self honest x
          + call.event.msg.asked call.event.pre x := by
    intro call hcall
    have hmoved := call.event.step.moved_le (hrescue call hcall) (hattached call hcall) x
    rw [(ledgerRun_call hrun hself hcall).1] at hmoved
    have hsum : (call.event.response.messages.map (x.moved self.address)).sum
        = call.event.out self.address x + call.event.selfQueued self.address x :=
      List.sum_map_add
    have hreported := @Event.reported_le self honest call.event x hx
    omega
  have hsum := List.sum_le_sum hcalls
  rw [List.sum_map_add, List.sum_map_add, List.sum_map_add] at hsum
  have hflow := runLedger_flow h hself hx
  have hqueued := ledgerRun_selfReported_le hrun hself hx
  simp only [List.map_cons, List.map_nil, List.sum_cons, List.sum_nil, Item.selfReport] at hqueued
  omega

/-- The contract's balance of a native denom or of an honest token does not fall in a transaction in
    which no `RescueTokens` succeeds, every native hop spends the denom attached, and outside code
    gives at least what redeems, migrations and deposits ask for. -/
theorem funds_kept (self : Contract) (honest : HumanAddr → Bool)
    (hself : honest self.address = false) (storage : Storage) (start : Ledger)
    (choices : List LedgerChoice) (trace : List Call) (chain' : Chain)
    (h : runLedger self honest storage start choices = some (trace, chain'))
    (hrescue : ∀ call ∈ trace, call.event.msg.rescues = false)
    (hattached : ∀ call ∈ trace,
      spendsAttached call.event.pre call.event.env call.event.msg = true) (x : Asset)
    (hx : x.vouched honest = true)
    (hgiven : (trace.map fun call => call.event.msg.asked call.event.pre x).sum
      ≤ given x choices) : start x ≤ chain'.ledger x := by
  have hloss := runLedger_loss_le hself h hrescue hattached hx
  omega

/-- The tokens of the fixtures are honest. -/
def mockHonest (token : HumanAddr) : Bool :=
  token = mockSscrt.address || token = mockButton.address

/-- A contract that holds seven of every asset. -/
def mockLedger : Ledger := fun _ => 7

/-- sSCRT redeemed for `uatom`, which is deposited for sSCRT again, and that swapped for button. -/
def mockRewrapRoute : Route :=
  { mockSwapRoute with hops := [⟨.snip20 mockSscrt, none, some mockDenom, none, none⟩,
      ⟨.native mockSscrt, none, some mockDenom, none, none⟩,
      ⟨.snip20 mockSscrt, some mockPairContract, none, none, none⟩,
      ⟨.snip20 mockButton, none, none, none, none⟩] }

/-- The user sends 22 sSCRT, everyone gives what is asked for, and the pair sends 16 button back. -/
def mockRewrapChoices : List LedgerChoice :=
  [.tokenSend mockSscrt.address mockUserAddress (some (.route mockRewrapRoute)) ⟨22, by decide⟩,
    -- the redeem, and the self-call with its coins
    .proceed, .give (.native mockDenom) 22, .proceed, .proceed,
    -- the deposit, and the send to the contract itself
    .proceed, .give (.snip20 mockSscrt.address) 22, .proceed, .proceed,
    -- the swap
    .proceed, .tokenSend mockButton.address mockPairContract.address none ⟨16, by decide⟩,
    .proceed, .proceed, .proceed, .proceed, .proceed, .proceed, .proceed]

/-- The rewrapping swap on the ledger. -/
def mockRewrapRun : List Call × Chain :=
  (runLedger mockContract mockHonest mockStorage mockLedger mockRewrapChoices).get (by decide)

/-- The contract spent 22 `uatom` that it did not have, and then 22 sSCRT; of both it still has its
    seven. -/
theorem funds_kept_mockRewrap :
    7 ≤ mockRewrapRun.2.ledger (.native mockDenom) ∧
      7 ≤ mockRewrapRun.2.ledger (.snip20 mockSscrt.address) :=
  ⟨funds_kept mockContract mockHonest rfl mockStorage mockLedger mockRewrapChoices mockRewrapRun.1
    mockRewrapRun.2 (Option.some_get (by decide)).symm (by decide) (by decide) (.native mockDenom)
    rfl (by decide),
   funds_kept mockContract mockHonest rfl mockStorage mockLedger mockRewrapChoices mockRewrapRun.1
    mockRewrapRun.2 (Option.some_get (by decide)).symm (by decide) (by decide)
    (.snip20 mockSscrt.address) (by decide) (by decide)⟩

/-! ## What the contract trusts -/

/-- Native coins and honest tokens are kept by every transaction without a `RescueTokens` of which
    `P` holds. -/
def KeepsFunds (P : Asset → List LedgerChoice → List Call → Prop) : Prop :=
  ∀ (self : Contract) (honest : HumanAddr → Bool), honest self.address = false →
    ∀ (storage : Storage) (start : Ledger) (choices : List LedgerChoice) (trace : List Call)
      (chain' : Chain), runLedger self honest storage start choices = some (trace, chain') →
      (∀ call ∈ trace, call.event.msg.rescues = false) →
      ∀ x : Asset, x.vouched honest = true → P x choices trace → start x ≤ chain'.ledger x

/-- A token that redeems for nothing, with a route of the attacker's. -/
def mockDrainRoute : Route :=
  ⟨[⟨.snip20 mockButton, none, some mockDenom, none, none⟩,
    ⟨.native mockSscrt, none, none, none, none⟩], ⟨7, by decide⟩, ⟨7, by decide⟩, mockUserAddress⟩

/-- The token reports seven, keeps them when they are redeemed, and everyone returns. -/
def mockDrainChoices : List LedgerChoice :=
  [.call mockButton.address [] (.receive mockUserAddress (some (.route mockDrainRoute))
      ⟨7, by decide⟩),
    .proceed, .proceed, .proceed, .proceed, .proceed, .proceed]

/-- A deposit of `uatom` with a token of the attacker's. -/
def mockDepositDrainRoute : Route :=
  { mockDrainRoute with hops := [⟨.native mockButton, none, some mockDenom, none, none⟩,
      ⟨.snip20 mockButton, none, none, none, none⟩] }

/-- Seven of another denom are attached, and the token keeps the coins that are deposited. -/
def mockDepositDrainChoices : List LedgerChoice :=
  [.call mockUserAddress [⟨"uscrt", ⟨7, by decide⟩⟩]
      (.receive mockUserAddress (some (.route mockDepositDrainRoute)) ⟨7, by decide⟩),
    .proceed, .proceed, .proceed,
    .call mockButton.address [] (.receive mockContract.address none ⟨7, by decide⟩),
    .proceed, .proceed, .proceed, .proceed, .proceed]

/-- Anyone can take the contract's coins: through a token that does not give what it is asked for,
    also when coins are spent in the denom in which they are attached; and in another denom than the
    one attached, also when everyone gives what is asked for. -/
theorem not_funds_kept_mockDrainRoute :
    ¬ (KeepsFunds fun _ _ _ => True) ∧
    (¬ KeepsFunds fun _ _ trace => ∀ call ∈ trace,
      spendsAttached call.event.pre call.event.env call.event.msg = true) ∧
    ¬ KeepsFunds fun x choices trace =>
      (trace.map fun call => call.event.msg.asked call.event.pre x).sum ≤ given x choices := by
  refine ⟨?_, ?_, ?_⟩
  · intro h
    have hle := h mockContract (fun _ => false) rfl mockStorage mockLedger mockDrainChoices _ _
      (Option.some_get (by decide)).symm (by decide) (.native mockDenom) rfl trivial
    revert hle
    decide
  · intro h
    have hle := h mockContract (fun _ => false) rfl mockStorage mockLedger mockDrainChoices _ _
      (Option.some_get (by decide)).symm (by decide) (.native mockDenom) rfl (by decide)
    revert hle
    decide
  · intro h
    have hle := h mockContract (fun _ => false) rfl mockStorage mockLedger mockDepositDrainChoices
      _ _ (Option.some_get (by decide)).symm (by decide) (.native mockDenom) rfl (by decide)
    revert hle
    decide

end DexAggregator
