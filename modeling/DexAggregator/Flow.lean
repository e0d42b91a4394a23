import Mathlib.Algebra.BigOperators.Group.List.Basic
import DexAggregator.Ledger

set_option autoImplicit false

/-! # What comes in and what goes out

On the ledger, what a transaction starts with and is given is what it ends with and sends out
(`runLedger_flow`), whoever calls and whatever they do. A call is told that an amount has arrived.
From anyone else it really has, when the asset is a native coin or an honest token; what the
contract tells itself it has queued before in a message to itself (`ledgerRun_selfReported_le`). -/

namespace DexAggregator

open WorkStack (Run run run_accounts)

/-! ## What is reported -/

/-- The amount of an asset that a call was told has arrived. -/
def HandleMsg.reported (env : Env) : HandleMsg → Asset → ℕ
  | .receive _ _ _, .native denom => coinsOf denom env.message.sentFunds
  | .receive _ _ amount, .snip20 token => if env.message.sender = token then amount.u128 else 0
  | _, _ => 0

/-- An outside caller reports the coins it attaches, and no honest token. -/
theorem reported_le_of_not_honest {env : Env} {honest : HumanAddr → Bool} (msg : HandleMsg)
    {x : Asset} (hx : x.vouched honest = true) (hsender : honest env.message.sender = false) :
    msg.reported env x ≤ x.ofCoins env.message.sentFunds := by
  cases x with
  | native denom => cases msg <;> simp [HandleMsg.reported, Asset.ofCoins]
  | snip20 token =>
      have hne : env.message.sender ≠ token := by
        rintro rfl
        exact Bool.noConfusion (hsender.symm.trans hx)
      cases msg <;> simp [HandleMsg.reported, hne]

/-- The notification of a token reports that token. -/
theorem reported_of_token {env : Env} (fromAddr : HumanAddr) (msg : Option Binary)
    (amount : Uint128) (hfunds : env.message.sentFunds = []) (x : Asset) :
    (HandleMsg.receive fromAddr msg amount).reported env x
      = if x = .snip20 env.message.sender then amount.u128 else 0 := by
  cases x <;> simp [HandleMsg.reported, hfunds, eq_comm]

/-! ## What comes in -/

/-- The amount of an asset that outside code gives with a choice. -/
def LedgerChoice.given (x : Asset) : LedgerChoice → ℕ
  | .give asset amount => if x = asset then amount else 0
  | _ => 0

/-- The amount of an asset that outside code gives without a call. -/
def given (x : Asset) (choices : List LedgerChoice) : ℕ :=
  (choices.map (LedgerChoice.given x)).sum

/-- A call that the contract makes happen itself: a self-call, or the notification of an honest
    token that the contract has sent to itself. -/
def Event.ofSelf (self : Contract) (honest : HumanAddr → Bool) (e : Event) : Bool :=
  e.env.message.sender = self.address || honest e.env.message.sender && match e.msg with
    | .receive fromAddr _ _ => fromAddr = self.address
    | _ => false

/-- The amount of an asset that arrives with a call: the coins attached, or what an honest token
    says that it brings. The contract itself brings nothing. -/
def Event.arrived (self : Contract) (honest : HumanAddr → Bool) (x : Asset) (e : Event) : ℕ :=
  if e.ofSelf self honest then 0
  else if honest e.env.message.sender then e.msg.reported e.env x
  else x.ofCoins e.env.message.sentFunds

/-- The amount of an asset that the contract reports to itself. -/
def Event.selfReported (self : Contract) (honest : HumanAddr → Bool) (x : Asset) (e : Event) : ℕ :=
  if e.ofSelf self honest then e.msg.reported e.env x else 0

/-- The amount of an asset that a response takes away from `own`. -/
def Event.out (own : HumanAddr) (x : Asset) (e : Event) : ℕ :=
  (e.response.messages.map (x.out own)).sum

section Flow

variable {self : Contract} {honest : HumanAddr → Bool} {chain chain' : Chain} {item : Item}
  {choice : LedgerChoice} {ev : Option Call} {push K K' : List Item} {trace : List Call}

/-- The weight of an item: what it takes away when it is executed. -/
def Item.out (own : HumanAddr) (x : Asset) : Item → ℕ
  | .msg message => x.out own message
  | .outside => 0

theorem Event.sum_out_items (own : HumanAddr) (x : Asset) (e : Event) :
    (e.items.map (Item.out own x)).sum = e.out own x := by
  simp [Event.items, Event.out, Item.out, Function.comp_def]

/-- A self-call takes nothing away, whatever is attached. -/
theorem Asset.out_selfCall (own : HumanAddr) (x : Asset) (callbackCodeHash : String)
    (msg : ExecuteMsg) (send : List Coin) :
    x.out own (.execute own callbackCodeHash msg send) = 0 := by
  cases x <;> simp [Asset.out, CosmosMsg.nativeOut, CosmosMsg.tokenOut]

/-- A call of outside code: what arrives was credited, and what the response takes away is
    queued. -/
theorem ledger_account_call {e : Event} {ledger ledger' : Ledger} {x : Asset} {arrived : ℕ}
    (harrived : e.arrived self honest x = arrived) (hledger : ledger' x = ledger x + arrived)
    (hpush : push = e.items ∨ push = e.items ++ [.outside]) :
    ledger x + (push.map (Item.out self.address x)).sum + e.arrived self honest x
      = ledger' x + e.out self.address x := by
  have hsum : (push.map (Item.out self.address x)).sum = e.out self.address x := by
    rcases hpush with rfl | rfl
    · exact e.sum_out_items self.address x
    · rw [List.map_append, List.sum_append, e.sum_out_items self.address x]
      rfl
  rw [hsum, harrived, hledger]
  omega

/-- Only outside code that goes on without a call can have given something. -/
theorem LedgerChoice.given_eq_zero
    (h : ledgerExec self honest chain item choice = some (ev, chain', push))
    (hne : item = .outside → ev = none → push ≠ [.outside]) (x : Asset) : choice.given x = 0 := by
  match item, choice, h with
  | _, .proceed, _ => rfl
  | _, .call _ _ _, _ => rfl
  | _, .tokenSend _ _ _ _, _ => rfl
  | _, .silent, _ => rfl
  | .outside, .give _ _, h =>
      cases h
      exact absurd rfl (hne rfl rfl)
  | .msg (.snip20 msg _ _ _), .give _ _, h =>
      cases msg <;> simp [ledgerExec, ledgerDeliver, execHonest] at h
  | .msg (.bankSend _ _ _), .give _ _, h => cases h
  | .msg (.execute _ _ (.deposit _ _) _), .give _ _, h => cases h
  | .msg (.execute _ _ (.handle _) _), .give _ _, h => cases h

/-- Outside code that goes on without a call has given something. -/
theorem ledgerExec_gives
    (h : ledgerExec self honest chain .outside choice = some (none, chain', [.outside])) :
    ∃ asset amount, choice = .give asset amount ∧
      chain' = ⟨chain.storage, chain.ledger.credit asset amount⟩ := by
  match choice, h with
  | .give asset amount, h =>
      cases h
      exact ⟨asset, amount, rfl, rfl⟩
  | .proceed, h => cases h
  | .silent, h => cases h
  | .call _ _ _, h =>
      simp only [ledgerExec] at h
      split at h
      · cases h
      · obtain ⟨_, _, _, _, hev, _⟩ := callWith_eq_some h
        cases hev
  | .tokenSend _ _ _ _, h =>
      simp only [ledgerExec] at h
      split at h
      · obtain ⟨_, _, _, _, hev, _⟩ := callWith_eq_some h
        cases hev
      · cases h

/-- The accounts of one step. -/
theorem ledgerExec_account
    (h : ledgerExec self honest chain item choice = some (ev, chain', push))
    (hself : honest self.address = false) {x : Asset} (hx : x.vouched honest = true) :
    chain.ledger x + (push.map (Item.out self.address x)).sum + choice.given x
        + (ev.toList.map fun call => call.event.arrived self honest x).sum
      = chain'.ledger x + item.out self.address x
        + (ev.toList.map fun call => call.event.out self.address x).sum := by
  cases ledgerExec_step h with
  | give asset amount =>
      obtain ⟨asset', amount', rfl, heq⟩ := ledgerExec_gives h
      have hledger : chain.ledger.credit asset amount x = chain.ledger.credit asset' amount' x :=
        congrArg (fun chain : Chain => chain.ledger x) heq
      show _ = chain.ledger.credit asset amount x + _ + _
      rw [hledger, Ledger.credit_apply]
      simp [Item.out, LedgerChoice.given]
  | returns =>
      rw [LedgerChoice.given_eq_zero h (fun _ _ => by simp) x]
      simp [Item.out]
  | @spend message ledger push hspend haddr hpush =>
      rw [LedgerChoice.given_eq_zero h (by rintro ⟨⟩) x, hspend x hx]
      rcases hpush with rfl | ⟨rfl, _⟩ <;> simp [Item.out]
  | @call e sender sentFunds hpre hsender hhonest henv =>
      rw [LedgerChoice.given_eq_zero h (by rintro _ ⟨⟩) x]
      have harrived : e.arrived self honest x = x.ofCoins sentFunds := by
        simp [Event.arrived, Event.ofSelf, henv, Contract.env, hsender, hhonest]
      have haccount := ledger_account_call harrived
        (Ledger.creditCoins_apply sentFunds chain.ledger x) (.inr rfl)
      simpa [Item.out] using haccount
  | @tokenSend e token fromAddr msg amount hpre htoken hfrom henv hmsg =>
      rw [LedgerChoice.given_eq_zero h (by rintro _ ⟨⟩) x]
      have hne : token ≠ self.address := by
        rintro rfl
        exact Bool.noConfusion (htoken.symm.trans hself)
      have harrived : e.arrived self honest x
          = if x = .snip20 token then amount.u128 else 0 := by
        have hreported := reported_of_token fromAddr msg amount
          (show e.env.message.sentFunds = [] by rw [henv]; rfl) x
        have hsender : e.env.message.sender = token := by rw [henv]; rfl
        simp [Event.arrived, Event.ofSelf, hsender, hne, htoken, hmsg, hfrom, hreported]
      have haccount := ledger_account_call harrived
        (Ledger.credit_apply chain.ledger (.snip20 token) x amount.u128) (.inr rfl)
      simpa [Item.out] using haccount
  | @selfCall e callbackCodeHash coins hpre henv =>
      rw [LedgerChoice.given_eq_zero h (by rintro ⟨⟩) x]
      have harrived : e.arrived self honest x = 0 := by
        simp [Event.arrived, Event.ofSelf, henv, Contract.env]
      have haccount := ledger_account_call harrived (Nat.add_zero (chain.ledger x)).symm (.inl rfl)
      simpa [Item.out, x.out_selfCall] using haccount
  | @selfSend e token amount msg padding blockSize callbackCodeHash hpre htoken hne henv hmsg =>
      rw [LedgerChoice.given_eq_zero h (by rintro ⟨⟩) x]
      have harrived : e.arrived self honest x = 0 := by
        simp [Event.arrived, Event.ofSelf, henv, Contract.env, htoken, hmsg]
      have haccount := ledger_account_call harrived (Nat.add_zero (chain.ledger x)).symm (.inr rfl)
      have hout : x.out self.address (.snip20 (.send self.address amount msg padding) blockSize
          callbackCodeHash token) = 0 := by
        cases x <;> simp [Asset.out, CosmosMsg.nativeOut, CosmosMsg.tokenOut]
      simpa [Item.out, hout] using haccount

/-- What a transaction starts with, is given and receives with its calls is what it ends with and
    what its calls send out. -/
theorem runLedger_flow {storage : Storage} {start : Ledger} {choices : List LedgerChoice}
    {trace : List Call} (h : runLedger self honest storage start choices = some (trace, chain'))
    (hself : honest self.address = false) {x : Asset} (hx : x.vouched honest = true) :
    start x + DexAggregator.given x choices
        + (trace.map fun call => call.event.arrived self honest x).sum
      = chain'.ledger x + (trace.map fun call => call.event.out self.address x).sum := by
  have haccounts := @run_accounts _ _ _ _ (ledgerExec self honest) _ _ _ _ _ _ _
    (fun chain => chain.ledger x) (Item.out self.address x) (LedgerChoice.given x)
    (fun call => call.event.arrived self honest x) (fun call => call.event.out self.address x) _
    (fun hstep => ledgerExec_account hstep hself hx) (runLedger_eq_some.1 h)
  simpa [DexAggregator.given, Item.out] using haccounts

/-- What a call of the ledger knows of its caller: honest tokens attach no coins. -/
theorem ledgerRun_call (h : Run (ledgerExec self honest) chain K trace chain' K')
    (hself : honest self.address = false) {call : Call} (hcall : call ∈ trace) :
    call.event.env.contract.address = self.address ∧
      (honest call.event.env.message.sender = true → call.event.env.message.sentFunds = []) := by
  obtain ⟨before, after, rfl⟩ := List.append_of_mem hcall
  obtain ⟨_, _, _, _, _, _, _, hstep, _⟩ := h.exists_step
  cases ledgerExec_step hstep with
  | call _ _ hhonest henv =>
      rw [henv]
      exact ⟨rfl, fun htrue => Bool.noConfusion (htrue.symm.trans hhonest)⟩
  | tokenSend _ _ _ henv => exact ⟨by rw [henv]; rfl, fun _ => by rw [henv]; rfl⟩
  | selfCall _ henv =>
      rw [henv]
      exact ⟨rfl, fun htrue => Bool.noConfusion (htrue.symm.trans hself)⟩
  | selfSend _ _ _ henv => exact ⟨by rw [henv]; rfl, fun _ => by rw [henv]; rfl⟩

end Flow

/-! ## What the contract reports to itself -/

/-- The amount of an asset that a message makes the contract at `own` report to itself: the coins of
    a self-call, or the tokens that it sends itself. -/
def Asset.selfReport (own : HumanAddr) (x : Asset) : CosmosMsg → ℕ
  | .execute contractAddr _ (.handle _) send => if contractAddr = own then x.ofCoins send else 0
  | .snip20 (.send recipient amount _ _) _ _ contractAddr =>
    if recipient = own ∧ x = .snip20 contractAddr then amount.u128 else 0
  | _ => 0

/-- The amount of an asset that the messages of a response make the contract report to itself. -/
def Event.selfQueued (own : HumanAddr) (x : Asset) (e : Event) : ℕ :=
  (e.response.messages.map (x.selfReport own)).sum

/-- The weight of an item: what the contract reports to itself when it is executed. -/
def Item.selfReport (own : HumanAddr) (x : Asset) : Item → ℕ
  | .msg message => x.selfReport own message
  | .outside => 0

section SelfReport

variable {self : Contract} {honest : HumanAddr → Bool} {chain chain' : Chain} {item : Item}
  {ev : Option Call} {push K K' : List Item} {trace : List Call}

theorem Event.sum_selfReport_items (own : HumanAddr) (x : Asset) (e : Event) :
    (e.items.map (Item.selfReport own x)).sum = e.selfQueued own x := by
  simp [Event.items, Event.selfQueued, Item.selfReport, Function.comp_def]

/-- A step reports to the contract no more than the message it executes was queued for. -/
theorem LedgerStep.selfReported_le (h : LedgerStep self honest chain item ev chain' push)
    (hself : honest self.address = false) {x : Asset} (hx : x.vouched honest = true) :
    (ev.toList.map fun call => call.event.selfReported self honest x).sum
        + (push.map (Item.selfReport self.address x)).sum
      ≤ item.selfReport self.address x
        + (ev.toList.map fun call => call.event.selfQueued self.address x).sum := by
  cases h with
  | returns => simp
  | give => simp
  | spend _ _ hpush => rcases hpush with rfl | ⟨rfl, _⟩ <;> simp [Item.selfReport]
  | @call e sender sentFunds _ hsender hhonest henv =>
      have hzero : e.selfReported self honest x = 0 := by
        simp [Event.selfReported, Event.ofSelf, henv, Contract.env, hsender, hhonest]
      simp [hzero, e.sum_selfReport_items self.address x, Item.selfReport]
  | @tokenSend e token fromAddr msg amount _ htoken hfrom henv hmsg =>
      have hne : token ≠ self.address := by
        rintro rfl
        exact Bool.noConfusion (htoken.symm.trans hself)
      have hzero : e.selfReported self honest x = 0 := by
        have hsender : e.env.message.sender = token := by rw [henv]; rfl
        simp [Event.selfReported, Event.ofSelf, hsender, hne, hmsg, hfrom]
      simp [hzero, e.sum_selfReport_items self.address x, Item.selfReport]
  | @selfCall e callbackCodeHash coins _ henv =>
      -- the coins of the message are the coins of the call
      have hreported : e.selfReported self honest x ≤ x.ofCoins coins := by
        have hsender : e.env.message.sender = self.address := by rw [henv]; rfl
        have hle := reported_le_of_not_honest e.msg hx (hsender ▸ hself)
        rw [show e.env.message.sentFunds = coins by rw [henv]; rfl] at hle
        simpa [Event.selfReported, Event.ofSelf, hsender] using hle
      simpa [Item.selfReport, Asset.selfReport, e.sum_selfReport_items self.address x]
        using hreported
  | @selfSend e token amount msg padding blockSize callbackCodeHash _ htoken hne henv hmsg =>
      have hsender : e.env.message.sender = token := by rw [henv]; rfl
      have hreported : e.selfReported self honest x
          = if x = .snip20 token then amount.u128 else 0 := by
        have hsent : e.env.message.sentFunds = [] := by rw [henv]; rfl
        have hreport := reported_of_token self.address msg amount hsent x
        rw [hsender] at hreport
        simp [Event.selfReported, Event.ofSelf, hsender, htoken, hmsg, hreport]
      simp [hreported, e.sum_selfReport_items self.address x, Item.selfReport, Asset.selfReport]

/-- The contract reports to itself no more than it has queued for that. -/
theorem ledgerRun_selfReported_le (h : Run (ledgerExec self honest) chain K trace chain' [])
    (hself : honest self.address = false) {x : Asset} (hx : x.vouched honest = true) :
    (trace.map fun call => call.event.selfReported self honest x).sum
      ≤ (K.map (Item.selfReport self.address x)).sum
        + (trace.map fun call => call.event.selfQueued self.address x).sum := by
  have hle := h.gain_le (Item.selfReport self.address x)
    (fun call => call.event.selfReported self honest x)
    (fun call => call.event.selfQueued self.address x)
    fun hstep => (ledgerExec_step hstep).selfReported_le hself hx
  simpa using hle

end SelfReport

end DexAggregator
