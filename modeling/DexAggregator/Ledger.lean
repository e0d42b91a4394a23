import DexAggregator.NativeCoins

set_option autoImplicit false

/-! # The ledger

The host with the contract's balances. Coins attached to a call move to the contract before it;
`BankMsg::Send` and the coins attached to emitted messages leave the contract. A SNIP-20 token is
honest or not. An honest one debits the contract only for what the contract itself asks of it,
credits recipients, and makes a recipient's `Receive` known with the true sender and amount; any
other contract does as it likes. Whoever is running may also give the contract something. A
transaction that spends what is not there is reverted.

Every transaction of this machine is one of the host (`runLedger_host`). -/

namespace DexAggregator

open WorkStack (Run run)

/-- A native denom, or the SNIP-20 token at an address. -/
inductive Asset where
  | native (denom : String)
  | snip20 (token : HumanAddr)
deriving DecidableEq

/-- The contract's balance of every asset. -/
abbrev Ledger := Asset → ℕ

def Ledger.credit (ledger : Ledger) (asset : Asset) (amount : ℕ) : Ledger :=
  fun x => if x = asset then ledger x + amount else ledger x

/-- `none` when the balance is too low. -/
def Ledger.debit (ledger : Ledger) (asset : Asset) (amount : ℕ) : Option Ledger :=
  if amount ≤ ledger asset then some fun x => if x = asset then ledger x - amount else ledger x
  else none

def Ledger.creditCoins (ledger : Ledger) (coins : List Coin) : Ledger :=
  coins.foldl (fun ledger coin => ledger.credit (.native coin.denom) coin.amount.u128) ledger

def Ledger.debitCoins (ledger : Ledger) (coins : List Coin) : Option Ledger :=
  coins.foldlM (fun ledger coin => ledger.debit (.native coin.denom) coin.amount.u128) ledger

/-! ## The machine -/

/-- The storage of the contract and its balances. -/
structure Chain where
  storage : Storage
  ledger : Ledger

/-- A successful call of `handle`, with the balances at the call. -/
structure Call where
  event : Event
  ledger : Ledger

/-- What the environment chooses for the item on top. Outside code returns, calls `handle`, sends
    the contract an honest token with a notification, or gives it an asset; an honest token that is
    sent to the contract by itself stays `silent` when the contract has not registered with it. -/
inductive LedgerChoice where
  | proceed
  | call (sender : HumanAddr) (sentFunds : List Coin) (msg : HandleMsg)
  | tokenSend (token fromAddr : HumanAddr) (msg : Option Binary) (amount : Uint128)
  | give (asset : Asset) (amount : ℕ)
  | silent
deriving DecidableEq

/-- Call `handle` with the balances `ledger`; `rest` is executed after what the call queues. -/
def callWith (self : Contract) (storage : Storage) (ledger : Ledger) (sender : HumanAddr)
    (sentFunds : List Coin) (msg : HandleMsg) (rest : List Item) :
    Option (Option Call × Chain × List Item) :=
  (callHandle storage (self.env sender sentFunds) msg).map fun e =>
    (some ⟨e, ledger⟩, ⟨e.post, ledger⟩, e.items ++ rest)

/-- An honest token at `token` executes a message of the contract. What the contract sends to itself
    comes back to it. -/
def execHonest (self : Contract) (token : HumanAddr) (chain : Chain) :
    Snip20Msg → LedgerChoice → Option (Option Call × Chain × List Item)
  | .send recipient amount msg _, .proceed => do
    let ledger ← chain.ledger.debit (.snip20 token) amount.u128
    if recipient = self.address then
      callWith self chain.storage chain.ledger token [] (.receive self.address msg amount)
        [.outside]
    else some (none, ⟨chain.storage, ledger⟩, [.outside])
  | .send recipient amount _ _, .silent => do
    let _ ← chain.ledger.debit (.snip20 token) amount.u128
    if recipient = self.address then some (none, chain, []) else none
  | .transfer recipient amount _, .proceed => do
    let ledger ← chain.ledger.debit (.snip20 token) amount.u128
    if recipient = self.address then some (none, chain, [])
    else some (none, ⟨chain.storage, ledger⟩, [])
  | .redeem amount _ _, .proceed => do
    let ledger ← chain.ledger.debit (.snip20 token) amount.u128
    some (none, ⟨chain.storage, ledger⟩, [.outside])
  | .registerReceive _ _, .proceed => some (none, chain, [])
  | _, _ => none

/-- Execute a queued message. -/
def ledgerDeliver (self : Contract) (honest : HumanAddr → Bool) (chain : Chain) :
    CosmosMsg → LedgerChoice → Option (Option Call × Chain × List Item)
  | .bankSend _ toAddress coins, .proceed => do
    let ledger ← chain.ledger.debitCoins coins
    if toAddress = self.address then some (none, chain, [])
    else some (none, ⟨chain.storage, ledger⟩, [])
  | .snip20 msg _ _ contractAddr, choice =>
    if contractAddr = self.address then none
    else if honest contractAddr then execHonest self contractAddr chain msg choice
    else if choice = .proceed then some (none, chain, [.outside]) else none
  | .execute contractAddr _ (.deposit _ _) coins, .proceed => do
    let ledger ← chain.ledger.debitCoins coins
    if contractAddr = self.address then none
    else some (none, ⟨chain.storage, ledger⟩, [.outside])
  | .execute contractAddr _ (.handle msg) coins, .proceed => do
    let ledger ← chain.ledger.debitCoins coins
    if contractAddr = self.address then
      callWith self chain.storage chain.ledger self.address coins msg []
    else some (none, ⟨chain.storage, ledger⟩, [.outside])
  | _, _ => none

/-- Execute the item on top of the stack. -/
def ledgerExec (self : Contract) (honest : HumanAddr → Bool) :
    WorkStack.Exec Chain Item LedgerChoice Call
  | chain, .msg message, choice => ledgerDeliver self honest chain message choice
  | chain, .outside, .proceed => some (none, chain, [])
  | chain, .outside, .call sender sentFunds msg =>
    if sender = self.address ∨ honest sender then none
    else callWith self chain.storage (chain.ledger.creditCoins sentFunds) sender sentFunds msg
      [.outside]
  | chain, .outside, .tokenSend token fromAddr msg amount =>
    if honest token ∧ fromAddr ≠ self.address then
      callWith self chain.storage (chain.ledger.credit (.snip20 token) amount.u128) token []
        (.receive fromAddr msg amount) [.outside]
    else none
  | chain, .outside, .give asset amount =>
    some (none, ⟨chain.storage, chain.ledger.credit asset amount⟩, [.outside])
  | _, .outside, .silent => none

/-- A transaction on the ledger. `none` when it is reverted. -/
def runLedger (self : Contract) (honest : HumanAddr → Bool) (storage : Storage) (ledger : Ledger)
    (choices : List LedgerChoice) : Option (List Call × Chain) :=
  match run (ledgerExec self honest) ⟨storage, ledger⟩ [.outside] choices with
  | some (trace, chain, []) => some (trace, chain)
  | _ => none

theorem runLedger_eq_some {self : Contract} {honest : HumanAddr → Bool} {storage : Storage}
    {ledger : Ledger} {choices : List LedgerChoice} {trace : List Call} {chain : Chain} :
    runLedger self honest storage ledger choices = some (trace, chain)
      ↔ run (ledgerExec self honest) ⟨storage, ledger⟩ [.outside] choices
        = some (trace, chain, []) := by
  unfold runLedger
  split
  · next h => simp [h]
  · next h =>
      simp only [reduceCtorEq, false_iff]
      exact h trace chain

/-! ## Balances -/

/-- The amount of an asset among some coins. -/
def Asset.ofCoins : Asset → List Coin → ℕ
  | .native denom, coins => coinsOf denom coins
  | .snip20 _, _ => 0

theorem Asset.ofCoins_cons (x : Asset) (coin : Coin) (coins : List Coin) :
    x.ofCoins (coin :: coins)
      = (if x = .native coin.denom then coin.amount.u128 else 0) + x.ofCoins coins := by
  cases x with
  | native denom => simp [Asset.ofCoins, coinsOf, eq_comm]
  | snip20 token => simp [Asset.ofCoins]

@[simp] theorem Asset.ofCoins_nil (x : Asset) : x.ofCoins [] = 0 := by
  cases x <;> rfl

theorem Ledger.credit_apply (ledger : Ledger) (asset x : Asset) (amount : ℕ) :
    ledger.credit asset amount x = ledger x + if x = asset then amount else 0 := by
  unfold Ledger.credit
  split <;> simp

theorem Ledger.creditCoins_apply (coins : List Coin) :
    ∀ (ledger : Ledger) (x : Asset), ledger.creditCoins coins x = ledger x + x.ofCoins coins := by
  induction coins with
  | nil => intro ledger x; simp [Ledger.creditCoins]
  | cons coin coins ih =>
      intro ledger x
      have hrest := ih (ledger.credit (.native coin.denom) coin.amount.u128) x
      rw [Ledger.credit_apply, Nat.add_assoc, ← Asset.ofCoins_cons] at hrest
      exact hrest

theorem Ledger.debit_eq_some {ledger ledger' : Ledger} {asset : Asset} {amount : ℕ}
    (h : ledger.debit asset amount = some ledger') (x : Asset) :
    ledger x = ledger' x + if x = asset then amount else 0 := by
  unfold Ledger.debit at h
  split at h
  · next hle =>
      cases h
      by_cases hx : x = asset
      · subst hx
        simp only [if_true]
        omega
      · simp [hx]
  · cases h

theorem Ledger.debitCoins_eq_some {coins : List Coin} :
    ∀ {ledger ledger' : Ledger}, ledger.debitCoins coins = some ledger' →
      ∀ x : Asset, ledger x = ledger' x + x.ofCoins coins := by
  induction coins with
  | nil =>
      intro ledger ledger' h x
      cases h
      simp
  | cons coin coins ih =>
      intro ledger ledger' h x
      rw [Ledger.debitCoins, List.foldlM_cons, Option.bind_eq_bind, Option.bind_eq_some_iff] at h
      obtain ⟨ledger₁, hdebit, hrest⟩ := h
      rw [Ledger.debit_eq_some hdebit x, ih hrest x, Asset.ofCoins_cons]
      omega

/-! ## What a message takes out -/

/-- The assets whose balance the ledger vouches for: native coins and honest tokens. -/
def Asset.vouched (honest : HumanAddr → Bool) : Asset → Bool
  | .native _ => true
  | .snip20 token => honest token

/-- The amount of the token at `token` that a message takes away from `own`. -/
def CosmosMsg.tokenOut (own token : HumanAddr) : CosmosMsg → ℕ
  | .snip20 (.send recipient amount _ _) _ _ contractAddr =>
    if contractAddr = token ∧ recipient ≠ own then amount.u128 else 0
  | .snip20 (.transfer recipient amount _) _ _ contractAddr =>
    if contractAddr = token ∧ recipient ≠ own then amount.u128 else 0
  | .snip20 (.redeem amount _ _) _ _ contractAddr =>
    if contractAddr = token then amount.u128 else 0
  | _ => 0

/-- The amount of an asset that a message takes away from `own`. -/
def Asset.out (own : HumanAddr) : Asset → CosmosMsg → ℕ
  | .native denom, message => message.nativeOut own denom
  | .snip20 token, message => message.tokenOut own token

/-- A message that is executed without handing control to outside code. -/
def CosmosMsg.leaf (honest : HumanAddr → Bool) : CosmosMsg → Bool
  | .bankSend _ _ _ => true
  | .snip20 (.transfer _ _ _) _ _ contractAddr => honest contractAddr
  | .snip20 (.registerReceive _ _) _ _ contractAddr => honest contractAddr
  | _ => false

/-- The steps of the machine. -/
inductive LedgerStep (self : Contract) (honest : HumanAddr → Bool) (chain : Chain) :
    Item → Option Call → Chain → List Item → Prop
  | returns : LedgerStep self honest chain .outside none chain []
  | give (asset : Asset) (amount : ℕ) : LedgerStep self honest chain .outside none
      ⟨chain.storage, chain.ledger.credit asset amount⟩ [.outside]
  | spend {message : CosmosMsg} {ledger : Ledger} {push : List Item} :
      (∀ x : Asset, x.vouched honest = true →
        chain.ledger x = ledger x + x.out self.address message) →
      (∀ contractAddr, message.contractAddr? = some contractAddr → contractAddr ≠ self.address) →
      push = [] ∨ push = [.outside] ∧ message.leaf honest = false →
      LedgerStep self honest chain (.msg message) none ⟨chain.storage, ledger⟩ push
  | call {e : Event} {sender : HumanAddr} {sentFunds : List Coin} :
      e.pre = chain.storage → sender ≠ self.address → honest sender = false →
      e.env = self.env sender sentFunds →
      LedgerStep self honest chain .outside (some ⟨e, chain.ledger.creditCoins sentFunds⟩)
        ⟨e.post, chain.ledger.creditCoins sentFunds⟩ (e.items ++ [.outside])
  | tokenSend {e : Event} {token fromAddr : HumanAddr} {msg : Option Binary} {amount : Uint128} :
      e.pre = chain.storage → honest token = true → fromAddr ≠ self.address →
      e.env = self.env token [] → e.msg = .receive fromAddr msg amount →
      LedgerStep self honest chain .outside
        (some ⟨e, chain.ledger.credit (.snip20 token) amount.u128⟩)
        ⟨e.post, chain.ledger.credit (.snip20 token) amount.u128⟩ (e.items ++ [.outside])
  | selfCall {e : Event} {callbackCodeHash : String} {coins : List Coin} :
      e.pre = chain.storage → e.env = self.env self.address coins →
      LedgerStep self honest chain
        (.msg (.execute self.address callbackCodeHash (.handle e.msg) coins))
        (some ⟨e, chain.ledger⟩) ⟨e.post, chain.ledger⟩ e.items
  | selfSend {e : Event} {token : HumanAddr} {amount : Uint128} {msg : Option Binary}
      {padding : Option String} {blockSize : ℕ} {callbackCodeHash : String} :
      e.pre = chain.storage → honest token = true → token ≠ self.address →
      e.env = self.env token [] → e.msg = .receive self.address msg amount →
      LedgerStep self honest chain
        (.msg (.snip20 (.send self.address amount msg padding) blockSize callbackCodeHash token))
        (some ⟨e, chain.ledger⟩) ⟨e.post, chain.ledger⟩ (e.items ++ [.outside])

section Step

variable {self : Contract} {honest : HumanAddr → Bool} {chain chain' : Chain}
  {ev : Option Call} {push : List Item}

theorem callWith_eq_some {storage : Storage} {ledger : Ledger} {sender : HumanAddr}
    {sentFunds : List Coin} {msg : HandleMsg} {rest : List Item}
    (h : callWith self storage ledger sender sentFunds msg rest = some (ev, chain', push)) :
    ∃ e : Event, e.pre = storage ∧ e.env = self.env sender sentFunds ∧ e.msg = msg ∧
      ev = some ⟨e, ledger⟩ ∧ chain' = ⟨e.post, ledger⟩ ∧ push = e.items ++ rest := by
  obtain ⟨e, he, heq⟩ := Option.map_eq_some_iff.1 h
  obtain ⟨hpre, henv, hmsg⟩ := callHandle_eq_some.1 he
  cases heq
  exact ⟨e, hpre, henv, hmsg, rfl, rfl, rfl⟩

/-- What leaves through an honest token is taken off its balance, and off no other. -/
theorem Ledger.debit_tokenOut {ledger ledger' : Ledger} {token : HumanAddr} {amount : Uint128}
    (h : ledger.debit (.snip20 token) amount.u128 = some ledger') {message : CosmosMsg}
    (hnative : ∀ denom, message.nativeOut self.address denom = 0)
    (htoken : ∀ token', message.tokenOut self.address token'
      = if token = token' then amount.u128 else 0) (x : Asset) :
    ledger x = ledger' x + x.out self.address message := by
  rw [Ledger.debit_eq_some h x]
  cases x with
  | native denom => simp [Asset.out, hnative]
  | snip20 token' => simp [Asset.out, htoken, eq_comm]

/-- A message that takes nothing out and calls nobody: what the contract sends to itself, say, is
    still its own. -/
theorem LedgerStep.stays {message : CosmosMsg}
    (hnative : ∀ denom, message.nativeOut self.address denom = 0)
    (htoken : ∀ token, message.tokenOut self.address token = 0)
    (haddr : ∀ contractAddr, message.contractAddr? = some contractAddr →
      contractAddr ≠ self.address) :
    LedgerStep self honest chain (.msg message) none chain [] := by
  refine .spend ?_ haddr (.inl rfl)
  intro x _
  cases x with
  | native denom => simp [Asset.out, hnative]
  | snip20 token => simp [Asset.out, htoken]

theorem execHonest_step {token : HumanAddr} {msg : Snip20Msg} {choice : LedgerChoice}
    (htoken : honest token = true) (hself : token ≠ self.address) (blockSize : ℕ)
    (callbackCodeHash : String)
    (h : execHonest self token chain msg choice = some (ev, chain', push)) :
    LedgerStep self honest chain (.msg (.snip20 msg blockSize callbackCodeHash token)) ev chain'
      push := by
  have haddr : ∀ contractAddr,
      (CosmosMsg.snip20 msg blockSize callbackCodeHash token).contractAddr? = some contractAddr →
      contractAddr ≠ self.address := by
    rintro _ ⟨⟩
    exact hself
  match msg, choice, h with
  | .send recipient amount msg padding, .proceed, h =>
      obtain ⟨ledger, hdebit, hrest⟩ := Option.bind_eq_some_iff.1 h
      split at hrest
      · next hrecipient =>
          subst hrecipient
          obtain ⟨e, hpre, henv, hmsg, rfl, rfl, rfl⟩ := callWith_eq_some hrest
          exact .selfSend hpre htoken hself henv hmsg
      · next hrecipient =>
          cases hrest
          refine .spend (fun x _ => Ledger.debit_tokenOut hdebit (fun _ => rfl) (fun _ => ?_) x)
            haddr (.inr ⟨rfl, rfl⟩)
          simp [CosmosMsg.tokenOut, hrecipient]
  | .send recipient amount msg padding, .silent, h =>
      obtain ⟨_, _, h⟩ := Option.bind_eq_some_iff.1 h
      split at h
      · next hrecipient =>
          cases h
          exact .stays (fun _ => rfl) (fun _ => by simp [CosmosMsg.tokenOut, hrecipient]) haddr
      · cases h
  | .transfer recipient amount padding, .proceed, h =>
      obtain ⟨ledger, hdebit, h⟩ := Option.bind_eq_some_iff.1 h
      split at h
      · next hrecipient =>
          cases h
          exact .stays (fun _ => rfl) (fun _ => by simp [CosmosMsg.tokenOut, hrecipient]) haddr
      · next hrecipient =>
          cases h
          refine .spend (fun x _ => Ledger.debit_tokenOut hdebit (fun _ => rfl) (fun _ => ?_) x)
            haddr (.inl rfl)
          simp [CosmosMsg.tokenOut, hrecipient]
  | .redeem amount denom padding, .proceed, h =>
      obtain ⟨ledger, hdebit, h⟩ := Option.bind_eq_some_iff.1 h
      cases h
      refine .spend (fun x _ => Ledger.debit_tokenOut hdebit (fun _ => rfl) (fun _ => ?_) x) haddr
        (.inr ⟨rfl, rfl⟩)
      simp [CosmosMsg.tokenOut]
  | .registerReceive callbackCodeHash' padding, .proceed, h =>
      cases h
      exact .stays (fun _ => rfl) (fun _ => rfl) haddr

/-- What a message with coins to another contract takes out is what is debited. -/
theorem Ledger.debit_nativeOut {ledger ledger' : Ledger} {coins : List Coin}
    (h : ledger.debitCoins coins = some ledger') {message : CosmosMsg}
    (hnative : ∀ denom, message.nativeOut self.address denom = coinsOf denom coins)
    (htoken : ∀ token, message.tokenOut self.address token = 0) (x : Asset) :
    ledger x = ledger' x + x.out self.address message := by
  rw [Ledger.debitCoins_eq_some h x]
  cases x with
  | native denom => simp [Asset.out, Asset.ofCoins, hnative]
  | snip20 token => simp [Asset.out, Asset.ofCoins, htoken]

theorem ledgerDeliver_step {message : CosmosMsg} {choice : LedgerChoice}
    (h : ledgerDeliver self honest chain message choice = some (ev, chain', push)) :
    LedgerStep self honest chain (.msg message) ev chain' push := by
  match message, choice, h with
  | .bankSend fromAddress toAddress coins, .proceed, h =>
      obtain ⟨ledger, hdebit, h⟩ := Option.bind_eq_some_iff.1 h
      split at h
      · next hself =>
          cases h
          exact .stays (fun _ => by simp [CosmosMsg.nativeOut, hself]) (fun _ => rfl)
            (by rintro _ ⟨⟩)
      · next hself =>
          cases h
          refine .spend (fun x _ => Ledger.debit_nativeOut hdebit (fun _ => ?_) (fun _ => rfl) x)
            (by rintro _ ⟨⟩) (.inl rfl)
          simp [CosmosMsg.nativeOut, hself]
  | .snip20 msg blockSize callbackCodeHash contractAddr, choice, h =>
      simp only [ledgerDeliver] at h
      split at h
      · cases h
      · next hself =>
          split at h
          · next hhonest => exact execHonest_step hhonest hself blockSize callbackCodeHash h
          · next hhonest =>
              split at h
              · cases h
                have hleaf : (CosmosMsg.snip20 msg blockSize callbackCodeHash contractAddr).leaf
                    honest = false := by
                  cases msg <;> simp [CosmosMsg.leaf, hhonest]
                refine .spend (fun x hx => ?_) (by rintro _ ⟨⟩; exact hself) (.inr ⟨rfl, hleaf⟩)
                cases x with
                | native denom => simp [Asset.out, CosmosMsg.nativeOut]
                | snip20 token =>
                    have hne : contractAddr ≠ token := by
                      rintro rfl
                      exact hhonest hx
                    cases msg <;> simp [Asset.out, CosmosMsg.tokenOut, hne]
              · cases h
  | .execute contractAddr callbackCodeHash (.deposit padding blockSize) coins, .proceed, h =>
      obtain ⟨ledger, hdebit, h⟩ := Option.bind_eq_some_iff.1 h
      split at h
      · cases h
      · next hself =>
          cases h
          refine .spend (fun x _ => Ledger.debit_nativeOut hdebit (fun _ => ?_) (fun _ => rfl) x)
            (by rintro _ ⟨⟩; exact hself) (.inr ⟨rfl, rfl⟩)
          simp [CosmosMsg.nativeOut, hself]
  | .execute contractAddr callbackCodeHash (.handle msg) coins, .proceed, h =>
      obtain ⟨ledger, hdebit, hrest⟩ := Option.bind_eq_some_iff.1 h
      split at hrest
      · next hself =>
          subst hself
          obtain ⟨e, hpre, henv, rfl, rfl, rfl, rfl⟩ := callWith_eq_some hrest
          rw [List.append_nil]
          exact .selfCall hpre henv
      · next hself =>
          cases hrest
          refine .spend (fun x _ => Ledger.debit_nativeOut hdebit (fun _ => ?_) (fun _ => rfl) x)
            (by rintro _ ⟨⟩; exact hself) (.inr ⟨rfl, rfl⟩)
          simp [CosmosMsg.nativeOut, hself]

theorem ledgerExec_step {item : Item} {choice : LedgerChoice}
    (h : ledgerExec self honest chain item choice = some (ev, chain', push)) :
    LedgerStep self honest chain item ev chain' push := by
  match item, choice, h with
  | .msg message, choice, h => exact ledgerDeliver_step h
  | .outside, .proceed, h =>
      cases h
      exact .returns
  | .outside, .call sender sentFunds msg, h =>
      simp only [ledgerExec] at h
      split at h
      · cases h
      · next hsender =>
          rw [not_or, Bool.not_eq_true] at hsender
          obtain ⟨e, hpre, henv, _, rfl, rfl, rfl⟩ := callWith_eq_some h
          exact .call hpre hsender.1 hsender.2 henv
  | .outside, .tokenSend token fromAddr msg amount, h =>
      simp only [ledgerExec] at h
      split at h
      · next hsend =>
          obtain ⟨e, hpre, henv, hmsg, rfl, rfl, rfl⟩ := callWith_eq_some h
          exact .tokenSend hpre hsend.1 hsend.2 henv hmsg
      · cases h
  | .outside, .give asset amount, h =>
      cases h
      exact .give asset amount

end Step

/-! ## Runs of the ledger are runs of the host -/

section Host

variable {self : Contract} {honest : HumanAddr → Bool} {chain chain' : Chain} {item : Item}
  {ev : Option Call} {push K K' : List Item} {trace : List Call}

/-- The outside code returns. -/
theorem exec_returns (storage : Storage) :
    exec self storage .outside .proceed = some (none, storage, []) := rfl

/-- A step of the ledger is at most two steps of the host: an honest token that calls nobody is an
    outside contract that returns at once. -/
theorem LedgerStep.host (h : LedgerStep self honest chain item ev chain' push)
    (hself : honest self.address = false) :
    Run (exec self) chain.storage [item] (ev.map Call.event).toList chain'.storage push := by
  have hne : ∀ {token : HumanAddr}, honest token = true → token ≠ self.address := by
    rintro token htoken rfl
    rw [hself] at htoken
    cases htoken
  cases h with
  | returns => exact Run.single (exec_returns chain.storage)
  | give => exact .refl _ _
  | @spend message ledger push _ haddr hpush =>
      cases hcontract : message.contractAddr? with
      | none =>
          match message, hcontract, hpush with
          | .bankSend fromAddress toAddress coins, _, .inl hpush =>
              have hexec : exec self chain.storage (.msg (.bankSend fromAddress toAddress coins))
                .proceed = some (none, chain.storage, []) := rfl
              exact hpush ▸ Run.single hexec
          | .bankSend _ _ _, _, .inr ⟨_, hleaf⟩ => cases hleaf
      | some contractAddr =>
          have hexec := exec_external hcontract (haddr _ hcontract) chain.storage
          -- a token that calls nobody is an outside contract that returns at once
          rcases hpush with rfl | ⟨rfl, _⟩
          · exact .step hexec (Run.single (exec_returns chain.storage))
          · exact Run.single hexec
  | @call e sender sentFunds hpre hsender _ henv =>
      rw [← hpre]
      exact Run.single (exec_outsideCall henv hsender)
  | @tokenSend e token fromAddr msg amount hpre htoken _ henv hmsg =>
      rw [← hpre]
      exact Run.single (exec_outsideCall henv (hne htoken))
  | @selfCall e callbackCodeHash coins hpre henv =>
      rw [← hpre]
      exact Run.single (exec_selfCall henv callbackCodeHash)
  | @selfSend e token amount msg padding blockSize callbackCodeHash hpre _ htoken henv hmsg =>
      rw [← hpre]
      exact .step (exec_external rfl htoken e.pre)
        (Run.single (exec_outsideCall henv htoken))

/-- Every run of the ledger is a run of the host with the same calls. -/
theorem ledgerRun_host (h : Run (ledgerExec self honest) chain K trace chain' K')
    (hself : honest self.address = false) :
    Run (exec self) chain.storage K (trace.map Call.event) chain'.storage K' :=
  h.simulate fun hstep => (ledgerExec_step hstep).host hself

/-- A transaction on the ledger is a transaction of the host, so what holds of the calls and the
    storage of every transaction of the host holds on the ledger. -/
theorem runLedger_host {storage : Storage} {ledger : Ledger} {choices : List LedgerChoice}
    (h : runLedger self honest storage ledger choices = some (trace, chain'))
    (hself : honest self.address = false) :
    ∃ choices', runTransaction self storage choices'
      = some (trace.map Call.event, chain'.storage) := by
  have hrun := ledgerRun_host (Run.of_run choices (runLedger_eq_some.1 h)) hself
  obtain ⟨choices', hchoices'⟩ := hrun.exists_run
  exact ⟨choices', runTransaction_eq_some.2 hchoices'⟩

end Host

end DexAggregator
