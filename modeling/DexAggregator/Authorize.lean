import Mathlib.Tactic.SplitIfs
import DexAggregator.Types

set_option autoImplicit false

/-! # The checks of `authorize.rs`

Each check returns `Ok(())` or an error; the one `unwrap` is guarded by an `is_some`. For each of
them, what its success says. -/

namespace DexAggregator

def authorize (expected received : HumanAddr) : Outcome Unit :=
  if expected ≠ received then .error (.err .unauthorized) else .ok ()

def validateReceivedFromAnAllowedAddress (currentHop nextHop : Hop) (env : Env)
    (fromAddr : HumanAddr) : Outcome Unit :=
  match nextHop.fromToken with
  | .snip20 _ =>
    if currentHop.redeemDenom.isSome || currentHop.migrateToToken.isSome then
      authorize env.contract.address fromAddr
    else if currentHop.smartContract.isSome then do
      let smartContract ← unwrap currentHop.smartContract
      authorize smartContract.address fromAddr
    else .ok ()
  | .native _ => authorize env.message.sender env.contract.address

def validateReceivedToken (token : Token) (amount : Uint128) (env : Env) : Outcome Unit :=
  let tokenValid : Bool := match token with
    | .snip20 contract => env.message.sender = contract.address
    | .native _ => match env.message.sentFunds with
      | [coin] => coin.amount = amount
      | _ => false
  if !tokenValid then .error (.err (.genericErr "Received crypto type or amount is wrong."))
  else .ok ()

def validateUserIsTheReceiver (token : Token) (fromAddr «to» sender : HumanAddr) : Outcome Unit :=
  match token with
  | .snip20 _ => authorize fromAddr «to»
  | .native _ => authorize sender «to»

/-! ## What the checks accept -/

@[simp] theorem authorize_eq_ok {expected received : HumanAddr} {u : Unit} :
    authorize expected received = .ok u ↔ expected = received := by
  by_cases h : expected = received <;> simp [authorize, h]

theorem authorize_ne_panic (expected received : HumanAddr) :
    authorize expected received ≠ .error .panic := by
  unfold authorize
  split <;> simp

theorem validateReceivedToken_snip20 {contract : SecretContract} {amount : Uint128} {env : Env} :
    validateReceivedToken (.snip20 contract) amount env = .ok ()
      ↔ env.message.sender = contract.address := by
  by_cases h : env.message.sender = contract.address <;> simp [validateReceivedToken, h]

theorem validateReceivedToken_native {contract : SecretContract} {amount : Uint128} {env : Env} :
    validateReceivedToken (.native contract) amount env = .ok ()
      ↔ ∃ denom, env.message.sentFunds = [⟨denom, amount⟩] := by
  rcases hfunds : env.message.sentFunds with _ | ⟨⟨denom, paid⟩, _ | ⟨coin, rest⟩⟩
  · simp [validateReceivedToken, hfunds]
  · by_cases h : paid = amount <;> simp [validateReceivedToken, hfunds, h]
  · simp [validateReceivedToken, hfunds]

theorem validateReceivedToken_ne_panic (token : Token) (amount : Uint128) (env : Env) :
    validateReceivedToken token amount env ≠ .error .panic := by
  cases token <;> simp only [validateReceivedToken] <;> split_ifs <;> simp

theorem validateUserIsTheReceiver_eq_ok {token : Token} {fromAddr «to» sender : HumanAddr} :
    validateUserIsTheReceiver token fromAddr «to» sender = .ok ()
      ↔ «to» = match token with | .snip20 _ => fromAddr | .native _ => sender := by
  cases token <;> simp [validateUserIsTheReceiver, eq_comm]

theorem validateUserIsTheReceiver_ne_panic (token : Token) (fromAddr «to» sender : HumanAddr) :
    validateUserIsTheReceiver token fromAddr «to» sender ≠ .error .panic := by
  cases token <;> exact authorize_ne_panic _ _

theorem validateFrom_native {currentHop nextHop : Hop} {contract : SecretContract} {env : Env}
    {fromAddr : HumanAddr} (h : nextHop.fromToken = .native contract) :
    validateReceivedFromAnAllowedAddress currentHop nextHop env fromAddr = .ok ()
      ↔ env.message.sender = env.contract.address := by
  simp [validateReceivedFromAnAllowedAddress, h]

/-- Before a Snip20 hop, a current hop with `redeem_denom` or `migrate_to_token` is expected to hand
    its tokens back through the contract itself. -/
theorem validateFrom_self {currentHop nextHop : Hop} {contract : SecretContract} {env : Env}
    {fromAddr : HumanAddr} (h : nextHop.fromToken = .snip20 contract)
    (hself : currentHop.redeemDenom.isSome ∨ currentHop.migrateToToken.isSome) :
    validateReceivedFromAnAllowedAddress currentHop nextHop env fromAddr = .ok ()
      ↔ fromAddr = env.contract.address := by
  have hcond : (currentHop.redeemDenom.isSome || currentHop.migrateToToken.isSome) = true := by
    simpa using hself
  simp only [validateReceivedFromAnAllowedAddress, h, hcond, if_true, authorize_eq_ok]
  exact eq_comm

/-- Otherwise the current hop's smart contract, when there is one, hands them back. -/
theorem validateFrom_smartContract {currentHop nextHop : Hop}
    {contract smartContract : SecretContract} {env : Env} {fromAddr : HumanAddr}
    (h : nextHop.fromToken = .snip20 contract)
    (hredeem : currentHop.redeemDenom = none) (hmigrate : currentHop.migrateToToken = none)
    (hsmart : currentHop.smartContract = some smartContract) :
    validateReceivedFromAnAllowedAddress currentHop nextHop env fromAddr = .ok ()
      ↔ fromAddr = smartContract.address := by
  simp [validateReceivedFromAnAllowedAddress, h, hredeem, hmigrate, hsmart, unwrap, bind,
    Except.bind, eq_comm]

theorem validateFrom_ne_panic (currentHop nextHop : Hop) (env : Env) (fromAddr : HumanAddr) :
    validateReceivedFromAnAllowedAddress currentHop nextHop env fromAddr ≠ .error .panic := by
  unfold validateReceivedFromAnAllowedAddress
  split
  · split
    · exact authorize_ne_panic _ _
    · split
      · next h => exact bind_ne_panic (unwrap_ne_panic h) (fun _ _ => authorize_ne_panic _ _)
      · simp
  · exact authorize_ne_panic _ _

end DexAggregator
