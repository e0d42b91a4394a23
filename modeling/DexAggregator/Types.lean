import Mathlib.Algebra.Order.Ring.Nat

set_option autoImplicit false

/-! # The data of the contract

The types of `state.rs` and `msg.rs`, the part of the environment, message and error types of the
host that the contract reads or builds, and the outcome of a call.

A serialized message is kept as the value it encodes: `Binary` lists the documents the contract
builds or decodes, and every other byte string is `Binary.other`. Addresses, denoms and code hashes
are strings, as in the source. -/

namespace DexAggregator

abbrev HumanAddr := String

/-- `Uint128`: a natural number that fits 128 bits. -/
structure Uint128 where
  u128 : ℕ
  isLt : u128 < 2 ^ 128
deriving DecidableEq

/-! ## `state.rs` -/

structure Config where
  admin : HumanAddr
deriving DecidableEq

structure SecretContract where
  address : HumanAddr
  contractHash : String
deriving DecidableEq

structure SecretContractForShadeProtocol where
  addr : String
  codeHash : String
deriving DecidableEq

inductive Token where
  | snip20 (contract : SecretContract)
  | native (contract : SecretContract)
deriving DecidableEq

structure Hop where
  fromToken : Token
  smartContract : Option SecretContract
  redeemDenom : Option String
  migrateToToken : Option SecretContract
  shadeProtocolRouterPath : Option (List SecretContractForShadeProtocol)
deriving DecidableEq

structure Route where
  hops : List Hop
  estimatedAmount : Uint128
  minimumAcceptableAmount : Uint128
  «to» : HumanAddr
deriving DecidableEq

structure RouteState where
  currentHop : Hop
  remainingRoute : Route
deriving DecidableEq

/-- The contract's storage: the values under `CONFIG_KEY` and `KEY_ROUTE_STATE`. -/
structure Storage where
  config : Option Config
  routeState : Option RouteState
deriving DecidableEq

/-- The storage of a contract that has not been initialized. -/
def Storage.empty : Storage := ⟨none, none⟩

/-- The contract behind a token, of either kind. -/
def Token.contract : Token → SecretContract
  | .snip20 contract => contract
  | .native contract => contract

/-- The address of the token a hop starts from. -/
def Hop.tokenAddress (hop : Hop) : HumanAddr := hop.fromToken.contract.address

/-! ## Messages -/

structure Coin where
  denom : String
  amount : Uint128
deriving DecidableEq

/-- A serialized document: a `Route` (what a first `Receive` carries), the two messages the contract
    attaches to a `Send` (`ShadeProtocol::SwapTokensForExact`, `Snip20Swap::Swap`), or anything
    else. -/
inductive Binary where
  | route (route : Route)
  | swapTokensForExact (path : List SecretContractForShadeProtocol)
  | swap (expectedReturn : Option Uint128) («to» : Option HumanAddr)
  | other (bytes : List ℕ)
deriving DecidableEq

inductive HandleMsg where
  | receive (fromAddr : HumanAddr) (msg : Option Binary) (amount : Uint128)
  | finalizeRoute
  | registerTokens (tokens : List SecretContract)
  | rescueTokens (amount : Uint128) (denom : Option String) (token : Option SecretContract)
deriving DecidableEq

/-- The calls of `secret_toolkit::snip20` that the contract makes. -/
inductive Snip20Msg where
  | send (recipient : HumanAddr) (amount : Uint128) (msg : Option Binary) (padding : Option String)
  | transfer (recipient : HumanAddr) (amount : Uint128) (padding : Option String)
  | redeem (amount : Uint128) (denom : Option String) (padding : Option String)
  | registerReceive (codeHash : String) (padding : Option String)
deriving DecidableEq

/-- What the `msg` field of a `WasmMsg::Execute` of the contract encodes: a message to the contract
    itself, or `Snip20::Deposit` padded with spaces to a multiple of `blockSize`. -/
inductive ExecuteMsg where
  | handle (msg : HandleMsg)
  | deposit (padding : Option String) (blockSize : ℕ)
deriving DecidableEq

/-- The messages of a response: `WasmMsg::Execute`, `BankMsg::Send`, or a message built by
    `secret_toolkit::snip20`, which is executed on `contractAddr` with no coins attached. -/
inductive CosmosMsg where
  | execute (contractAddr : HumanAddr) (callbackCodeHash : String) (msg : ExecuteMsg)
      (send : List Coin)
  | bankSend (fromAddress toAddress : HumanAddr) (amount : List Coin)
  | snip20 (msg : Snip20Msg) (blockSize : ℕ) (callbackCodeHash : String) (contractAddr : HumanAddr)
deriving DecidableEq

structure LogAttribute where
  key : String
  value : String
deriving DecidableEq

structure HandleResponse where
  messages : List CosmosMsg
  log : List LogAttribute
  data : Option Binary
deriving DecidableEq

/-- `HandleResponse::default()`. -/
def HandleResponse.default : HandleResponse := ⟨[], [], none⟩

structure InitResponse where
  messages : List CosmosMsg
  log : List LogAttribute
deriving DecidableEq

/-! ## The environment of a call -/

structure MessageInfo where
  sender : HumanAddr
  sentFunds : List Coin
deriving DecidableEq

structure ContractInfo where
  address : HumanAddr
deriving DecidableEq

structure Env where
  message : MessageInfo
  contract : ContractInfo
  contractCodeHash : String
deriving DecidableEq

/-! ## Errors and outcomes -/

/-- The errors the contract returns. `genericErrRoute msg route` is the generic error whose text is
    `msg` followed by the `Debug` form of `route`. -/
inductive StdError where
  | genericErr (msg : String)
  | genericErrRoute (msg : String) (route : Route)
  | unauthorized
  | notFound
  | parseErr
  | underflow (minuend subtrahend : Uint128)
deriving DecidableEq

/-- How a call ends when it does not return `Ok`: with an error, or with a panic. -/
inductive Abort where
  | err (e : StdError)
  | panic
deriving DecidableEq

abbrev Outcome (α : Type) := Except Abort α

/-- `Option::unwrap`. -/
def unwrap {α : Type} : Option α → Outcome α
  | some a => .ok a
  | none => .error .panic

/-- `Result::unwrap`. -/
def unwrapResult {α : Type} : Outcome α → Outcome α
  | .ok a => .ok a
  | .error _ => .error .panic

/-- `Uint128 - Uint128`, which is checked. -/
def Uint128.sub (a b : Uint128) : Outcome Uint128 :=
  if b.u128 ≤ a.u128 then
    .ok ⟨a.u128 - b.u128, Nat.lt_of_le_of_lt (Nat.sub_le _ _) a.isLt⟩
  else .error (.err (.underflow a b))

/-- `from_binary::<Route>`. -/
def fromBinary : Binary → Outcome Route
  | .route route => .ok route
  | _ => .error (.err .parseErr)

/-! ## Peeling outcomes apart -/

variable {α β : Type}

@[simp] theorem bind_eq_ok {x : Outcome α} {f : α → Outcome β} {b : β} :
    (x >>= f) = .ok b ↔ ∃ a, x = .ok a ∧ f a = .ok b := by
  cases x <;> simp [bind, Except.bind]

theorem bind_ne_panic {x : Outcome α} {f : α → Outcome β} (hx : x ≠ .error .panic)
    (hf : ∀ a, x = .ok a → f a ≠ .error .panic) : (x >>= f) ≠ .error .panic := by
  cases x with
  | error e => simpa [bind, Except.bind] using hx
  | ok a => exact hf a rfl

theorem throw_ne_panic (e : StdError) : (throw (.err e) : Outcome α) ≠ .error .panic := by
  simp [throw, throwThe, MonadExceptOf.throw]

theorem pure_ne_panic (a : α) : (pure a : Outcome α) ≠ .error .panic := by
  simp [pure, Except.pure]

@[simp] theorem pure_eq_ok {a b : α} : (pure a : Outcome α) = .ok b ↔ a = b := by
  simp [pure, Except.pure]

@[simp] theorem unwrap_eq_ok {o : Option α} {a : α} : unwrap o = .ok a ↔ o = some a := by
  cases o <;> simp [unwrap]

theorem unwrap_ne_panic {o : Option α} (h : o.isSome) : unwrap o ≠ .error .panic := by
  cases o <;> simp_all [unwrap]

@[simp] theorem unwrapResult_eq_ok {x : Outcome α} {a : α} :
    unwrapResult x = .ok a ↔ x = .ok a := by
  cases x <;> simp [unwrapResult]

@[simp] theorem fromBinary_eq_ok {b : Binary} {route : Route} :
    fromBinary b = .ok route ↔ b = .route route := by
  cases b <;> simp [fromBinary]

theorem fromBinary_ne_panic (b : Binary) : fromBinary b ≠ .error .panic := by
  cases b <;> simp [fromBinary]

theorem Uint128.sub_eq_ok {a b c : Uint128} :
    a.sub b = .ok c ↔ b.u128 ≤ a.u128 ∧ c.u128 = a.u128 - b.u128 := by
  unfold Uint128.sub
  split
  · next h =>
      cases c
      simp [h, eq_comm]
  · next h => simp [h]

theorem Uint128.sub_eq_ok_of_lt {a b c : Uint128} (hlt : b.u128 < a.u128)
    (hc : c.u128 = a.u128 - b.u128) : a.sub b = .ok c :=
  Uint128.sub_eq_ok.2 ⟨Nat.le_of_lt hlt, hc⟩

end DexAggregator
