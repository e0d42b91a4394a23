import Mathlib.Algebra.Order.BigOperators.Group.List
import DexAggregator.HopSource

set_option autoImplicit false

/-! # Native coins in and out of a call

What a `Receive` sends out in native coins is decided by the hop it consumes: nothing on a Snip20
hop, and on a native hop the amount it was called with, in one denom and in one or two parts
(`nativeParts`). What arrived is only checked for its amount, so in and out agree exactly when the
attached coin has the denom that is spent and no part of it goes back to the contract. -/

namespace DexAggregator

/-- The amount of `denom` among some coins. -/
def coinsOf (denom : String) (coins : List Coin) : ℕ :=
  (coins.map fun coin => if coin.denom = denom then coin.amount.u128 else 0).sum

/-- The amount of `denom` that a message sends to anyone but `own`. -/
def CosmosMsg.nativeOut (own : HumanAddr) (denom : String) : CosmosMsg → ℕ
  | .execute contractAddr _ _ send => if contractAddr = own then 0 else coinsOf denom send
  | .bankSend _ toAddress amount => if toAddress = own then 0 else coinsOf denom amount
  | .snip20 _ _ _ _ => 0

/-- The amount of `denom` that a response sends to anyone but `own`. -/
def nativeOut (own : HumanAddr) (denom : String) (messages : List CosmosMsg) : ℕ :=
  (messages.map (CosmosMsg.nativeOut own denom)).sum

/-! ## What a call is about to spend -/

/-- The hop that a `Receive` consumes. -/
def consumedHop? (storage : Storage) : HandleMsg → Option Hop
  | .receive _ (some (.route route)) _ => route.hops.head?
  | .receive _ none _ => storage.routeState.bind fun state => state.remainingRoute.hops.head?
  | _ => none

/-- The denom that a `Receive` spends when it consumes a native hop: `redeem_denom` of the hop, or,
    when that is the last one, of the hop before it. -/
def spentDenom? (storage : Storage) : HandleMsg → Option String
  | .receive _ (some (.route route)) _ => route.hops.head?.bind Hop.redeemDenom
  | .receive _ none _ => storage.routeState.bind fun state =>
    match state.remainingRoute.hops with
    | [] => none
    | [_] => state.currentHop.redeemDenom
    | nextHop :: _ => nextHop.redeemDenom
  | _ => none

/-- The parts into which a `Receive` splits the coins of a native hop, with their recipients: one
    deposit, or on the last hop the excess for the admin and the payment to the user. -/
def nativeParts (storage : Storage) : HandleMsg → List (HumanAddr × ℕ)
  | .receive _ (some (.route route)) amount =>
    route.hops.head?.toList.map fun hop => (hop.tokenAddress, amount.u128)
  | .receive _ none amount => match storage.config, storage.routeState with
    | some config, some ⟨_, route⟩ => match route.hops with
      | [] => []
      | [_] => [(config.admin, amount.u128 - route.estimatedAmount.u128),
          (route.to, min amount.u128 route.estimatedAmount.u128)]
      | nextHop :: _ => [(nextHop.tokenAddress, amount.u128)]
    | _, _ => []
  | _ => []

/-- The coins attached to a `Receive` are the ones it spends: none with a Snip20 hop; with a native
    hop coins of the denom that is spent, of which no part goes to the contract itself. -/
def CoinsSpent (storage : Storage) (env : Env) (msg : HandleMsg) : Prop :=
  ∀ hop ∈ consumedHop? storage msg, ∀ coin ∈ env.message.sentFunds, coin.amount.u128 ≠ 0 →
    match hop.fromToken with
    | .snip20 _ => False
    | .native _ => spentDenom? storage msg = some coin.denom ∧
      ∀ part ∈ nativeParts storage msg, part.2 ≠ 0 → part.1 ≠ env.contract.address

/-! ## Coins and parts -/

@[simp] theorem coinsOf_nil (denom : String) : coinsOf denom [] = 0 := rfl

@[simp] theorem coinsOf_singleton (denom : String) (coin : Coin) :
    coinsOf denom [coin] = if coin.denom = denom then coin.amount.u128 else 0 := by
  simp [coinsOf]

theorem coinsOf_eq_zero_iff {coins : List Coin} :
    (∀ denom, coinsOf denom coins = 0) ↔ ∀ coin ∈ coins, coin.amount.u128 = 0 := by
  constructor
  · intro h coin hcoin
    have hzero := List.sum_eq_zero_iff_forall_eq_nat.1 (h coin.denom) _ (List.mem_map_of_mem hcoin)
    simpa using hzero
  · intro h denom
    refine List.sum_eq_zero_iff_forall_eq_nat.2 ?_
    intro x hx
    obtain ⟨coin, hcoin, rfl⟩ := List.mem_map.1 hx
    simp [h coin hcoin]

/-- The amount of `denom` that leaves when the parts are sent in `spent`. -/
def partsOut (own : HumanAddr) (spent denom : String) (parts : List (HumanAddr × ℕ)) : ℕ :=
  (parts.map fun part => if part.1 = own ∨ spent ≠ denom then 0 else part.2).sum

theorem sum_ite_zero_eq_sum_iff {α : Type} (l : List α) (p : α → Prop) [DecidablePred p]
    (f : α → ℕ) :
    (l.map fun a => if p a then 0 else f a).sum = (l.map f).sum ↔ ∀ a ∈ l, f a ≠ 0 → ¬ p a := by
  have hle : ∀ l : List α, (l.map fun a => if p a then 0 else f a).sum ≤ (l.map f).sum := by
    intro l
    refine List.sum_le_sum ?_
    intro a _
    split <;> simp
  induction l with
  | nil => simp
  | cons a l ih =>
      have hrest := hle l
      simp only [List.map_cons, List.sum_cons, List.forall_mem_cons, ← ih]
      by_cases hp : p a
      · simp only [hp, if_true, not_true_eq_false, imp_false, ne_eq, not_not]
        omega
      · simp only [hp, if_false, not_false_eq_true, implies_true, true_and]
        omega

/-- Parts of `amount` sent in `spent` make up for a coin of `amount` in every denom exactly when the
    coin is in `spent` and all parts leave. -/
theorem partsOut_eq_iff {own : HumanAddr} {spent : String} {parts : List (HumanAddr × ℕ)}
    {coin : Coin} (hsum : (parts.map Prod.snd).sum = coin.amount.u128) :
    (∀ denom, partsOut own spent denom parts = coinsOf denom [coin])
      ↔ (coin.amount.u128 ≠ 0 →
        spent = coin.denom ∧ ∀ part ∈ parts, part.2 ≠ 0 → part.1 ≠ own) := by
  have hother : ∀ denom, spent ≠ denom → partsOut own spent denom parts = 0 := by
    intro denom hne
    simp [partsOut, hne]
  have hsame : partsOut own spent spent parts = coin.amount.u128
      ↔ ∀ part ∈ parts, part.2 ≠ 0 → part.1 ≠ own := by
    rw [← hsum, ← sum_ite_zero_eq_sum_iff parts (fun part => part.1 = own) Prod.snd]
    simp [partsOut]
  constructor
  · intro h hne
    have hspent : spent = coin.denom := by
      by_contra hdenom
      have hout := h coin.denom
      rw [hother _ hdenom, coinsOf_singleton, if_pos rfl] at hout
      exact hne hout.symm
    refine ⟨hspent, hsame.1 ?_⟩
    rw [h spent, coinsOf_singleton, if_pos hspent.symm]
  · intro h denom
    -- with a coin of amount zero no part is sent, whatever its denom
    by_cases hzero : coin.amount.u128 = 0
    · have hparts : ∀ part ∈ parts, part.2 = 0 := by
        rw [hzero, List.sum_eq_zero_iff_forall_eq_nat] at hsum
        intro part hpart
        exact hsum _ (List.mem_map_of_mem hpart)
      have hout : partsOut own spent denom parts = 0 := by
        refine List.sum_eq_zero_iff_forall_eq_nat.2 ?_
        intro x hx
        obtain ⟨part, hpart, rfl⟩ := List.mem_map.1 hx
        simp [hparts part hpart]
      rw [hout, coinsOf_singleton]
      simp [hzero]
    · obtain ⟨rfl, hleave⟩ := h hzero
      rw [coinsOf_singleton]
      by_cases hdenom : coin.denom = denom
      · rw [if_pos hdenom, ← hdenom, hsame.2 hleave]
      · rw [if_neg hdenom, hother denom hdenom]

/-! ## The coins of a call -/

section Calls

variable {hop currentHop nextHop : Hop} {amount : Uint128} {env : Env} {config : Config}
  {route : Route} {messages : List CosmosMsg} {logs : List LogAttribute} {token : SecretContract}

@[simp] theorem nativeOut_append (own : HumanAddr) (denom : String)
    (messages messages' : List CosmosMsg) :
    nativeOut own denom (messages ++ messages')
      = nativeOut own denom messages + nativeOut own denom messages' := by
  simp [nativeOut]

@[simp] theorem nativeOut_finalizeRouteMsg (own : HumanAddr) (denom : String) (env : Env) :
    nativeOut own denom [finalizeRouteMsg env] = 0 := by
  simp [nativeOut, CosmosMsg.nativeOut, finalizeRouteMsg]

/-- A Snip20 hop sends out no coins: the coin of a redeem goes to the contract itself. -/
theorem HopMessages.nativeOut_snip20 (h : HopMessages hop amount env messages)
    (htoken : hop.fromToken = .snip20 token) (denom : String) :
    nativeOut env.contract.address denom messages = 0 := by
  cases h with
  | deposit hnative => cases htoken.symm.trans hnative
  | _ => simp [nativeOut, CosmosMsg.nativeOut, sendMsg, redeemMsg]

/-- A native hop sends out its amount with the deposit. -/
theorem HopMessages.nativeOut_native (h : HopMessages hop amount env messages)
    (htoken : hop.fromToken = .native token) :
    ∃ spent, hop.redeemDenom = some spent ∧ ∀ denom,
      nativeOut env.contract.address denom messages
        = partsOut env.contract.address spent denom [(hop.tokenAddress, amount.u128)] := by
  cases h with
  | @deposit token' spent hnative hredeem =>
      obtain rfl : token = token' := Token.native.inj (htoken.symm.trans hnative)
      refine ⟨spent, hredeem, ?_⟩
      intro denom
      by_cases haddr : token.address = env.contract.address <;> by_cases hdenom : spent = denom <;>
        simp [nativeOut, CosmosMsg.nativeOut, partsOut, depositToCosmosMsg, sendMsg,
          Hop.tokenAddress, Token.contract, htoken, haddr, hdenom]
  | shade hsnip20 => cases htoken.symm.trans hsnip20
  | migrate hsnip20 => cases htoken.symm.trans hsnip20
  | redeem hsnip20 => cases htoken.symm.trans hsnip20
  | swap hsnip20 => cases htoken.symm.trans hsnip20

theorem LastHopMessages.nativeOut_snip20
    (h : LastHopMessages config env currentHop nextHop amount route messages logs)
    (htoken : nextHop.fromToken = .snip20 token) (own : HumanAddr) (denom : String) :
    nativeOut own denom messages = 0 := by
  cases h with
  | native hnative => cases htoken.symm.trans hnative
  | nativeExcess hnative => cases htoken.symm.trans hnative
  | _ => simp [nativeOut, CosmosMsg.nativeOut, sendMsg, transferMsg]

/-- A native last hop sends out the excess and the payment. -/
theorem LastHopMessages.nativeOut_native
    (h : LastHopMessages config env currentHop nextHop amount route messages logs)
    (htoken : nextHop.fromToken = .native token) :
    ∃ spent, currentHop.redeemDenom = some spent ∧ ∀ own denom,
      nativeOut own denom messages = partsOut own spent denom
        [(config.admin, amount.u128 - route.estimatedAmount.u128),
          (route.to, min amount.u128 route.estimatedAmount.u128)] := by
  cases h with
  | snip20 hsnip20 => cases htoken.symm.trans hsnip20
  | snip20Excess hsnip20 => cases htoken.symm.trans hsnip20
  | @native _ spent _ hdenom _ hest =>
      refine ⟨spent, hdenom, ?_⟩
      intro own denom
      rw [Nat.sub_eq_zero_of_le hest, Nat.min_eq_left hest]
      by_cases haddr : route.to = own <;> by_cases hspent : spent = denom <;>
        simp [nativeOut, CosmosMsg.nativeOut, partsOut, haddr, hspent]
  | @nativeExcess _ spent excess _ hdenom _ hest hexcess =>
      refine ⟨spent, hdenom, ?_⟩
      intro own denom
      rw [← hexcess, Nat.min_eq_right (Nat.le_of_lt hest)]
      by_cases hadmin : config.admin = own <;> by_cases haddr : route.to = own <;>
        by_cases hspent : spent = denom <;>
        simp [nativeOut, CosmosMsg.nativeOut, partsOut, hadmin, haddr, hspent]

end Calls

/-- What a successful `Receive` does with native coins: nothing leaves for a Snip20 hop; for a
    native hop the parts leave, which add up to the amount of the one coin that is attached. -/
inductive NativeFlow (storage : Storage) (env : Env) (msg : HandleMsg) (amount : Uint128)
    (messages : List CosmosMsg) : Prop
  | snip20 {hop : Hop} {token : SecretContract} :
      consumedHop? storage msg = some hop → hop.fromToken = .snip20 token →
      (∀ denom, nativeOut env.contract.address denom messages = 0) →
      NativeFlow storage env msg amount messages
  | native {hop : Hop} {token : SecretContract} {attached spent : String} :
      consumedHop? storage msg = some hop → hop.fromToken = .native token →
      env.message.sentFunds = [⟨attached, amount⟩] → spentDenom? storage msg = some spent →
      ((nativeParts storage msg).map Prod.snd).sum = amount.u128 →
      (∀ denom, nativeOut env.contract.address denom messages
        = partsOut env.contract.address spent denom (nativeParts storage msg)) →
      NativeFlow storage env msg amount messages

theorem HandleStep.nativeFlow {storage storage' : Storage} {env : Env} {fromAddr : HumanAddr}
    {msg : Option Binary} {amount : Uint128} {response : HandleResponse}
    (h : HandleStep storage env (.receive fromAddr msg amount) response storage') :
    NativeFlow storage env (.receive fromAddr msg amount) amount response.messages := by
  cases h with
  | @firstHop _ _ route firstHop nextHop hops messages hhops hvalid _ hmsgs =>
      have hconsumed : consumedHop? storage (.receive fromAddr (some (.route route)) amount)
          = some firstHop := by simp [consumedHop?, hhops]
      cases htoken : firstHop.fromToken with
      | snip20 token =>
          refine .snip20 hconsumed htoken ?_
          intro denom
          simp [hmsgs.nativeOut_snip20 htoken]
      | native token =>
          rw [htoken] at hvalid
          obtain ⟨attached, hfunds⟩ := validateReceivedToken_native.1 hvalid
          obtain ⟨spent, hredeem, hout⟩ := hmsgs.nativeOut_native htoken
          have hspent : spentDenom? storage (.receive fromAddr (some (.route route)) amount)
              = some spent := by simp [spentDenom?, hhops, hredeem]
          refine .native hconsumed htoken hfunds hspent ?_ fun denom => ?_
          · simp [nativeParts, hhops]
          · simp [hout, nativeParts, hhops]
  | @hop _ _ config currentHop nextHop route messages logs hconfig hstate hvalid _ hmsgs =>
      have hconsumed : consumedHop? storage (.receive fromAddr none amount) = some nextHop := by
        simp [consumedHop?, hstate]
      by_cases hnil : route.hops = []
      · have hmsgs := (nextHopMessages_of_nil hnil).1 hmsgs
        cases htoken : nextHop.fromToken with
        | snip20 token => exact .snip20 hconsumed htoken (hmsgs.nativeOut_snip20 htoken _)
        | native token =>
            rw [htoken] at hvalid
            obtain ⟨attached, hfunds⟩ := validateReceivedToken_native.1 hvalid
            obtain ⟨spent, hredeem, hout⟩ := hmsgs.nativeOut_native htoken
            have hspent : spentDenom? storage (.receive fromAddr none amount) = some spent := by
              simp [spentDenom?, hstate, hnil, hredeem]
            refine .native hconsumed htoken hfunds hspent ?_ fun denom => ?_
            · simp [nativeParts, hconfig, hstate, hnil]
            · simp [hout, nativeParts, hconfig, hstate, hnil]
      · obtain ⟨hmsgs, _⟩ := (nextHopMessages_of_ne_nil hnil).1 hmsgs
        obtain ⟨hop, hops, hhops⟩ := List.exists_cons_of_ne_nil hnil
        cases htoken : nextHop.fromToken with
        | snip20 token => exact .snip20 hconsumed htoken (hmsgs.nativeOut_snip20 htoken)
        | native token =>
            rw [htoken] at hvalid
            obtain ⟨attached, hfunds⟩ := validateReceivedToken_native.1 hvalid
            obtain ⟨spent, hredeem, hout⟩ := hmsgs.nativeOut_native htoken
            have hspent : spentDenom? storage (.receive fromAddr none amount) = some spent := by
              simp [spentDenom?, hstate, hhops, hredeem]
            refine .native hconsumed htoken hfunds hspent ?_ fun denom => ?_
            · simp [nativeParts, hconfig, hstate, hhops]
            · simp [hout, nativeParts, hconfig, hstate, hhops]

/-- Native coins in equal native coins out, for a `Receive` that succeeds, exactly when the attached
    coins are the ones it spends. -/
theorem native_coins_balance_iff (storage storage' : Storage) (env : Env) (fromAddr : HumanAddr)
    (msg : Option Binary) (amount : Uint128) (response : HandleResponse)
    (h : handle storage env (.receive fromAddr msg amount) = .ok (response, storage')) :
    (∀ denom, nativeOut env.contract.address denom response.messages
        = coinsOf denom env.message.sentFunds)
      ↔ CoinsSpent storage env (.receive fromAddr msg amount) := by
  cases (handle_iff.1 h).nativeFlow with
  | snip20 hconsumed htoken hout =>
      have hzero := @coinsOf_eq_zero_iff env.message.sentFunds
      simp only [hout, @eq_comm ℕ 0, hzero]
      simp only [CoinsSpent, hconsumed, Option.mem_some_iff, forall_eq', htoken, imp_false, ne_eq,
        not_not]
  | @native hop token attached spent hconsumed htoken hfunds hspent hsum hout =>
      have hiff := @partsOut_eq_iff env.contract.address spent _ ⟨attached, amount⟩ hsum
      simp only [hout, hfunds, hiff]
      simp only [CoinsSpent, hconsumed, Option.mem_some_iff, forall_eq', htoken, hfunds,
        List.mem_singleton, forall_eq, hspent, Option.some.injEq]

/-- A deposit of `uatom` for sATOM, which is the last hop. -/
def mockDepositRoute : Route :=
  { mockSwapRoute with hops := [⟨.native mockSscrt, none, some mockDenom, none, none⟩,
      ⟨.snip20 mockSscrt, none, none, none, none⟩] }

/-- Sent 12 `uatom` for that deposit, the contract sends out 12 `uatom`. -/
theorem native_coins_balance_iff_mockDepositRoute :
    nativeOut mockContract.address mockDenom
        [depositToCosmosMsg none blockSize mockSscrt.contractHash mockSscrt.address
          (some ⟨mockDenom, ⟨12, by decide⟩⟩),
          sendMsg mockContract.address ⟨12, by decide⟩ none none blockSize mockSscrt.contractHash
            mockSscrt.address,
          finalizeRouteMsg (mockContract.env mockUserAddress [⟨mockDenom, ⟨12, by decide⟩⟩])]
      = coinsOf mockDenom [⟨mockDenom, ⟨12, by decide⟩⟩] := by
  refine (native_coins_balance_iff mockStorage _ (mockContract.env mockUserAddress
    [⟨mockDenom, ⟨12, by decide⟩⟩]) mockUserAddress (some (.route mockDepositRoute))
    ⟨12, by decide⟩ _ rfl).2 ?_ mockDenom
  simp [CoinsSpent, consumedHop?, spentDenom?, nativeParts, mockDepositRoute, mockSwapRoute,
    Hop.tokenAddress, Token.contract, mockSscrt, mockContract]

/-- Nothing checks the denom: sent 12 `uscrt`, the contract deposits 12 `uatom` of its own. -/
theorem not_native_coins_balance_mockDepositRoute :
    ¬ ∀ (storage storage' : Storage) (env : Env) (fromAddr : HumanAddr) (msg : Option Binary)
        (amount : Uint128) (response : HandleResponse), Reachable storage →
      handle storage env (.receive fromAddr msg amount) = .ok (response, storage') →
      ∀ denom, nativeOut env.contract.address denom response.messages
        = coinsOf denom env.message.sentFunds := by
  intro h
  have hbalance := h mockStorage _ (mockContract.env mockUserAddress [⟨"uscrt", ⟨12, by decide⟩⟩])
    mockUserAddress (some (.route mockDepositRoute)) ⟨12, by decide⟩ _ mockStorage_reachable rfl
    "uscrt"
  exact absurd hbalance (by decide)

end DexAggregator
