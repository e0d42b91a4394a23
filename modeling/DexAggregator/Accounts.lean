import DexAggregator.Funds

set_option autoImplicit false

/-! # The accounts of the contract

The exact counterpart of what `Funds` bounds. A call sends out exactly what was reported to it when
its coins are the ones it spends and no route names this contract (`HandleStep.out_eq`). So a
balance changes by what outside code gives without a call, less what the contract reports to itself
and what the admin rescues (`ledger_accounts`). -/

namespace DexAggregator

open WorkStack (Run)

/-! ## What a call sends out, exactly -/

/-- A hop that names `own` neither as its token nor as its smart contract. -/
structure Hop.Abroad (own : HumanAddr) (hop : Hop) : Prop where
  token : hop.tokenAddress ≠ own
  smartContract : ∀ contract ∈ hop.smartContract, contract.address ≠ own

/-- A route that names `own` nowhere. -/
structure Route.Abroad (own : HumanAddr) (route : Route) : Prop where
  receiver : route.to ≠ own
  hops : ∀ hop ∈ route.hops, hop.Abroad own

/-- A storage whose admin and whose route are not `own`. -/
structure Storage.Abroad (own : HumanAddr) (storage : Storage) : Prop where
  admin : ∀ config ∈ storage.config, config.admin ≠ own
  route : ∀ state ∈ storage.routeState, state.remainingRoute.Abroad own

instance (own : HumanAddr) (hop : Hop) : Decidable (hop.Abroad own) :=
  decidable_of_iff (hop.tokenAddress ≠ own ∧ ∀ contract ∈ hop.smartContract, contract.address ≠ own)
    ⟨fun h => ⟨h.1, h.2⟩, fun h => ⟨h.1, h.2⟩⟩

instance (own : HumanAddr) (route : Route) : Decidable (route.Abroad own) :=
  decidable_of_iff (route.to ≠ own ∧ ∀ hop ∈ route.hops, hop.Abroad own)
    ⟨fun h => ⟨h.1, h.2⟩, fun h => ⟨h.1, h.2⟩⟩

instance (own : HumanAddr) (storage : Storage) : Decidable (storage.Abroad own) :=
  decidable_of_iff ((∀ config ∈ storage.config, config.admin ≠ own) ∧
    ∀ state ∈ storage.routeState, state.remainingRoute.Abroad own)
    ⟨fun h => ⟨h.1, h.2⟩, fun h => ⟨h.1, h.2⟩⟩

/-- The route that a `Receive` carries. -/
def HandleMsg.route? : HandleMsg → Option Route
  | .receive _ (some (.route route)) _ => some route
  | _ => none

/-- The coins attached to a call are those it spends: with a native hop coins of the denom that is
    spent, with anything else none. -/
def attachesOnlySpent (storage : Storage) (env : Env) (msg : HandleMsg) : Bool :=
  env.message.sentFunds.all fun coin => coin.amount.u128 = 0 ||
    match consumedHop? storage msg with
    | some ⟨.native _, _, _, _, _⟩ => spentDenom? storage msg = some coin.denom
    | _ => false

/-- The amount of an asset that a `RescueTokens` takes for the admin. -/
def HandleMsg.rescued : HandleMsg → Asset → ℕ
  | .rescueTokens amount denom _, .native denom' => if denom = some denom' then amount.u128 else 0
  | .rescueTokens amount _ token, .snip20 token' =>
    if token.map SecretContract.address = some token' then amount.u128 else 0
  | _, _ => 0

/-- The amount of a token that a response takes away from `own`. -/
def tokensOut (own token : HumanAddr) (messages : List CosmosMsg) : ℕ :=
  (messages.map (CosmosMsg.tokenOut own token)).sum

theorem tokensOut_eq_zero {own token : HumanAddr} {messages : List CosmosMsg}
    (h : ∀ m ∈ messages, m.tokenOut own token = 0) : tokensOut own token messages = 0 := by
  rw [tokensOut, List.sum_eq_zero_iff_forall_eq_nat]
  intro x hx
  obtain ⟨m, hm, rfl⟩ := List.mem_map.1 hx
  exact h m hm

theorem tokensOut_append (own token : HumanAddr) (messages messages' : List CosmosMsg) :
    tokensOut own token (messages ++ messages')
      = tokensOut own token messages + tokensOut own token messages' := by
  simp [tokensOut]

/-- What the contract sends to itself stays. -/
theorem CosmosMsg.tokenOut_of_sendsBack {message : CosmosMsg} {own : HumanAddr}
    {amount : Uint128} (h : message.sendsBack own amount = true)
    (token : HumanAddr) : message.tokenOut own token = 0 := by
  match message, h with
  | .snip20 (.send recipient sent _ _) _ _ contractAddr, h =>
      simp only [CosmosMsg.sendsBack, Bool.and_eq_true, decide_eq_true_eq] at h
      simp [CosmosMsg.tokenOut, h.1]

/-- When coins are spent no token leaves. -/
theorem SpendsCoins.tokensOut_eq_zero {own : HumanAddr} {amount : Uint128}
    {messages : List CosmosMsg} (h : SpendsCoins own amount messages) (token : HumanAddr) :
    tokensOut own token messages = 0 := by
  refine DexAggregator.tokensOut_eq_zero ?_
  intro m hm
  match m, hm with
  | .execute _ _ _ _, _ => rfl
  | .bankSend _ _ _, _ => rfl
  | .snip20 _ _ _ _, hm => exact CosmosMsg.tokenOut_of_sendsBack (h.others _ hm rfl) token

section Out

variable {own : HumanAddr} {hop currentHop nextHop : Hop} {amount : Uint128} {env : Env}
  {config : Config} {route : Route} {messages : List CosmosMsg} {logs : List LogAttribute}
  {token : SecretContract}

/-- A Snip20 hop that names no one's own contract sends out its amount of its own token. -/
theorem HopMessages.tokensOut_eq (h : HopMessages hop amount env messages)
    (habroad : hop.Abroad env.contract.address) (htoken : hop.fromToken = .snip20 token)
    (token' : HumanAddr) : tokensOut env.contract.address token' messages
      = if token.address = token' then amount.u128 else 0 := by
  cases h with
  | @shade token₁ smartContract path htoken₁ _ hsmart =>
      obtain rfl : token = token₁ := Token.snip20.inj (htoken.symm.trans htoken₁)
      simp [tokensOut, CosmosMsg.tokenOut, sendMsg, habroad.smartContract _ hsmart]
  | @migrate token₁ smartContract migrateToToken htoken₁ _ _ hsmart =>
      obtain rfl : token = token₁ := Token.snip20.inj (htoken.symm.trans htoken₁)
      simp [tokensOut, CosmosMsg.tokenOut, sendMsg, habroad.smartContract _ hsmart]
  | @redeem token₁ denom htoken₁ =>
      obtain rfl : token = token₁ := Token.snip20.inj (htoken.symm.trans htoken₁)
      simp [tokensOut, CosmosMsg.tokenOut, redeemMsg]
  | @swap token₁ smartContract htoken₁ _ _ _ hsmart =>
      obtain rfl : token = token₁ := Token.snip20.inj (htoken.symm.trans htoken₁)
      simp [tokensOut, CosmosMsg.tokenOut, sendMsg, habroad.smartContract _ hsmart]
  | deposit hnative => cases htoken.symm.trans hnative

/-- A Snip20 last hop sends out its amount, to the admin and the user together. -/
theorem LastHopMessages.tokensOut_eq
    (h : LastHopMessages config env currentHop nextHop amount route messages logs)
    (hadmin : config.admin ≠ own) (hto : route.to ≠ own)
    (htoken : nextHop.fromToken = .snip20 token) (token' : HumanAddr) :
    tokensOut own token' messages = if token.address = token' then amount.u128 else 0 := by
  cases h with
  | @snip20 token₁ htoken₁ =>
      obtain rfl : token = token₁ := Token.snip20.inj (htoken.symm.trans htoken₁)
      simp [tokensOut, CosmosMsg.tokenOut, sendMsg, hto]
  | @snip20Excess token₁ excess htoken₁ _ hest hexcess =>
      obtain rfl : token = token₁ := Token.snip20.inj (htoken.symm.trans htoken₁)
      by_cases htoken' : token.address = token'
      · simp only [tokensOut, List.map_cons, List.map_nil, List.sum_cons, List.sum_nil,
          CosmosMsg.tokenOut, transferMsg, sendMsg, htoken', hadmin, hto, ne_eq, not_false_eq_true,
          and_self, if_true]
        omega
      · simp [tokensOut, CosmosMsg.tokenOut, transferMsg, sendMsg, htoken']
  | native hnative => cases htoken.symm.trans hnative
  | nativeExcess hnative => cases htoken.symm.trans hnative

/-- Every part of the coins of a native hop goes to someone else. -/
theorem abroad_of_nativeParts {storage : Storage} {msg : HandleMsg} (hstorage : storage.Abroad own)
    (hmsg : ∀ route ∈ msg.route?, route.Abroad own) :
    ∀ part ∈ nativeParts storage msg, part.1 ≠ own := by
  intro part hpart
  match msg, hmsg, hpart with
  | .receive _ (some (.route route)) amount, hmsg, hpart =>
      obtain ⟨hop, hhop, rfl⟩ := List.mem_map.1 hpart
      rw [Option.mem_toList] at hhop
      exact ((hmsg route rfl).hops hop (List.mem_of_mem_head? hhop)).token
  | .receive _ none amount, _, hpart =>
      cases hconfig : storage.config with
      | none => simp [nativeParts, hconfig] at hpart
      | some config =>
          cases hstate : storage.routeState with
          | none => simp [nativeParts, hconfig, hstate] at hpart
          | some state =>
              obtain ⟨currentHop, ⟨hops, estimatedAmount, minimumAcceptableAmount, receiver⟩⟩ :=
                state
              have hroute := hstorage.route _ hstate
              rcases hops with _ | ⟨nextHop, _ | ⟨hop, hops⟩⟩
              · simp [nativeParts, hconfig, hstate] at hpart
              · simp only [nativeParts, hconfig, hstate, List.mem_cons, List.not_mem_nil,
                  or_false] at hpart
                rcases hpart with rfl | rfl
                · exact hstorage.admin _ hconfig
                · exact hroute.receiver
              · simp only [nativeParts, hconfig, hstate, List.mem_singleton] at hpart
                subst hpart
                exact (hroute.hops nextHop List.mem_cons_self).token

/-- A `Receive` sends out the coins that are attached to it. -/
theorem NativeFlow.nativeOut_eq {storage : Storage} {msg : HandleMsg}
    (h : NativeFlow storage env msg amount messages)
    (hparts : ∀ part ∈ nativeParts storage msg, part.1 ≠ env.contract.address)
    (hcoins : attachesOnlySpent storage env msg = true) (denom : String) :
    nativeOut env.contract.address denom messages = coinsOf denom env.message.sentFunds := by
  cases h with
  | @snip20 hop token hconsumed htoken hout =>
      obtain ⟨fromToken, smartContract, redeemDenom, migrateToToken, path⟩ := hop
      obtain rfl : fromToken = .snip20 token := htoken
      rw [hout, coinsOf_eq_zero_iff.2]
      simpa [attachesOnlySpent, hconsumed] using hcoins
  | @native hop token attached spent hconsumed htoken hfunds hspent hsum hout =>
      obtain ⟨fromToken, smartContract, redeemDenom, migrateToToken, path⟩ := hop
      obtain rfl : fromToken = .native token := htoken
      rw [hout, hfunds]
      refine (@partsOut_eq_iff env.contract.address spent _ ⟨attached, amount⟩ hsum).2 ?_ denom
      intro hamount
      have hdenom : spent = attached := by
        simpa [attachesOnlySpent, hconsumed, hspent, hfunds, hamount] using hcoins
      exact ⟨hdenom, fun part hpart _ => hparts part hpart⟩

/-- A `Receive` that consumes a native hop is sent a coin. -/
theorem NativeFlow.sentFunds_ne_nil {storage : Storage} {msg : HandleMsg}
    (h : NativeFlow storage env msg amount messages)
    (hconsumed : consumedHop? storage msg = some hop)
    (htoken : hop.fromToken = .native token) : env.message.sentFunds ≠ [] := by
  cases h with
  | snip20 hconsumed' htoken' =>
      obtain rfl := Option.some.inj (hconsumed.symm.trans hconsumed')
      cases htoken.symm.trans htoken'
  | native _ _ hfunds => simp [hfunds]

/-- A `Receive` that consumes a Snip20 hop sends out the amount that was reported to it, of the
    token that called. -/
theorem HandleStep.tokensOut_eq {pre post : Storage} {fromAddr : HumanAddr} {msg : Option Binary}
    {response : HandleResponse}
    (h : HandleStep pre env (.receive fromAddr msg amount) response post)
    (hpre : pre.Abroad env.contract.address)
    (hmsg : ∀ route ∈ (HandleMsg.receive fromAddr msg amount).route?,
      route.Abroad env.contract.address)
    (hconsumed : consumedHop? pre (.receive fromAddr msg amount) = some hop)
    (htoken : hop.fromToken = .snip20 token) (token' : HumanAddr) :
    tokensOut env.contract.address token' response.messages
      = if env.message.sender = token' then amount.u128 else 0 := by
  cases h with
  | @firstHop _ _ route firstHop nextHop hops messages hhops hvalid _ hmsgs =>
      obtain rfl : firstHop = hop := by simpa [consumedHop?, hhops] using hconsumed
      have habroad := (hmsg route rfl).hops firstHop (by simp [hhops])
      rw [htoken, validateReceivedToken_snip20] at hvalid
      have hfinal : tokensOut env.contract.address token' [finalizeRouteMsg env] = 0 := rfl
      rw [tokensOut_append, hfinal, Nat.add_zero, hvalid]
      exact hmsgs.tokensOut_eq habroad htoken token'
  | @hop _ _ config currentHop nextHop route messages logs hconfig hstate hvalid _ hmsgs =>
      obtain rfl : nextHop = hop := by simpa [consumedHop?, hstate] using hconsumed
      have hroute := hpre.route _ hstate
      rw [htoken, validateReceivedToken_snip20] at hvalid
      rw [hvalid]
      by_cases hnil : route.hops = []
      · exact ((nextHopMessages_of_nil hnil).1 hmsgs).tokensOut_eq (hpre.admin _ hconfig)
          hroute.receiver htoken token'
      · exact ((nextHopMessages_of_ne_nil hnil).1 hmsgs).1.tokensOut_eq
          (hroute.hops nextHop List.mem_cons_self) htoken token'

/-- Of a vouched asset a call sends out exactly what was reported to it, and what is rescued. -/
theorem HandleStep.out_eq {honest : HumanAddr → Bool} {pre post : Storage} {msg : HandleMsg}
    {response : HandleResponse} (h : HandleStep pre env msg response post)
    (hpre : pre.Abroad env.contract.address)
    (hmsg : ∀ route ∈ msg.route?, route.Abroad env.contract.address)
    (hcoins : attachesOnlySpent pre env msg = true)
    (hhonest : honest env.message.sender = true → env.message.sentFunds = []) {x : Asset}
    (hx : x.vouched honest = true) :
    (response.messages.map (x.out env.contract.address)).sum
      = msg.reported env x + msg.rescued x := by
  match msg, h with
  | .receive fromAddr msg amount, h =>
      have hflow := h.nativeFlow
      have hrescued : (HandleMsg.receive fromAddr msg amount).rescued x = 0 := by cases x <;> rfl
      rw [hrescued, Nat.add_zero]
      cases x with
      | native denom =>
          exact hflow.nativeOut_eq (abroad_of_nativeParts hpre hmsg) hcoins denom
      | snip20 token' =>
          rw [HandleMsg.reported]
          cases h.spending with
          | snip20 hconsumed htoken => exact h.tokensOut_eq hpre hmsg hconsumed htoken token'
          | native hconsumed htoken hspends =>
              -- an honest token attaches no coins, so it is not the caller
              have hne : env.message.sender ≠ token' := by
                rintro rfl
                exact hflow.sentFunds_ne_nil hconsumed htoken (hhonest hx)
              rw [if_neg hne]
              exact hspends.tokensOut_eq_zero token'
  | .finalizeRoute, .finalizeRoute _ _ _ => cases x <;> rfl
  | .registerTokens _, .registerTokens tokens =>
      have hzero : ∀ token : SecretContract, x.out env.contract.address
          (registerReceiveMsg env.contractCodeHash none blockSize token.contractHash
            token.address) = 0 := fun _ => by cases x <;> rfl
      simp [Function.comp_def, hzero, HandleMsg.reported, HandleMsg.rescued]
  | .rescueTokens amount denom token, .rescueTokens hconfig _ =>
      have hadmin := hpre.admin _ hconfig
      have hreported : (HandleMsg.rescueTokens amount denom token).reported env x = 0 := by
        cases x <;> rfl
      rw [hreported, Nat.zero_add]
      cases x <;> cases denom <;> cases token <;>
        simp [Asset.out, CosmosMsg.nativeOut, CosmosMsg.tokenOut, transferMsg, HandleMsg.rescued,
          hadmin]

/-- A storage that names `own` nowhere stays so when the routes that are started do not. -/
theorem HandleStep.abroad {pre post : Storage} {msg : HandleMsg} {response : HandleResponse}
    (h : HandleStep pre env msg response post) (hpre : pre.Abroad own)
    (hmsg : ∀ route ∈ msg.route?, route.Abroad own) : post.Abroad own := by
  cases h with
  | @firstHop _ _ route firstHop nextHop hops _ hhops =>
      have hroute := hmsg route rfl
      refine ⟨hpre.admin, ?_⟩
      rintro _ ⟨⟩
      exact ⟨hroute.receiver, fun hop hhop => hroute.hops hop (by simp [hhops, hhop])⟩
  | @hop _ _ config currentHop nextHop route _ _ _ hstate =>
      have hroute := hpre.route _ hstate
      refine ⟨hpre.admin, ?_⟩
      rintro _ ⟨⟩
      exact ⟨hroute.receiver, fun hop hhop => hroute.hops hop (List.mem_cons_of_mem nextHop hhop)⟩
  | finalizeRoute => exact ⟨hpre.admin, by rintro _ ⟨⟩⟩
  | registerTokens => exact hpre
  | rescueTokens => exact hpre

end Out

/-! ## The balance of a transaction -/

section Accounts

variable {self : Contract} {honest : HumanAddr → Bool} {chain chain' : Chain} {K K' : List Item}
  {trace : List Call} {x : Asset}

/-- Of a call that attaches the coins it spends, all that arrives is reported. -/
theorem Event.reported_eq (e : Event) (hx : x.vouched honest = true)
    (hcoins : attachesOnlySpent e.pre e.env e.msg = true) :
    e.msg.reported e.env x = e.arrived self honest x + e.selfReported self honest x := by
  unfold Event.arrived Event.selfReported
  split
  · rw [Nat.zero_add]
  · split
    · rfl
    · next hhonest =>
        rw [Nat.add_zero]
        cases hmsg : e.msg with
        | receive fromAddr msg amount =>
            cases x with
            | native denom => rfl
            | snip20 token =>
                have hne : e.env.message.sender ≠ token := by
                  rintro rfl
                  exact hhonest hx
                simp [HandleMsg.reported, Asset.ofCoins, hne]
        | _ =>
            -- it consumes no hop, so that it attaches nothing
            have hzero : ∀ coin ∈ e.env.message.sentFunds, coin.amount.u128 = 0 := by
              simpa [attachesOnlySpent, consumedHop?, hmsg] using hcoins
            cases x with
            | native denom => exact (coinsOf_eq_zero_iff.2 hzero denom).symm
            | snip20 token => rfl

/-- After a transaction in which no route names this contract, and the storage neither as its admin
    nor in its route, and every call attaches the coins it spends, a balance is what it was at the
    start and what outside code gave without a call, less what the contract reported to itself and
    what the admin rescued. -/
theorem ledger_accounts (self : Contract) (honest : HumanAddr → Bool)
    (hself : honest self.address = false) (storage : Storage)
    (hstorage : storage.Abroad self.address) (start : Ledger) (choices : List LedgerChoice)
    (trace : List Call) (chain' : Chain)
    (h : runLedger self honest storage start choices = some (trace, chain'))
    (hroutes : ∀ call ∈ trace, ∀ route ∈ call.event.msg.route?, route.Abroad self.address)
    (hcoins : ∀ call ∈ trace,
      attachesOnlySpent call.event.pre call.event.env call.event.msg = true)
    (x : Asset) (hx : x.vouched honest = true) :
    chain'.ledger x + (trace.map fun call => call.event.selfReported self honest x).sum
        + (trace.map fun call => call.event.msg.rescued x).sum
      = start x + given x choices := by
  have hrun := Run.of_run choices (runLedger_eq_some.1 h)
  have hthreads := run_threads (ledgerRun_host hrun hself)
  have hout : ∀ call ∈ trace, call.event.out self.address x
      = call.event.arrived self honest x + call.event.selfReported self honest x
        + call.event.msg.rescued x := by
    intro call hcall
    obtain ⟨hown, hhonest⟩ := ledgerRun_call hrun hself hcall
    have hpre : call.event.pre.Abroad self.address := by
      obtain ⟨before, after, rfl⟩ := List.append_of_mem hcall
      rw [List.map_append, List.map_cons] at hthreads
      refine hthreads.split.1.invariant (Storage.Abroad self.address) ?_ hstorage
      intro e he hpre
      obtain ⟨call', hcall', rfl⟩ := List.mem_map.1 he
      exact call'.event.step.abroad hpre (hroutes call' (List.mem_append_left _ hcall'))
    have heq := call.event.step.out_eq (hown ▸ hpre) (hown ▸ hroutes call hcall)
      (hcoins call hcall) hhonest hx
    rw [hown, call.event.reported_eq hx (hcoins call hcall)] at heq
    exact heq
  have hsum : (trace.map fun call => call.event.out self.address x).sum
      = (trace.map fun call => call.event.arrived self honest x).sum
        + (trace.map fun call => call.event.selfReported self honest x).sum
        + (trace.map fun call => call.event.msg.rescued x).sum := by
    rw [← List.sum_map_add, ← List.sum_map_add]
    exact congrArg List.sum (List.map_congr_left hout)
  have hflow := runLedger_flow h hself hx
  omega

end Accounts

/-- sSCRT redeemed for `uatom`, which is the last hop. -/
def mockRedeemRoute : Route :=
  { mockSwapRoute with hops := [⟨.snip20 mockSscrt, none, some mockDenom, none, none⟩,
      ⟨.native mockSscrt, none, none, none, none⟩] }

/-- The user sends 21 sSCRT, and the token redeems them for 19 `uatom`. -/
def mockRedeemChoices : List LedgerChoice :=
  [.tokenSend mockSscrt.address mockUserAddress (some (.route mockRedeemRoute)) ⟨21, by decide⟩,
    .proceed, .give (.native mockDenom) 19, .proceed, .proceed, .proceed, .proceed, .proceed,
    .proceed]

/-- The redeem on the ledger of a contract that holds seven of every asset. -/
def mockRedeemRun : List Call × Chain :=
  (runLedger mockContract mockHonest mockStorage mockLedger mockRedeemChoices).get (by decide)

/-- The contract pays out the 21 `uatom` that it reported to itself, two of them its own. -/
theorem ledger_accounts_mockRedeem : mockRedeemRun.2.ledger (.native mockDenom) = 5 := by
  have h := ledger_accounts mockContract mockHonest rfl mockStorage (by decide) mockLedger
    mockRedeemChoices mockRedeemRun.1 mockRedeemRun.2 (Option.some_get (by decide)).symm (by decide)
    (by decide) (.native mockDenom) rfl
  have hself : (mockRedeemRun.1.map fun call =>
      call.event.selfReported mockContract mockHonest (.native mockDenom)).sum = 21 := by decide
  have hrescued : (mockRedeemRun.1.map fun call =>
      call.event.msg.rescued (.native mockDenom)).sum = 0 := by decide
  have hgiven : given (.native mockDenom) mockRedeemChoices = 19 := by decide
  rw [hself, hrescued, hgiven] at h
  exact Nat.add_right_cancel h

end DexAggregator
