import DexAggregator.HonestRun
import DexAggregator.Spending

set_option autoImplicit false

/-! # What a route amounts to

Spread over as many calls as it has hops, a route computes what each of its hops hands back from
what the hop before it handed back (`receivedAmounts`), and settles the last amount: short of the
minimum nothing happens at all, otherwise the user is paid up to the estimate and the admin gets
what exceeds it (`Route.settle`). In an honest environment the contract does exactly that
(`honest_run_settles`). -/

namespace DexAggregator

open WorkStack (run run_cons run_append run_frame run_blocked)

/-! ## The purpose of a route -/

/-- The amounts in which the last hop is paid out. -/
structure Payout where
  user : ℕ
  admin : ℕ
deriving DecidableEq

/-- What a route makes of the amount received at its last hop; `none` when it is short of the
    minimum. -/
def Route.settle (route : Route) (received : ℕ) : Option Payout :=
  if received < route.minimumAcceptableAmount.u128 then none
  else some ⟨min received route.estimatedAmount.u128, received - route.estimatedAmount.u128⟩

theorem Route.minimumAcceptableAmount_le_of_settle {route : Route} {received : ℕ} {payout : Payout}
    (h : route.settle received = some payout) :
    route.minimumAcceptableAmount.u128 ≤ received := by
  unfold Route.settle at h
  split at h
  · cases h
  · next hmin => exact Nat.le_of_not_lt hmin

/-- The amounts that arrive after each of some hops, the smart contract of hop `i` having returned
    `returned i`. -/
def receivedAmounts (returned : ℕ → Uint128) : ℕ → Uint128 → List Hop → List Uint128
  | _, _, [] => []
  | i, amount, hop :: hops =>
    hop.handsBack (returned i) amount ::
      receivedAmounts returned (i + 1) (hop.handsBack (returned i) amount) hops

/-- The messages pay `payout` out, all of it in one asset: what exceeds the estimate to the admin,
    when there is any, and then the rest to the receiver of the route. -/
inductive PaysOut (config : Config) (route : Route) (payout : Payout) : List CosmosMsg → Prop
  | paid {asset : Asset} {payment : CosmosMsg} {amount : Uint128} :
      payment.Pays asset route.to amount → amount.u128 = payout.user → payout.admin = 0 →
      PaysOut config route payout [payment]
  | excess {asset : Asset} {fee payment : CosmosMsg} {amount excess : Uint128} :
      fee.Pays asset config.admin excess → excess.u128 = payout.admin → 0 < payout.admin →
      payment.Pays asset route.to amount → amount.u128 = payout.user →
      PaysOut config route payout [fee, payment]

/-- The messages of the last hop settle the route. -/
theorem LastHopMessages.settles {config : Config} {env : Env} {currentHop nextHop : Hop}
    {amount : Uint128} {route : Route} {messages : List CosmosMsg} {logs : List LogAttribute}
    (h : LastHopMessages config env currentHop nextHop amount route messages logs) :
    ∃ payout, route.settle amount.u128 = some payout ∧ PaysOut config route payout messages := by
  have hmin := Nat.not_lt.2 h.minimumAcceptableAmount_le
  refine ⟨_, if_neg hmin, ?_⟩
  obtain ⟨fee, payment, asset, hsplit⟩ := h.splitsExcess
  obtain ⟨paid, hpays, hpaid, _⟩ := hsplit.payout
  rw [hsplit.messages]
  cases fee with
  | none =>
      have hest : ¬ route.estimatedAmount.u128 < amount.u128 := by simpa using hsplit.fee_iff
      exact .paid hpays hpaid (Nat.sub_eq_zero_of_le (Nat.le_of_not_lt hest))
  | some fee =>
      have hest : route.estimatedAmount.u128 < amount.u128 := hsplit.fee_iff.1 rfl
      obtain ⟨excess, hfee, hexcess⟩ := hsplit.fee fee rfl
      exact .excess hfee hexcess (Nat.sub_pos_of_lt hest) hpays hpaid

/-! ## Whole runs -/

/-- The amount that a call of `handleHop` reports. -/
def Event.advancedBy? (e : Event) : Option Uint128 :=
  match e.msg with
  | .receive _ none amount => some amount
  | _ => none

section Runs

variable {self : Contract} {config : Config} {route : Route} {returned : ℕ → Uint128}

/-- An honest environment that has come to the last call of a route: `lead` leads there through
    the calls `trace`, the item on top makes the call under `choice`, and `received` is reported. -/
structure AtLastHop (contract : Contract) (config : Config) (route : Route) (received : Uint128)
    (storage : Storage) (messages : List CosmosMsg) (lead : List Choice) (trace : List Event)
    (last : Storage) (item : Item) (choice : Choice) : Prop where
  leads : ∃ below, run (exec contract) storage (messages.map .msg) lead
    = some (trace, last, item :: below)
  config : last.config = some config
  state : ∃ currentHop lastHop,
    last.routeState = some ⟨currentHop, { route with hops := [lastHop] }⟩
  calls : ∃ env fromAddr push, exec contract last item choice
    = (callHandle last env (.receive fromAddr none received)).map fun e =>
      (some e, e.post, e.items ++ push)

/-- Through linked hops the honest environment comes to the last call, with what the last hop but
    one has handed back. The induction is on the hops that remain. -/
theorem honestHops_atLastHop (hops : List Hop) :
    ∀ (i : ℕ) (hop : Hop) (amount : Uint128) (storage : Storage),
      storage.config = some config →
      storage.routeState = some ⟨hop, { route with hops := hops }⟩ → hops ≠ [] →
      List.IsChain Hop.Linked (hop :: hops) → (∀ h ∈ hop :: hops, h.Foreign self) →
      ∃ lead choice rest trace last item,
        honestHops self config route returned i hop amount hops = lead ++ choice :: rest ∧
        AtLastHop self config route (lastReceived returned i amount (hop :: hops).dropLast) storage
          (self.hopMessages hop amount) lead trace last item choice ∧
        trace.map Event.advancedBy?
            ++ [some (lastReceived returned i amount (hop :: hops).dropLast)]
          = (receivedAmounts returned i amount (hop :: hops).dropLast).map some := by
  induction hops with
  | nil =>
      intro i hop amount storage _ _ hne
      exact absurd rfl hne
  | cons nextHop hops ih =>
      intro i hop amount storage hconfig hstate _ hchain hforeign
      obtain ⟨hlinked, hchain⟩ := List.isChain_cons_cons.1 hchain
      have hhop := hforeign hop List.mem_cons_self
      have hrest : ∀ h ∈ nextHop :: hops, h.Foreign self :=
        fun h hmem => hforeign h (List.mem_cons_of_mem hop hmem)
      have hnext := hrest nextHop List.mem_cons_self
      obtain ⟨sender, sentFunds, fromAddr, lead, after, item, choice, push, hpresents⟩ :=
        hlinked.presents hhop hnext amount (returned i)
      have hlead := hpresents.leads storage
      have hcalls := hpresents.calls storage
      cases hops with
      | nil =>
          exact ⟨lead, choice, _, [], storage, item, hpresents.replies _,
            ⟨⟨[], hlead⟩, hconfig, ⟨hop, nextHop, hstate⟩, _, fromAddr, push, hcalls⟩, rfl⟩
      | cons hop₂ hops =>
          have hnextLinked := (List.isChain_cons_cons.1 hchain).1
          obtain ⟨messages, hmsgs⟩ := Hop.exists_hopMessages hnextLinked.emittable
            (hop.handsBack (returned i) amount) (self.env sender sentFunds)
          have hstep := @HandleStep.hop storage (self.env sender sentFunds) fromAddr _ config hop
            nextHop { route with hops := hop₂ :: hops } _ _ hconfig hstate hpresents.token
            hpresents.source ((nextHopMessages_of_ne_nil (List.cons_ne_nil _ _)).2 ⟨hmsgs, rfl⟩)
          let e : Event := ⟨_, _, _, _, _, handle_iff.2 hstep⟩
          rw [callHandle_eq_some.2 (show e.pre = storage ∧ _ ∧ _ from ⟨rfl, rfl, rfl⟩)] at hcalls
          obtain ⟨lead', choice', rest, trace, last, item', hhonest, hlast, hamounts⟩ :=
            ih (i + 1) nextHop (hop.handsBack (returned i) amount) e.post hconfig rfl
              (List.cons_ne_nil _ _) hchain hrest
          obtain ⟨below, hleads⟩ := hlast.leads
          rw [Contract.hopMessages_eq hmsgs] at hleads
          -- the calls of the rest of the route are made while the messages of `e` are executed
          have hcall : run (exec self) storage [item] (choice :: lead')
              = some (e :: trace, last, item' :: (below ++ push)) := by
            have hframed : run (exec self) e.post (e.items ++ push) lead'
                = some (trace, last, item' :: below ++ push) := run_frame hleads push
            rw [run_cons hcalls, List.append_nil, hframed]
            rfl
          refine ⟨lead ++ choice :: lead', choice', rest ++ after, e :: trace, last, item', ?_,
            ⟨⟨below ++ push, ?_⟩, hlast.config, hlast.state, hlast.calls⟩, ?_⟩
          · have hreplies := hpresents.replies (honestHops self config route returned (i + 1)
              nextHop (hop.handsBack (returned i) amount) (hop₂ :: hops))
            rw [honestHops, hreplies, hhonest]
            · simp
            · exact List.cons_ne_nil _ _
          · rw [run_append, hlead, Option.bind_some, hcall]
            rfl
          · exact congrArg (some (hop.handsBack (returned i) amount) :: ·) hamounts

/-- The last call settles the route. -/
theorem AtLastHop.settles {received : Uint128} {storage last : Storage}
    {messages : List CosmosMsg} {lead : List Choice} {trace : List Event} {item : Item}
    {choice : Choice} (h : AtLastHop self config route received storage messages lead trace last
      item choice) {ev : Option Event} {s : Storage} {push : List Item}
    (hexec : exec self last item choice = some (ev, s, push)) :
    ∃ e payout, ev = some e ∧ e.advancedBy? = some received ∧
      route.settle received.u128 = some payout ∧
      PaysOut config route payout e.response.messages := by
  obtain ⟨currentHop, lastHop, hstate⟩ := h.state
  obtain ⟨env, fromAddr, push', hcalls⟩ := h.calls
  rw [hcalls, Option.map_eq_some_iff] at hexec
  obtain ⟨e, he, heq⟩ := hexec
  obtain ⟨hpre, _, hmsg⟩ := callHandle_eq_some.1 he
  obtain ⟨pre, env', msg, response, post, ok⟩ := e
  subst hpre hmsg
  cases heq
  cases handle_iff.1 ok with
  | @hop _ _ config' currentHop' nextHop rest messages logs hconfig hstate' _ _ hmsgs =>
      obtain rfl : config' = config := Option.some.inj (hconfig.symm.trans h.config)
      obtain ⟨_, hrest⟩ : currentHop' = currentHop ∧
          ({ rest with hops := nextHop :: rest.hops } : Route) = { route with hops := [lastHop] } :=
        by simpa using hstate'.symm.trans hstate
      obtain ⟨hops, estimatedAmount, minimumAcceptableAmount, receiver⟩ := rest
      simp only [Route.mk.injEq, List.cons.injEq] at hrest
      obtain ⟨⟨_, rfl⟩, rfl, rfl, rfl⟩ := hrest
      obtain ⟨payout, hsettle, hpays⟩ := ((nextHopMessages_of_nil rfl).1 hmsgs).settles
      have hpays' : PaysOut config' route payout messages := by
        cases hpays with
        | paid hpays hpaid hzero => exact .paid hpays hpaid hzero
        | excess hfee hexcess hpos hpays hpaid => exact .excess hfee hexcess hpos hpays hpaid
      exact ⟨_, payout, rfl, rfl, hsettle, hpays'⟩

/-- When the last amount is short of the minimum, the run comes to a halt at the last call. -/
theorem AtLastHop.run_eq_none {received : Uint128} {storage last : Storage}
    {messages : List CosmosMsg} {lead rest : List Choice} {trace : List Event} {item : Item}
    {choice : Choice} (h : AtLastHop self config route received storage messages lead trace last
      item choice) (hsettle : route.settle received.u128 = none) (K : List Item) :
    run (exec self) storage (messages.map .msg ++ K) (lead ++ choice :: rest) = none := by
  obtain ⟨below, hleads⟩ := h.leads
  refine run_blocked hleads ?_ K rest
  rw [Option.eq_none_iff_forall_ne_some]
  rintro ⟨ev, s, push⟩ hexec
  obtain ⟨_, payout, _, _, hsome, _⟩ := h.settles hexec
  cases hsettle.symm.trans hsome

/-- Otherwise a run to the end makes the last call after those that lead to it. -/
theorem AtLastHop.exists_last {received : Uint128} {storage last storage' : Storage}
    {messages : List CosmosMsg} {lead rest : List Choice} {trace trace' : List Event} {item : Item}
    {choice : Choice} {K : List Item} (h : AtLastHop self config route received storage messages
      lead trace last item choice)
    (hrun : run (exec self) storage (messages.map .msg) (lead ++ choice :: rest)
      = some (trace', storage', K)) :
    ∃ e payout tail, trace' = trace ++ e :: tail ∧ e.advancedBy? = some received ∧
      route.settle received.u128 = some payout ∧
      PaysOut config route payout e.response.messages := by
  obtain ⟨below, hleads⟩ := h.leads
  rw [run_append, hleads, Option.bind_some, Option.map_eq_some_iff] at hrun
  obtain ⟨⟨tail, s, L⟩, hrest, heq⟩ := hrun
  obtain ⟨rfl, rfl, rfl⟩ : trace ++ tail = trace' ∧ s = storage' ∧ L = K := by simpa using heq
  cases hexec : exec self last item choice with
  | none => simp [run, hexec] at hrest
  | some r =>
      obtain ⟨ev, s₁, push⟩ := r
      obtain ⟨e, payout, rfl, hamount, hsettle, hpays⟩ := h.settles hexec
      rw [run_cons hexec, Option.map_eq_some_iff] at hrest
      obtain ⟨r, _, heq⟩ := hrest
      obtain rfl : e :: r.1 = tail := (Prod.mk.inj heq).1
      exact ⟨e, payout, r.1, rfl, hamount, hsettle, hpays⟩

theorem length_receivedAmounts (hops : List Hop) :
    ∀ (i : ℕ) (amount : Uint128),
      (receivedAmounts returned i amount hops).length = hops.length := by
  induction hops with
  | nil => intro i amount; rfl
  | cons hop hops ih =>
      intro i amount
      exact congrArg (· + 1) (ih (i + 1) (hop.handsBack (returned i) amount))

/-- In an honest environment a well-linked route does what it is for. The calls of `handleHop`
    report what each hop hands back, one after the other. When the last amount settles, the
    transaction succeeds and the last call pays out accordingly; when it is short of the minimum,
    the whole transaction is reverted. -/
theorem honest_run_settles (self : Contract) (config : Config) (storage : Storage)
    (hconfig : storage.config = some config) (route : Route) (hlinked : route.WellLinked)
    (hforeign : ∀ hop ∈ route.hops, hop.Foreign self) (firstHop : Hop)
    (hfirst : route.hops.head? = some firstHop) (sender : HumanAddr) (sentFunds : List Coin)
    (fromAddr : HumanAddr) (amount : Uint128) (hsender : sender ≠ self.address)
    (htoken : validateReceivedToken firstHop.fromToken amount (self.env sender sentFunds) = .ok ())
    (huser : validateUserIsTheReceiver firstHop.fromToken fromAddr route.to sender = .ok ())
    (returned : ℕ → Uint128) :
    let choices := honestTransaction self config route returned sender sentFunds fromAddr amount
    match route.settle (lastReceived returned 0 amount route.hops.dropLast).u128 with
    | none => runTransaction self storage choices = none
    | some payout => ∃ first during last final,
      runTransaction self storage choices
        = some (first :: (during ++ [last, final]), { storage with routeState := none }) ∧
      first.msg = .receive fromAddr (some (.route route)) amount ∧
      (during ++ [last]).map Event.advancedBy?
        = (receivedAmounts returned 0 amount route.hops.dropLast).map some ∧
      PaysOut config route payout last.response.messages ∧ final.msg = .finalizeRoute := by
  obtain ⟨nextHop, hops, hhops⟩ := hlinked.exists_hops hfirst
  have hchain := hlinked.linked
  rw [hhops] at hchain hforeign
  obtain ⟨messages, hmsgs⟩ := Hop.exists_hopMessages (List.isChain_cons_cons.1 hchain).1.emittable
    amount (self.env sender sentFunds)
  have hstep := @HandleStep.firstHop storage _ _ _ _ _ _ _ _ hhops htoken huser hmsgs
  let first : Event := ⟨_, _, _, _, _, handle_iff.2 hstep⟩
  obtain ⟨lead, choice, rest, trace, beforeLast, item, hhonest, hlast, hamounts⟩ :=
    @honestHops_atLastHop self config route returned (nextHop :: hops) 0 firstHop amount first.post
      hconfig rfl (List.cons_ne_nil _ _) hchain hforeign
  have hmessages := Contract.hopMessages_eq hmsgs
  rw [hmessages, ← hhops] at hlast
  rw [← hhops] at hamounts
  intro choices
  cases hsettle : route.settle (lastReceived returned 0 amount route.hops.dropLast).u128 with
  | none =>
      have hchoices : choices = .call sender sentFunds first.msg ::
          (((lead ++ choice :: rest) ++ [.proceed]) ++ [.proceed]) := by
        rw [← hhonest]
        simp [choices, honestTransaction, hhops, first]
      have hitems : first.items ++ [.outside] ++ []
          = messages.map .msg ++ [.msg (finalizeRouteMsg first.env), .outside] := by
        simp [Event.items, first]
      have hrest : (lead ++ choice :: rest) ++ [.proceed] ++ [.proceed]
          = lead ++ choice :: (rest ++ [.proceed] ++ [.proceed]) := by
        simp
      have hcall : exec self storage .outside (.call sender sentFunds first.msg)
          = some (some first, first.post, first.items ++ [.outside]) :=
        @exec_outsideCall self first sender sentFunds rfl hsender
      have hrun : run (exec self) storage [.outside] choices = none := by
        rw [hchoices, run_cons hcall, hitems, hrest, hlast.run_eq_none hsettle]
        rfl
      show runTransaction self storage choices = none
      rw [runTransaction, hrun]
  | some payout =>
      obtain ⟨during, lastHop, hduring, _, hcount⟩ := @honestHops_complete self config route
        returned (nextHop :: hops) 0 firstHop amount first.post hconfig rfl (List.cons_ne_nil _ _)
        hchain hforeign (by rw [← hhops]; exact Route.minimumAcceptableAmount_le_of_settle hsettle)
      rw [hmessages] at hduring
      obtain ⟨last, payout', tail, rfl, hreceived, hsettle', hpays⟩ :=
        hlast.exists_last (hhonest ▸ hduring)
      obtain rfl : payout' = payout := Option.some.inj (hsettle'.symm.trans hsettle)
      -- one call for each hop leaves no room for another one after the last
      have hlength := congrArg List.length hamounts
      obtain rfl : tail = [] := by
        simp [length_receivedAmounts, hhops] at hlength hcount
        exact List.eq_nil_of_length_eq_zero (by omega)
      have hfinalize := @HandleStep.finalizeRoute
        (first.post.withRoute lastHop { route with hops := [] }) (self.env self.address []) lastHop
        _ rfl rfl rfl
      let final : Event := ⟨_, _, _, _, _, handle_iff.2 hfinalize⟩
      refine ⟨first, trace, last, final, ?_, rfl, ?_, hpays, rfl⟩
      · have hwhole := @runTransaction_honestTransaction self config route returned firstHop
          (nextHop :: hops) sender sentFunds fromAddr amount first final messages _ hhops rfl
          hsender rfl rfl hduring rfl rfl rfl
        rw [List.append_assoc] at hwhole
        exact hwhole
      · simpa [hreceived] using hamounts

end Runs

/-- At the swap of the fixtures: of 11 button the user gets 10 and the admin 1. -/
theorem honest_run_settles_mockSwap :
    ∃ first during last final,
      runTransaction mockContract mockStorage
          (honestTransaction mockContract ⟨"btn.group"⟩ mockSwapRoute (fun _ => ⟨11, by decide⟩)
            mockSscrt.address [] mockUserAddress ⟨12, by decide⟩)
        = some (first :: (during ++ [last, final]), mockStorage) ∧
      first.msg = .receive mockUserAddress (some (.route mockSwapRoute)) ⟨12, by decide⟩ ∧
      (during ++ [last]).map Event.advancedBy? = [some ⟨11, by decide⟩] ∧
      PaysOut ⟨"btn.group"⟩ mockSwapRoute ⟨10, 1⟩ last.response.messages ∧
      final.msg = .finalizeRoute :=
  honest_run_settles mockContract ⟨"btn.group"⟩ mockStorage rfl mockSwapRoute
    ⟨by decide, List.isChain_cons_cons.2 ⟨.swap rfl rfl, .singleton _⟩⟩
    (by simp [mockSwapRoute, Hop.Foreign, Hop.tokenAddress, Token.contract, mockSscrt, mockButton,
      mockPairContract, mockContract])
    _ rfl mockSscrt.address [] mockUserAddress ⟨12, by decide⟩ (by decide) rfl rfl
    (fun _ => ⟨11, by decide⟩)

/-- With 4 button handed back, which is short of the minimum, the swap is reverted. -/
example : runTransaction mockContract mockStorage
    (honestTransaction mockContract ⟨"btn.group"⟩ mockSwapRoute (fun _ => ⟨4, by decide⟩)
      mockSscrt.address [] mockUserAddress ⟨12, by decide⟩) = none := by decide

end DexAggregator
