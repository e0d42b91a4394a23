import DexAggregator.Funds
import DexAggregator.RouteLifetime

set_option autoImplicit false

/-! # Where the messages of the contract go

Every address that a message reaches, as the contract it is executed on or as the recipient of
what it sends, is this contract, the admin, or named by someone entitled to: by the caller of
`RegisterTokens` or `RescueTokens`, or by the route in progress. Which route that is can be read
off the calls made so far (`routeInProgress`), because the stored route is always what remains of
it (`Storage.Follows`). -/

namespace DexAggregator

open WorkStack (Run)

/-! ## What is reached, and what is named -/

/-- The addresses a message reaches: the contract it is executed on, and the recipient of its
    coins or tokens. -/
def CosmosMsg.reaches : CosmosMsg → List HumanAddr
  | .execute contractAddr _ _ _ => [contractAddr]
  | .bankSend _ toAddress _ => [toAddress]
  | .snip20 (.send recipient _ _ _) _ _ contractAddr => [contractAddr, recipient]
  | .snip20 (.transfer recipient _ _) _ _ contractAddr => [contractAddr, recipient]
  | .snip20 (.redeem _ _ _) _ _ contractAddr => [contractAddr]
  | .snip20 (.registerReceive _ _) _ _ contractAddr => [contractAddr]

/-- The contracts a hop names. -/
def Hop.names (hop : Hop) : List HumanAddr :=
  hop.tokenAddress :: (hop.smartContract.toList ++ hop.migrateToToken.toList).map
    SecretContract.address

/-- The addresses a route names. -/
def Route.names (route : Route) : List HumanAddr := route.to :: route.hops.flatMap Hop.names

/-- The addresses a call may reach besides this contract and the admin: those it names itself, or
    those of the route in progress. -/
def HandleMsg.names (route? : Option Route) : HandleMsg → List HumanAddr
  | .receive _ _ _ => route?.toList.flatMap Route.names
  | .finalizeRoute => []
  | .registerTokens tokens => tokens.map SecretContract.address
  | .rescueTokens _ _ token => token.toList.map SecretContract.address

/-- The route in progress after a call, as the caller gave it. -/
def HandleMsg.routeAfter (route? : Option Route) : HandleMsg → Option Route
  | .receive _ none _ => route?
  | .receive _ (some (.route route)) _ => some route
  | .receive _ (some _) _ => route?
  | .finalizeRoute => none
  | .registerTokens _ => route?
  | .rescueTokens _ _ _ => route?

/-- The route in progress after the calls of a transaction. -/
def routeInProgress (trace : List Event) : Option Route :=
  trace.foldl (fun route? e => e.msg.routeAfter route?) none

/-! ## The stored route -/

/-- A stored route is what remains of `route`: the hop that was executed last and those to come. -/
structure RouteState.Follows (state : RouteState) (route : Route) : Prop where
  receiver : state.remainingRoute.to = route.to
  hops : state.currentHop :: state.remainingRoute.hops <:+ route.hops

/-- The storage holds what remains of the route in progress, or none when there is none. -/
def Storage.Follows (storage : Storage) (route? : Option Route) : Prop :=
  Option.Rel RouteState.Follows storage.routeState route?

theorem Storage.Follows.exists_route {storage : Storage} {route? : Option Route}
    {state : RouteState} (h : storage.Follows route?) (hstate : storage.routeState = some state) :
    ∃ route, route? = some route ∧ state.Follows route := by
  unfold Storage.Follows at h
  rw [hstate] at h
  cases h with
  | some hfollows => exact ⟨_, rfl, hfollows⟩

section Calls

variable {pre post : Storage} {env : Env} {msg : HandleMsg} {response : HandleResponse}
  {config : Config} {route? : Option Route} {route : Route} {hop currentHop nextHop : Hop}
  {amount : Uint128} {messages : List CosmosMsg} {logs : List LogAttribute}

/-- Every call keeps the stored route what remains of the route in progress. -/
theorem HandleStep.follows (h : HandleStep pre env msg response post)
    (hpre : pre.Follows route?) : post.Follows (msg.routeAfter route?) := by
  cases h with
  | @firstHop _ _ route firstHop nextHop hops _ hhops =>
      exact .some ⟨rfl, hhops ▸ List.suffix_rfl⟩
  | @hop _ _ _ currentHop nextHop remaining _ _ _ hstate =>
      obtain ⟨route, rfl, hfollows⟩ := hpre.exists_route hstate
      exact .some ⟨hfollows.receiver, (List.suffix_cons currentHop _).trans hfollows.hops⟩
  | finalizeRoute => exact .none
  | registerTokens => exact hpre
  | rescueTokens => exact hpre

/-- Along the calls of a trace the stored route follows the route in progress. -/
theorem Threads.follows {storage storage' : Storage} {trace : List Event}
    (h : Threads storage trace storage') (hstorage : storage.Follows route?) :
    storage'.Follows (trace.foldl (fun route? e => e.msg.routeAfter route?) route?) := by
  induction trace generalizing storage route? with
  | nil => exact h ▸ hstorage
  | cons e trace ih =>
      obtain ⟨rfl, h⟩ := h
      exact ih h (e.step.follows hstorage)

/-! ## The messages of a call -/

theorem Route.mem_names_of_hop {address : HumanAddr} (hhop : hop ∈ route.hops)
    (h : address ∈ hop.names) : address ∈ route.names :=
  List.mem_cons_of_mem _ (List.mem_flatMap.2 ⟨hop, hhop, h⟩)

/-- The messages of a hop reach what the hop names. -/
theorem HopMessages.reaches (h : HopMessages hop amount env messages) :
    ∀ message ∈ messages, ∀ address ∈ message.reaches,
      address = env.contract.address ∨ address ∈ hop.names := by
  cases h with
  | shade htoken _ hsmart =>
      simp [sendMsg, CosmosMsg.reaches, Hop.names, Hop.tokenAddress, Token.contract, htoken, hsmart]
  | migrate htoken _ hmigrate hsmart =>
      simp [sendMsg, CosmosMsg.reaches, Hop.names, Hop.tokenAddress, Token.contract, htoken, hsmart,
        hmigrate]
  | redeem htoken =>
      simp [redeemMsg, CosmosMsg.reaches, Hop.names, Hop.tokenAddress, Token.contract, htoken]
  | swap htoken _ _ _ hsmart =>
      simp [sendMsg, CosmosMsg.reaches, Hop.names, Hop.tokenAddress, Token.contract, htoken, hsmart]
  | deposit htoken =>
      simp [sendMsg, depositToCosmosMsg, CosmosMsg.reaches, Hop.names, Hop.tokenAddress,
        Token.contract, htoken]

/-- The messages of the last hop reach its token, the admin and the receiver of the route. -/
theorem LastHopMessages.reaches
    (h : LastHopMessages config env currentHop nextHop amount route messages logs) :
    ∀ message ∈ messages, ∀ address ∈ message.reaches,
      address = config.admin ∨ address = route.to ∨ address ∈ nextHop.names := by
  cases h with
  | snip20 htoken =>
      simp [sendMsg, CosmosMsg.reaches, Hop.names, Hop.tokenAddress, Token.contract, htoken]
  | snip20Excess htoken =>
      simp [sendMsg, transferMsg, CosmosMsg.reaches, Hop.names, Hop.tokenAddress, Token.contract,
        htoken]
  | native => simp [CosmosMsg.reaches]
  | nativeExcess => simp [CosmosMsg.reaches]

/-- The messages of a call reach this contract, the admin, and what the call or the route in
    progress names. -/
theorem HandleStep.reaches (h : HandleStep pre env msg response post)
    (hpre : pre.Follows route?) (hconfig : pre.config = some config) :
    ∀ message ∈ response.messages, ∀ address ∈ message.reaches,
      address = env.contract.address ∨ address = config.admin ∨
        address ∈ msg.names (msg.routeAfter route?) := by
  intro message hmessage address haddress
  cases h with
  | @firstHop fromAddr amount route firstHop nextHop hops messages hhops _ _ hmsgs =>
      have hnames : (HandleMsg.receive fromAddr (some (.route route)) amount).names (some route)
          = route.names := List.flatMap_singleton Route.names route
      rcases List.mem_append.1 hmessage with hmem | hfinal
      · rcases hmsgs.reaches message hmem address haddress with hown | hnamed
        · exact .inl hown
        · right; right
          rw [HandleMsg.routeAfter, hnames]
          exact Route.mem_names_of_hop (by simp [hhops]) hnamed
      · obtain rfl := List.mem_singleton.1 hfinal
        exact .inl (List.mem_singleton.1 haddress)
  | @hop fromAddr amount config' currentHop nextHop remaining messages logs hconfig' hstate _ _
      hmsgs =>
      obtain rfl : config = config' := Option.some.inj (hconfig.symm.trans hconfig')
      obtain ⟨route, rfl, hfollows⟩ := hpre.exists_route hstate
      have hnames : (HandleMsg.receive fromAddr none amount).names (some route) = route.names :=
        List.flatMap_singleton Route.names route
      have hhop : nextHop ∈ route.hops := hfollows.hops.subset (by simp)
      rw [HandleMsg.routeAfter, hnames]
      by_cases hnil : remaining.hops = []
      · have hlast := (nextHopMessages_of_nil hnil).1 hmsgs
        rcases hlast.reaches message hmessage address haddress with hadmin | hreceiver | hnamed
        · exact .inr (.inl hadmin)
        · have hto : remaining.to = route.to := hfollows.receiver
          right; right
          rw [hreceiver, hto]
          exact List.mem_cons_self
        · exact .inr (.inr (Route.mem_names_of_hop hhop hnamed))
      · have hmiddle := ((nextHopMessages_of_ne_nil hnil).1 hmsgs).1
        rcases hmiddle.reaches message hmessage address haddress with hown | hnamed
        · exact .inl hown
        · exact .inr (.inr (Route.mem_names_of_hop hhop hnamed))
  | finalizeRoute => cases hmessage
  | registerTokens tokens =>
      obtain ⟨token, htoken, rfl⟩ := List.mem_map.1 hmessage
      right; right
      rw [List.mem_singleton.1 haddress]
      exact List.mem_map_of_mem htoken
  | @rescueTokens amount denom token config' hconfig' =>
      obtain rfl : config = config' := Option.some.inj (hconfig.symm.trans hconfig')
      rcases List.mem_append.1 hmessage with hbank | htransfer
      · obtain ⟨denom, _, rfl⟩ := List.mem_map.1 hbank
        exact .inr (.inl (List.mem_singleton.1 haddress))
      · obtain ⟨token', htoken, rfl⟩ := List.mem_map.1 htransfer
        simp only [transferMsg, CosmosMsg.reaches, List.mem_cons, List.not_mem_nil,
          or_false] at haddress
        rcases haddress with hcontract | hadmin
        · right; right
          rw [hcontract]
          exact List.mem_map_of_mem htoken
        · exact .inr (.inl hadmin)

/-- Only the admin rescues. -/
theorem HandleStep.sender_of_rescues (h : HandleStep pre env msg response post)
    (hconfig : pre.config = some config) (hrescues : msg.rescues = true) :
    env.message.sender = config.admin := by
  cases h with
  | rescueTokens hconfig' hadmin => exact Option.some.inj (hconfig'.symm.trans hconfig) ▸ hadmin
  | _ => cases hrescues

end Calls

/-! ## Whole transactions -/

/-- After `init` and any sequence of transactions, whoever calls and whatever they do, a call of a
    successful transaction reaches only this contract, the admin (the sender of `init`), and the
    addresses it names itself as `RegisterTokens` or `RescueTokens`, or that the route in progress
    names; and only the admin rescues. -/
theorem messages_reach_only_named (self : Contract) (env : Env) (response : InitResponse)
    (storage : Storage) (hinit : init .empty env = .ok (response, storage))
    (transactions : List (List Choice)) (choices : List Choice) (trace : List Event)
    (storage' : Storage)
    (h : runTransaction self (transactAll self storage transactions) choices
      = some (trace, storage'))
    (before after : List Event) (e : Event) (hsplit : trace = before ++ e :: after) :
    (e.msg.rescues = true → e.env.message.sender = env.message.sender) ∧
    ∀ message ∈ e.response.messages, ∀ address ∈ message.reaches,
      address = self.address ∨ address = env.message.sender ∨
        address ∈ e.msg.names (routeInProgress (before ++ [e])) := by
  cases hinit
  rw [transactAll_eq_self rfl] at h
  have hrun := Run.of_run choices (runTransaction_eq_some.1 h)
  subst hsplit
  obtain ⟨_, _, _, _, _, _, hbefore, hexec, _⟩ := hrun.exists_step
  obtain ⟨rfl, _, hown, _⟩ := exec_call hexec
  have hconfig : e.pre.config = some ⟨env.message.sender⟩ := run_config hbefore
  have hfollows : e.pre.Follows (routeInProgress before) :=
    (run_threads hbefore).follows Option.Rel.none
  refine ⟨e.step.sender_of_rescues hconfig, ?_⟩
  have hreaches := e.step.reaches hfollows hconfig
  rw [hown] at hreaches
  simpa [routeInProgress, List.foldl_append] using hreaches

/-- The call of the button token reaches only it, the user, the admin and the contract itself. -/
theorem messages_reach_only_named_mockSwap :
    (mockSwapTrace.get ⟨1, by decide⟩).response.messages.length = 2 ∧
      ∀ message ∈ (mockSwapTrace.get ⟨1, by decide⟩).response.messages,
        ∀ address ∈ message.reaches,
          address = mockContract.address ∨ address = "btn.group" ∨
            address ∈ mockSwapRoute.names := by
  have h := (messages_reach_only_named mockContract (mockContract.env "btn.group" []) ⟨[], []⟩
    mockStorage rfl [] mockSwapChoices mockSwapTrace _ (Option.some_get (by decide)).symm
    (mockSwapTrace.take 1) (mockSwapTrace.drop 2) (mockSwapTrace.get ⟨1, by decide⟩) rfl).2
  have hnames : (mockSwapTrace.get ⟨1, by decide⟩).msg.names
      (routeInProgress (mockSwapTrace.take 1 ++ [mockSwapTrace.get ⟨1, by decide⟩]))
        = mockSwapRoute.names := by decide
  rw [hnames] at h
  exact ⟨by decide, h⟩

end DexAggregator
