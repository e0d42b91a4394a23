import Mathlib.Algebra.Order.Ring.Int
import Mathlib.Tactic.Linarith
import DexAggregator.Host

set_option autoImplicit false

/-! # Route lifetimes

`handleFirstHop` overwrites a stored route without looking at it, and nothing but the queued
`FinalizeRoute` deletes one. What keeps routes apart is a balance: the number of queued
`FinalizeRoute` self-calls, less one while a route is stored. No step lowers it, and a first hop
executed while a route is stored raises it (`Event.balance`); but a transaction that starts with no
route and succeeds begins and ends at zero. So in a successful transaction no route starts inside
another one, and none is left at the end. -/

namespace DexAggregator

open WorkStack (Run run potential potential_append potential_cons potential_nil)

/-- A `Receive` with `msg: Some`, the message that starts a route. -/
def HandleMsg.carriesRoute : HandleMsg → Bool
  | .receive _ (some _) _ => true
  | _ => false

/-- The number of `FinalizeRoute` self-calls that an item stands for. -/
def Item.finalizes (self : Contract) : Item → ℤ
  | .msg (.execute contractAddr _ (.handle .finalizeRoute) _) =>
    if contractAddr = self.address then 1 else 0
  | _ => 0

/-- The number of `FinalizeRoute` self-calls among the messages of a response. -/
def queuedFinalizes (self : Contract) (messages : List CosmosMsg) : ℤ :=
  (messages.map fun message => Item.finalizes self (.msg message)).sum

@[simp] theorem Item.finalizes_outside (self : Contract) : Item.finalizes self .outside = 0 := rfl

@[simp] theorem Item.finalizes_bankSend (self : Contract) (fromAddress toAddress : HumanAddr)
    (amount : List Coin) :
    Item.finalizes self (.msg (.bankSend fromAddress toAddress amount)) = 0 := rfl

theorem Item.finalizes_external {self : Contract} {message : CosmosMsg} {contractAddr : HumanAddr}
    (haddr : message.contractAddr? = some contractAddr) (hne : contractAddr ≠ self.address) :
    Item.finalizes self (.msg message) = 0 := by
  unfold Item.finalizes
  split
  · next h =>
      cases h
      cases haddr
      exact if_neg hne
  · rfl

theorem Item.finalizes_selfCall (self : Contract) (callbackCodeHash : String) (msg : HandleMsg)
    (send : List Coin) :
    Item.finalizes self (.msg (.execute self.address callbackCodeHash (.handle msg) send))
      = if msg = .finalizeRoute then 1 else 0 := by
  cases msg <;> simp [Item.finalizes]

theorem queuedFinalizes_append (self : Contract) (messages messages' : List CosmosMsg) :
    queuedFinalizes self (messages ++ messages')
      = queuedFinalizes self messages + queuedFinalizes self messages' := by
  simp [queuedFinalizes]

/-- Minus one while a route is stored. -/
def Storage.openRoute (storage : Storage) : ℤ :=
  if storage.routeState.isSome then -1 else 0

/-- A call that starts a route while another one is stored. -/
abbrev Event.Overlaps (e : Event) : Prop :=
  e.msg.carriesRoute = true ∧ e.pre.routeState.isSome = true

/-! ## The balance of one call -/

section Messages

variable {self : Contract} {env : Env} {hop currentHop : Hop} {amount : Uint128} {route : Route}
  {config : Config} {messages : List CosmosMsg} {logs : List LogAttribute}

theorem Storage.openRoute_le (storage : Storage) : storage.openRoute ≤ 0 := by
  unfold Storage.openRoute
  split <;> simp

@[simp] theorem Storage.openRoute_withRoute (storage : Storage) (hop : Hop) (route : Route) :
    (storage.withRoute hop route).openRoute = -1 := rfl

theorem Storage.openRoute_of_none {storage : Storage} (h : storage.routeState = none) :
    storage.openRoute = 0 := by
  simp [Storage.openRoute, h]

theorem Storage.openRoute_of_some {storage : Storage} {routeState : RouteState}
    (h : storage.routeState = some routeState) : storage.openRoute = -1 := by
  simp [Storage.openRoute, h]

theorem HopMessages.queuedFinalizes (h : HopMessages hop amount env messages) :
    queuedFinalizes self messages = 0 := by
  cases h <;>
    simp [DexAggregator.queuedFinalizes, Item.finalizes, sendMsg, redeemMsg, depositToCosmosMsg]

theorem LastHopMessages.queuedFinalizes
    (h : LastHopMessages config env currentHop hop amount route messages logs) :
    queuedFinalizes self messages = 0 := by
  cases h <;> simp [DexAggregator.queuedFinalizes, Item.finalizes, sendMsg, transferMsg]

theorem nextHopMessages_queuedFinalizes
    (h : nextHopMessages config env currentHop hop amount route = .ok (messages, logs)) :
    queuedFinalizes self messages = 0 := by
  by_cases hhops : route.hops = []
  · exact ((nextHopMessages_of_nil hhops).1 h).queuedFinalizes
  · exact ((nextHopMessages_of_ne_nil hhops).1 h).1.queuedFinalizes

theorem registerTokens_queuedFinalizes (tokens : List SecretContract) :
    queuedFinalizes self (tokens.map fun token => registerReceiveMsg env.contractCodeHash none
      blockSize token.contractHash token.address) = 0 := by
  induction tokens with
  | nil => rfl
  | cons token tokens ih =>
      simpa [queuedFinalizes, Item.finalizes, registerReceiveMsg] using ih

theorem rescueTokens_queuedFinalizes (denom : Option String) (token : Option SecretContract) :
    queuedFinalizes self ((denom.toList.map fun denom =>
        .bankSend env.contract.address config.admin [⟨denom, amount⟩]) ++
      token.toList.map fun token => transferMsg config.admin amount none blockSize
        token.contractHash token.address) = 0 := by
  cases denom <;> cases token <;> simp [queuedFinalizes, Item.finalizes, transferMsg]

end Messages

/-- What a call does to the balance: a `FinalizeRoute` uses up one queued self-call, and only a
    route started inside another one raises it. -/
theorem HandleStep.balance {self : Contract} {pre post : Storage} {env : Env} {msg : HandleMsg}
    {response : HandleResponse} (h : HandleStep pre env msg response post)
    (hself : env.contract.address = self.address) :
    pre.openRoute + (if msg = .finalizeRoute then 1 else 0)
        + (if msg.carriesRoute = true ∧ pre.routeState.isSome = true then 1 else 0)
      = post.openRoute + queuedFinalizes self response.messages := by
  cases h with
  | @firstHop _ _ _ _ _ _ messages _ _ _ hmsgs =>
      have hfinal : queuedFinalizes self (messages ++ [finalizeRouteMsg env]) = 1 := by
        rw [queuedFinalizes_append, hmsgs.queuedFinalizes]
        simp [queuedFinalizes, Item.finalizes, finalizeRouteMsg, hself]
      simp only [hfinal, Storage.openRoute_withRoute]
      cases hstate : pre.routeState <;>
        simp [Storage.openRoute, hstate, HandleMsg.carriesRoute]
  | hop _ hstate _ _ hmsgs =>
      simp [nextHopMessages_queuedFinalizes hmsgs, Storage.openRoute_of_some hstate,
        HandleMsg.carriesRoute]
  | finalizeRoute hstate =>
      have hpost : ({ pre with routeState := none } : Storage).openRoute = 0 := rfl
      simp [Storage.openRoute_of_some hstate, hpost, HandleMsg.carriesRoute,
        HandleResponse.default, queuedFinalizes]
  | registerTokens tokens =>
      simp [registerTokens_queuedFinalizes, HandleMsg.carriesRoute]
  | rescueTokens =>
      simp [rescueTokens_queuedFinalizes, HandleMsg.carriesRoute]

theorem Event.balance (self : Contract) (e : Event)
    (hself : e.env.contract.address = self.address) :
    e.pre.openRoute + (if e.msg = .finalizeRoute then 1 else 0) + (if e.Overlaps then 1 else 0)
      = e.post.openRoute + (e.items.map (Item.finalizes self)).sum := by
  have h := e.step.balance hself
  rw [Event.items, List.map_map]
  exact h

/-! ## The balance of a run -/

variable {self : Contract} {storage storage₁ storage' : Storage} {K K' : List Item}
  {trace : List Event}

/-- What a step of the host does to the balance. -/
theorem exec_balance {item : Item} {choice : Choice} {ev : Option Event} {push : List Item}
    (h : exec self storage item choice = some (ev, storage₁, push)) :
    storage.openRoute + item.finalizes self + (if ∃ e ∈ ev, e.Overlaps then 1 else 0)
      = potential Storage.openRoute (Item.finalizes self) storage₁ push := by
  cases exec_step h with
  | returns => simp
  | bankSend => simp
  | external haddr hne => simp [potential, Item.finalizes_external haddr hne]
  | @outsideCall e sender sentFunds hpre hsender henv =>
      subst hpre
      -- only the contract itself finalizes a route, so this call uses up no queued self-call
      have hmsg : e.msg ≠ .finalizeRoute := by
        intro hmsg
        have hself := e.step.sender_of_finalizeRoute hmsg
        rw [henv] at hself
        exact hsender hself
      have hbal := e.balance self (by simp [henv])
      simp only [hmsg, if_false] at hbal
      simp [potential, ← hbal]
  | @selfCall e callbackCodeHash send hpre henv =>
      subst hpre
      have hbal := e.balance self (by simp [henv])
      simp [potential, Item.finalizes_selfCall, ← hbal]

theorem exec_balance_le {item : Item} {choice : Choice} {ev : Option Event} {push : List Item}
    (h : exec self storage item choice = some (ev, storage₁, push)) :
    storage.openRoute + item.finalizes self
      ≤ potential Storage.openRoute (Item.finalizes self) storage₁ push := by
  have hbal := exec_balance h
  split at hbal <;> linarith

/-- No run lowers the balance. -/
theorem run_balance_le (h : Run (exec self) storage K trace storage' K') :
    potential Storage.openRoute (Item.finalizes self) storage K
      ≤ potential Storage.openRoute (Item.finalizes self) storage' K' :=
  h.potential_le exec_balance_le

/-- A run that ends with the balance it started with starts no route inside another one. -/
theorem run_no_overlap (h : Run (exec self) storage K trace storage' K')
    (hbal : potential Storage.openRoute (Item.finalizes self) storage' K'
      ≤ potential Storage.openRoute (Item.finalizes self) storage K) :
    ∀ e ∈ trace, ¬ e.Overlaps := by
  intro e he hover
  obtain ⟨tr₁, tr₂, rfl⟩ := List.append_of_mem he
  obtain ⟨s₁, i, K₁, x, s₂, push, hbefore, hstep, hafter⟩ := h.exists_step
  have hexec := exec_balance hstep
  have hexists : ∃ e' ∈ some e, e'.Overlaps := ⟨e, rfl, hover⟩
  rw [if_pos hexists] at hexec
  -- the call raises the balance by one, and neither the run before it nor the one after lowers it
  have h₁ := run_balance_le hbefore
  have h₂ := run_balance_le hafter
  rw [potential_cons] at h₁
  rw [potential_append] at h₂
  linarith

theorem Event.pre_routeState_eq_none {e : Event} (h : ¬ e.Overlaps)
    (hroute : e.msg.carriesRoute = true) : e.pre.routeState = none := by
  simpa [hroute] using h

/-! ## Transactions -/

/-- The two ends of a transaction that starts with no route: the balance is zero at both. -/
theorem transaction_balance (h : Run (exec self) storage [.outside] trace storage' [])
    (hnone : storage.routeState = none) :
    storage'.openRoute = 0 ∧ potential Storage.openRoute (Item.finalizes self) storage' []
      ≤ potential Storage.openRoute (Item.finalizes self) storage [.outside] := by
  have hstart : potential Storage.openRoute (Item.finalizes self) storage [.outside] = 0 := by
    simp [potential, Storage.openRoute_of_none hnone]
  have hle := run_balance_le h
  -- nothing is queued at the end, so the balance there is not positive
  have hend := storage'.openRoute_le
  rw [hstart, potential_nil] at hle
  rw [hstart, potential_nil]
  exact ⟨le_antisymm hend hle, hend⟩

/-- A successful transaction that starts with no route starts none inside another one. -/
theorem transaction_no_overlap (h : Run (exec self) storage [.outside] trace storage' [])
    (hnone : storage.routeState = none) : ∀ e ∈ trace, ¬ e.Overlaps :=
  run_no_overlap h (transaction_balance h hnone).2

/-- A successful transaction that starts with no route leaves none. -/
theorem transaction_routeState (h : Run (exec self) storage [.outside] trace storage' [])
    (hnone : storage.routeState = none) : storage'.routeState = none := by
  have hzero := (transaction_balance h hnone).1
  cases hstate : storage'.routeState with
  | none => rfl
  | some routeState =>
      rw [Storage.openRoute_of_some hstate] at hzero
      exact absurd hzero (by decide)

/-- Route lifetimes never overlap: in a successful transaction that starts with no route, no
    `Receive` with `msg: Some` is executed while a route is stored, and every transaction in which
    one is executed there is reverted, whatever happens afterwards. -/
theorem route_lifetimes_never_overlap (self : Contract) (storage : Storage)
    (hnone : storage.routeState = none) :
    (∀ (choices : List Choice) (trace : List Event) (storage' : Storage),
      runTransaction self storage choices = some (trace, storage') →
      ∀ e ∈ trace, e.msg.carriesRoute = true → e.pre.routeState = none) ∧
    ∀ (choices more : List Choice) (trace : List Event) (storage₁ : Storage) (K : List Item),
      run (exec self) storage [.outside] choices = some (trace, storage₁, K) →
      (∃ e ∈ trace, e.msg.carriesRoute = true ∧ e.pre.routeState.isSome = true) →
      runTransaction self storage (choices ++ more) = none := by
  constructor
  · intro choices trace storage' h e he hroute
    have hrun := Run.of_run choices (runTransaction_eq_some.1 h)
    exact Event.pre_routeState_eq_none (transaction_no_overlap hrun hnone e he) hroute
  · intro choices more trace storage₁ K hprefix hover
    obtain ⟨e, he, hover⟩ := hover
    cases hmore : runTransaction self storage (choices ++ more) with
    | none => rfl
    | some result =>
        obtain ⟨whole, storage'⟩ := result
        have hwhole := runTransaction_eq_some.1 hmore
        have hrun := Run.of_run (choices ++ more) hwhole
        rw [WorkStack.run_append, hprefix, Option.bind_some, Option.map_eq_some_iff] at hwhole
        obtain ⟨rest, _, heq⟩ := hwhole
        have htrace : trace ++ rest.1 = whole := congrArg Prod.fst heq
        have hmem : e ∈ whole := htrace ▸ List.mem_append_left _ he
        exact absurd hover (transaction_no_overlap hrun hnone e hmem)

/-- At the first call of the swap of the fixtures. -/
theorem route_lifetimes_never_overlap_mockSwap :
    (mockSwapTrace.head (by decide)).pre.routeState = none :=
  (route_lifetimes_never_overlap mockContract mockStorage rfl).1 mockSwapChoices mockSwapTrace _
    (Option.some_get (by decide)).symm _ (List.head_mem (by decide)) rfl

/-! ## Between transactions -/

theorem HandleStep.config {pre post : Storage} {env : Env} {msg : HandleMsg}
    {response : HandleResponse} (h : HandleStep pre env msg response post) :
    post.config = pre.config := by
  cases h <;> rfl

theorem run_config (h : Run (exec self) storage K trace storage' K') :
    storage'.config = storage.config :=
  (run_threads h).invariant (fun s => s.config = storage.config)
    (fun e _ he => e.step.config.trans he) rfl

/-- A transaction that starts with no route leaves the storage as it found it. -/
theorem transact_eq_self (hnone : storage.routeState = none) (choices : List Choice) :
    transact self storage choices = storage := by
  unfold transact
  split
  · next trace storage' h =>
      have hrun := Run.of_run choices (runTransaction_eq_some.1 h)
      have hconfig := run_config hrun
      have hstate := transaction_routeState hrun hnone
      cases storage
      cases storage'
      simp_all
  · rfl

theorem transactAll_eq_self (hnone : storage.routeState = none)
    (transactions : List (List Choice)) : transactAll self storage transactions = storage := by
  induction transactions with
  | nil => rfl
  | cons choices transactions ih =>
      simp only [transactAll, List.foldl_cons, transact_eq_self hnone choices] at ih ⊢
      exact ih

theorem HandleStep.routeState_eq_none {pre post : Storage} {env : Env} {msg : HandleMsg}
    {response : HandleResponse} (h : HandleStep pre env msg response post)
    (hnone : pre.routeState = none) (hroute : msg.carriesRoute = false) :
    post.routeState = none := by
  cases h with
  | firstHop => cases hroute
  | hop _ hstate => cases hnone.symm.trans hstate
  | finalizeRoute hstate => cases hnone.symm.trans hstate
  | registerTokens => exact hnone
  | rescueTokens => exact hnone

/-- As long as no first hop is executed, no route is stored. -/
theorem run_routeState_eq_none (h : Run (exec self) storage K trace storage' K')
    (hnone : storage.routeState = none) (hroute : ∀ e ∈ trace, e.msg.carriesRoute = false) :
    storage'.routeState = none :=
  (run_threads h).invariant (fun s => s.routeState = none)
    (fun e he hpre => e.step.routeState_eq_none hpre (hroute e he)) hnone

/-- No route survives a transaction: after `init` and any sequence of transactions no route is
    stored, every further transaction ends as it would have right after `init`, and a `Receive`
    without `msg` or a `FinalizeRoute` that is executed before any first hop of its transaction
    fails. -/
theorem no_route_survives (self : Contract) (env : Env) (response : InitResponse)
    (storage : Storage) (hinit : init .empty env = .ok (response, storage))
    (transactions : List (List Choice)) :
    (transactAll self storage transactions).routeState = none ∧
    (∀ choices : List Choice,
      runTransaction self (transactAll self storage transactions) choices
        = runTransaction self storage choices) ∧
    ∀ (choices : List Choice) (trace : List Event) (storage₁ : Storage) (K : List Item),
      run (exec self) (transactAll self storage transactions) [.outside] choices
        = some (trace, storage₁, K) →
      (∀ e ∈ trace, e.msg.carriesRoute = false) →
      ∀ (env' : Env) (fromAddr : HumanAddr) (amount : Uint128),
        handle storage₁ env' (.receive fromAddr none amount)
          = .error (.err (.genericErr "cannot find route")) ∧
        handle storage₁ env' .finalizeRoute
          = .error (.err (.genericErr "no route to finalize")) := by
  cases hinit
  have hsame : transactAll self ⟨some ⟨env.message.sender⟩, none⟩ transactions
      = ⟨some ⟨env.message.sender⟩, none⟩ := transactAll_eq_self rfl transactions
  refine ⟨by rw [Storage.empty, hsame], fun choices => by rw [Storage.empty, hsame], ?_⟩
  intro choices trace storage₁ K h hroute env' fromAddr amount
  rw [Storage.empty, hsame] at h
  have hrun := Run.of_run choices h
  have hconfig := run_config hrun
  have hnone := run_routeState_eq_none hrun rfl hroute
  exact ⟨handle_receive_of_none hconfig hnone, handle_finalizeRoute_of_none hnone⟩

/-- After the swap of the fixtures, and a transaction that is reverted. -/
theorem no_route_survives_mockSwap :
    (transactAll mockContract mockStorage
      [mockSwapChoices, [.call mockUserAddress [] .finalizeRoute, .proceed]]).routeState = none :=
  (no_route_survives mockContract (mockContract.env "btn.group" []) ⟨[], []⟩ mockStorage rfl _).1

end DexAggregator
