import DexAggregator.HopSource
import DexAggregator.RouteProgress

set_option autoImplicit false

/-! # Well-formed routes

Whether a call panics is decided by the route: `hopMessages` unwraps the fields that an emittable
hop has, and a native payout unwraps `redeem_denom` of the hop before it. A well-formed route keeps
every unwrap defined as long as it is stored; any other route cannot be completed, because its
transaction would have to pass the unwrap that fails. -/

namespace DexAggregator

open WorkStack (Run run)

/-- `nextHop` can be paid out after `currentHop`: the denom of a native coin is known. -/
def Hop.paysOut (currentHop nextHop : Hop) : Bool :=
  match nextHop.fromToken with
  | .snip20 _ => true
  | .native _ => currentHop.redeemDenom.isSome

/-- Every hop but the last is emittable, and the last one can be paid out. -/
structure Route.WellFormed (route : Route) : Prop where
  emittable : ∀ hop ∈ route.hops.dropLast, hop.emittable = true
  paysOut : ∀ currentHop ∈ route.hops.dropLast.getLast?, ∀ lastHop ∈ route.hops.getLast?,
    currentHop.paysOut lastHop = true

theorem Route.WellFormed.emittable_getElem {route : Route} (h : route.WellFormed) {i : ℕ}
    {hop : Hop} (hlt : i + 1 < route.hops.length) (hhop : route.hops[i]? = some hop) :
    hop.emittable = true := by
  refine h.emittable hop (List.mem_of_getElem? (i := i) ?_)
  rw [List.getElem?_dropLast, if_pos (by omega), hhop]

theorem Route.WellFormed.paysOut_getElem {route : Route} (h : route.WellFormed) {i : ℕ}
    {currentHop lastHop : Hop} (hlast : i + 2 = route.hops.length)
    (hcurrent : route.hops[i]? = some currentHop) (hnext : route.hops[i + 1]? = some lastHop) :
    currentHop.paysOut lastHop = true := by
  refine h.paysOut currentHop ?_ lastHop ?_
  · rw [Option.mem_def, List.getLast?_eq_getElem?, List.length_dropLast, List.getElem?_dropLast,
      if_pos (by omega), ← hcurrent]
    congr 1
    omega
  · rw [Option.mem_def, List.getLast?_eq_getElem?, ← hnext]
    congr 1
    omega

/-! ## Calls that do not panic -/

section NoPanic

variable {hop currentHop nextHop : Hop} {amount : Uint128} {env : Env} {config : Config}
  {route : Route} {storage : Storage}

theorem Hop.exists_hopMessages (h : hop.emittable = true) (amount : Uint128) (env : Env) :
    ∃ messages, HopMessages hop amount env messages := by
  obtain ⟨fromToken, smartContract, redeemDenom, migrateToToken, path⟩ := hop
  cases fromToken with
  | native token =>
      obtain ⟨denom, hredeem⟩ := Option.isSome_iff_exists.1 h
      exact ⟨_, .deposit rfl hredeem⟩
  | snip20 token =>
      cases smartContract with
      | none =>
          simp only [Hop.emittable, Option.isSome_none, Bool.false_or, Bool.and_eq_true,
            Option.isNone_iff_eq_none] at h
          obtain ⟨⟨hredeem, hpath⟩, hmigrate⟩ := h
          obtain ⟨denom, hredeem⟩ := Option.isSome_iff_exists.1 hredeem
          exact ⟨_, .redeem rfl hpath hmigrate hredeem⟩
      | some smartContract =>
          cases path with
          | some path => exact ⟨_, .shade rfl rfl rfl⟩
          | none =>
              cases migrateToToken with
              | some migrateToToken => exact ⟨_, .migrate rfl rfl rfl rfl⟩
              | none =>
                  cases redeemDenom with
                  | some denom => exact ⟨_, .redeem rfl rfl rfl rfl⟩
                  | none => exact ⟨_, .swap rfl rfl rfl rfl rfl⟩

theorem hopMessages_ne_panic (h : hop.emittable = true) :
    hopMessages hop amount env ≠ .error .panic := by
  obtain ⟨messages, hmsgs⟩ := Hop.exists_hopMessages h amount env
  rw [hopMessages_iff.2 hmsgs]
  simp

theorem Hop.exists_lastHopMessages (h : currentHop.paysOut nextHop = true)
    (hmin : route.minimumAcceptableAmount.u128 ≤ amount.u128) (config : Config) (env : Env) :
    ∃ messages logs, LastHopMessages config env currentHop nextHop amount route messages logs := by
  have hexcess : amount.u128 - route.estimatedAmount.u128 < 2 ^ 128 :=
    Nat.lt_of_le_of_lt (Nat.sub_le _ _) amount.isLt
  rcases Nat.lt_or_ge route.estimatedAmount.u128 amount.u128 with hest | hest
  · cases htoken : nextHop.fromToken with
    | snip20 token => exact ⟨_, _, @LastHopMessages.snip20Excess _ _ _ _ _ _ _ ⟨_, hexcess⟩
        htoken hmin hest rfl⟩
    | native token =>
        obtain ⟨denom, hdenom⟩ : ∃ denom, currentHop.redeemDenom = some denom :=
          Option.isSome_iff_exists.1 (by simpa [Hop.paysOut, htoken] using h)
        exact ⟨_, _, @LastHopMessages.nativeExcess _ _ _ _ _ _ _ _ ⟨_, hexcess⟩
          htoken hdenom hmin hest rfl⟩
  · cases htoken : nextHop.fromToken with
    | snip20 token => exact ⟨_, _, .snip20 htoken hmin hest⟩
    | native token =>
        obtain ⟨denom, hdenom⟩ : ∃ denom, currentHop.redeemDenom = some denom :=
          Option.isSome_iff_exists.1 (by simpa [Hop.paysOut, htoken] using h)
        exact ⟨_, _, .native htoken hdenom hmin hest⟩

theorem lastHopMessages_ne_panic (h : currentHop.paysOut nextHop = true) :
    lastHopMessages config env currentHop nextHop amount route ≠ .error .panic := by
  rcases Nat.lt_or_ge amount.u128 route.minimumAcceptableAmount.u128 with hmin | hmin
  · rw [lastHopMessages, if_pos hmin]
    exact throw_ne_panic _
  · obtain ⟨messages, logs, hmsgs⟩ := Hop.exists_lastHopMessages h hmin config env
    rw [lastHopMessages_iff.2 hmsgs]
    simp

/-- The unwraps of `nextHop` are defined, with `route` to come after it. -/
def Hop.safeBefore (currentHop nextHop : Hop) (route : Route) : Bool :=
  if route.hops.isEmpty then currentHop.paysOut nextHop else nextHop.emittable

theorem nextHopMessages_ne_panic (h : currentHop.safeBefore nextHop route = true) :
    nextHopMessages config env currentHop nextHop amount route ≠ .error .panic := by
  unfold Hop.safeBefore at h
  unfold nextHopMessages
  split
  · next hlast => exact lastHopMessages_ne_panic (by rwa [if_pos hlast] at h)
  · next hlast =>
      rw [if_neg hlast] at h
      exact bind_ne_panic (hopMessages_ne_panic h) fun _ _ => pure_ne_panic _

/-- In this storage no unwrap of `handleHop` can fail. -/
def Storage.Safe (storage : Storage) : Prop :=
  ∀ currentHop nextHop route,
    storage.routeState = some ⟨currentHop, { route with hops := nextHop :: route.hops }⟩ →
    currentHop.safeBefore nextHop route = true

theorem handleFirstHop_ne_panic {msg : Binary}
    (h : ∀ route, msg = .route route → route.WellFormed) (fromAddr : HumanAddr) :
    handleFirstHop storage env fromAddr msg amount ≠ .error .panic := by
  refine bind_ne_panic (fromBinary_ne_panic msg) ?_
  intro route hroute
  have hwf := h route (fromBinary_eq_ok.1 hroute)
  split
  · exact throw_ne_panic _
  · next hlen =>
      have hhead : route.hops.head?.isSome = true := by
        rw [List.isSome_head?]
        exact List.ne_nil_of_length_pos (by omega)
      refine bind_ne_panic (unwrap_ne_panic hhead) ?_
      intro firstHop hfirst
      rw [unwrap_eq_ok, List.head?_eq_getElem?] at hfirst
      have hemittable := hwf.emittable_getElem (by omega) hfirst
      refine bind_ne_panic (validateReceivedToken_ne_panic _ _ _) ?_
      intro _ _
      refine bind_ne_panic (validateUserIsTheReceiver_ne_panic _ _ _ _) ?_
      intro _ _
      exact bind_ne_panic (hopMessages_ne_panic hemittable) fun _ _ => pure_ne_panic _

theorem handleHop_ne_panic (hsafe : storage.Safe) (fromAddr : HumanAddr) :
    handleHop storage env fromAddr amount ≠ .error .panic := by
  have hconfig : loadConfig storage ≠ .error .panic := by
    unfold loadConfig
    split <;> simp
  refine bind_ne_panic hconfig ?_
  intro config _
  split
  · next currentHop hops estimatedAmount minimumAcceptableAmount receiver hstate =>
      split
      · exact throw_ne_panic _
      · next nextHop hops =>
          have h := hsafe currentHop nextHop ⟨hops, _, _, _⟩ hstate
          refine bind_ne_panic (validateReceivedToken_ne_panic _ _ _) ?_
          intro _ _
          refine bind_ne_panic (validateFrom_ne_panic _ _ _ _) ?_
          intro _ _
          exact bind_ne_panic (nextHopMessages_ne_panic h) fun _ _ => pure_ne_panic _
  · exact throw_ne_panic _

theorem finalizeRoute_ne_panic : finalizeRoute storage env ≠ .error .panic := by
  unfold finalizeRoute
  split
  · refine bind_ne_panic (authorize_ne_panic _ _) ?_
    intro _ _
    split
    · exact throw_ne_panic _
    · exact pure_ne_panic _
  · exact throw_ne_panic _

theorem rescueTokens_ne_panic (hconfig : storage.config.isSome = true) (denom : Option String)
    (token : Option SecretContract) :
    rescueTokens storage env amount denom token ≠ .error .panic := by
  obtain ⟨config, hconfig⟩ := Option.isSome_iff_exists.1 hconfig
  have hload : unwrapResult (loadConfig storage) ≠ .error .panic := by
    simp [loadConfig, hconfig, unwrapResult]
  refine bind_ne_panic hload ?_
  intro config _
  exact bind_ne_panic (authorize_ne_panic _ _) fun _ _ => pure_ne_panic _

/-- No call panics on an initialized storage whose stored route is safe, unless it carries a route
    that is not well formed. -/
theorem handle_ne_panic (hconfig : storage.config.isSome = true) (hsafe : storage.Safe)
    (env : Env) (msg : HandleMsg)
    (hmsg : ∀ fromAddr route amount, msg = .receive fromAddr (some (.route route)) amount →
      route.WellFormed) :
    handle storage env msg ≠ .error .panic := by
  match msg with
  | .receive fromAddr (some msg) amount =>
      exact handleFirstHop_ne_panic (fun route hroute => hmsg fromAddr route amount (hroute ▸ rfl))
        fromAddr
  | .receive fromAddr none _ => exact handleHop_ne_panic hsafe fromAddr
  | .finalizeRoute => exact finalizeRoute_ne_panic
  | .registerTokens tokens => simp [handle, registerTokens]
  | .rescueTokens _ denom token => exact rescueTokens_ne_panic hconfig denom token

end NoPanic

/-! ## The lifetime of a route -/

/-- The storages from the first hop of `route` until its state is deleted or replaced. -/
inductive Route.Lifetime (route : Route) : Storage → Prop
  | firstHop {storage storage' : Storage} {env : Env} {fromAddr : HumanAddr} {amount : Uint128}
      {response : HandleResponse} :
      Reachable storage →
      handle storage env (.receive fromAddr (some (.route route)) amount)
        = .ok (response, storage') →
      Route.Lifetime route storage'
  | call {storage storage' : Storage} {env : Env} {msg : HandleMsg} {response : HandleResponse} :
      Route.Lifetime route storage → handle storage env msg = .ok (response, storage') →
      msg.carriesRoute = false → storage'.routeState.isSome = true →
      Route.Lifetime route storage'

theorem Reachable.config {storage : Storage} (h : Reachable storage) :
    storage.config.isSome = true := by
  induction h with
  | init hinit =>
      cases hinit
      rfl
  | handle _ hok ih => rw [(handle_iff.1 hok).config, ih]

theorem Route.Lifetime.config {route : Route} {storage : Storage} (h : route.Lifetime storage) :
    storage.config.isSome = true := by
  induction h with
  | firstHop hreach hok => exact (hreach.handle hok).config
  | call _ hok _ _ ih => rw [(handle_iff.1 hok).config, ih]

/-- Throughout its lifetime the route is at one of its hops. -/
theorem Route.Lifetime.stateAt {route : Route} {storage : Storage} (h : route.Lifetime storage) :
    ∃ i, storage.routeState = route.stateAt i := by
  induction h with
  | @firstHop storage storage' env fromAddr amount response _ hok =>
      let e : Event := ⟨storage, env, _, response, storage', hok⟩
      obtain ⟨route', hfirst⟩ := Event.firstCall (rfl : e.msg.carriesRoute = true)
      obtain ⟨_, _, _, _, _, hmsg, _⟩ := hfirst.emits
      cases hmsg
      exact ⟨0, hfirst.post⟩
  | @call storage storage' env msg response _ hok hroute hsome ih =>
      obtain ⟨i, hstate⟩ := ih
      let e : Event := ⟨storage, env, msg, response, storage', hok⟩
      have hquiet : e.Quiet := by
        refine ⟨hroute, ?_⟩
        intro hfinal
        rw [show storage'.routeState = none from Event.post_routeState_of_finalizeRoute hfinal]
          at hsome
        cases hsome
      rcases hquiet.hopCall hstate with ⟨_, hpost⟩ | ⟨_, hcall⟩
      · exact ⟨i, hpost⟩
      · exact ⟨i + 1, hcall.post⟩

theorem Route.WellFormed.safe {route : Route} (h : route.WellFormed) {storage : Storage} {i : ℕ}
    (hstate : storage.routeState = route.stateAt i) : storage.Safe := by
  intro currentHop nextHop rest hstate'
  obtain ⟨hcurrent, hrest⟩ := Route.stateAt_eq_some.1 (hstate.symm.trans hstate')
  have hdrop : route.hops.drop (i + 1) = nextHop :: rest.hops :=
    (congrArg Route.hops hrest).symm
  obtain ⟨hnext, hhops, _⟩ := Route.stateAt_succ hdrop
  have hlt : i + 1 < route.hops.length := (List.getElem?_eq_some_iff.1 hnext).1
  have hlen : route.hops.length = i + 2 + rest.hops.length := by
    rw [hhops, List.length_drop]
    omega
  unfold Hop.safeBefore
  split
  · next hnil =>
      rw [List.isEmpty_iff] at hnil
      exact h.paysOut_getElem (by rw [hlen, hnil, List.length_nil, Nat.add_zero]) hcurrent hnext
  · next hne =>
      rw [List.isEmpty_iff, ← List.length_eq_zero_iff] at hne
      exact h.emittable_getElem (by omega) hnext

/-! ## A completed route is well-formed -/

theorem LastHopMessages.paysOut {config : Config} {env : Env} {currentHop nextHop : Hop}
    {amount : Uint128} {route : Route} {messages : List CosmosMsg} {logs : List LogAttribute}
    (h : LastHopMessages config env currentHop nextHop amount route messages logs) :
    currentHop.paysOut nextHop = true := by
  cases h <;> simp [Hop.paysOut, *]

/-- The messages of every hop but the last were emitted, and the last one was paid out. -/
theorem Route.FirstCall.wellFormed {route : Route} {e : Event} {during : List Event}
    (hfirst : route.FirstCall e) (hcourse : route.Course during) : route.WellFormed := by
  have hcount := hcourse.length_hopCalls
  constructor
  · intro hop hmem
    obtain ⟨i, hi, hget⟩ := List.getElem_of_mem hmem
    rw [List.length_dropLast] at hi
    rw [List.getElem_dropLast] at hget
    have hhop : route.hops[i]? = some hop := by
      rw [← hget]
      exact List.getElem?_eq_getElem (by omega)
    -- hop 0 was emitted by the first call, hop `j + 1` by call `j` of `handleHop`
    cases i with
    | zero =>
        obtain ⟨firstHop, _, _, _, hhead, _, _, hmsgs, _⟩ := hfirst.emits
        obtain rfl : firstHop = hop := Option.some.inj (hhead.symm.trans hhop)
        exact hmsgs.emittable
    | succ j =>
        obtain ⟨nextHop, _, hnext, hmsgs, _⟩ := hcourse.hopMessages j (by omega) (by omega)
        obtain rfl : nextHop = hop := Option.some.inj (hnext.symm.trans hhop)
        exact hmsgs.emittable
  · intro currentHop hcurrent lastHop hlast
    have hlt := hfirst.lt
    have hi : route.hops.length - 2 < (hopCalls during).length := by omega
    obtain ⟨_, _, _, _, _, hemits⟩ := (hcourse.hopCall _ hi).emits
    obtain ⟨currentHop', lastHop', hcurrent', hlast', hmsgs⟩ := hemits.lastHopMessages (by omega)
    rw [Option.mem_def, List.getLast?_eq_getElem?, List.length_dropLast, List.getElem?_dropLast,
      if_pos (by omega)] at hcurrent
    rw [Option.mem_def, List.getLast?_eq_getElem?] at hlast
    obtain rfl : currentHop' = currentHop :=
      Option.some.inj (hcurrent'.symm.trans (by rw [← hcurrent]; congr 1))
    obtain rfl : lastHop' = lastHop :=
      Option.some.inj (hlast'.symm.trans (by rw [← hlast]; congr 1; omega))
    exact hmsgs.paysOut

/-- Well-formedness of a route decides whether it can abort on an unwrap. From the first hop of a
    well-formed route until its state is deleted or replaced no call panics, unless it carries
    another route that is not well-formed; and no transaction that executes the first hop of a route
    that is not well-formed succeeds. -/
theorem wellFormed_decides_panics :
    (∀ route : Route, route.WellFormed → 2 ≤ route.hops.length →
      (∀ storage, Reachable storage → ∀ env fromAddr amount,
        handle storage env (.receive fromAddr (some (.route route)) amount) ≠ .error .panic) ∧
      ∀ storage, route.Lifetime storage → ∀ env msg,
        (∀ fromAddr route' amount, msg = .receive fromAddr (some (.route route')) amount →
          route'.WellFormed) →
        handle storage env msg ≠ .error .panic) ∧
    ∀ (route : Route), ¬ route.WellFormed →
      ∀ (self : Contract) (storage storage' : Storage) (choices : List Choice)
        (trace : List Event), runTransaction self storage choices = some (trace, storage') →
      ∀ e ∈ trace, ∀ fromAddr amount, e.msg ≠ .receive fromAddr (some (.route route)) amount := by
  constructor
  · intro route hwf _
    constructor
    · intro storage hreach env fromAddr amount
      exact handleFirstHop_ne_panic (fun route' hroute => by cases hroute; exact hwf) fromAddr
    · intro storage hlife env msg hmsg
      obtain ⟨i, hstate⟩ := hlife.stateAt
      exact handle_ne_panic hlife.config (hwf.safe hstate) env msg hmsg
  · intro route hwf self storage storage' choices trace h e he fromAddr amount hmsg
    -- a route whose first hop succeeds here has been completed, hence is well-formed
    obtain ⟨before, after, rfl⟩ := List.append_of_mem he
    have hrun := Run.of_run choices (runTransaction_eq_some.1 h)
    obtain ⟨route', hfirst⟩ := Event.firstCall (hmsg ▸ rfl : e.msg.carriesRoute = true)
    obtain ⟨_, _, _, _, _, hmsg', _⟩ := hfirst.emits
    cases hmsg.symm.trans hmsg'
    obtain ⟨during, f, rest, _, hfinal⟩ := hfirst.exists_finalizedBy hrun
    exact hwf (hfirst.wellFormed (hfirst.course hfinal))

theorem mockSwapStorage_lifetime : mockSwapRoute.Lifetime mockSwapStorage :=
  .firstHop mockStorage_reachable (Event.ok (mockSwapTrace.head (by decide)))

/-- At the swap of the fixtures, before the amount of the last hop arrives. -/
theorem wellFormed_decides_panics_mockSwap :
    handle mockSwapStorage (mockContract.env mockButton.address [])
      (.receive mockPairContract.address none ⟨11, by decide⟩) ≠ .error .panic := by
  have hwf : mockSwapRoute.WellFormed := ⟨by decide, by decide⟩
  exact (wellFormed_decides_panics.1 mockSwapRoute hwf (by decide)).2 mockSwapStorage
    mockSwapStorage_lifetime _ _ (fun _ _ _ hmsg => by cases hmsg)

end DexAggregator
