import Mathlib.Algebra.Order.BigOperators.Group.List
import DexAggregator.RouteLifetime

set_option autoImplicit false

/-! # Route progress

Between a first hop and its `FinalizeRoute` a route is stored at every call, because the balance of
that part of the run is negative throughout. So no call there starts or finalizes a route, and the
stored state only moves along the hops: `Route.stateAt` says where it is, and each call of
`handleHop` takes it one hop further (`Event.Quiet.hopCall`). -/

namespace DexAggregator

open WorkStack (Run run potential potential_append potential_cons potential_nil)

/-- A `Receive` with `msg: None`, the message that advances a route. -/
def HandleMsg.advances : HandleMsg → Bool
  | .receive _ none _ => true
  | _ => false

/-- The calls of `handleHop` in a trace. -/
def hopCalls (trace : List Event) : List Event := trace.filter fun e => e.msg.advances

/-- A call between a first hop and its `FinalizeRoute`. -/
def Event.Quiet (e : Event) : Prop := e.msg.carriesRoute = false ∧ e.msg ≠ .finalizeRoute

/-- The route state while hop `i` is in progress: the hops after it remain, and the rest of the
    route is unchanged. -/
def Route.stateAt (route : Route) (i : ℕ) : Option RouteState :=
  route.hops[i]?.map fun hop => ⟨hop, { route with hops := route.hops.drop (i + 1) }⟩

/-- What `handleHop` emits when hop `i` is in progress and `amount` is received: the messages of the
    next hop, or, when that is the last one, the payout. -/
inductive Route.Emits (route : Route) (i : ℕ) (config : Config) (env : Env) (amount : Uint128) :
    List CosmosMsg → List LogAttribute → Prop
  | hop {nextHop : Hop} {messages : List CosmosMsg} :
      i + 2 < route.hops.length → route.hops[i + 1]? = some nextHop →
      HopMessages nextHop amount env messages →
      Route.Emits route i config env amount messages []
  | payout {currentHop nextHop : Hop} {messages : List CosmosMsg} {logs : List LogAttribute} :
      i + 2 = route.hops.length → route.hops[i]? = some currentHop →
      route.hops[i + 1]? = some nextHop →
      LastHopMessages config env currentHop nextHop amount { route with hops := [] } messages
        logs →
      Route.Emits route i config env amount messages logs

theorem Route.Emits.hopMessages {route : Route} {i : ℕ} {config : Config} {env : Env}
    {amount : Uint128} {messages : List CosmosMsg} {logs : List LogAttribute}
    (h : route.Emits i config env amount messages logs) (hlt : i + 2 < route.hops.length) :
    ∃ nextHop, route.hops[i + 1]? = some nextHop ∧ HopMessages nextHop amount env messages ∧
      logs = [] := by
  cases h with
  | hop _ hnext hmsgs => exact ⟨_, hnext, hmsgs, rfl⟩
  | payout hlast => omega

theorem Route.Emits.lastHopMessages {route : Route} {i : ℕ} {config : Config} {env : Env}
    {amount : Uint128} {messages : List CosmosMsg} {logs : List LogAttribute}
    (h : route.Emits i config env amount messages logs) (hlast : i + 2 = route.hops.length) :
    ∃ currentHop nextHop, route.hops[i]? = some currentHop ∧ route.hops[i + 1]? = some nextHop ∧
      LastHopMessages config env currentHop nextHop amount { route with hops := [] } messages
        logs := by
  cases h with
  | hop hlt => omega
  | payout _ hcurrent hnext hmsgs => exact ⟨_, _, hcurrent, hnext, hmsgs⟩

/-- The call of `handleHop` that consumes hop `i + 1` of `route`. -/
structure Route.HopCall (route : Route) (i : ℕ) (e : Event) : Prop where
  lt : i + 1 < route.hops.length
  pre : e.pre.routeState = route.stateAt i
  post : e.post.routeState = route.stateAt (i + 1)
  emits : ∃ fromAddr amount config, e.msg = .receive fromAddr none amount ∧
    e.pre.config = some config ∧
    route.Emits i config e.env amount e.response.messages e.response.log

/-! ## One call -/

theorem Route.stateAt_eq_some {route : Route} {i : ℕ} {hop : Hop} {rest : Route} :
    route.stateAt i = some ⟨hop, rest⟩
      ↔ route.hops[i]? = some hop ∧ rest = { route with hops := route.hops.drop (i + 1) } := by
  simp [Route.stateAt, eq_comm]

theorem Route.stateAt_succ {route : Route} {i : ℕ} {nextHop : Hop} {hops : List Hop}
    (h : route.hops.drop (i + 1) = nextHop :: hops) :
    route.hops[i + 1]? = some nextHop ∧ hops = route.hops.drop (i + 2) ∧
      route.stateAt (i + 1) = some ⟨nextHop, { route with hops := hops }⟩ := by
  have hnext : route.hops[i + 1]? = some nextHop := by
    rw [← List.head?_drop, h, List.head?_cons]
  have hrest : hops = route.hops.drop (i + 2) := by
    rw [← List.tail_drop, h, List.tail_cons]
  exact ⟨hnext, hrest, Route.stateAt_eq_some.2 ⟨hnext, by rw [hrest]⟩⟩

/-- A call that neither starts nor finalizes a route leaves the state where it is, or is the call of
    `handleHop` that takes it one hop further. -/
theorem Event.Quiet.hopCall {e : Event} {route : Route} {i : ℕ} (hquiet : e.Quiet)
    (hstate : e.pre.routeState = route.stateAt i) :
    (e.msg.advances = false ∧ e.post.routeState = route.stateAt i) ∨
      (e.msg.advances = true ∧ route.HopCall i e) := by
  obtain ⟨pre, env, msg, response, post, ok⟩ := e
  have hstep := handle_iff.1 ok
  cases hstep with
  | firstHop => cases hquiet.1
  | finalizeRoute => exact absurd rfl hquiet.2
  | registerTokens tokens => exact .inl ⟨rfl, hstate⟩
  | rescueTokens => exact .inl ⟨rfl, hstate⟩
  | @hop fromAddr amount config currentHop nextHop rest messages logs hconfig hpre _ _ hmsgs =>
      right
      have hat := hstate.symm.trans hpre
      obtain ⟨hcurrent, hrest⟩ := Route.stateAt_eq_some.1 hat
      obtain ⟨hops, estimatedAmount, minimumAcceptableAmount, receiver⟩ := rest
      simp only [Route.mk.injEq] at hrest
      obtain ⟨hdrop, rfl, rfl, rfl⟩ := hrest
      obtain ⟨hnext, hhops, hpost⟩ := Route.stateAt_succ hdrop.symm
      have hlt : i + 1 < route.hops.length := (List.getElem?_eq_some_iff.1 hnext).1
      refine ⟨rfl, hlt, hstate, hpost.symm, fromAddr, amount, config, rfl, hconfig, ?_⟩
      -- the hop consumed is the last one exactly when no hops remain after it
      by_cases hlast : i + 2 < route.hops.length
      · have hne : hops ≠ [] := by
          rw [hhops, Ne, List.drop_eq_nil_iff]
          omega
        obtain ⟨hhop, rfl⟩ := (nextHopMessages_of_ne_nil hne).1 hmsgs
        exact .hop hlast hnext hhop
      · have hnil : hops = [] := by
          rw [hhops, List.drop_eq_nil_iff]
          omega
        subst hnil
        exact .payout (by omega) hcurrent hnext ((nextHopMessages_of_nil rfl).1 hmsgs)

/-! ## The calls of a trace -/

/-- Along a trace that neither starts nor finalizes a route, the calls of `handleHop` consume one
    hop each, in order. -/
theorem Threads.hopCalls {route : Route} {trace : List Event} :
    ∀ {storage storage' : Storage} {i : ℕ}, Threads storage trace storage' →
      (∀ e ∈ trace, e.Quiet) → storage.routeState = route.stateAt i →
      storage'.routeState = route.stateAt (i + (DexAggregator.hopCalls trace).length) ∧
      ∀ (j : ℕ) (hj : j < (DexAggregator.hopCalls trace).length),
        route.HopCall (i + j) (DexAggregator.hopCalls trace)[j] := by
  induction trace with
  | nil =>
      intro storage storage' i h _ hstate
      exact ⟨h ▸ hstate, fun j hj => absurd hj (Nat.not_lt_zero j)⟩
  | cons e trace ih =>
      intro storage storage' i h hquiet hstate
      obtain ⟨rfl, h⟩ := h
      -- the first call leaves the state at hop `i` or takes it to hop `i + 1`
      have hrest : ∀ e' ∈ trace, e'.Quiet := fun e' he' => hquiet e' (List.mem_cons_of_mem e he')
      rcases (hquiet e List.mem_cons_self).hopCall hstate with ⟨hadv, hpost⟩ | ⟨hadv, hcall⟩
      · have hcalls : DexAggregator.hopCalls (e :: trace) = DexAggregator.hopCalls trace :=
          List.filter_cons_of_neg (by simp [hadv])
        rw [hcalls]
        exact ih h hrest hpost
      · have hcalls : DexAggregator.hopCalls (e :: trace) = e :: DexAggregator.hopCalls trace :=
          List.filter_cons_of_pos hadv
        obtain ⟨hend, hcallsAt⟩ := ih h hrest hcall.post
        rw [hcalls]
        refine ⟨by rw [hend, List.length_cons]; congr 1; omega, ?_⟩
        intro j hj
        cases j with
        | zero => exact hcall
        | succ j =>
            have hj' : j < (DexAggregator.hopCalls trace).length := Nat.lt_of_succ_lt_succ hj
            rw [List.getElem_cons_succ, show i + (j + 1) = i + 1 + j by omega]
            exact hcallsAt j hj'

/-! ## A route is stored until its `FinalizeRoute` -/

section Stored

variable {self : Contract} {storage storage' : Storage} {K K' : List Item} {trace : List Event}

theorem Item.finalizes_nonneg (self : Contract) (item : Item) : 0 ≤ item.finalizes self := by
  unfold Item.finalizes
  split
  · split <;> simp
  · exact le_rfl

theorem sum_finalizes_nonneg (self : Contract) (K : List Item) :
    0 ≤ (K.map (Item.finalizes self)).sum := by
  refine List.sum_nonneg ?_
  intro x hx
  obtain ⟨item, _, rfl⟩ := List.mem_map.1 hx
  exact item.finalizes_nonneg self

/-- Queued self-calls only raise the balance: when it is negative, a route is stored. -/
theorem Storage.isSome_of_potential_neg
    (h : potential Storage.openRoute (Item.finalizes self) storage K < 0) :
    storage.routeState.isSome = true := by
  have hsum := sum_finalizes_nonneg self K
  cases hstate : storage.routeState with
  | some routeState => rfl
  | none =>
      rw [potential, Storage.openRoute_of_none hstate] at h
      linarith

/-- A run that ends with a negative balance keeps a route stored around each of its calls. -/
theorem run_route_stored (h : Run (exec self) storage K trace storage' K')
    (hneg : potential Storage.openRoute (Item.finalizes self) storage' K' < 0) :
    ∀ e ∈ trace, e.pre.routeState.isSome = true ∧ e.post.routeState.isSome = true := by
  intro e he
  obtain ⟨tr₁, tr₂, rfl⟩ := List.append_of_mem he
  obtain ⟨s₁, i, K₁, x, s₂, push, _, hstep, hafter⟩ := h.exists_step
  obtain ⟨rfl, rfl, _, _⟩ := exec_call hstep
  have hpost := (run_balance_le hafter).trans_lt hneg
  have hpre := (run_balance_le (.step hstep hafter)).trans_lt hneg
  exact ⟨Storage.isSome_of_potential_neg hpre, Storage.isSome_of_potential_neg hpost⟩

theorem Event.post_routeState_of_finalizeRoute {e : Event} (h : e.msg = .finalizeRoute) :
    e.post.routeState = none := by
  obtain ⟨pre, env, msg, response, post, ok⟩ := e
  cases handle_iff.1 ok with
  | finalizeRoute => rfl
  | _ => cases h

/-- So no call of such a run starts or finalizes a route, unless the run raises the balance. -/
theorem run_quiet (h : Run (exec self) storage K trace storage' K')
    (hneg : potential Storage.openRoute (Item.finalizes self) storage' K' < 0)
    (hbal : potential Storage.openRoute (Item.finalizes self) storage' K'
      ≤ potential Storage.openRoute (Item.finalizes self) storage K) :
    ∀ e ∈ trace, e.Quiet := by
  intro e he
  obtain ⟨hpre, hpost⟩ := run_route_stored h hneg e he
  constructor
  · by_contra hroute
    exact run_no_overlap h hbal e he ⟨by simpa using hroute, hpre⟩
  · intro hfinal
    rw [Event.post_routeState_of_finalizeRoute hfinal] at hpost
    cases hpost

end Stored

/-! ## From a first hop to its `FinalizeRoute` -/

/-- The call of `handleFirstHop` that starts `route`. -/
structure Route.FirstCall (route : Route) (e : Event) : Prop where
  lt : 1 < route.hops.length
  post : e.post.routeState = route.stateAt 0
  emits : ∃ firstHop fromAddr amount messages, route.hops[0]? = some firstHop ∧
    e.msg = .receive fromAddr (some (.route route)) amount ∧
    (route.to = match firstHop.fromToken with
      | .snip20 _ => fromAddr
      | .native _ => e.env.message.sender) ∧
    HopMessages firstHop amount e.env messages ∧
    e.response.messages = messages ++ [finalizeRouteMsg e.env]

/-- A call with `msg: Some` starts the route that the message encodes. -/
theorem Event.firstCall {e : Event} (hroute : e.msg.carriesRoute = true) :
    ∃ route : Route, route.FirstCall e := by
  obtain ⟨pre, env, msg, response, post, ok⟩ := e
  cases handle_iff.1 ok with
  | @firstHop fromAddr amount route firstHop nextHop hops messages hhops _ huser hmsgs =>
      have hstate : route.stateAt 0 = some ⟨firstHop, { route with hops := nextHop :: hops }⟩ :=
        Route.stateAt_eq_some.2 ⟨by simp [hhops], by simp [hhops]⟩
      exact ⟨route, by simp [hhops], hstate.symm, firstHop, fromAddr, amount, messages,
        by simp [hhops], rfl, validateUserIsTheReceiver_eq_ok.1 huser, hmsgs, rfl⟩
  | _ => cases hroute

/-- `f` is the `FinalizeRoute` that `e` queued last: it is executed once the messages before it, and
    everything they led to, have been executed; `during` are the calls in between. -/
structure Event.FinalizedBy (contract : Contract) (e : Event) (during : List Event) (f : Event) :
    Prop where
  between : ∃ messages, e.response.messages = messages ++ [finalizeRouteMsg e.env] ∧
    Run (exec contract) e.post (messages.map Item.msg) during f.pre []
  msg : f.msg = .finalizeRoute
  env : f.env = contract.env contract.address []

section Completed

variable {self : Contract} {storage storage' : Storage} {K : List Item}
  {before after during : List Event} {e f : Event} {route : Route}

/-- In a run that empties its stack the `FinalizeRoute` of every first hop is executed. -/
theorem Route.FirstCall.exists_finalizedBy (hfirst : route.FirstCall e)
    (h : Run (exec self) storage K (before ++ e :: after) storage' []) :
    ∃ during f rest, after = during ++ f :: rest ∧ e.FinalizedBy self during f := by
  obtain ⟨s₁, i, K₁, x, s₂, push, _, hstep, hafter⟩ := h.exists_step
  obtain ⟨_, rfl, haddr, K₂, rfl⟩ := exec_call hstep
  obtain ⟨_, _, _, messages, _, _, _, _, hresponse⟩ := hfirst.emits
  have hitems : e.items = messages.map Item.msg ++ [.msg (finalizeRouteMsg e.env)] := by
    simp [Event.items, hresponse]
  -- the messages of the first hop are executed to the end before the self-call comes up
  rw [hitems, List.append_assoc, List.append_assoc] at hafter
  obtain ⟨s₃, during, tail, hduring, htail, rfl⟩ := hafter.split
  rw [List.singleton_append, finalizeRouteMsg, haddr] at htail
  cases htail with
  | step hfinal _ =>
      generalize hitem : Item.msg (.execute self.address e.env.contractCodeHash
        (.handle .finalizeRoute) []) = item at hfinal
      cases exec_step hfinal with
      | returns => cases hitem
      | bankSend => cases hitem
      | external hmsg hne =>
          cases hitem
          cases hmsg
          exact absurd rfl hne
      | outsideCall => cases hitem
      | @selfCall f _ _ hpre henv =>
          simp only [Item.msg.injEq, CosmosMsg.execute.injEq, ExecuteMsg.handle.injEq,
            true_and] at hitem
          obtain ⟨_, hmsg, rfl⟩ := hitem
          subst hpre
          exact ⟨during, f, _, rfl, ⟨messages, hresponse, hduring⟩, hmsg.symm, henv⟩

/-- The calls between a first hop and its `FinalizeRoute` are quiet, and the last hop is in progress
    when `FinalizeRoute` is executed. -/
theorem Route.FirstCall.quiet (hfirst : route.FirstCall e) (h : e.FinalizedBy self during f) :
    (∀ d ∈ during, d.Quiet) ∧
      ∃ currentHop rest, f.pre.routeState = some ⟨currentHop, rest⟩ ∧ rest.hops = [] := by
  obtain ⟨messages, hresponse, hrun⟩ := h.between
  obtain ⟨_, _, _, messages', _, _, _, hmsgs, hresponse'⟩ := hfirst.emits
  obtain rfl : messages = messages' := List.append_cancel_right (hresponse.symm.trans hresponse')
  obtain ⟨currentHop, rest, hstate, hhops⟩ : ∃ currentHop rest,
      f.pre.routeState = some ⟨currentHop, rest⟩ ∧ rest.hops = [] := by
    have hstep := f.step
    rw [h.msg] at hstep
    generalize f.response = response at hstep
    generalize f.post = post at hstep
    cases hstep with
    | finalizeRoute hstate hhops => exact ⟨_, _, hstate, hhops⟩
  -- the balance is minus one at both ends: a route is stored and no other self-call is queued
  have hend : potential Storage.openRoute (Item.finalizes self) f.pre [] = -1 := by
    rw [potential_nil, Storage.openRoute_of_some hstate]
  have hstart : potential Storage.openRoute (Item.finalizes self) e.post (messages.map .msg)
      = -1 := by
    obtain ⟨routeState, hpost⟩ : ∃ routeState, e.post.routeState = some routeState := by
      rw [hfirst.post, Route.stateAt]
      have hlen : 0 < route.hops.length := Nat.zero_lt_of_lt hfirst.lt
      exact ⟨_, by rw [List.getElem?_eq_getElem hlen]; rfl⟩
    have hqueued : queuedFinalizes self messages = 0 := hmsgs.queuedFinalizes
    rw [potential, Storage.openRoute_of_some hpost, List.map_map, Function.comp_def,
      ← queuedFinalizes, hqueued, add_zero]
  exact ⟨run_quiet hrun (by rw [hend]; decide) (by rw [hend, hstart]), currentHop, rest, hstate,
    hhops⟩

/-- The course of a route: what the calls between its first hop and its `FinalizeRoute` are. One
    call of `handleHop` is made for each hop after the first, in order, and at any point the stored
    state is the one the calls of `handleHop` so far have led to. -/
structure Route.Course (route : Route) (during : List Event) : Prop where
  quiet : ∀ d ∈ during, d.Quiet
  length_hopCalls : (hopCalls during).length + 1 = route.hops.length
  hopCall : ∀ (i : ℕ) (hi : i < (hopCalls during).length), route.HopCall i (hopCalls during)[i]
  stored : ∀ (soFar later : List Event) (d : Event), during = soFar ++ d :: later →
    d.pre.routeState = route.stateAt (hopCalls soFar).length

theorem Route.FirstCall.course (hfirst : route.FirstCall e) (h : e.FinalizedBy self during f) :
    route.Course during := by
  obtain ⟨hquiet, currentHop, rest, hstate, hhops⟩ := hfirst.quiet h
  obtain ⟨_, _, hrun⟩ := h.between
  have hthreads := run_threads hrun
  obtain ⟨hend, hcalls⟩ := hthreads.hopCalls hquiet hfirst.post
  simp only [Nat.zero_add] at hend hcalls
  -- at the `FinalizeRoute` no hops remain, so all of them have been consumed
  obtain ⟨hcurrent, hrest⟩ := Route.stateAt_eq_some.1 (hend.symm.trans hstate)
  have hlt : (hopCalls during).length < route.hops.length :=
    (List.getElem?_eq_some_iff.1 hcurrent).1
  have hdrop : route.hops.drop ((hopCalls during).length + 1) = [] := by
    rw [hrest] at hhops
    exact hhops
  refine ⟨hquiet, le_antisymm hlt (List.drop_eq_nil_iff.1 hdrop), hcalls, ?_⟩
  rintro soFar later d rfl
  have hbefore : ∀ d ∈ soFar, d.Quiet := fun d hd => hquiet d (List.mem_append_left _ hd)
  have hstored := (hthreads.split.1.hopCalls hbefore hfirst.post).1
  rwa [Nat.zero_add] at hstored

/-- No call of `handleHop` before the last one pays out: it emits the messages of its hop. -/
theorem Route.Course.hopMessages (hcourse : route.Course during) (i : ℕ)
    (hi : i < (hopCalls during).length) (hlt : i + 2 < route.hops.length) :
    ∃ nextHop received, route.hops[i + 1]? = some nextHop ∧
      HopMessages nextHop received (hopCalls during)[i].env
        (hopCalls during)[i].response.messages ∧
      (hopCalls during)[i].response.log = [] := by
  obtain ⟨_, received, _, _, _, hemits⟩ := (hcourse.hopCall i hi).emits
  obtain ⟨nextHop, hnext, hmsgs, hlog⟩ := hemits.hopMessages hlt
  exact ⟨nextHop, received, hnext, hmsgs, hlog⟩

/-- The last call of `handleHop` pays the receiver, and has received at least the minimum. -/
theorem Route.Course.payout (hcourse : route.Course during) (hlen : 1 < route.hops.length) :
    ∃ last source received paid, (hopCalls during).getLast? = some last ∧
      last.msg = .receive source none received ∧
      route.minimumAcceptableAmount.u128 ≤ received.u128 ∧
      lastPayment? last.response.messages = some (route.to, paid) := by
  have hcount := hcourse.length_hopCalls
  have hlast : (hopCalls during).length - 1 < (hopCalls during).length := by omega
  obtain ⟨source, received, _, hmsg, _, hemits⟩ := (hcourse.hopCall _ hlast).emits
  obtain ⟨_, _, _, _, hmsgs⟩ := hemits.lastHopMessages (by omega)
  obtain ⟨paid, hpaid, _⟩ := hmsgs.lastPayment
  refine ⟨_, source, received, paid, ?_, hmsg, hmsgs.minimumAcceptableAmount_le, hpaid⟩
  rw [List.getLast?_eq_getElem?, List.getElem?_eq_getElem hlast]

/-- Every route of a successful transaction is completed exactly once and in order. Between its
    first hop and its `FinalizeRoute` there is one call of `handleHop` for each of its other hops;
    only the last of them pays out, at least the minimum having been received, to the user who sent
    the route. -/
theorem route_completed_once_in_order (self : Contract) (storage storage' : Storage)
    (choices : List Choice) (trace before after : List Event) (e : Event)
    (h : runTransaction self storage choices = some (trace, storage'))
    (htrace : trace = before ++ e :: after) (fromAddr : HumanAddr) (route : Route)
    (amount : Uint128) (hmsg : e.msg = .receive fromAddr (some (.route route)) amount) :
    ∃ during f rest, after = during ++ f :: rest ∧ e.FinalizedBy self during f ∧
      route.Course during ∧
      (∀ (i : ℕ) (hi : i < (hopCalls during).length), i + 2 < route.hops.length →
        ∃ nextHop received, route.hops[i + 1]? = some nextHop ∧
          HopMessages nextHop received (hopCalls during)[i].env
            (hopCalls during)[i].response.messages ∧
          (hopCalls during)[i].response.log = []) ∧
      (∃ last source received paid, (hopCalls during).getLast? = some last ∧
        last.msg = .receive source none received ∧
        route.minimumAcceptableAmount.u128 ≤ received.u128 ∧
        lastPayment? last.response.messages = some (route.to, paid)) ∧
      ∃ firstHop, route.hops.head? = some firstHop ∧
        route.to = match firstHop.fromToken with
          | .snip20 _ => fromAddr
          | .native _ => e.env.message.sender := by
  have hrun := Run.of_run choices (runTransaction_eq_some.1 h)
  rw [htrace] at hrun
  obtain ⟨route', hfirst⟩ := Event.firstCall (hmsg ▸ rfl : e.msg.carriesRoute = true)
  obtain ⟨firstHop, fromAddr', amount', messages, hhead, hmsg', hto, _⟩ := hfirst.emits
  obtain ⟨rfl, rfl, rfl⟩ : fromAddr = fromAddr' ∧ route = route' ∧ amount = amount' := by
    simpa using hmsg.symm.trans hmsg'
  obtain ⟨during, f, rest, hafter, hfinal⟩ := hfirst.exists_finalizedBy hrun
  have hcourse := hfirst.course hfinal
  rw [← List.head?_eq_getElem?] at hhead
  exact ⟨during, f, rest, hafter, hfinal, hcourse, hcourse.hopMessages, hcourse.payout hfirst.lt,
    firstHop, hhead, hto⟩

end Completed

/-- At the swap of the fixtures. -/
theorem route_completed_once_in_order_mockSwap :
    ∃ during f rest, mockSwapTrace.tail = during ++ f :: rest ∧ mockSwapRoute.Course during := by
  obtain ⟨during, f, rest, hafter, _, hcourse, _⟩ :=
    route_completed_once_in_order mockContract mockStorage _ mockSwapChoices mockSwapTrace []
      mockSwapTrace.tail (mockSwapTrace.head (by decide)) (Option.some_get (by decide)).symm
      (List.cons_head_tail _).symm mockUserAddress mockSwapRoute ⟨12, by decide⟩ (by decide)
  exact ⟨during, f, rest, hafter, hcourse⟩

end DexAggregator
