import DexAggregator.RouteProgress

set_option autoImplicit false

/-! # Sessions

A session is a route from its first hop to its `FinalizeRoute`, or a single `RegisterTokens` or
`RescueTokens`. A successful transaction that starts with no route consists of whole sessions, one
after the other; each of them could have been a transaction of its own, and any such transactions
can be joined into one (`transaction_serializable`). -/

namespace DexAggregator

open WorkStack (Run run)

/-- `RegisterTokens` and `RescueTokens`, which do nothing to a route. -/
def HandleMsg.administrative : HandleMsg → Bool
  | .registerTokens _ => true
  | .rescueTokens _ _ _ => true
  | _ => false

/-- A whole session. -/
inductive Session (self : Contract) : List Event → Prop
  | administrative {e : Event} : e.msg.administrative = true → Session self [e]
  | route {route : Route} {e f : Event} {during : List Event} :
      route.FirstCall e → e.FinalizedBy self during f → route.Course during →
      Session self (e :: (during ++ [f]))

/-! ## What the contract asks of itself -/

/-- The message to this contract that a message carries. -/
def CosmosMsg.handleMsg? : CosmosMsg → Option HandleMsg
  | .execute _ _ (.handle msg) _ => some msg
  | _ => none

section Messages

variable {hop currentHop : Hop} {amount : Uint128} {env : Env} {config : Config} {route : Route}
  {messages : List CosmosMsg} {logs : List LogAttribute}

theorem HopMessages.advances (h : HopMessages hop amount env messages) :
    ∀ message ∈ messages, ∀ msg ∈ message.handleMsg?, msg.advances = true := by
  cases h <;>
    simp [CosmosMsg.handleMsg?, sendMsg, redeemMsg, depositToCosmosMsg, HandleMsg.advances]

theorem LastHopMessages.handleMsg?_eq_none
    (h : LastHopMessages config env currentHop hop amount route messages logs) :
    ∀ message ∈ messages, message.handleMsg? = none := by
  cases h <;> simp [CosmosMsg.handleMsg?, sendMsg, transferMsg]

theorem HandleMsg.not_administrative_of_advances {msg : HandleMsg} (h : msg.advances = true) :
    msg.carriesRoute = false ∧ msg.administrative = false := by
  cases msg with
  | receive _ msg _ =>
      cases msg with
      | none => exact ⟨rfl, rfl⟩
      | some => cases h
  | _ => cases h

/-- A self-call neither starts a route nor is administrative. -/
theorem HandleStep.handleMsg {pre post : Storage} {msg : HandleMsg} {response : HandleResponse}
    (h : HandleStep pre env msg response post) :
    ∀ message ∈ response.messages, ∀ inner ∈ message.handleMsg?,
      inner.carriesRoute = false ∧ inner.administrative = false := by
  cases h with
  | firstHop _ _ _ hmsgs =>
      intro message hmem inner hinner
      rcases List.mem_append.1 hmem with hmem | hmem
      · exact HandleMsg.not_administrative_of_advances (hmsgs.advances message hmem inner hinner)
      · obtain rfl := List.mem_singleton.1 hmem
        cases hinner
        exact ⟨rfl, rfl⟩
  | @hop _ _ _ _ _ route _ _ _ _ _ _ hmsgs =>
      intro message hmem inner hinner
      by_cases hnil : route.hops = []
      · have hnone := ((nextHopMessages_of_nil hnil).1 hmsgs).handleMsg?_eq_none message hmem
        rw [hnone] at hinner
        cases hinner
      · have hadvances := ((nextHopMessages_of_ne_nil hnil).1 hmsgs).1.advances
        exact HandleMsg.not_administrative_of_advances (hadvances message hmem inner hinner)
  | finalizeRoute => simp [HandleResponse.default]
  | registerTokens => simp [CosmosMsg.handleMsg?, registerReceiveMsg]
  | rescueTokens =>
      intro message hmem inner hinner
      rcases List.mem_append.1 hmem with hmem | hmem
      · obtain ⟨_, _, rfl⟩ := List.mem_map.1 hmem
        cases hinner
      · obtain ⟨_, _, rfl⟩ := List.mem_map.1 hmem
        cases hinner

/-- An administrative call makes no self-call. -/
theorem HandleStep.handleMsg?_of_administrative {pre post : Storage} {msg : HandleMsg}
    {response : HandleResponse} (h : HandleStep pre env msg response post)
    (hadmin : msg.administrative = true) :
    ∀ message ∈ response.messages, message.handleMsg? = none := by
  cases h with
  | registerTokens => simp [CosmosMsg.handleMsg?, registerReceiveMsg]
  | rescueTokens =>
      intro message hmem
      rcases List.mem_append.1 hmem with hmem | hmem
      · obtain ⟨_, _, rfl⟩ := List.mem_map.1 hmem
        rfl
      · obtain ⟨_, _, rfl⟩ := List.mem_map.1 hmem
        rfl
  | _ => cases hadmin

end Messages

/-- What is queued neither starts a route nor is administrative. -/
def Item.Own (item : Item) : Prop :=
  ∀ message, item = .msg message → ∀ msg ∈ message.handleMsg?,
    msg.carriesRoute = false ∧ msg.administrative = false

theorem Event.own_items (e : Event) : ∀ item ∈ e.items, item.Own := by
  rintro item hitem message rfl
  obtain ⟨_, hmem, heq⟩ := List.mem_map.1 hitem
  cases heq
  exact e.step.handleMsg message hmem

theorem Item.own_outside : Item.outside.Own := by
  rintro _ ⟨⟩

section Runs

variable {self : Contract} {storage storage₁ storage' : Storage} {K K' : List Item}
  {trace before after during : List Event} {e f : Event} {route : Route}

theorem exec_own {item : Item} {choice : Choice} {ev : Option Event} {push : List Item}
    (h : exec self storage item choice = some (ev, storage', push)) : ∀ i ∈ push, i.Own := by
  cases exec_step h with
  | returns => simp
  | bankSend => simp
  | external => simp [Item.own_outside]
  | @outsideCall e =>
      intro i hi
      rcases List.mem_append.1 hi with hi | hi
      · exact e.own_items i hi
      · obtain rfl := List.mem_singleton.1 hi
        exact Item.own_outside
  | @selfCall e => exact e.own_items

/-- Whatever is queued during a transaction was queued by the contract. -/
theorem run_own (h : Run (exec self) storage K trace storage' K') (hK : ∀ i ∈ K, i.Own) :
    ∀ i ∈ K', i.Own := by
  refine h.invariant (fun _ K => ∀ i ∈ K, i.Own) (fun _ => True) ?_ (fun _ _ => trivial) hK
  intro s item x ev s₁ push K hstep _ hitems i hi
  rcases List.mem_append.1 hi with hi | hi
  · exact exec_own hstep i hi
  · exact hitems i (List.mem_cons_of_mem item hi)

/-- A call that starts a route or is administrative comes from outside, and all that it queues is
    executed. -/
theorem run_calledFromOutside
    (h : Run (exec self) storage [.outside] (before ++ e :: after) storage' [])
    (hmsg : e.msg.carriesRoute = true ∨ e.msg.administrative = true) :
    (∃ sender sentFunds, sender ≠ self.address ∧ e.env = self.env sender sentFunds) ∧
      ∃ tr s, Run (exec self) e.post e.items tr s [] := by
  obtain ⟨s₁, i, K₁, x, s₂, push, hbefore, hstep, hafter⟩ := h.exists_step
  have hown : i.Own := run_own hbefore (by simp [Item.own_outside]) i List.mem_cons_self
  cases exec_step hstep with
  | @outsideCall _ sender sentFunds _ hsender henv =>
      rw [List.append_assoc] at hafter
      obtain ⟨s, tr, _, hitems, _⟩ := hafter.split
      exact ⟨⟨sender, sentFunds, hsender, henv⟩, tr, s, hitems⟩
  | selfCall =>
      obtain ⟨hroute, hadmin⟩ := hown _ rfl e.msg rfl
      rw [hroute, hadmin] at hmsg
      simp at hmsg

/-! ## A session is a transaction -/

theorem run_outside_returns (s : Storage) : Run (exec self) s [.outside] [] s [] :=
  @Run.single _ _ _ _ (exec self) s s .outside .proceed none [] rfl

theorem Event.items_of_finalizeRoute (h : e.msg = .finalizeRoute) : e.items = [] := by
  obtain ⟨pre, env, msg, response, post, ok⟩ := e
  cases handle_iff.1 ok with
  | finalizeRoute => rfl
  | _ => cases h

/-- A route from its first hop to its `FinalizeRoute`, called from outside. -/
theorem Event.FinalizedBy.transaction {sender : HumanAddr} {sentFunds : List Coin}
    (hfinal : e.FinalizedBy self during f) (henv : e.env = self.env sender sentFunds)
    (hsender : sender ≠ self.address) :
    Run (exec self) e.pre [.outside] (e :: (during ++ [f])) f.post [] := by
  obtain ⟨messages, hresponse, hbetween⟩ := hfinal.between
  have hitems : e.items = messages.map Item.msg ++ [.msg (finalizeRouteMsg e.env)] := by
    simp [Event.items, hresponse]
  have hfinalize : Run (exec self) f.pre [.msg (finalizeRouteMsg e.env)] [f] f.post [] := by
    have hstep := Run.single (exec_selfCall hfinal.env e.env.contractCodeHash)
    rw [hfinal.msg, Event.items_of_finalizeRoute hfinal.msg] at hstep
    rw [finalizeRouteMsg, henv]
    rw [henv] at hstep
    exact hstep
  have hcalls := hbetween.append hfinalize
  rw [← hitems] at hcalls
  have hrest := hcalls.append (run_outside_returns f.post)
  rw [List.append_nil] at hrest
  have hstep := exec_outsideCall henv hsender
  exact .step hstep (by rwa [List.append_nil])

/-- Messages that are no self-calls and that were executed once can be executed in any storage
    without leading to a call. -/
theorem run_quietly (messages : List CosmosMsg) :
    ∀ {storage storage' : Storage} {trace : List Event},
      (∀ message ∈ messages, message.handleMsg? = none) →
      Run (exec self) storage (messages.map .msg) trace storage' [] →
      ∀ s, Run (exec self) s (messages.map .msg) [] s [] := by
  induction messages with
  | nil =>
      intro storage storage' trace _ _ s
      exact .refl s []
  | cons message messages ih =>
      intro storage storage' trace hnone h s
      rw [List.map_cons, ← List.singleton_append] at h ⊢
      obtain ⟨s₁, tr₁, tr₂, hfirst, hrest, _⟩ := h.split
      have hmessages := ih (fun m hm => hnone m (List.mem_cons_of_mem _ hm)) hrest s
      have hmessage : Run (exec self) s [.msg message] [] s [] := by
        cases hfirst with
        | step hstep _ =>
            cases exec_step hstep with
            | bankSend a b c =>
                exact @Run.single _ _ _ _ (exec self) s s (.msg (.bankSend a b c)) .proceed none []
                  rfl
            | external haddr hne =>
                exact (Run.single (exec_external haddr hne s)).trans (run_outside_returns s)
            | selfCall => cases hnone _ List.mem_cons_self
      exact hmessage.append hmessages

/-- An administrative call, from outside and with nothing following from it. -/
theorem Event.transaction_of_administrative {sender : HumanAddr} {sentFunds : List Coin}
    {tr : List Event} {s : Storage} (hadmin : e.msg.administrative = true)
    (henv : e.env = self.env sender sentFunds) (hsender : sender ≠ self.address)
    (hitems : Run (exec self) e.post e.items tr s []) :
    Run (exec self) e.pre [.outside] [e] e.post [] := by
  have hquiet := run_quietly e.response.messages
    (e.step.handleMsg?_of_administrative hadmin) hitems e.post
  have hrest := hquiet.append (run_outside_returns e.post)
  exact .step (exec_outsideCall henv hsender) (by rwa [List.append_nil])

/-! ## Sessions one after the other -/

/-- Outside code that is about to return can go on with another transaction. -/
theorem run_outside_append {L : List Item} {tr₁ tr₂ : List Event}
    (h₁ : Run (exec self) storage (L ++ [.outside]) tr₁ storage₁ [])
    (h₂ : Run (exec self) storage₁ [.outside] tr₂ storage' []) :
    Run (exec self) storage (L ++ [.outside]) (tr₁ ++ tr₂) storage' [] := by
  generalize hM : L ++ [.outside] = M at h₁
  generalize hN : ([] : List Item) = N at h₁
  induction h₁ generalizing L with
  | refl => simp [← hN] at hM
  | @step s s₁ s' i x ev push K K' tr hstep hrun ih =>
      subst hN
      rw [List.append_assoc]
      cases L with
      | cons j L =>
          obtain ⟨rfl, rfl⟩ := List.cons_eq_cons.1 hM
          have hrest := ih h₂ (List.append_assoc push L [.outside]) rfl
          exact .step hstep hrest
      | nil =>
          -- the outside code at the bottom of the stack calls once more, or returns
          obtain ⟨rfl, rfl⟩ := List.cons_eq_cons.1 hM
          cases exec_step hstep with
          | returns =>
              cases hrun
              exact h₂
          | @outsideCall e =>
              have hrest := ih h₂ (List.append_nil (e.items ++ [Item.outside])).symm rfl
              exact .step hstep hrest

/-- The storage between two sessions is the one the transaction started with. -/
theorem Event.FinalizedBy.post_eq (hfinal : e.FinalizedBy self during f)
    (hnone : e.pre.routeState = none) : f.post = e.pre := by
  obtain ⟨_, _, hbetween⟩ := hfinal.between
  have hconfig : f.post.config = e.pre.config :=
    f.step.config.trans ((run_config hbetween).trans e.step.config)
  have hstate := Event.post_routeState_of_finalizeRoute hfinal.msg
  generalize f.post = post at hconfig hstate
  generalize e.pre = pre at hconfig hnone
  cases post
  cases pre
  simp_all

theorem HandleStep.post_eq_of_administrative {pre post : Storage} {env : Env} {msg : HandleMsg}
    {response : HandleResponse} (h : HandleStep pre env msg response post)
    (hadmin : msg.administrative = true) : post = pre := by
  cases h with
  | registerTokens => rfl
  | rescueTokens => rfl
  | _ => cases hadmin

/-- With no route stored, only an administrative call or the first hop of a route is accepted. -/
theorem HandleStep.carriesRoute_or_administrative {pre post : Storage} {env : Env}
    {msg : HandleMsg} {response : HandleResponse} (h : HandleStep pre env msg response post)
    (hnone : pre.routeState = none) : msg.carriesRoute = true ∨ msg.administrative = true := by
  cases h with
  | firstHop => exact .inl rfl
  | hop _ hstate => cases hnone.symm.trans hstate
  | finalizeRoute hstate => cases hnone.symm.trans hstate
  | registerTokens => exact .inr rfl
  | rescueTokens => exact .inr rfl

/-- What is left of a transaction, wherever no route is stored, consists of whole sessions. The
    induction is on its length: a session is taken off its front. -/
theorem run_sessions (h : Run (exec self) storage [.outside] trace storage' [])
    (hnone : storage.routeState = none) :
    ∀ (n : ℕ) (before after : List Event), after.length = n → trace = before ++ after →
      Threads storage after storage' →
      ∃ parts : List (List Event), parts.flatten = after ∧ ∀ part ∈ parts,
        Session self part ∧ Run (exec self) storage [.outside] part storage [] := by
  intro n
  induction n using Nat.strong_induction_on with
  | _ n ih =>
      rintro before (_ | ⟨e, after⟩) hn rfl hthreads
      · exact ⟨[], rfl, by simp⟩
      · obtain ⟨rfl, hthreads⟩ := hthreads
        have hkind := e.step.carriesRoute_or_administrative hnone
        obtain ⟨⟨sender, sentFunds, hsender, henv⟩, _, _, hitems⟩ := run_calledFromOutside h hkind
        rcases hkind with hroute | hadmin
        · obtain ⟨route, hfirst⟩ := Event.firstCall hroute
          obtain ⟨during, f, rest, rfl, hfinal⟩ := hfirst.exists_finalizedBy h
          have hpost := hfinal.post_eq hnone
          have hrest := hthreads.split.2
          rw [hpost] at hrest
          obtain ⟨parts, hparts, hall⟩ := ih rest.length (by simp at hn; omega)
            (before ++ e :: (during ++ [f])) rest rfl (by simp) hrest
          refine ⟨(e :: (during ++ [f])) :: parts, by simp [hparts], ?_⟩
          intro part hpart
          rcases List.mem_cons.1 hpart with rfl | hpart
          · have hrun := hfinal.transaction henv hsender
            rw [hpost] at hrun
            exact ⟨.route hfirst hfinal (hfirst.course hfinal), hrun⟩
          · exact hall part hpart
        · have hpost := e.step.post_eq_of_administrative hadmin
          rw [hpost] at hthreads
          obtain ⟨parts, hparts, hall⟩ := ih after.length (by simp at hn; omega)
            (before ++ [e]) after rfl (by simp) hthreads
          refine ⟨[e] :: parts, by simp [hparts], ?_⟩
          intro part hpart
          rcases List.mem_cons.1 hpart with rfl | hpart
          · have hrun := Event.transaction_of_administrative hadmin henv hsender hitems
            rw [hpost] at hrun
            exact ⟨.administrative hadmin, hrun⟩
          · exact hall part hpart

theorem exists_runTransaction_iff :
    (∃ choices, runTransaction self storage choices = some (trace, storage'))
      ↔ Run (exec self) storage [.outside] trace storage' [] := by
  constructor
  · rintro ⟨choices, h⟩
    exact Run.of_run choices (runTransaction_eq_some.1 h)
  · intro h
    obtain ⟨choices, h⟩ := h.exists_run
    exact ⟨choices, runTransaction_eq_some.2 h⟩

end Runs

/-- The transactions that succeed when no route is stored are the sequences of sessions each of
    which is such a transaction itself. So nothing is gained or lost by putting several routes into
    one transaction, and their order does not matter. -/
theorem transaction_serializable (self : Contract) (storage : Storage)
    (hnone : storage.routeState = none) (trace : List Event) :
    (∃ choices storage', runTransaction self storage choices = some (trace, storage'))
      ↔ ∃ parts : List (List Event), parts.flatten = trace ∧ ∀ part ∈ parts,
        Session self part ∧
          ∃ choices, runTransaction self storage choices = some (part, storage) := by
  constructor
  · rintro ⟨choices, storage', h⟩
    have hrun := Run.of_run choices (runTransaction_eq_some.1 h)
    obtain ⟨parts, hparts, hall⟩ :=
      run_sessions hrun hnone trace.length [] trace rfl rfl (run_threads hrun)
    refine ⟨parts, hparts, fun part hpart => ?_⟩
    obtain ⟨hsession, hpart⟩ := hall part hpart
    exact ⟨hsession, exists_runTransaction_iff.2 hpart⟩
  · rintro ⟨parts, rfl, hall⟩
    have hrun : Run (exec self) storage [.outside] parts.flatten storage [] := by
      induction parts with
      | nil => exact run_outside_returns storage
      | cons part parts ih =>
          have hpart := exists_runTransaction_iff.1 (hall part List.mem_cons_self).2
          have hrest := ih fun p hp => hall p (List.mem_cons_of_mem part hp)
          exact @run_outside_append self storage storage storage [] part parts.flatten hpart hrest
    obtain ⟨choices, hchoices⟩ := exists_runTransaction_iff.2 hrun
    exact ⟨choices, storage, hchoices⟩

/-- At the swap of the fixtures. -/
theorem transaction_serializable_mockSwap :
    ∃ parts : List (List Event), parts.flatten = mockSwapTrace ∧ ∀ part ∈ parts,
      Session mockContract part ∧
        ∃ choices, runTransaction mockContract mockStorage choices = some (part, mockStorage) :=
  (transaction_serializable mockContract mockStorage rfl mockSwapTrace).1
    ⟨mockSwapChoices, _, (Option.some_get (by decide)).symm⟩

/-! ## Leaving administrative calls out -/

/-- The call, unless it is administrative. -/
def Event.ofRoute? (e : Event) : Option Event :=
  if e.msg.administrative then none else some e

/-- An item that makes no self-call. -/
def Item.Quiet (item : Item) : Prop :=
  ∀ message, item = .msg message → message.handleMsg? = none

/-- The second stack is the first one without what administrative calls have queued: outside code
    that made such a call does itself what is done by the code that the call led to. -/
inductive Absorbs : List Item → List Item → Prop
  | nil : Absorbs [] []
  | keep {item : Item} {K M : List Item} :
      item.Own → Absorbs K M → Absorbs (item :: K) (item :: M)
  | absorb {item : Item} {K M : List Item} :
      item.Quiet → Absorbs K (.outside :: M) → Absorbs (item :: K) (.outside :: M)

theorem Item.quiet_outside : Item.outside.Quiet := by
  rintro _ ⟨⟩

theorem Event.quiet_items {e : Event} (hadmin : e.msg.administrative = true) :
    ∀ item ∈ e.items, item.Quiet := by
  rintro item hitem message rfl
  obtain ⟨_, hmem, heq⟩ := List.mem_map.1 hitem
  cases heq
  exact e.step.handleMsg?_of_administrative hadmin message hmem

section Erasure

variable {self : Contract} {storage storage' : Storage} {K M items : List Item}

theorem Absorbs.keep_append (hitems : ∀ i ∈ items, i.Own) (h : Absorbs K M) :
    Absorbs (items ++ K) (items ++ M) := by
  induction items with
  | nil => exact h
  | cons i items ih =>
      exact .keep (hitems i List.mem_cons_self)
        (ih fun j hj => hitems j (List.mem_cons_of_mem i hj))

theorem Absorbs.absorb_append (hitems : ∀ i ∈ items, i.Quiet) (h : Absorbs K (.outside :: M)) :
    Absorbs (items ++ K) (.outside :: M) := by
  induction items with
  | nil => exact h
  | cons i items ih =>
      exact .absorb (hitems i List.mem_cons_self)
        (ih fun j hj => hitems j (List.mem_cons_of_mem i hj))

/-- What outside code does, it also does on the second stack, unless it is administrative. -/
theorem Absorbs.outsideCall {e : Event} {sender : HumanAddr} {sentFunds : List Coin}
    (henv : e.env = self.env sender sentFunds) (hsender : sender ≠ self.address)
    (hK : Absorbs (.outside :: K) (.outside :: M)) :
    ∃ M₁, Run (exec self) e.pre (.outside :: M) e.ofRoute?.toList e.post M₁ ∧
      Absorbs (e.items ++ [.outside] ++ K) M₁ := by
  rw [List.append_assoc, List.singleton_append]
  by_cases hadmin : e.msg.administrative = true
  · refine ⟨.outside :: M, ?_, hK.absorb_append (Event.quiet_items hadmin)⟩
    rw [Event.ofRoute?, if_pos hadmin, e.step.post_eq_of_administrative hadmin]
    exact .refl _ _
  · refine ⟨e.items ++ .outside :: M, ?_, hK.keep_append e.own_items⟩
    rw [Event.ofRoute?, if_neg hadmin]
    have hstep := (Run.single (exec_outsideCall henv hsender)).frame M
    rw [List.append_assoc] at hstep
    exact hstep

theorem Absorbs.step {item : Item} {choice : Choice} {ev : Option Event} {push : List Item}
    (h : exec self storage item choice = some (ev, storage', push)) (hK : Absorbs (item :: K) M) :
    ∃ M₁, Run (exec self) storage M (ev.bind Event.ofRoute?).toList storage' M₁ ∧
      Absorbs (push ++ K) M₁ := by
  cases hK with
  | @keep _ _ M hown hK =>
      cases exec_step h with
      | returns => exact ⟨M, (run_outside_returns storage).frame M, hK⟩
      | bankSend => exact ⟨M, (Run.single h).frame M, hK⟩
      | external => exact ⟨_, (Run.single h).frame M, .keep Item.own_outside hK⟩
      | outsideCall hpre hsender henv =>
          subst hpre
          exact Absorbs.outsideCall henv hsender (.keep hown hK)
      | @selfCall e =>
          -- the contract does not call itself for an administrative purpose
          have hadmin : e.msg.administrative = false := (hown _ rfl e.msg rfl).2
          refine ⟨e.items ++ M, ?_, hK.keep_append e.own_items⟩
          have hroute : e.ofRoute? = some e := by simp [Event.ofRoute?, hadmin]
          rw [Option.bind_some, hroute]
          exact (Run.single h).frame M
  | @absorb _ _ M hquiet hK =>
      cases exec_step h with
      | returns => exact ⟨_, .refl _ _, hK⟩
      | bankSend => exact ⟨_, .refl _ _, hK⟩
      | external => exact ⟨_, .refl _ _, .absorb Item.quiet_outside hK⟩
      | outsideCall hpre hsender henv =>
          subst hpre
          exact Absorbs.outsideCall henv hsender (.absorb hquiet hK)
      | selfCall => cases hquiet _ rfl

end Erasure

/-- `RegisterTokens` and `RescueTokens` calls, wherever they are made, have no part in what happens
    to the routes: leaving all of them out of a successful transaction gives a successful
    transaction with the same other calls and the same storage at the end. -/
theorem administrative_calls_erasable (self : Contract) (storage storage' : Storage)
    (choices : List Choice) (trace : List Event)
    (h : runTransaction self storage choices = some (trace, storage')) :
    ∃ choices', runTransaction self storage choices'
      = some (trace.filter fun e => !e.msg.administrative, storage') := by
  have hrun := Run.of_run choices (runTransaction_eq_some.1 h)
  obtain ⟨_, M', hfollow, rfl, habsorbs⟩ := hrun.follow (exec self) Event.ofRoute?
    (fun s K t M => t = s ∧ Absorbs K M)
    (by
      rintro s i x ev s₁ push K _ M hstep ⟨rfl, hK⟩
      obtain ⟨M₁, hone, hK₁⟩ := Absorbs.step hstep hK
      exact ⟨s₁, M₁, hone, rfl, hK₁⟩)
    ⟨rfl, .keep Item.own_outside .nil⟩
  cases habsorbs
  have hfilter : trace.filterMap Event.ofRoute? = trace.filter fun e => !e.msg.administrative := by
    rw [← List.filterMap_eq_filter]
    congr 1
    funext e
    cases hadmin : e.msg.administrative <;> simp [Event.ofRoute?, Option.guard, hadmin]
  rw [hfilter] at hfollow
  exact exists_runTransaction_iff.2 hfollow

/-- The swap of the fixtures, in the middle of which the user registers the button token. -/
def mockRegisterChoices : List Choice :=
  mockSwapChoices.take 2 ++
    [.call mockUserAddress [] (.registerTokens [mockButton]), .proceed, .proceed] ++
    mockSwapChoices.drop 2

/-- The calls of that transaction. -/
def mockRegisterTrace : List Event :=
  ((runTransaction mockContract mockStorage mockRegisterChoices).get (by decide)).1

theorem administrative_calls_erasable_mockRegister :
    ∃ choices', runTransaction mockContract mockStorage choices'
      = some (mockRegisterTrace.filter fun e => !e.msg.administrative, mockStorage) :=
  administrative_calls_erasable mockContract mockStorage mockStorage mockRegisterChoices
    mockRegisterTrace (Option.some_get (by decide)).symm

end DexAggregator
