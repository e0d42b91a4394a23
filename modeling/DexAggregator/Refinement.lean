import DexAggregator.Deployed
import DexAggregator.Sessions

set_option autoImplicit false

/-! # The contract on bytes refines the model

The host of `Host` with the contract on bytes: a message to this contract is given to its entry
point, whoever sent it and whatever it says, and a message to any other contract hands control to
outside code, which may call the entry point with any bytes. Its successful transactions are those
of the model, with the bytes of the model's storage at both ends (`deployed_transactions`). -/

namespace DexAggregator

open WorkStack (Run run)

/-- A successful call of the entry point. -/
structure RawEvent (serde : Serde) where
  pre : RawStorage
  env : Env
  msg : Bytes
  response : RawHandleResponse
  post : RawStorage
  ok : (serde.doHandle env msg).run pre = .ok (response, post)

inductive RawItem where
  | msg (message : RawCosmosMsg)
  | outside

inductive RawChoice where
  | proceed
  | call (sender : HumanAddr) (sentFunds : List Coin) (msg : Bytes)

namespace Serde

variable (serde : Serde)

def rawItem : Item → RawItem
  | .msg message => .msg (serde.rawCosmosMsg message)
  | .outside => .outside

/-- Call the entry point; `none` when it returns an error or panics. -/
def callHandle (storage : RawStorage) (env : Env) (msg : Bytes) : Option (RawEvent serde) :=
  match h : (serde.doHandle env msg).run storage with
  | .ok (response, post) => some ⟨storage, env, msg, response, post, h⟩
  | .error _ => none

/-- Execute the item on top of the stack. -/
def exec (self : Contract) : WorkStack.Exec RawStorage RawItem RawChoice (RawEvent serde)
  | storage, .msg (.bankSend _ _ _), .proceed => some (none, storage, [])
  | storage, .msg (.execute contractAddr _ msg send), .proceed =>
    if contractAddr = self.address then
      (serde.callHandle storage (self.env self.address send) msg).map fun r =>
        (some r, r.post, r.response.messages.map .msg)
    else some (none, storage, [.outside])
  | _, .msg _, .call _ _ _ => none
  | storage, .outside, .proceed => some (none, storage, [])
  | storage, .outside, .call sender sentFunds msg =>
    if sender = self.address then none
    else (serde.callHandle storage (self.env sender sentFunds) msg).map fun r =>
      (some r, r.post, r.response.messages.map .msg ++ [.outside])

/-- A transaction on bytes. `none` when it is reverted. -/
def runTransaction (self : Contract) (storage : RawStorage) (choices : List RawChoice) :
    Option (List (RawEvent serde) × RawStorage) :=
  match run (serde.exec self) storage [.outside] choices with
  | some (trace, storage', []) => some (trace, storage')
  | _ => none

end Serde

/-- The call `r` is `e` on bytes. -/
structure Event.AsBytes {serde : Serde} (e : Event) (r : RawEvent serde) : Prop where
  pre : r.pre = serde.storage e.pre
  env : r.env = e.env
  msg : ∃ msg, serde.fromBinary serde.handleMsg r.msg = .ok msg ∧ serde.handleMsgOf msg = e.msg
  response : r.response = serde.rawResponse e.response
  post : r.post = serde.storage e.post

section Calls

variable {serde : Serde} {self : Contract} {storage : Storage} {env : Env} {bytes : Bytes}

theorem runTransaction_raw_eq_some {t t' : RawStorage} {choices : List RawChoice}
    {trace : List (RawEvent serde)} :
    serde.runTransaction self t choices = some (trace, t')
      ↔ run (serde.exec self) t [.outside] choices = some (trace, t', []) := by
  unfold Serde.runTransaction
  split
  · next h => simp [h]
  · next h =>
      simp only [reduceCtorEq, false_iff]
      exact h trace t'

theorem callHandle_raw_eq_some {t : RawStorage} {r : RawEvent serde} :
    serde.callHandle t env bytes = some r ↔ r.pre = t ∧ r.env = env ∧ r.msg = bytes := by
  constructor
  · intro h
    unfold Serde.callHandle at h
    split at h
    · cases h
      exact ⟨rfl, rfl, rfl⟩
    · cases h
  · rintro ⟨rfl, rfl, rfl⟩
    unfold Serde.callHandle
    split
    · next response post h =>
        obtain ⟨pre, env, msg, response', post', ok⟩ := r
        simp only at h
        cases ok.symm.trans h
        rfl
    · next h => cases r.ok.symm.trans h

/-- The entry point reads the message and does what `handle` does. -/
theorem run_doHandle (s : Storage) : (serde.doHandle env bytes).run (serde.storage s)
    = serde.fromBinary serde.handleMsg bytes >>= fun msg =>
      serde.raw <$> handle s env (serde.handleMsgOf msg) := by
  rw [Serde.doHandle, StateT.run_bind]
  cases serde.fromBinary serde.handleMsg bytes with
  | error e => rfl
  | ok msg => exact Serde.run_handle s msg

/-- The entry point reads the message and does what `init` does. -/
theorem run_doInit (s : Storage) : (serde.doInit env bytes).run (serde.storage s)
    = serde.fromBinary initMsg bytes >>= fun _ =>
      (fun r => (r.1, serde.storage r.2)) <$> init s env := by
  rw [Serde.doInit, StateT.run_bind]
  cases serde.fromBinary initMsg bytes with
  | error e => rfl
  | ok msg => exact Serde.run_init s

/-- The entry point reads the message and answers with the configuration. -/
theorem run_doQuery (s : Storage) : (serde.doQuery bytes).run (serde.storage s)
    = serde.fromBinary QueryMsg.codec bytes >>= fun _ =>
      (fun config => (serde.toBinary Config.codec config, serde.storage s)) <$> loadConfig s := by
  rw [Serde.doQuery, StateT.run_bind]
  cases serde.fromBinary QueryMsg.codec bytes with
  | error e => rfl
  | ok msg => exact Serde.run_query s

/-- A call of the entry point on the bytes of a storage is a call of `handle`. -/
theorem RawEvent.exists_asBytes (r : RawEvent serde) (hpre : r.pre = serde.storage storage) :
    ∃ e : Event, e.pre = storage ∧ e.AsBytes r := by
  have hok := r.ok
  rw [hpre, run_doHandle, bind_eq_ok] at hok
  obtain ⟨msg, hmsg, hok⟩ := hok
  cases hhandle : handle storage r.env (serde.handleMsgOf msg) with
  | error e => simp [hhandle] at hok
  | ok res =>
      obtain ⟨response, post⟩ := res
      rw [hhandle] at hok
      obtain ⟨hresponse, hpost⟩ := Prod.mk.inj (Except.ok.inj hok)
      exact ⟨⟨storage, r.env, serde.handleMsgOf msg, response, post, hhandle⟩, rfl, hpre, rfl,
        ⟨msg, hmsg, rfl⟩, hresponse.symm, hpost.symm⟩

/-- A call of `handle` is a call of the entry point with any bytes that say the same. -/
theorem Event.exists_raw (e : Event) {msg : RawHandleMsg}
    (hmsg : serde.fromBinary serde.handleMsg bytes = .ok msg)
    (heq : serde.handleMsgOf msg = e.msg) :
    ∃ r : RawEvent serde, r.msg = bytes ∧ e.AsBytes r := by
  have hok : (serde.doHandle e.env bytes).run (serde.storage e.pre)
      = .ok (serde.rawResponse e.response, serde.storage e.post) := by
    rw [run_doHandle, hmsg]
    show serde.raw <$> handle e.pre e.env (serde.handleMsgOf msg) = _
    rw [heq, e.ok]
    rfl
  exact ⟨⟨serde.storage e.pre, e.env, bytes, _, _, hok⟩, rfl, rfl, rfl, ⟨msg, hmsg, heq⟩, rfl, rfl⟩

theorem Serde.documentOf_route (serde : Serde) (route : Route) :
    serde.documentOf (serde.document (.route route)) = .route route := by
  have hread : (serde.fromSlice (serde.toBinary Route.codec route)).bind Route.codec.decode
      = some route := by
    rw [Serde.toBinary, serde.fromSlice_toVec, Option.bind_some, Route.codec.decode_encode]
  unfold Serde.documentOf Serde.document
  rw [hread]

/-- What a successful call was told is read back from its bytes. -/
theorem Event.handleMsgOf_rawHandleMsg (serde : Serde) (e : Event) :
    serde.handleMsgOf (serde.rawHandleMsg e.msg) = e.msg := by
  obtain ⟨pre, env, msg, response, post, ok⟩ := e
  cases handle_iff.1 ok with
  | firstHop => exact congrArg (HandleMsg.receive _ · _) (congrArg some (serde.documentOf_route _))
  | _ => rfl

theorem Serde.handleMsgOf_rawHandleMsg_of_own (serde : Serde) {msg : HandleMsg}
    (h : msg.carriesRoute = false) : serde.handleMsgOf (serde.rawHandleMsg msg) = msg := by
  match msg, h with
  | .receive _ none _, _ => rfl
  | .finalizeRoute, _ => rfl
  | .registerTokens _, _ => rfl
  | .rescueTokens _ _ _, _ => rfl

theorem Event.AsBytes.items {e : Event} {r : RawEvent serde} (h : e.AsBytes r) :
    r.response.messages.map RawItem.msg = e.items.map serde.rawItem := by
  rw [h.response]
  simp [Serde.rawResponse, Event.items, Serde.rawItem]

end Calls

/-! ## Steps -/

section Steps

variable {serde : Serde} {self : Contract} {storage storage' : Storage} {env : Env}

/-- Bytes that do not decode are no call. -/
theorem callHandle_raw_eq_none {t : RawStorage} {bytes : Bytes} {e : Abort}
    (h : serde.fromBinary serde.handleMsg bytes = .error e) :
    serde.callHandle t env bytes = none := by
  rw [Option.eq_none_iff_forall_ne_some]
  intro r hr
  obtain ⟨rfl, rfl, rfl⟩ := callHandle_raw_eq_some.1 hr
  have hok := r.ok
  rw [Serde.doHandle, h] at hok
  cases hok

/-- A queued message to another contract, on bytes. -/
theorem exec_raw_external {message : CosmosMsg} {contractAddr : HumanAddr}
    (haddr : message.contractAddr? = some contractAddr) (hne : contractAddr ≠ self.address)
    (t : RawStorage) : serde.exec self t (serde.rawItem (.msg message)) .proceed
      = some (none, t, [.outside]) := by
  match message, haddr with
  | .snip20 _ _ _ _, rfl => simp [Serde.exec, Serde.rawItem, Serde.rawCosmosMsg, hne]
  | .execute _ _ (.deposit _ _) _, rfl => simp [Serde.exec, Serde.rawItem, Serde.rawCosmosMsg, hne]
  | .execute _ _ (.handle _) _, rfl => simp [Serde.exec, Serde.rawItem, Serde.rawCosmosMsg, hne]

/-- What executing an item on bytes leads to, in terms of the model. -/
def StepOfModel (serde : Serde) (self : Contract) (storage : Storage) (item : Item)
    (ev : Option (RawEvent serde)) (t : RawStorage) (push : List RawItem) : Prop :=
  ∃ tr storage' push', Run (exec self) storage [item] tr storage' push' ∧
    List.Forall₂ (fun r e => Event.AsBytes e r) ev.toList tr ∧ t = serde.storage storage' ∧
    push = push'.map serde.rawItem

/-- The contract calls itself. -/
theorem stepOfModel_selfCall {r : RawEvent serde} {callbackCodeHash : String} {send : List Coin}
    {msg : HandleMsg} (hmsg : msg.carriesRoute = false)
    (h : serde.callHandle (serde.storage storage) (self.env self.address send)
      (serde.toBinary serde.handleMsg (serde.rawHandleMsg msg)) = some r) :
    StepOfModel serde self storage
      (.msg (.execute self.address callbackCodeHash (.handle msg) send))
      (some r) r.post (r.response.messages.map .msg) := by
  obtain ⟨hpre, henv, hbytes⟩ := callHandle_raw_eq_some.1 h
  obtain ⟨e, rfl, he⟩ := r.exists_asBytes hpre
  obtain ⟨msg', hread, heq⟩ := he.msg
  rw [hbytes, serde.fromBinary_toBinary, Except.ok.injEq] at hread
  rw [← hread, serde.handleMsgOf_rawHandleMsg_of_own hmsg] at heq
  subst heq
  exact ⟨[e], e.post, e.items, Run.single (exec_selfCall (he.env.symm.trans henv) callbackCodeHash),
    .cons he .nil, he.post, he.items⟩

/-- Every step on bytes is a run of the model. -/
theorem exec_raw_stepOfModel {item : Item} {x : RawChoice} {ev : Option (RawEvent serde)}
    {t : RawStorage} {push : List RawItem} (hown : item.Own)
    (h : serde.exec self (serde.storage storage) (serde.rawItem item) x = some (ev, t, push)) :
    StepOfModel serde self storage item ev t push := by
  match item, x, h with
  | .outside, .proceed, h =>
      cases h
      exact ⟨[], storage, [], run_outside_returns storage, .nil, rfl, rfl⟩
  | .outside, .call sender sentFunds msg, h =>
      simp only [Serde.exec, Serde.rawItem] at h
      split at h
      · cases h
      · next hsender =>
          obtain ⟨r, hr, heq⟩ := Option.map_eq_some_iff.1 h
          cases heq
          obtain ⟨hpre, henv, _⟩ := callHandle_raw_eq_some.1 hr
          obtain ⟨e, rfl, he⟩ := r.exists_asBytes hpre
          refine ⟨[e], e.post, e.items ++ [Item.outside],
            Run.single (exec_outsideCall (he.env.symm.trans henv) hsender), .cons he .nil, he.post,
            ?_⟩
          rw [he.items, List.map_append]
          rfl
  | .msg (.bankSend fromAddress toAddress amount), .proceed, h =>
      cases h
      have hexec : exec self storage (.msg (.bankSend fromAddress toAddress amount)) .proceed
        = some (none, storage, []) := rfl
      exact ⟨[], storage, [], Run.single hexec, .nil, rfl, rfl⟩
  | .msg (.snip20 msg blockSize callbackCodeHash contractAddr), .proceed, h =>
      by_cases hself : contractAddr = self.address
      · simp [Serde.exec, Serde.rawItem, Serde.rawCosmosMsg, hself,
          callHandle_raw_eq_none (serde.fromBinary_snip20 _ _)] at h
      · rw [exec_raw_external rfl hself] at h
        cases h
        exact ⟨[], storage, [.outside], Run.single (exec_external rfl hself storage), .nil, rfl,
          rfl⟩
  | .msg (.execute contractAddr callbackCodeHash (.deposit padding blockSize) send), .proceed, h =>
      by_cases hself : contractAddr = self.address
      · simp [Serde.exec, Serde.rawItem, Serde.rawCosmosMsg, hself,
          callHandle_raw_eq_none (serde.fromBinary_deposit _ _)] at h
      · rw [exec_raw_external rfl hself] at h
        cases h
        exact ⟨[], storage, [.outside], Run.single (exec_external rfl hself storage), .nil, rfl,
          rfl⟩
  | .msg (.execute contractAddr callbackCodeHash (.handle msg) send), .proceed, h =>
      by_cases hself : contractAddr = self.address
      · subst hself
        simp only [Serde.exec, Serde.rawItem, Serde.rawCosmosMsg, if_true] at h
        obtain ⟨r, hr, heq⟩ := Option.map_eq_some_iff.1 h
        cases heq
        exact stepOfModel_selfCall (hown _ rfl msg rfl).1 hr
      · rw [exec_raw_external rfl hself] at h
        cases h
        exact ⟨[], storage, [.outside], Run.single (exec_external rfl hself storage), .nil, rfl,
          rfl⟩

/-- Every step of the model is one on bytes. -/
theorem exec_step_raw {item : Item} {x : Choice} {ev : Option Event} {push : List Item}
    (h : exec self storage item x = some (ev, storage', push)) :
    ∃ tr, Run (serde.exec self) (serde.storage storage) [serde.rawItem item] tr
        (serde.storage storage') (push.map serde.rawItem) ∧
      List.Forall₂ Event.AsBytes ev.toList tr := by
  cases exec_step h with
  | returns =>
      have hexec : serde.exec self (serde.storage storage) .outside .proceed
        = some (none, serde.storage storage, []) := rfl
      exact ⟨[], Run.single hexec, .nil⟩
  | bankSend fromAddress toAddress amount =>
      have hexec : serde.exec self (serde.storage storage)
        (.msg (.bankSend fromAddress toAddress amount)) .proceed
        = some (none, serde.storage storage, []) := rfl
      exact ⟨[], Run.single hexec, .nil⟩
  | external haddr hne => exact ⟨[], Run.single (exec_raw_external haddr hne _), .nil⟩
  | @outsideCall e sender sentFunds hpre hsender henv =>
      obtain ⟨r, hbytes, he⟩ := e.exists_raw (serde.fromBinary_toBinary serde.handleMsg _)
        (e.handleMsgOf_rawHandleMsg serde)
      have hcall := callHandle_raw_eq_some.2 ⟨he.pre, he.env, hbytes⟩
      rw [henv, hpre] at hcall
      have hexec : serde.exec self (serde.storage storage) .outside
          (.call sender sentFunds (serde.toBinary serde.handleMsg (serde.rawHandleMsg e.msg)))
          = some (some r, serde.storage e.post, (e.items ++ [Item.outside]).map serde.rawItem) := by
        rw [List.map_append, ← he.items, ← he.post]
        simp [Serde.exec, hsender, hcall, Serde.rawItem]
      exact ⟨[r], Run.single hexec, .cons he .nil⟩
  | @selfCall e callbackCodeHash send hpre henv =>
      obtain ⟨r, hbytes, he⟩ := e.exists_raw (serde.fromBinary_toBinary serde.handleMsg _)
        (e.handleMsgOf_rawHandleMsg serde)
      have hcall := callHandle_raw_eq_some.2 ⟨he.pre, he.env, hbytes⟩
      rw [henv, hpre] at hcall
      have hexec : serde.exec self (serde.storage storage)
          (serde.rawItem (.msg (.execute self.address callbackCodeHash (.handle e.msg) send)))
          .proceed = some (some r, serde.storage e.post, e.items.map serde.rawItem) := by
        rw [← he.items, ← he.post]
        simp [Serde.exec, Serde.rawItem, Serde.rawCosmosMsg, hcall]
      exact ⟨[r], Run.single hexec, .cons he .nil⟩

end Steps

/-! ## Transactions -/

section Transactions

variable {serde : Serde} {self : Contract} {storage storage' : Storage}

/-- Every transaction on bytes is one of the model. -/
theorem exists_run_of_raw {t : RawStorage} {rawTrace : List (RawEvent serde)}
    (h : Run (serde.exec self) (serde.storage storage) [.outside] rawTrace t []) :
    ∃ trace storage', Run (exec self) storage [.outside] trace storage' [] ∧
      List.Forall₂ Event.AsBytes trace rawTrace ∧ t = serde.storage storage' := by
  -- the items on the two stacks are the same, and the contract has queued them itself
  obtain ⟨trace, storage', K, hrun, hE, rfl, hK, _⟩ := h.refine (exec self)
    (fun r e => Event.AsBytes e r)
    (fun t M s K => t = serde.storage s ∧ M = K.map serde.rawItem ∧ ∀ i ∈ K, i.Own)
    (fun {t i x ev t₁ push M s K} hstep hR => by
      obtain ⟨rfl, hM, hown⟩ := hR
      rcases K with _ | ⟨item, K⟩
      · cases hM
      · obtain ⟨rfl, rfl⟩ := List.cons.inj hM
        obtain ⟨tr, s₁, push', hone, hE, rfl, rfl⟩ :=
          exec_raw_stepOfModel (hown item List.mem_cons_self) hstep
        have hone : Run (exec self) s (item :: K) tr s₁ (push' ++ K) := hone.frame K
        exact ⟨tr, s₁, push' ++ K, hone, hE, rfl, by rw [List.map_append], run_own hone hown⟩)
    storage [.outside] ⟨rfl, rfl, by simp [Item.own_outside]⟩
  obtain rfl : K = [] := List.map_eq_nil_iff.1 hK.symm
  exact ⟨trace, storage', hrun, hE.flip, rfl⟩

/-- Every transaction of the model is one on bytes. -/
theorem exists_raw_of_run {trace : List Event}
    (h : Run (exec self) storage [.outside] trace storage' []) :
    ∃ rawTrace, Run (serde.exec self) (serde.storage storage) [.outside] rawTrace
        (serde.storage storage') [] ∧ List.Forall₂ Event.AsBytes trace rawTrace := by
  obtain ⟨rawTrace, t, M, hrun, hE, rfl, rfl⟩ := h.refine (serde.exec self) Event.AsBytes
    (fun s K t M => t = serde.storage s ∧ M = K.map serde.rawItem)
    (fun {s i x ev s₁ push K t M} hstep hR => by
      obtain ⟨rfl, rfl⟩ := hR
      obtain ⟨tr, hone, hE⟩ := exec_step_raw hstep
      exact ⟨tr, _, _, hone.frame (K.map serde.rawItem), hE, rfl, by rw [List.map_append]⟩)
    (serde.storage storage) [.outside] ⟨rfl, rfl⟩
  exact ⟨rawTrace, hrun, hE⟩

theorem exists_runTransaction_raw_iff {t t' : RawStorage} {rawTrace : List (RawEvent serde)} :
    (∃ choices, serde.runTransaction self t choices = some (rawTrace, t'))
      ↔ Run (serde.exec self) t [.outside] rawTrace t' [] := by
  constructor
  · rintro ⟨choices, h⟩
    exact Run.of_run choices (runTransaction_raw_eq_some.1 h)
  · intro h
    obtain ⟨choices, hchoices⟩ := h.exists_run
    exact ⟨choices, runTransaction_raw_eq_some.2 hchoices⟩

end Transactions

/-- The transactions on the bytes of a storage are those of the model: whatever bytes are sent to
    the contract, a transaction that succeeds makes the calls of one of the model and leaves the
    bytes of its storage, and every transaction of the model can be sent as bytes. -/
theorem deployed_transactions (serde : Serde) (self : Contract) (storage : Storage) :
    (∀ choices rawTrace t,
      serde.runTransaction self (serde.storage storage) choices = some (rawTrace, t) →
      ∃ choices' trace storage', runTransaction self storage choices' = some (trace, storage') ∧
        List.Forall₂ Event.AsBytes trace rawTrace ∧ t = serde.storage storage') ∧
    ∀ choices trace storage', runTransaction self storage choices = some (trace, storage') →
      ∃ choices' rawTrace, serde.runTransaction self (serde.storage storage) choices'
          = some (rawTrace, serde.storage storage') ∧
        List.Forall₂ Event.AsBytes trace rawTrace := by
  constructor
  · intro choices rawTrace t h
    obtain ⟨trace, storage', hrun, hE, ht⟩ :=
      exists_run_of_raw (exists_runTransaction_raw_iff.1 ⟨choices, h⟩)
    obtain ⟨choices', hchoices'⟩ := exists_runTransaction_iff.2 hrun
    exact ⟨choices', trace, storage', hchoices', hE, ht⟩
  · intro choices trace storage' h
    obtain ⟨rawTrace, hrun, hE⟩ := @exists_raw_of_run serde _ _ _ _
      (exists_runTransaction_iff.1 ⟨choices, h⟩)
    obtain ⟨choices', hchoices'⟩ := exists_runTransaction_raw_iff.2 hrun
    exact ⟨choices', rawTrace, hchoices', hE⟩

/-! ## Histories -/

/-- The storage after a transaction, which is unchanged when the transaction is reverted. -/
def Serde.transact (serde : Serde) (self : Contract) (storage : RawStorage)
    (choices : List RawChoice) : RawStorage :=
  match serde.runTransaction self storage choices with
  | some (_, storage') => storage'
  | none => storage

/-- The storage after a sequence of transactions. -/
def Serde.transactAll (serde : Serde) (self : Contract) (storage : RawStorage)
    (transactions : List (List RawChoice)) : RawStorage :=
  transactions.foldl (serde.transact self) storage

theorem transact_raw_eq_self {serde : Serde} {self : Contract} {storage : Storage}
    (hnone : storage.routeState = none) (choices : List RawChoice) :
    serde.transact self (serde.storage storage) choices = serde.storage storage := by
  unfold Serde.transact
  split
  · next rawTrace t h =>
      obtain ⟨trace, storage', hrun, _, rfl⟩ :=
        exists_run_of_raw (exists_runTransaction_raw_iff.1 ⟨choices, h⟩)
      obtain ⟨choices', hchoices'⟩ := exists_runTransaction_iff.2 hrun
      have hsame : storage' = storage := by
        have hsame := @transact_eq_self self storage hnone choices'
        rwa [transact, hchoices'] at hsame
      rw [hsame]
  · rfl

theorem transactAll_raw_eq_self {serde : Serde} {self : Contract} {storage : Storage}
    (hnone : storage.routeState = none) (transactions : List (List RawChoice)) :
    serde.transactAll self (serde.storage storage) transactions = serde.storage storage := by
  induction transactions with
  | nil => rfl
  | cons choices transactions ih =>
      rw [Serde.transactAll, List.foldl_cons, transact_raw_eq_self hnone]
      exact ih

/-- After an `init` on an empty storage, whatever bytes it accepted, no sequence of transactions
    changes a byte of the storage between two of them: it holds the configuration and nothing else,
    and every query that is read tells the sender of `init`. -/
theorem deployed_history (serde : Serde) (self : Contract) (env : Env) :
    (∃ response storage,
      (serde.doInit env (serde.toBinary initMsg ())).run (fun _ => none)
        = .ok (response, storage)) ∧
    ∀ bytes response storage,
      (serde.doInit env bytes).run (fun _ => none) = .ok (response, storage) →
      ∀ transactions, serde.transactAll self storage transactions = storage ∧
        storage configKey = some (serde.serialize ⟨env.message.sender⟩) ∧
        (∀ key, key ≠ configKey → storage key = none) ∧
        ∀ query, serde.fromBinary QueryMsg.codec query = .ok .config →
          (serde.doQuery query).run (serde.transactAll self storage transactions)
            = .ok (serde.toBinary Config.codec ⟨env.message.sender⟩, storage) := by
  have hempty : (fun _ => none) = serde.storage .empty := by
    funext key
    simp [Serde.storage, Storage.empty]
  rw [hempty]
  constructor
  · refine ⟨⟨[], []⟩, serde.storage ⟨some ⟨env.message.sender⟩, none⟩, ?_⟩
    rw [run_doInit, serde.fromBinary_toBinary]
    rfl
  · intro bytes response storage hinit transactions
    rw [run_doInit, bind_eq_ok] at hinit
    obtain ⟨_, _, hinit⟩ := hinit
    obtain rfl : serde.storage ⟨some ⟨env.message.sender⟩, none⟩ = storage :=
      (Prod.mk.inj (Except.ok.inj hinit)).2
    have hsame := @transactAll_raw_eq_self serde self ⟨some ⟨env.message.sender⟩, none⟩ rfl
      transactions
    refine ⟨hsame, by simp, fun key hkey => by simp [Serde.storage, hkey], ?_⟩
    intro query hquery
    rw [hsame, run_doQuery, hquery]
    rfl

end DexAggregator
