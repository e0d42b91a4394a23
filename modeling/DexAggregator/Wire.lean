import DexAggregator.Encoding
import DexAggregator.Refinement

set_option autoImplicit false

/-! # What goes over the wire

A call of the entry point is a call of `handle` on what the bytes say, errors and panics included
(`deployed_call`). What it emits comes in two formats: messages to tokens are padded to whole blocks
and are no messages to the contract, and messages to the contract are its own two
(`emitted_bytes`). -/

namespace DexAggregator

/-! ## One call -/

/-- The attached document of a message is one of the documents of the contract. -/
def HandleMsg.Legible (msg : HandleMsg) : Prop :=
  ∀ fromAddr bytes amount, msg ≠ .receive fromAddr (some (.other bytes)) amount

/-- The entry point on the bytes of a storage: whatever the bytes of the message are, it reads them
    and does what `handle` does, errors and panics included; and the bytes of a message are read as
    the message. -/
theorem deployed_call (serde : Serde) (storage : Storage) (env : Env) :
    (∀ bytes, (serde.doHandle env bytes).run (serde.storage storage)
      = serde.fromBinary serde.handleMsg bytes >>= fun msg =>
        serde.raw <$> handle storage env (serde.handleMsgOf msg)) ∧
    ∀ msg : HandleMsg, msg.Legible →
      (serde.doHandle env (serde.toBinary serde.handleMsg (serde.rawHandleMsg msg))).run
          (serde.storage storage)
        = serde.raw <$> handle storage env msg := by
  refine ⟨fun bytes => run_doHandle storage, ?_⟩
  intro msg hlegible
  rw [run_doHandle, serde.fromBinary_toBinary]
  show serde.raw <$> handle storage env (serde.handleMsgOf (serde.rawHandleMsg msg)) = _
  match msg with
  | .receive fromAddr (some b) amount =>
      have hdocument : fromBinary (serde.documentOf (serde.document b)) = fromBinary b := by
        rw [Serde.fromBinary_documentOf]
        refine Serde.fromBinary_document b ?_
        rintro bytes rfl
        exact hlegible fromAddr bytes amount rfl
      show serde.raw <$> handleFirstHop storage env fromAddr (serde.documentOf (serde.document b))
        amount = serde.raw <$> handleFirstHop storage env fromAddr b amount
      rw [handleFirstHop, hdocument, handleFirstHop]
  | .receive _ none _ => rfl
  | .finalizeRoute => rfl
  | .registerTokens _ => rfl
  | .rescueTokens _ _ _ => rfl

/-! ## The messages of a response -/

/-- What the contract emits: one coin of its own through the bank, a message to a token with at most
    one coin, and the two messages it sends itself. -/
inductive Serde.Emits (serde : Serde) (env : Env) : RawCosmosMsg → Prop
  | payment (toAddress : HumanAddr) (coin : Coin) :
      serde.Emits env (.bankSend env.contract.address toAddress [coin])
  | toToken {contractAddr : HumanAddr} {callbackCodeHash : String} {msg : Bytes}
      {send : List Coin} :
      blockSize ∣ msg.length → send.length ≤ 1 →
      serde.fromBinary serde.handleMsg msg = .error (.err .parseErr) →
      serde.Emits env (.execute contractAddr callbackCodeHash msg send)
  | finalizeRoute {msg : Bytes} :
      serde.fromBinary serde.handleMsg msg = .ok .finalizeRoute →
      serde.Emits env (.execute env.contract.address env.contractCodeHash msg [])
  | receive {msg : Bytes} {amount : Uint128} {denom : String} :
      serde.fromBinary serde.handleMsg msg = .ok (.receive env.contract.address none amount) →
      serde.Emits env
        (.execute env.contract.address env.contractCodeHash msg [⟨denom, amount⟩])

section Emits

variable {serde : Serde} {env : Env}

theorem emits_snip20 (msg : Snip20Msg) (callbackCodeHash : String) (contractAddr : HumanAddr) :
    serde.Emits env (serde.rawCosmosMsg (.snip20 msg blockSize callbackCodeHash contractAddr)) :=
  .toToken (serde.dvd_length_spacePad (by decide) _) (Nat.zero_le 1) (serde.fromBinary_snip20 _ _)

theorem emits_deposit (callbackCodeHash : String) (contractAddr : HumanAddr) (coin : Coin) :
    serde.Emits env (serde.rawCosmosMsg
      (depositToCosmosMsg none blockSize callbackCodeHash contractAddr (some coin))) :=
  .toToken (serde.dvd_length_spacePad (by decide) _) (Nat.le_refl 1) (serde.fromBinary_deposit _ _)

theorem emits_finalizeRoute : serde.Emits env (serde.rawCosmosMsg (finalizeRouteMsg env)) :=
  .finalizeRoute (serde.fromBinary_toBinary _ _)

theorem HopMessages.emits {hop : Hop} {amount : Uint128} {messages : List CosmosMsg}
    (h : HopMessages hop amount env messages) :
    ∀ message ∈ messages, serde.Emits env (serde.rawCosmosMsg message) := by
  cases h with
  | shade => exact List.forall_mem_singleton.2 (emits_snip20 _ _ _)
  | migrate =>
      exact List.forall_mem_cons.2
        ⟨emits_snip20 _ _ _, List.forall_mem_singleton.2 (emits_snip20 _ _ _)⟩
  | redeem =>
      refine List.forall_mem_cons.2 ⟨emits_snip20 _ _ _, List.forall_mem_singleton.2 ?_⟩
      exact .receive (serde.fromBinary_toBinary _ _)
  | swap => exact List.forall_mem_singleton.2 (emits_snip20 _ _ _)
  | deposit =>
      exact List.forall_mem_cons.2
        ⟨emits_deposit _ _ _, List.forall_mem_singleton.2 (emits_snip20 _ _ _)⟩

theorem LastHopMessages.emits {config : Config} {currentHop nextHop : Hop} {amount : Uint128}
    {route : Route} {messages : List CosmosMsg} {logs : List LogAttribute}
    (h : LastHopMessages config env currentHop nextHop amount route messages logs) :
    ∀ message ∈ messages, serde.Emits env (serde.rawCosmosMsg message) := by
  cases h with
  | snip20 => exact List.forall_mem_singleton.2 (emits_snip20 _ _ _)
  | snip20Excess =>
      exact List.forall_mem_cons.2
        ⟨emits_snip20 _ _ _, List.forall_mem_singleton.2 (emits_snip20 _ _ _)⟩
  | native => exact List.forall_mem_singleton.2 (.payment _ _)
  | nativeExcess =>
      exact List.forall_mem_cons.2 ⟨.payment _ _, List.forall_mem_singleton.2 (.payment _ _)⟩

theorem HandleStep.emits {storage storage' : Storage} {msg : HandleMsg} {response : HandleResponse}
    (h : HandleStep storage env msg response storage') :
    ∀ message ∈ response.messages, serde.Emits env (serde.rawCosmosMsg message) := by
  cases h with
  | firstHop _ _ _ hmsgs =>
      intro message hmessage
      rcases List.mem_append.1 hmessage with hmessage | hmessage
      · exact hmsgs.emits message hmessage
      · obtain rfl := List.mem_singleton.1 hmessage
        exact emits_finalizeRoute
  | @hop _ _ _ _ _ route _ _ _ _ _ _ hmsgs =>
      by_cases hlast : route.hops = []
      · exact ((nextHopMessages_of_nil hlast).1 hmsgs).emits
      · exact ((nextHopMessages_of_ne_nil hlast).1 hmsgs).1.emits
  | finalizeRoute => simp [HandleResponse.default]
  | registerTokens tokens =>
      intro message hmessage
      obtain ⟨token, _, rfl⟩ := List.mem_map.1 hmessage
      exact emits_snip20 _ _ _
  | rescueTokens =>
      intro message hmessage
      rcases List.mem_append.1 hmessage with hmessage | hmessage
      · obtain ⟨denom, _, rfl⟩ := List.mem_map.1 hmessage
        exact .payment _ _
      · obtain ⟨token, _, rfl⟩ := List.mem_map.1 hmessage
        exact emits_snip20 _ _ _

/-- Whatever bytes it is called with, on the bytes of any `Storage` the contract emits nothing else:
    what goes to tokens is padded to whole blocks and could not pass for a message to the contract,
    and the only messages to the contract are `FinalizeRoute` and the `Receive` of its own coin. -/
theorem emitted_bytes (serde : Serde) (storage : Storage) (env : Env) (bytes : Bytes)
    (response : RawHandleResponse) (post : RawStorage)
    (h : (serde.doHandle env bytes).run (serde.storage storage) = .ok (response, post)) :
    ∀ message ∈ response.messages, serde.Emits env message := by
  obtain ⟨e, _, he⟩ := RawEvent.exists_asBytes ⟨_, _, _, _, _, h⟩ rfl
  obtain ⟨pre, env', msg, response', post', ok⟩ := e
  obtain rfl : response = serde.rawResponse response' := he.response
  obtain rfl : env = env' := he.env
  intro message hmessage
  obtain ⟨message, hmem, rfl⟩ := List.mem_map.1 hmessage
  exact (handle_iff.1 ok).emits message hmem

end Emits

/-- At the first call of the swap of the fixtures, with the text of `textSerde`. -/
theorem emitted_bytes_mockSwap :
    let env := mockContract.env mockSscrt.address []
    let bytes := textSerde.toBinary textSerde.handleMsg (textSerde.rawHandleMsg
      (.receive mockUserAddress (some (.route mockSwapRoute)) ⟨12, by decide⟩))
    ∃ response post,
      (textSerde.doHandle env bytes).run (textSerde.storage mockStorage) = .ok (response, post) ∧
      ∀ message ∈ response.messages, textSerde.Emits env message := by
  intro env bytes
  let e : Event := ⟨mockStorage, env, .receive mockUserAddress (some (.route mockSwapRoute))
    ⟨12, by decide⟩, _, _, rfl⟩
  obtain ⟨r, hmsg, he⟩ := e.exists_raw (textSerde.fromBinary_toBinary textSerde.handleMsg _)
    (e.handleMsgOf_rawHandleMsg textSerde)
  have hok := r.ok
  rw [he.pre, he.env, hmsg] at hok
  exact ⟨r.response, r.post, hok,
    emitted_bytes textSerde mockStorage env bytes r.response r.post hok⟩

end DexAggregator
