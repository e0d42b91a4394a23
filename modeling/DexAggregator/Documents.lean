import DexAggregator.Json.Codec
import DexAggregator.Contract

set_option autoImplicit false

/-! # The documents of the contract

How the types of `state.rs` and `msg.rs` are read from and written to JSON by their derived
serializers, and with that the messages of the contract as the bytes they are sent as. What the
libraries do with bytes is a parameter (`Serde`).

The tags of the messages that the contract sends to tokens are not tags of `HandleMsg`, so that none
of them decodes as one (`fromBinary_snip20`, `fromBinary_deposit`). -/

namespace DexAggregator

open Json (Codec Fields Variants Member string list object tagged required optional)

/-! ## `Uint128` -/

/-- The digits of a decimal number that fits 128 bits. -/
def Uint128.ofDigits (digits : List Char) : Option Uint128 :=
  if digits ≠ [] ∧ digits.all Char.isDigit then
    if h : Nat.ofDigitChars 10 digits 0 < 2 ^ 128 then some ⟨Nat.ofDigitChars 10 digits 0, h⟩
    else none
  else none

/-- `str::parse::<u128>`, which allows for a plus sign. -/
def Uint128.parse (text : String) : Option Uint128 :=
  match text.toList with
  | '+' :: digits => Uint128.ofDigits digits
  | digits => Uint128.ofDigits digits

/-- `Uint128::to_string`. -/
def Uint128.text (amount : Uint128) : String := toString amount.u128

theorem Uint128.ofDigits_toDigits (amount : Uint128) :
    Uint128.ofDigits (Nat.toDigits 10 amount.u128) = some amount := by
  have hdigits : Nat.toDigits 10 amount.u128 ≠ [] ∧
      (Nat.toDigits 10 amount.u128).all Char.isDigit = true :=
    ⟨Nat.toDigits_ne_nil, List.all_eq_true.2 fun c hc =>
      Nat.isDigit_of_mem_toDigits (by decide) (by decide) hc⟩
  simp only [Uint128.ofDigits, if_pos hdigits, Nat.ofDigitChars_ten_toDigits]
  exact dif_pos amount.isLt

theorem Uint128.parse_text (amount : Uint128) : Uint128.parse amount.text = some amount := by
  have hplus : '+' ∉ Nat.toDigits 10 amount.u128 :=
    fun hmem => absurd (Nat.isDigit_of_mem_toDigits (by decide) (by decide) hmem) (by decide)
  have hparse := Uint128.ofDigits_toDigits amount
  have htext : amount.text.toList = Nat.toDigits 10 amount.u128 := Nat.toList_repr
  rw [Uint128.parse, htext]
  split
  · next digits heq =>
      rw [heq] at hplus
      exact absurd List.mem_cons_self hplus
  · exact hparse

/-- A `Uint128` is a string in a document. -/
def Uint128.codec : Codec Uint128 :=
  string.refine Uint128.text Uint128.parse Uint128.parse_text

/-! ## `state.rs` -/

def SecretContract.codec : Codec SecretContract :=
  (object (.cons "address" (required string) (.cons "contract_hash" (required string) .nil
    (by decide)) (by decide))).refine (fun c => (c.address, c.contractHash, ()))
    (fun (address, contractHash, _) => some ⟨address, contractHash⟩) (fun _ => rfl)

def SecretContractForShadeProtocol.codec : Codec SecretContractForShadeProtocol :=
  (object (.cons "addr" (required string) (.cons "code_hash" (required string) .nil
    (by decide)) (by decide))).refine (fun c => (c.addr, c.codeHash, ()))
    (fun (addr, codeHash, _) => some ⟨addr, codeHash⟩) (fun _ => rfl)

def Token.codec : Codec Token :=
  (tagged (.cons "snip20" SecretContract.codec (.single "native" SecretContract.codec)
    (by decide))).refine
    (fun token => match token with
      | .snip20 contract => .inl contract
      | .native contract => .inr contract)
    (fun token => match token with
      | .inl contract => some (.snip20 contract)
      | .inr contract => some (.native contract))
    (fun token => by cases token <;> rfl)

def Hop.codec : Codec Hop :=
  (object (.cons "from_token" (required Token.codec)
    (.cons "smart_contract" (optional SecretContract.codec)
    (.cons "redeem_denom" (optional string)
    (.cons "migrate_to_token" (optional SecretContract.codec)
    (.cons "shade_protocol_router_path" (optional (list SecretContractForShadeProtocol.codec))
    .nil (by decide)) (by decide)) (by decide)) (by decide)) (by decide))).refine
    (fun hop => (hop.fromToken, hop.smartContract, hop.redeemDenom, hop.migrateToToken,
      hop.shadeProtocolRouterPath, ()))
    (fun (fromToken, smartContract, redeemDenom, migrateToToken, path, _) =>
      some ⟨fromToken, smartContract, redeemDenom, migrateToToken, path⟩)
    (fun _ => rfl)

/-- The fields of a route after its hops. -/
def Route.laterFields : Fields (Uint128 × Uint128 × HumanAddr × Unit) :=
  .cons "estimated_amount" (required Uint128.codec)
    (.cons "minimum_acceptable_amount" (required Uint128.codec)
    (.cons "to" (required string) .nil (by decide)) (by decide)) (by decide)

def Route.codec : Codec Route :=
  (object (.cons "hops" (required (list Hop.codec)) Route.laterFields (by decide))).refine
    (fun route => (route.hops, route.estimatedAmount, route.minimumAcceptableAmount, route.to, ()))
    (fun (hops, estimatedAmount, minimumAcceptableAmount, receiver, _) =>
      some ⟨hops, estimatedAmount, minimumAcceptableAmount, receiver⟩)
    (fun _ => rfl)

def RouteState.codec : Codec RouteState :=
  (object (.cons "current_hop" (required Hop.codec)
    (.cons "remaining_route" (required Route.codec) .nil (by decide)) (by decide))).refine
    (fun state => (state.currentHop, state.remainingRoute, ()))
    (fun (currentHop, remainingRoute, _) => some ⟨currentHop, remainingRoute⟩) (fun _ => rfl)

def Config.codec : Codec Config :=
  (object (.cons "admin" (required string) .nil (by decide))).refine
    (fun config => (config.admin, ())) (fun (admin, _) => some ⟨admin⟩) (fun _ => rfl)

/-! ## Bytes -/

abbrev Bytes := List UInt8

/-- `CONFIG_KEY` of `constants.rs`. -/
def configKey : Bytes := "config".toList.map Char.toUInt8

/-- `KEY_ROUTE_STATE` of `constants.rs`. -/
def keyRouteState : Bytes := "route_state".toList.map Char.toUInt8

/-- A call of `secret_toolkit::snip20` with the attached document as bytes. -/
inductive RawSnip20Msg where
  | send (recipient : HumanAddr) (amount : Uint128) (msg : Option Bytes) (padding : Option String)
  | transfer (recipient : HumanAddr) (amount : Uint128) (padding : Option String)
  | redeem (amount : Uint128) (denom : Option String) (padding : Option String)
  | registerReceive (codeHash : String) (padding : Option String)

/-- The tag of a message in the interface of SNIP-20 tokens. -/
def RawSnip20Msg.tag : RawSnip20Msg → String
  | .send _ _ _ _ => "send"
  | .transfer _ _ _ => "transfer"
  | .redeem _ _ _ => "redeem"
  | .registerReceive _ _ => "register_receive"

/-- What the libraries of the contract do with bytes. -/
structure Serde where
  /-- The text that is written for a document, and the document that bytes are read as. Spaces after
      a text do not matter. -/
  toVec : Json → Bytes
  fromSlice : Bytes → Option Json
  spacePad : ℕ → Bytes → Bytes
  fromSlice_toVec : ∀ doc, fromSlice (toVec doc) = some doc
  fromSlice_spacePad : ∀ blockSize doc, fromSlice (spacePad blockSize (toVec doc)) = some doc
  dvd_length_spacePad : ∀ {blockSize}, 0 < blockSize → ∀ bytes,
    blockSize ∣ (spacePad blockSize bytes).length
  /-- The string that a `Binary` is in a document. -/
  toBase64 : Bytes → String
  fromBase64 : String → Option Bytes
  fromBase64_toBase64 : ∀ bytes, fromBase64 (toBase64 bytes) = some bytes
  /-- The documents of the toolkit. -/
  snip20 : RawSnip20Msg → Json
  snip20_eq : ∀ msg, ∃ payload, snip20 msg = .obj [(msg.tag, payload)]
  /-- What a `TypedStore` stores for a `Config`. -/
  serialize : Config → Bytes
  deserialize : Bytes → Option Config
  deserialize_serialize : ∀ config, deserialize (serialize config) = some config
  /-- The key of a `Singleton`: the key it is given after two bytes with its length. -/
  toLengthPrefixed : Bytes → Bytes
  length_toLengthPrefixed : ∀ key, (toLengthPrefixed key).length = key.length + 2

/-! ## `msg.rs` -/

/-- `HandleMsg` with the attached document as bytes. -/
inductive RawHandleMsg where
  | receive (fromAddr : HumanAddr) (msg : Option Bytes) (amount : Uint128)
  | finalizeRoute
  | registerTokens (tokens : List SecretContract)
  | rescueTokens (amount : Uint128) (denom : Option String) (token : Option SecretContract)

/-- `InitMsg`, which has no fields. -/
def initMsg : Codec Unit := object .nil

inductive QueryMsg where
  | config
deriving DecidableEq

def QueryMsg.codec : Codec QueryMsg :=
  (tagged (.single "config" (object .nil))).refine (fun _ => ()) (fun _ => some .config)
    (fun _ => rfl)

/-- `Snip20::Deposit`, by its padding. -/
def depositCodec : Codec (Option String × Unit) :=
  tagged (.single "deposit" (object (.cons "padding" (optional string) .nil (by decide))))

/-- `Snip20Swap::Swap`, by its expected return and its recipient. -/
def swapCodec : Codec (Option Uint128 × Option HumanAddr × Unit) :=
  tagged (.single "swap" (object (.cons "expected_return" (optional Uint128.codec)
    (.cons "to" (optional string) .nil (by decide)) (by decide))))

/-- `ShadeProtocol::SwapTokensForExact`, by its path. -/
def swapTokensForExactCodec : Codec (List SecretContractForShadeProtocol × Unit) :=
  tagged (.single "swap_tokens_for_exact" (object (.cons "path"
    (required (list SecretContractForShadeProtocol.codec)) .nil (by decide))))

namespace Serde

variable (serde : Serde)

/-- A `Binary` in a document. -/
def binary : Codec Bytes :=
  string.refine serde.toBase64 serde.fromBase64 serde.fromBase64_toBase64

/-- The fields of `HandleMsg::Receive`. -/
def receiveFields : Fields (HumanAddr × Option Bytes × Uint128 × Unit) :=
  .cons "from" (required string) (.cons "msg" (optional serde.binary)
    (.cons "amount" (required Uint128.codec) .nil (by decide)) (by decide))
    (show "from" ∉ ["msg", "amount"] by decide)

/-- The variants of `HandleMsg`. -/
def handleMsgVariants : Variants
    ((HumanAddr × Option Bytes × Uint128 × Unit) ⊕ Unit ⊕ (List SecretContract × Unit) ⊕
      (Uint128 × Option String × Option SecretContract × Unit)) :=
  .cons "receive" (object serde.receiveFields)
    (.cons "finalize_route" (object .nil)
    (.cons "register_tokens" (object (.cons "tokens" (required (list SecretContract.codec)) .nil
      (by decide)))
    (.single "rescue_tokens" (object (.cons "amount" (required Uint128.codec)
      (.cons "denom" (optional string) (.cons "token" (optional SecretContract.codec) .nil
      (by decide)) (by decide)) (by decide)))) (by decide)) (by decide)) (by decide)

def handleMsg : Codec RawHandleMsg :=
  (tagged serde.handleMsgVariants).refine
    (fun msg => match msg with
      | .receive fromAddr msg amount => .inl (fromAddr, msg, amount, ())
      | .finalizeRoute => .inr (.inl ())
      | .registerTokens tokens => .inr (.inr (.inl (tokens, ())))
      | .rescueTokens amount denom token => .inr (.inr (.inr (amount, denom, token, ()))))
    (fun variant => match variant with
      | .inl (fromAddr, msg, amount, _) => some (.receive fromAddr msg amount)
      | .inr (.inl _) => some .finalizeRoute
      | .inr (.inr (.inl (tokens, _))) => some (.registerTokens tokens)
      | .inr (.inr (.inr (amount, denom, token, _))) => some (.rescueTokens amount denom token))
    (fun msg => by cases msg <;> rfl)

/-- `to_binary`. -/
def toBinary {α : Type} (c : Codec α) (a : α) : Bytes := serde.toVec (c.encode a)

/-- `from_binary`. -/
def fromBinary {α : Type} (c : Codec α) (bytes : Bytes) : Outcome α :=
  match (serde.fromSlice bytes).bind c.decode with
  | some a => .ok a
  | none => .error (.err .parseErr)

@[simp] theorem fromBinary_toBinary {α : Type} (c : Codec α) (a : α) :
    serde.fromBinary c (serde.toBinary c a) = .ok a := by
  simp [fromBinary, toBinary, serde.fromSlice_toVec, c.decode_encode]

/-- No message to a token decodes as a message to the contract. -/
theorem handleMsg_decode_snip20 (msg : RawSnip20Msg) :
    serde.handleMsg.decode (serde.snip20 msg) = none := by
  obtain ⟨payload, hpayload⟩ := serde.snip20_eq msg
  have htag : msg.tag ∉ serde.handleMsgVariants.tags := by
    show msg.tag ∉ ["receive", "finalize_route", "register_tokens", "rescue_tokens"]
    cases msg <;> simp [RawSnip20Msg.tag]
  rw [hpayload]
  exact Codec.decode_refine_eq_none (Json.tagged_decode_of_not_mem htag payload) _ _ _

theorem handleMsg_decode_deposit (padding : Option String × Unit) :
    serde.handleMsg.decode (depositCodec.encode padding) = none := by
  refine Codec.decode_refine_eq_none (Json.tagged_decode_eq_none ?_ padding) _ _ _
  show ∀ tag ∈ ["deposit"],
    tag ∉ ["receive", "finalize_route", "register_tokens", "rescue_tokens"]
  decide

theorem fromBinary_snip20 (blockSize : ℕ) (msg : RawSnip20Msg) :
    serde.fromBinary serde.handleMsg (serde.spacePad blockSize (serde.toVec (serde.snip20 msg)))
      = .error (.err .parseErr) := by
  rw [fromBinary, serde.fromSlice_spacePad, Option.bind_some, handleMsg_decode_snip20]

theorem fromBinary_deposit (blockSize : ℕ) (padding : Option String × Unit) :
    serde.fromBinary serde.handleMsg
        (serde.spacePad blockSize (serde.toBinary depositCodec padding))
      = .error (.err .parseErr) := by
  rw [fromBinary, toBinary, serde.fromSlice_spacePad, Option.bind_some, handleMsg_decode_deposit]

end Serde

end DexAggregator
