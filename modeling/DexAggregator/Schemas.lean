import DexAggregator.Json.Schema
import DexAggregator.Deployed

set_option autoImplicit false

/-! # The published schemas

The files of `schema/`, and that the entry points keep to them: bytes that are read as a document
which its schema refuses are refused, and every message to the contract that is written is a
document which its schema admits (`entry_points_meet_schemas`). -/

namespace DexAggregator

open Json (Codec Schema Variants)

namespace Schemas

/-! ## The definitions -/

def binary : Schema := Schema.type [.string]

def humanAddr : Schema := Schema.type [.string]

def uint128 : Schema := Schema.type [.string]

def secretContract : Schema :=
  Schema.object ["address", "contract_hash"]
    [("address", humanAddr), ("contract_hash", Schema.type [.string])]

/-! ## The messages -/

def initMsg : Schema := Schema.type [.object]

def handleMsg : Schema := Schema.anyOf [
  Schema.variant "receive" (Schema.object ["amount", "from"]
    [("amount", uint128), ("from", humanAddr),
      ("msg", Schema.anyOf [binary, Schema.type [.null]])]),
  Schema.variant "finalize_route" (Schema.type [.object]),
  Schema.variant "register_tokens" (Schema.object ["tokens"]
    [("tokens", Schema.array secretContract)]),
  Schema.variant "rescue_tokens" (Schema.object ["amount"]
    [("amount", uint128), ("denom", Schema.type [.string, .null]),
      ("token", Schema.anyOf [secretContract, Schema.type [.null]])])]

def queryMsg : Schema := Schema.anyOf [Schema.variant "config" (Schema.type [.object])]

end Schemas

/-! ## The codecs meet the schemas -/

theorem Uint128.codec_meets : Uint128.codec.Meets Schemas.uint128 :=
  (Json.string_meets (by decide)).refine _ _ _

theorem SecretContract.codec_meets : SecretContract.codec.Meets Schemas.secretContract := by
  have hstring : Json.string.Meets (Schema.type [.string]) := Json.string_meets (by decide)
  refine (((Json.Fields.nil_meets.consRequired hstring).consRequired hstring).object ?_ ?_).refine
    _ _ _
  · simp
  · simp [Schemas.humanAddr]

/-- A record without fields. -/
theorem object_nil_meets : (Json.object .nil).Meets (Schema.type [.object]) := by
  intro doc a hdoc
  cases doc with
  | obj => rfl
  | _ => cases hdoc

theorem initMsg_meets : initMsg.Meets Schemas.initMsg := object_nil_meets

theorem QueryMsg.codec_meets : QueryMsg.codec.Meets Schemas.queryMsg :=
  (object_nil_meets.single "config").tagged.refine _ _ _

theorem Serde.handleMsg_meets (serde : Serde) : serde.handleMsg.Meets Schemas.handleMsg := by
  have hstring : Json.string.Meets (Schema.type [.string]) := Json.string_meets (by decide)
  have hbinary : serde.binary.Meets Schemas.binary := hstring.refine _ _ _
  have hmsg : serde.binary.Meets (Schema.anyOf [Schemas.binary, Schema.type [.null]]) :=
    hbinary.anyOf List.mem_cons_self
  have hdenom : Json.string.Meets (Schema.type [.string, .null]) := Json.string_meets (by decide)
  have htoken : SecretContract.codec.Meets
      (Schema.anyOf [Schemas.secretContract, Schema.type [.null]]) :=
    SecretContract.codec_meets.anyOf List.mem_cons_self
  -- the schema of a record lists its fields in alphabetical order
  refine (Json.Variants.Meets.tagged (.cons (.cons (.cons (Codec.Meets.single ?_ _) ?_ _)
    object_nil_meets _) ?_ _)).refine _ _ _
  · refine (((Json.Fields.nil_meets.cons (htoken.optional rfl)).cons
      (hdenom.optional rfl)).consRequired Uint128.codec_meets).object ?_ ?_
    · simp
    · simp
  · refine (Json.Fields.nil_meets.consRequired SecretContract.codec_meets.list).object ?_ ?_
    · simp
    · simp
  · refine (((Json.Fields.nil_meets.consRequired Uint128.codec_meets).cons
      (hmsg.optional rfl)).consRequired hstring).object ?_ ?_
    · simp
    · simp [Schemas.humanAddr]

/-! ## The entry points -/

section EntryPoints

variable {serde : Serde} {α : Type} {c : Codec α} {S : Schema}

theorem fromBinary_of_refused (hmeets : c.Meets S) {bytes : Bytes} {doc : Json}
    (hdoc : serde.fromSlice bytes = some doc) (hrefused : S doc = false) :
    serde.fromBinary c bytes = .error (.err .parseErr) := by
  rw [Serde.fromBinary, hdoc, Option.bind_some, hmeets.decode_eq_none hrefused]

theorem toBinary_eq_toVec (hmeets : c.Meets S) (a : α) :
    ∃ doc, serde.toBinary c a = serde.toVec doc ∧ S doc = true :=
  ⟨c.encode a, rfl, hmeets _ a (c.decode_encode a)⟩

end EntryPoints

/-- The entry points keep to the published schemas, whatever the storage holds: bytes that are read
    as a document which the schema refuses are refused with a parse error, and what is written as a
    message to the contract is the text of a document which the schema admits. -/
theorem entry_points_meet_schemas (serde : Serde) (env : Env) (storage : RawStorage) :
    (∀ bytes doc, serde.fromSlice bytes = some doc → Schemas.initMsg doc = false →
      (serde.doInit env bytes).run storage = .error (.err .parseErr)) ∧
    (∀ bytes doc, serde.fromSlice bytes = some doc → Schemas.handleMsg doc = false →
      (serde.doHandle env bytes).run storage = .error (.err .parseErr)) ∧
    (∀ bytes doc, serde.fromSlice bytes = some doc → Schemas.queryMsg doc = false →
      (serde.doQuery bytes).run storage = .error (.err .parseErr)) ∧
    (∃ doc, serde.toBinary initMsg () = serde.toVec doc ∧ Schemas.initMsg doc = true) ∧
    (∀ msg, ∃ doc, serde.toBinary serde.handleMsg msg = serde.toVec doc ∧
      Schemas.handleMsg doc = true) ∧
    ∀ msg, ∃ doc, serde.toBinary QueryMsg.codec msg = serde.toVec doc ∧
      Schemas.queryMsg doc = true := by
  refine ⟨?_, ?_, ?_, toBinary_eq_toVec initMsg_meets (),
    toBinary_eq_toVec serde.handleMsg_meets, toBinary_eq_toVec QueryMsg.codec_meets⟩
  · intro bytes doc hdoc hrefused
    rw [Serde.doInit, fromBinary_of_refused initMsg_meets hdoc hrefused]
    rfl
  · intro bytes doc hdoc hrefused
    rw [Serde.doHandle, fromBinary_of_refused serde.handleMsg_meets hdoc hrefused]
    rfl
  · intro bytes doc hdoc hrefused
    rw [Serde.doQuery, fromBinary_of_refused QueryMsg.codec_meets hdoc hrefused]
    rfl

end DexAggregator
