import DexAggregator.Json.Text
import DexAggregator.Json.Bytes
import DexAggregator.Documents

set_option autoImplicit false

/-! # One instance of the libraries

A `Serde` that can be executed: documents are JSON text in UTF-8, a `Binary` is base64 with padding,
a stored `Config` is the length of its string in eight bytes and the string, and messages to tokens
are those of the SNIP-20 standard. It shows that the laws of a `Serde` can be met. On malformed
text its readers are not those of the libraries: the contract's JSON reader does not look at the
values of unknown fields and allows for raw control characters in strings, and its base64 reader
allows for missing padding but not for bits that are left over. -/

namespace DexAggregator

open Json (utf8 ofUtf8)

namespace Encoding

/-- `space_pad`: spaces up to a multiple of the block size. -/
def spacePad (blockSize : ℕ) (bytes : Bytes) : Bytes :=
  if bytes.length % blockSize = 0 then bytes
  else bytes ++ List.replicate (blockSize - bytes.length % blockSize) ' '.toUInt8

def fromSlice (bytes : Bytes) : Option Json := (ofUtf8 bytes).bind Json.parse

theorem fromSlice_spacePad (blockSize : ℕ) (doc : Json) :
    fromSlice (spacePad blockSize (utf8 doc.text)) = some doc := by
  have hread : ∀ n, fromSlice (utf8 (doc.text ++ List.replicate n ' ')) = some doc := by
    intro n
    rw [fromSlice, Json.ofUtf8_utf8, Option.bind_some]
    refine Json.parse_text doc _ ?_
    intro c hc
    rw [List.eq_of_mem_replicate hc]
    rfl
  unfold spacePad
  split
  · have hnone := hread 0
    rwa [List.replicate_zero, List.append_nil] at hnone
  · have hspaces : utf8 [' '] = [' '.toUInt8] := rfl
    rw [← Json.utf8_replicate hspaces, ← Json.utf8_append]
    exact hread _

theorem dvd_length_spacePad {blockSize : ℕ} (hpos : 0 < blockSize) (bytes : Bytes) :
    blockSize ∣ (spacePad blockSize bytes).length := by
  have hlt := Nat.mod_lt bytes.length hpos
  have hdiv := Nat.div_add_mod bytes.length blockSize
  unfold spacePad
  split
  · next h => exact Nat.dvd_of_mod_eq_zero h
  · refine ⟨bytes.length / blockSize + 1, ?_⟩
    rw [List.length_append, List.length_replicate, Nat.mul_add, Nat.mul_one]
    omega

def toBase64 (bytes : Bytes) : String := String.ofList (Json.Base64.encode bytes)

def fromBase64 (text : String) : Option Bytes := Json.Base64.decode text.toList

theorem fromBase64_toBase64 (bytes : Bytes) : fromBase64 (toBase64 bytes) = some bytes := by
  rw [fromBase64, toBase64, String.toList_ofList, Json.Base64.decode_encode]

/-- An optional string of a message. -/
def orNull : Option String → Json
  | none => .null
  | some s => .str s

/-- The messages of the SNIP-20 standard. -/
def snip20 (msg : RawSnip20Msg) : Json :=
  .obj [(msg.tag, .obj (match msg with
    | .send recipient amount msg padding => [("recipient", .str recipient),
        ("amount", .str amount.text), ("msg", orNull (msg.map toBase64)),
        ("padding", orNull padding)]
    | .transfer recipient amount padding => [("recipient", .str recipient),
        ("amount", .str amount.text), ("padding", orNull padding)]
    | .redeem amount denom padding => [("amount", .str amount.text), ("denom", orNull denom),
        ("padding", orNull padding)]
    | .registerReceive codeHash padding => [("code_hash", .str codeHash),
        ("padding", orNull padding)]))]

/-- A length in eight bytes. -/
def lengthBytes (n : ℕ) : Bytes := (List.range 8).map fun i => UInt8.ofNat (n / 256 ^ i)

def serialize (config : Config) : Bytes :=
  lengthBytes (utf8 config.admin.toList).length ++ utf8 config.admin.toList

def deserialize (bytes : Bytes) : Option Config :=
  if bytes.take 8 = lengthBytes (bytes.drop 8).length then
    (ofUtf8 (bytes.drop 8)).map fun admin => ⟨String.ofList admin⟩
  else none

theorem deserialize_serialize (config : Config) : deserialize (serialize config) = some config := by
  have hlength : (lengthBytes (utf8 config.admin.toList).length).length = 8 := rfl
  have htake := @List.take_left' _ _ (utf8 config.admin.toList) _ hlength
  have hdrop := @List.drop_left' _ _ (utf8 config.admin.toList) _ hlength
  rw [deserialize, serialize, htake, hdrop, if_pos rfl, Json.ofUtf8_utf8]
  simp

/-- The two bytes of a length in front of a key. -/
def toLengthPrefixed (key : Bytes) : Bytes :=
  UInt8.ofNat (key.length / 256) :: UInt8.ofNat key.length :: key

end Encoding

/-- Strict JSON text and padded base64. -/
def textSerde : Serde where
  toVec doc := utf8 doc.text
  fromSlice := Encoding.fromSlice
  spacePad := Encoding.spacePad
  fromSlice_toVec doc := by
    have hnone := Json.parse_text doc [] (by simp)
    rw [List.append_nil] at hnone
    rw [Encoding.fromSlice, Json.ofUtf8_utf8, Option.bind_some, hnone]
  fromSlice_spacePad := Encoding.fromSlice_spacePad
  dvd_length_spacePad := Encoding.dvd_length_spacePad
  toBase64 := Encoding.toBase64
  fromBase64 := Encoding.fromBase64
  fromBase64_toBase64 := Encoding.fromBase64_toBase64
  snip20 := Encoding.snip20
  snip20_eq _ := ⟨_, rfl⟩
  serialize := Encoding.serialize
  deserialize := Encoding.deserialize
  deserialize_serialize := Encoding.deserialize_serialize
  toLengthPrefixed := Encoding.toLengthPrefixed
  length_toLengthPrefixed _ := rfl

end DexAggregator
