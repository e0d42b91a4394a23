import Mathlib.Tactic.IntervalCases
import Mathlib.Data.Nat.Notation

set_option autoImplicit false

/-! # Characters as bytes and bytes as characters

UTF-8 on lists of bytes, and base64 with padding. -/

namespace Json

/-! ## UTF-8 -/

def utf8 (text : List Char) : List UInt8 := (String.ofList text).toByteArray.data.toList

def ofUtf8 (bytes : List UInt8) : Option (List Char) :=
  (ByteArray.mk bytes.toArray).utf8Decode?.map Array.toList

theorem ofUtf8_utf8 (text : List Char) : ofUtf8 (utf8 text) = some text := by
  have hbytes : ByteArray.mk (utf8 text).toArray = text.utf8Encode := by
    rw [utf8, Array.toArray_toList, String.toByteArray_ofList]
  rw [ofUtf8, hbytes, List.utf8Decode?_utf8Encode]
  rfl

theorem utf8_append (text text' : List Char) : utf8 (text ++ text') = utf8 text ++ utf8 text' := by
  simp [utf8]

/-- A character of one byte, repeated. -/
theorem utf8_replicate {c : Char} {b : UInt8} (h : utf8 [c] = [b]) (n : ℕ) :
    utf8 (List.replicate n c) = List.replicate n b := by
  induction n with
  | zero => rfl
  | succ n ih =>
      rw [List.replicate_succ, List.replicate_succ, ← List.singleton_append, utf8_append, h, ih,
        List.singleton_append]

/-! ## Base64 -/

namespace Base64

/-- The character of six bits. -/
def digit (n : ℕ) : Char :=
  if n < 26 then Char.ofNat ('A'.toNat + n)
  else if n < 52 then Char.ofNat ('a'.toNat + (n - 26))
  else if n < 62 then Char.ofNat ('0'.toNat + (n - 52))
  else if n = 62 then '+'
  else '/'

def value (c : Char) : Option ℕ :=
  if 'A' ≤ c ∧ c ≤ 'Z' then some (c.toNat - 'A'.toNat)
  else if 'a' ≤ c ∧ c ≤ 'z' then some (c.toNat - 'a'.toNat + 26)
  else if '0' ≤ c ∧ c ≤ '9' then some (c.toNat - '0'.toNat + 52)
  else if c = '+' then some 62
  else if c = '/' then some 63
  else none

/-- Three bytes are four digits; what is left over is padded. -/
def encode : List UInt8 → List Char
  | [] => []
  | [a] => [digit (a.toNat / 4), digit (a.toNat % 4 * 16), '=', '=']
  | [a, b] => [digit (a.toNat / 4), digit (a.toNat % 4 * 16 + b.toNat / 16),
      digit (b.toNat % 16 * 4), '=']
  | a :: b :: c :: rest => digit (a.toNat / 4) :: digit (a.toNat % 4 * 16 + b.toNat / 16) ::
      digit (b.toNat % 16 * 4 + c.toNat / 64) :: digit (c.toNat % 64) :: encode rest

def byte (n : ℕ) : UInt8 := UInt8.ofNat n

def decode : List Char → Option (List UInt8)
  | [] => some []
  | p :: q :: r :: s :: rest => do
    let p ← value p
    let q ← value q
    if r = '=' ∧ s = '=' ∧ rest = [] then some [byte (p * 4 + q / 16)]
    else do
      let r ← value r
      if s = '=' ∧ rest = [] then some [byte (p * 4 + q / 16), byte (q % 16 * 16 + r / 4)]
      else do
        let s ← value s
        let rest ← decode rest
        return byte (p * 4 + q / 16) :: byte (q % 16 * 16 + r / 4) :: byte (r % 4 * 64 + s) :: rest
  | _ => none

theorem value_digit {n : ℕ} (h : n < 64) : value (digit n) = some n := by
  interval_cases n <;> rfl

theorem digit_ne_pad {n : ℕ} (h : n < 64) : digit n ≠ '=' := by
  intro heq
  have hvalue := value_digit h
  rw [heq] at hvalue
  cases hvalue

theorem byte_eq {a : UInt8} {n : ℕ} (h : n = a.toNat) : byte n = a := by
  rw [h, byte, UInt8.ofNat_toNat]

theorem decode_encode (bytes : List UInt8) : decode (encode bytes) = some bytes := by
  fun_induction encode bytes with
  | case1 => rfl
  | case2 a =>
      have ha := a.toNat_lt
      have hfirst : byte (a.toNat / 4 * 4 + a.toNat % 4 * 16 / 16) = a := byte_eq (by omega)
      simp only [decode, value_digit (show a.toNat / 4 < 64 by omega),
        value_digit (show a.toNat % 4 * 16 < 64 by omega), Option.bind_eq_bind, Option.bind_some,
        and_self, if_true, hfirst]
  | case3 a b =>
      have ha := a.toNat_lt
      have hb := b.toNat_lt
      have hfirst : byte (a.toNat / 4 * 4 + (a.toNat % 4 * 16 + b.toNat / 16) / 16) = a :=
        byte_eq (by omega)
      have hsecond : byte ((a.toNat % 4 * 16 + b.toNat / 16) % 16 * 16 + b.toNat % 16 * 4 / 4)
          = b := byte_eq (by omega)
      have hthird : b.toNat % 16 * 4 < 64 := by omega
      simp only [decode, value_digit (show a.toNat / 4 < 64 by omega),
        value_digit (show a.toNat % 4 * 16 + b.toNat / 16 < 64 by omega), value_digit hthird,
        digit_ne_pad hthird, Option.bind_eq_bind, Option.bind_some, false_and, if_false, and_self,
        if_true, hfirst, hsecond]
  | case4 a b c rest ih =>
      have ha := a.toNat_lt
      have hb := b.toNat_lt
      have hc := c.toNat_lt
      have hfirst : byte (a.toNat / 4 * 4 + (a.toNat % 4 * 16 + b.toNat / 16) / 16) = a :=
        byte_eq (by omega)
      have hsecond : byte ((a.toNat % 4 * 16 + b.toNat / 16) % 16 * 16
          + (b.toNat % 16 * 4 + c.toNat / 64) / 4) = b := byte_eq (by omega)
      have hlast : byte ((b.toNat % 16 * 4 + c.toNat / 64) % 4 * 64 + c.toNat % 64) = c :=
        byte_eq (by omega)
      have hthird : b.toNat % 16 * 4 + c.toNat / 64 < 64 := by omega
      have hfourth : c.toNat % 64 < 64 := by omega
      simp only [decode, value_digit (show a.toNat / 4 < 64 by omega),
        value_digit (show a.toNat % 4 * 16 + b.toNat / 16 < 64 by omega), value_digit hthird,
        value_digit hfourth, digit_ne_pad hthird, digit_ne_pad hfourth, Option.bind_eq_bind,
        Option.bind_some, false_and, if_false, ih, hfirst, hsecond, hlast, pure]

end Base64

end Json
