import Mathlib.Data.List.TakeWhile
import Mathlib.Tactic.IntervalCases
import DexAggregator.Json.Codec

set_option autoImplicit false

/-! # The text of JSON documents

A writer of documents without white space and a reader that allows for it, and the round trip
(`Json.parse_text`). The reader takes fuel, of which the length of the text is enough. -/

namespace Json

/-! ## Strings -/

/-- The character that stands for another one after a backslash. -/
def shortEscape? : Char → Option Char
  | '"' => some '"'
  | '\\' => some '\\'
  | '\n' => some 'n'
  | '\r' => some 'r'
  | '\t' => some 't'
  | _ => none

def ofShortEscape? : Char → Option Char
  | '"' => some '"'
  | '\\' => some '\\'
  | '/' => some '/'
  | 'b' => some (Char.ofNat 8)
  | 'f' => some (Char.ofNat 12)
  | 'n' => some '\n'
  | 'r' => some '\r'
  | 't' => some '\t'
  | _ => none

def escape (c : Char) : List Char :=
  match shortEscape? c with
  | some e => ['\\', e]
  | none =>
    if c.toNat < 32 then
      ['\\', 'u', '0', '0', Nat.digitChar (c.toNat / 16), Nat.digitChar (c.toNat % 16)]
    else [c]

def quote (s : List Char) : List Char := '"' :: (s.flatMap escape ++ ['"'])

def hexValue (c : Char) : Option ℕ :=
  if '0' ≤ c ∧ c ≤ '9' then some (c.toNat - '0'.toNat)
  else if 'a' ≤ c ∧ c ≤ 'f' then some (c.toNat - 'a'.toNat + 10)
  else if 'A' ≤ c ∧ c ≤ 'F' then some (c.toNat - 'A'.toNat + 10)
  else none

/-- Four hexadecimal digits. -/
def readUnit : List Char → Option (ℕ × List Char)
  | a :: b :: c :: d :: rest => do
    let a ← hexValue a
    let b ← hexValue b
    let c ← hexValue c
    let d ← hexValue d
    return (((a * 16 + b) * 16 + c) * 16 + d, rest)
  | _ => none

/-- A character given by its number. One beyond the first plane is given by two units. -/
def readNumbered (text : List Char) : Option (Char × List Char) := do
  let (high, rest) ← readUnit text
  if 0xD800 ≤ high ∧ high < 0xDC00 then
    match rest with
    | '\\' :: 'u' :: rest => do
      let (low, rest) ← readUnit rest
      if 0xDC00 ≤ low ∧ low < 0xE000 then
        some (Char.ofNat (0x10000 + (high - 0xD800) * 0x400 + (low - 0xDC00)), rest)
      else none
    | _ => none
  else if 0xDC00 ≤ high ∧ high < 0xE000 then none
  else some (Char.ofNat high, rest)

/-- What follows a backslash. -/
def readEscape : List Char → Option (Char × List Char)
  | [] => none
  | e :: rest => if e = 'u' then readNumbered rest else (ofShortEscape? e).map (·, rest)

/-- A string after its opening quote. -/
def readString : ℕ → List Char → Option (List Char × List Char)
  | 0, _ => none
  | _ + 1, [] => none
  | fuel + 1, c :: rest =>
    if c = '"' then some ([], rest)
    else if c = '\\' then do
      let (c, rest) ← readEscape rest
      let (s, rest) ← readString fuel rest
      return (c :: s, rest)
    else if c.toNat < 32 then none
    else do
      let (s, rest) ← readString fuel rest
      return (c :: s, rest)

theorem readEscape_short {c e : Char} (h : shortEscape? c = some e) (rest : List Char) :
    readEscape (e :: rest) = some (c, rest) := by
  unfold shortEscape? at h
  split at h <;> cases h <;> rfl

theorem hexValue_digitChar {n : ℕ} (h : n < 16) : hexValue (Nat.digitChar n) = some n := by
  interval_cases n <;> rfl

theorem readEscape_control {c : Char} (h : c.toNat < 32) (rest : List Char) :
    readEscape ('u' :: '0' :: '0' :: Nat.digitChar (c.toNat / 16) :: Nat.digitChar (c.toNat % 16)
      :: rest) = some (c, rest) := by
  have hzero : hexValue '0' = some 0 := rfl
  have hhigh : hexValue (Nat.digitChar (c.toNat / 16)) = some (c.toNat / 16) :=
    hexValue_digitChar (by omega)
  have hlow : hexValue (Nat.digitChar (c.toNat % 16)) = some (c.toNat % 16) :=
    hexValue_digitChar (by omega)
  have hunit : readUnit ('0' :: '0' :: Nat.digitChar (c.toNat / 16)
      :: Nat.digitChar (c.toNat % 16) :: rest) = some (c.toNat, rest) := by
    simp [readUnit, hzero, hhigh, hlow, Nat.div_add_mod']
  have hplane : ¬ 0xD800 ≤ c.toNat ∧ ¬ 0xDC00 ≤ c.toNat := by omega
  simp [readEscape, readNumbered, hunit, hplane]

/-- An escaped character reads back as one character, for one unit of fuel. -/
theorem readString_escape (fuel : ℕ) (c : Char) (rest : List Char) :
    readString (fuel + 1) (escape c ++ rest)
      = (readString fuel rest).map fun r => (c :: r.1, r.2) := by
  unfold escape
  split
  · next e he =>
      simp [readString, readEscape_short he, Option.map_eq_bind]
  · next hnone =>
      have hquote : c ≠ '"' := by
        rintro rfl
        cases hnone
      have hbackslash : c ≠ '\\' := by
        rintro rfl
        cases hnone
      split
      · next hcontrol =>
          simp [readString, readEscape_control hcontrol, Option.map_eq_bind]
      · next hcontrol =>
          simp [readString, hquote, hbackslash, hcontrol, Option.map_eq_bind]

theorem readString_quote (s : List Char) (rest : List Char) :
    ∀ fuel, s.length < fuel →
      readString fuel (s.flatMap escape ++ '"' :: rest) = some (s, rest) := by
  induction s with
  | nil =>
      intro fuel hfuel
      obtain ⟨fuel, rfl⟩ := Nat.exists_eq_add_of_lt hfuel
      simp [readString]
  | cons c s ih =>
      intro fuel hfuel
      cases fuel with
      | zero => exact absurd hfuel (Nat.not_lt_zero _)
      | succ fuel =>
          rw [List.flatMap_cons, List.append_assoc, readString_escape,
            ih fuel (Nat.lt_of_succ_lt_succ hfuel)]
          rfl

/-! ## Numbers -/

def writeInt : ℤ → List Char
  | .ofNat n => Nat.toDigits 10 n
  | .negSucc n => '-' :: Nat.toDigits 10 (n + 1)

def readDigits (text : List Char) : Option (ℕ × List Char) :=
  if text.takeWhile Char.isDigit = [] then none
  else some (Nat.ofDigitChars 10 (text.takeWhile Char.isDigit) 0, text.dropWhile Char.isDigit)

def readInt : List Char → Option (ℤ × List Char)
  | [] => none
  | c :: rest =>
    if c = '-' then (readDigits rest).map fun r => (-(r.1 : ℤ), r.2)
    else (readDigits (c :: rest)).map fun r => ((r.1 : ℤ), r.2)

/-- What follows a value: no digit, which could be taken for a part of it. -/
def Ends (rest : List Char) : Prop := ∀ c ∈ rest.head?, c.isDigit = false

theorem readDigits_toDigits (n : ℕ) {rest : List Char} (h : Ends rest) :
    readDigits (Nat.toDigits 10 n ++ rest) = some (n, rest) := by
  have hdigits : ∀ c ∈ Nat.toDigits 10 n, c.isDigit = true :=
    fun c hc => Nat.isDigit_of_mem_toDigits (by decide) (by decide) hc
  have hrest : rest.takeWhile Char.isDigit = [] ∧ rest.dropWhile Char.isDigit = rest := by
    cases rest with
    | nil => exact ⟨rfl, rfl⟩
    | cons c rest => simp [h c rfl]
  have htake : (Nat.toDigits 10 n ++ rest).takeWhile Char.isDigit = Nat.toDigits 10 n := by
    rw [List.takeWhile_append_of_pos hdigits, hrest.1, List.append_nil]
  have hdrop : (Nat.toDigits 10 n ++ rest).dropWhile Char.isDigit = rest := by
    rw [List.dropWhile_append_of_pos hdigits, hrest.2]
  rw [readDigits, htake, hdrop, if_neg Nat.toDigits_ne_nil, Nat.ofDigitChars_ten_toDigits]

theorem readInt_writeInt (n : ℤ) {rest : List Char} (h : Ends rest) :
    readInt (writeInt n ++ rest) = some (n, rest) := by
  cases n with
  | ofNat n =>
      have hread := readDigits_toDigits n h
      rw [writeInt]
      rcases hdigits : Nat.toDigits 10 n with _ | ⟨c, digits⟩
      · exact absurd hdigits Nat.toDigits_ne_nil
      · have hc : c.isDigit = true :=
          Nat.isDigit_of_mem_toDigits (by decide) (by decide) (hdigits ▸ List.mem_cons_self)
        have hminus : c ≠ '-' := by
          rintro rfl
          cases hc
        rw [hdigits, List.cons_append] at hread
        simp [readInt, hminus, hread]
  | negSucc n =>
      have hread := readDigits_toDigits (n + 1) h
      simp [writeInt, readInt, hread, Int.negSucc_eq]

/-! ## Sequences -/

/-- Items with commas between them and a closing character. -/
def join (close : Char) : List (List Char) → List Char
  | [] => [close]
  | [item] => item ++ [close]
  | item :: items => item ++ ',' :: join close items

def isBlank (c : Char) : Bool := c = ' ' || c = '\n' || c = '\r' || c = '\t'

def skip (text : List Char) : List Char := text.dropWhile isBlank

section Sequences

variable {α : Type}

/-- At least one item. -/
def readSequence (item : List Char → Option (α × List Char)) (close : Char) :
    ℕ → List Char → Option (List α × List Char)
  | 0, _ => none
  | fuel + 1, text => do
    let (a, rest) ← item text
    match skip rest with
    | [] => none
    | c :: rest =>
      if c = close then some ([a], rest)
      else if c = ',' then do
        let (as, rest) ← readSequence item close fuel rest
        return (a :: as, rest)
      else none

def readItems (item : List Char → Option (α × List Char)) (close : Char) (fuel : ℕ)
    (text : List Char) : Option (List α × List Char) :=
  match skip text with
  | [] => none
  | c :: rest => if c = close then some ([], rest) else readSequence item close fuel (c :: rest)

theorem skip_cons {c : Char} (h : isBlank c = false) (rest : List Char) :
    skip (c :: rest) = c :: rest := by
  simp [skip, h]

theorem ends_cons {c : Char} (h : c.isDigit = false) (rest : List Char) : Ends (c :: rest) := by
  rintro _ ⟨⟩
  exact h

/-- An item in a text: what is written is not empty, starts with no blank and with no closing
    character, and is read back. -/
structure Readable (write : α → List Char) (read : List Char → Option (α × List Char))
    (close : Char) (a : α) : Prop where
  head : ∃ c cs, write a = c :: cs ∧ isBlank c = false ∧ c ≠ close
  read_write : ∀ rest, Ends rest → read (write a ++ rest) = some (a, rest)

variable {write : α → List Char} {read : List Char → Option (α × List Char)} {close : Char}

theorem readSequence_join (hblank : isBlank close = false) (hdigit : close.isDigit = false)
    (hcomma : close ≠ ',') (l : List α) (rest : List Char) :
    ∀ fuel, l ≠ [] → l.length ≤ fuel → (∀ a ∈ l, Readable write read close a) →
      readSequence read close fuel (join close (l.map write) ++ rest) = some (l, rest) := by
  induction l with
  | nil => exact fun _ h => absurd rfl h
  | cons a l ih =>
      intro fuel _ hfuel hitems
      cases fuel with
      | zero => exact absurd hfuel (Nat.not_succ_le_zero _)
      | succ fuel =>
          have hread := (hitems a List.mem_cons_self).read_write
          cases l with
          | nil =>
              have hjoin : join close ([a].map write) ++ rest = write a ++ close :: rest := by
                simp [join]
              rw [hjoin, readSequence, hread _ (ends_cons hdigit rest)]
              simp [skip_cons hblank]
          | cons b l =>
              have hjoin : join close ((a :: b :: l).map write) ++ rest
                  = write a ++ ',' :: (join close ((b :: l).map write) ++ rest) := by
                simp [join]
              have hrest := ih fuel (by simp) (Nat.le_of_succ_le_succ hfuel)
                (fun a' ha' => hitems a' (List.mem_cons_of_mem a ha'))
              rw [List.map_cons] at hrest
              rw [hjoin, readSequence, hread _ (ends_cons rfl _)]
              simp [skip_cons, isBlank, hcomma.symm, hrest]

theorem readItems_join (hblank : isBlank close = false) (hdigit : close.isDigit = false)
    (hcomma : close ≠ ',') (l : List α) (rest : List Char) (fuel : ℕ) (hfuel : l.length ≤ fuel)
    (hitems : ∀ a ∈ l, Readable write read close a) :
    readItems read close fuel (join close (l.map write) ++ rest) = some (l, rest) := by
  cases l with
  | nil => simp [readItems, join, skip_cons hblank]
  | cons a l =>
      have hsequence := readSequence_join hblank hdigit hcomma (a :: l) rest fuel (by simp) hfuel
        hitems
      obtain ⟨c, cs, hwrite, hc, hne⟩ := (hitems a List.mem_cons_self).head
      have hjoin : ∃ text, join close ((a :: l).map write) = c :: text := by
        cases l <;> simp [join, hwrite]
      obtain ⟨text, hjoin⟩ := hjoin
      rw [hjoin, List.cons_append] at hsequence ⊢
      simp [readItems, skip_cons hc, hne, hsequence]

/-- The items of a text are no longer than the text, and no more than it has characters. -/
theorem length_le_join (close : Char) (items : List (List Char)) :
    items.length ≤ (join close items).length ∧
      ∀ item ∈ items, item.length < (join close items).length := by
  induction items with
  | nil => simp [join]
  | cons item items ih =>
      cases items with
      | nil => simp [join]
      | cons item' items =>
          simp only [join, List.length_cons, List.length_append, List.mem_cons] at ih ⊢
          refine ⟨by omega, ?_⟩
          rintro _ (rfl | hitem)
          · omega
          · have hlt := ih.2 _ hitem
            omega

end Sequences

/-! ## Values -/

mutual

def text : Json → List Char
  | .null => ['n', 'u', 'l', 'l']
  | .bool true => ['t', 'r', 'u', 'e']
  | .bool false => ['f', 'a', 'l', 's', 'e']
  | .num n => writeInt n
  | .str s => quote s.toList
  | .arr elems => '[' :: join ']' (textElems elems)
  | .obj fields => '{' :: join '}' (textFields fields)

def textElems : List Json → List (List Char)
  | [] => []
  | elem :: elems => text elem :: textElems elems

def textFields : List (String × Json) → List (List Char)
  | [] => []
  | (name, value) :: fields => (quote name.toList ++ ':' :: text value) :: textFields fields

end

def textField (field : String × Json) : List Char := quote field.1.toList ++ ':' :: text field.2

theorem textElems_eq_map (elems : List Json) : textElems elems = elems.map text := by
  induction elems with
  | nil => simp [textElems]
  | cons elem elems ih => simp [textElems, ih]

theorem textFields_eq_map (fields : List (String × Json)) :
    textFields fields = fields.map textField := by
  induction fields with
  | nil => simp [textFields]
  | cons field fields ih => simp [textFields, textField, ih]

def readWord (word : List Char) (value : Json) (text : List Char) : Option (Json × List Char) :=
  if word.isPrefixOf text then some (value, text.drop word.length) else none

/-- A field of an object. -/
def readField (readValue : List Char → Option (Json × List Char)) (fuel : ℕ) (text : List Char) :
    Option ((String × Json) × List Char) :=
  match skip text with
  | [] => none
  | c :: rest =>
    if c = '"' then do
      let (name, rest) ← readString fuel rest
      match skip rest with
      | [] => none
      | c :: rest =>
        if c = ':' then do
          let (value, rest) ← readValue rest
          return ((String.ofList name, value), rest)
        else none
    else none

def readValue : ℕ → List Char → Option (Json × List Char)
  | 0, _ => none
  | fuel + 1, text =>
    match skip text with
    | [] => none
    | c :: rest =>
      if c = '"' then (readString fuel rest).map fun r => (.str (String.ofList r.1), r.2)
      else if c = '[' then
        (readItems (readValue fuel) ']' fuel rest).map fun r => (.arr r.1, r.2)
      else if c = '{' then
        (readItems (readField (readValue fuel) fuel) '}' fuel rest).map fun r => (.obj r.1, r.2)
      else if c = 'n' then readWord ['u', 'l', 'l'] .null rest
      else if c = 't' then readWord ['r', 'u', 'e'] (.bool true) rest
      else if c = 'f' then readWord ['a', 'l', 's', 'e'] (.bool false) rest
      else (readInt (c :: rest)).map fun r => (.num r.1, r.2)

/-- The document that a text is, with blanks around it. -/
def parse (text : List Char) : Option Json :=
  match readValue (text.length + 1) text with
  | some (doc, rest) => if skip rest = [] then some doc else none
  | none => none

/-! ## The round trip -/

/-- The first character of a number. -/
theorem exists_writeInt (n : ℤ) :
    ∃ c cs, writeInt n = c :: cs ∧ (c.isDigit = true ∨ c = '-') := by
  cases n with
  | ofNat n =>
      rcases hdigits : Nat.toDigits 10 n with _ | ⟨c, digits⟩
      · exact absurd hdigits Nat.toDigits_ne_nil
      · refine ⟨c, digits, hdigits, .inl ?_⟩
        exact Nat.isDigit_of_mem_toDigits (by decide) (by decide) (hdigits ▸ List.mem_cons_self)
  | negSucc n => exact ⟨'-', _, rfl, .inr rfl⟩

/-- The first character of a text is no blank and closes nothing. -/
theorem exists_text (doc : Json) :
    ∃ c cs, text doc = c :: cs ∧ isBlank c = false ∧ c ≠ ']' := by
  match doc with
  | .null => exact ⟨_, _, by rw [text], rfl, by decide⟩
  | .bool true => exact ⟨_, _, by rw [text], rfl, by decide⟩
  | .bool false => exact ⟨_, _, by rw [text], rfl, by decide⟩
  | .str s => exact ⟨_, _, by rw [text, quote], rfl, by decide⟩
  | .arr elems => exact ⟨_, _, by rw [text], rfl, by decide⟩
  | .obj fields => exact ⟨_, _, by rw [text], rfl, by decide⟩
  | .num n =>
      obtain ⟨c, cs, hc, hdigit⟩ := exists_writeInt n
      refine ⟨c, cs, by rw [text, hc], ?_, ?_⟩
      · rcases hdigit with hdigit | rfl
        · unfold isBlank
          by_contra hblank
          simp only [Bool.or_eq_true, decide_eq_true_eq, Bool.not_eq_false] at hblank
          rcases hblank with ((rfl | rfl) | rfl) | rfl <;> cases hdigit
        · rfl
      · rintro rfl
        rcases hdigit with hdigit | hdigit <;> cases hdigit

theorem length_le_quote (s : List Char) : s.length + 2 ≤ (quote s).length := by
  have hescape : ∀ c, 1 ≤ (escape c).length := by
    intro c
    unfold escape
    split
    · simp
    · split <;> simp
  have hle : s.length ≤ (s.flatMap escape).length := by
    induction s with
    | nil => simp
    | cons c s ih =>
        have hc := hescape c
        simp only [List.flatMap_cons, List.length_append, List.length_cons]
        omega
  simp only [quote, List.length_cons, List.length_append, List.length_nil]
  omega

/-- With fuel for the length of a text, the document is read back from it. -/
theorem readValue_text (fuel : ℕ) :
    ∀ doc : Json, (text doc).length ≤ fuel → ∀ rest, Ends rest →
      readValue fuel (text doc ++ rest) = some (doc, rest) := by
  induction fuel with
  | zero =>
      intro doc hfuel
      obtain ⟨c, cs, hc, _⟩ := exists_text doc
      simp [hc] at hfuel
  | succ fuel ih =>
      intro doc hfuel rest hrest
      match doc with
      | .null => simp [text, readValue, skip_cons, isBlank, readWord]
      | .bool true => simp [text, readValue, skip_cons, isBlank, readWord]
      | .bool false => simp [text, readValue, skip_cons, isBlank, readWord]
      | .num n =>
          obtain ⟨c, cs, hc, hdigit⟩ := exists_writeInt n
          obtain ⟨c', cs', hc', hblank, _⟩ := exists_text (.num n)
          obtain ⟨rfl, rfl⟩ : c' = c ∧ cs' = cs := by
            rw [text, hc] at hc'
            simpa [eq_comm] using hc'
          have hne : ∀ d : Char, d.isDigit = false → d ≠ '-' → c' ≠ d := by
            rintro d hd hminus rfl
            rcases hdigit with hdigit | hdigit
            · exact Bool.noConfusion (hdigit.symm.trans hd)
            · exact hminus hdigit
          have hread := readInt_writeInt n hrest
          rw [hc, List.cons_append] at hread
          rw [hc', List.cons_append, readValue, skip_cons hblank]
          simp [hne '"' rfl (by decide), hne '[' rfl (by decide), hne '\x7b' rfl (by decide),
            hne 'n' rfl (by decide), hne 't' rfl (by decide), hne 'f' rfl (by decide), hread]
      | .str s =>
          have hlength := length_le_quote s.toList
          rw [text] at hfuel
          have hread := readString_quote s.toList rest fuel (by omega)
          simp [text, quote, readValue, skip_cons, isBlank, hread]
      | .arr elems =>
          rw [text, textElems_eq_map] at hfuel ⊢
          obtain ⟨hcount, hlength⟩ := length_le_join ']' (elems.map text)
          rw [List.length_map] at hcount
          rw [List.length_cons] at hfuel
          have hread : readItems (readValue fuel) ']' fuel (join ']' (elems.map text) ++ rest)
              = some (elems, rest) := by
            refine readItems_join rfl rfl (by decide) elems rest fuel (by omega) ?_
            intro elem helem
            refine ⟨exists_text elem, ih elem ?_⟩
            have hlt := hlength _ (List.mem_map_of_mem helem)
            omega
          rw [List.cons_append, readValue, skip_cons rfl]
          simp [hread]
      | .obj fields =>
          rw [text, textFields_eq_map] at hfuel ⊢
          obtain ⟨hcount, hlength⟩ := length_le_join '\x7d' (fields.map textField)
          rw [List.length_map] at hcount
          rw [List.length_cons] at hfuel
          have hread : readItems (readField (readValue fuel) fuel) '\x7d' fuel
              (join '\x7d' (fields.map textField) ++ rest) = some (fields, rest) := by
            refine readItems_join rfl rfl (by decide) fields rest fuel (by omega) ?_
            rintro ⟨name, value⟩ hfield
            have hlt := hlength _ (List.mem_map_of_mem hfield)
            simp only [textField, List.length_append, List.length_cons] at hlt
            have hquote := length_le_quote name.toList
            refine ⟨⟨'"', _, rfl, rfl, by decide⟩, ?_⟩
            intro rest hrest
            have hname := readString_quote name.toList (':' :: (text value ++ rest)) fuel (by omega)
            have hvalue := ih value (by omega) rest hrest
            simp [textField, quote, readField, skip_cons, isBlank, hname, hvalue]
          rw [List.cons_append, readValue, skip_cons rfl]
          simp [hread]

/-- What was written is read, also with blanks after it. -/
theorem parse_text (doc : Json) (blanks : List Char) (hblanks : ∀ c ∈ blanks, isBlank c = true) :
    parse (text doc ++ blanks) = some doc := by
  have hends : Ends blanks := by
    intro c hc
    have hblank := hblanks c (List.mem_of_mem_head? hc)
    unfold isBlank at hblank
    simp only [Bool.or_eq_true, decide_eq_true_eq] at hblank
    rcases hblank with ((rfl | rfl) | rfl) | rfl <;> rfl
  have hread := readValue_text ((text doc ++ blanks).length + 1) doc
    (by rw [List.length_append]; omega) blanks hends
  have hskip : skip blanks = [] := List.dropWhile_eq_nil_iff.2 hblanks
  rw [parse, hread]
  simp [hskip]

end Json
