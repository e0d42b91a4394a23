import Mathlib.Data.Option.Basic
import Mathlib.Data.List.Basic
import Mathlib.Data.Int.Notation

set_option autoImplicit false

/-! # JSON documents and their codecs

A `Codec` is a writer and a reader of documents with the law that the reader gives back what was
written. Records and externally tagged enumerations are put together from their fields and variants
and carry the law along.

The readers are those of a derived deserializer: the fields of a record are taken by name, in any
order; fields with other names are ignored; a field that is given twice is refused; an optional
field that is absent or `null` is `none`. A variant is an object with the tag as its only field. -/

inductive Json where
  | null
  | bool (b : Bool)
  | num (n : ℤ)
  | str (s : String)
  | arr (elems : List Json)
  | obj (fields : List (String × Json))

namespace Json

/-- The values that an object gives under a name. -/
def valuesOf (name : String) (fields : List (String × Json)) : List Json :=
  (fields.filter fun field => field.1 = name).map Prod.snd

theorem valuesOf_cons_self (name : String) (value : Json) (fields : List (String × Json)) :
    valuesOf name ((name, value) :: fields) = value :: valuesOf name fields := by
  simp [valuesOf]

theorem valuesOf_cons_of_ne {name name' : String} (h : name' ≠ name) (value : Json)
    (fields : List (String × Json)) :
    valuesOf name ((name', value) :: fields) = valuesOf name fields := by
  simp [valuesOf, h]

theorem valuesOf_eq_nil {name : String} {fields : List (String × Json)}
    (h : name ∉ fields.map Prod.fst) : valuesOf name fields = [] := by
  rw [valuesOf, List.map_eq_nil_iff, List.filter_eq_nil_iff]
  intro field hfield
  simpa using fun heq : field.1 = name => h (heq ▸ List.mem_map_of_mem hfield)

/-! ## Codecs -/

variable {α β : Type}

structure Codec (α : Type) where
  encode : α → Json
  decode : Json → Option α
  decode_encode : ∀ a, decode (encode a) = some a
  /-- `null` is left to stand for `none`. -/
  encode_ne_null : ∀ a, encode a ≠ .null

/-- Values written as values of another type. -/
def Codec.refine (c : Codec α) (write : β → α) (read : α → Option β)
    (h : ∀ b, read (write b) = some b) : Codec β where
  encode b := c.encode (write b)
  decode doc := (c.decode doc).bind read
  decode_encode b := by rw [c.decode_encode, Option.bind_some, h]
  encode_ne_null b := c.encode_ne_null (write b)

theorem Codec.decode_refine_eq_none {c : Codec α} {doc : Json} (h : c.decode doc = none)
    (write : β → α) (read : α → Option β) (hread : ∀ b, read (write b) = some b) :
    (c.refine write read hread).decode doc = none := by
  show (c.decode doc).bind read = none
  rw [h, Option.bind_none]

def string : Codec String where
  encode := .str
  decode
    | .str s => some s
    | _ => none
  decode_encode _ := rfl
  encode_ne_null := by simp

theorem mapM_decode_encode (c : Codec α) (elems : List α) :
    (elems.map c.encode).mapM c.decode = some elems := by
  induction elems with
  | nil => rfl
  | cons elem elems ih => simp [c.decode_encode, ih]

def list (c : Codec α) : Codec (List α) where
  encode elems := .arr (elems.map c.encode)
  decode
    | .arr docs => docs.mapM c.decode
    | _ => none
  decode_encode := mapM_decode_encode c
  encode_ne_null := by simp

/-! ## Records -/

/-- How the field of a record is written, and read from the values given under its name. -/
structure Member (α : Type) where
  write : α → Json
  read : List Json → Option α
  read_write : ∀ a, read [write a] = some a

def required (c : Codec α) : Member α where
  write := c.encode
  read
    | [value] => c.decode value
    | _ => none
  read_write := c.decode_encode

def optional (c : Codec α) : Member (Option α) where
  write
    | none => .null
    | some a => c.encode a
  read
    | [] => some none
    | [.null] => some none
    | [value] => (c.decode value).map some
    | _ => none
  read_write a := by
    cases a with
    | none => rfl
    | some a =>
        have hne := c.encode_ne_null a
        have hdecode := c.decode_encode a
        cases hvalue : c.encode a <;> simp_all

/-- The fields of a record: the reader looks at the values under its own names only. -/
structure Fields (α : Type) where
  names : List String
  write : α → List (String × Json)
  read : List (String × Json) → Option α
  names_write : ∀ a, (write a).map Prod.fst = names
  read_write : ∀ a, read (write a) = some a
  read_congr : ∀ {fields fields'}, (∀ name ∈ names, valuesOf name fields = valuesOf name fields') →
    read fields = read fields'

namespace Fields

def nil : Fields Unit where
  names := []
  write _ := []
  read _ := some ()
  names_write _ := rfl
  read_write _ := rfl
  read_congr _ := rfl

/-- One more field in front. -/
def cons (name : String) (m : Member α) (rest : Fields β) (hname : name ∉ rest.names) :
    Fields (α × β) where
  names := name :: rest.names
  write p := (name, m.write p.1) :: rest.write p.2
  read fields := do
    let a ← m.read (valuesOf name fields)
    let b ← rest.read fields
    return (a, b)
  names_write p := by rw [List.map_cons, rest.names_write]
  read_write p := by
    have hself : valuesOf name ((name, m.write p.1) :: rest.write p.2) = [m.write p.1] := by
      rw [valuesOf_cons_self, valuesOf_eq_nil]
      rwa [rest.names_write]
    have hrest : rest.read ((name, m.write p.1) :: rest.write p.2) = some p.2 := by
      rw [← rest.read_write p.2]
      refine rest.read_congr ?_
      intro name' hname'
      refine valuesOf_cons_of_ne ?_ _ _
      rintro rfl
      exact hname hname'
    simp [hself, hrest, m.read_write]
  read_congr h := by
    rw [h name List.mem_cons_self,
      rest.read_congr fun name' h' => h name' (List.mem_cons_of_mem _ h')]

end Fields

/-- A record is an object. -/
def object (f : Fields α) : Codec α where
  encode a := .obj (f.write a)
  decode
    | .obj fields => f.read fields
    | _ => none
  decode_encode := f.read_write
  encode_ne_null := by simp

/-! ## Externally tagged enumerations -/

/-- The variants of an enumeration, each with its tag. -/
structure Variants (α : Type) where
  tags : List String
  write : α → String × Json
  read : String → Json → Option α
  read_write : ∀ a, read (write a).1 (write a).2 = some a
  mem_tags : ∀ {tag payload a}, read tag payload = some a → tag ∈ tags

namespace Variants

def single (tag : String) (c : Codec α) : Variants α where
  tags := [tag]
  write a := (tag, c.encode a)
  read tag' payload := if tag' = tag then c.decode payload else none
  read_write a := by simp [c.decode_encode]
  mem_tags {tag' payload a} h := by
    split at h
    · next heq => exact List.mem_singleton.2 heq
    · cases h

/-- One more variant in front. -/
def cons (tag : String) (c : Codec α) (rest : Variants β) (htag : tag ∉ rest.tags) :
    Variants (α ⊕ β) where
  tags := tag :: rest.tags
  write
    | .inl a => (tag, c.encode a)
    | .inr b => rest.write b
  read tag' payload :=
    if tag' = tag then (c.decode payload).map .inl else (rest.read tag' payload).map .inr
  read_write
    | .inl a => by simp [c.decode_encode]
    | .inr b => by
        have hne : (rest.write b).1 ≠ tag :=
          fun heq => htag (heq ▸ rest.mem_tags (rest.read_write b))
        simp [hne, rest.read_write]
  mem_tags {tag' payload a} h := by
    split at h
    · next heq => exact heq ▸ List.mem_cons_self
    · next =>
        obtain ⟨b, hb, _⟩ := Option.map_eq_some_iff.1 h
        exact List.mem_cons_of_mem tag (rest.mem_tags hb)

theorem write_mem_tags (v : Variants α) (a : α) : (v.write a).1 ∈ v.tags :=
  v.mem_tags (v.read_write a)

end Variants

/-- An enumeration is an object with one field, whose name is the tag. -/
def tagged (v : Variants α) : Codec α where
  encode a := .obj [v.write a]
  decode
    | .obj [(tag, payload)] => v.read tag payload
    | _ => none
  decode_encode := v.read_write
  encode_ne_null := by simp

theorem tagged_decode_of_not_mem {v : Variants α} {tag : String} (h : tag ∉ v.tags)
    (payload : Json) : (tagged v).decode (.obj [(tag, payload)]) = none := by
  rw [Option.eq_none_iff_forall_ne_some]
  exact fun a ha => h (v.mem_tags ha)

/-- No document is read by two enumerations that share no tag. -/
theorem tagged_decode_eq_none {v : Variants α} {w : Variants β}
    (h : ∀ tag ∈ w.tags, tag ∉ v.tags) (b : β) :
    (tagged v).decode ((tagged w).encode b) = none :=
  tagged_decode_of_not_mem (h _ (w.write_mem_tags b)) _

/-- Nor is a variant read as a record that starts with a required field of another name. -/
theorem object_decode_eq_none {γ : Type} {name : String} {c : Codec α} {rest : Fields β}
    {hrest : name ∉ rest.names} {w : Variants γ} (h : name ∉ w.tags) (b : γ) :
    (object (.cons name (required c) rest hrest)).decode ((tagged w).encode b) = none := by
  have hnil : valuesOf name [w.write b] = [] := by
    refine valuesOf_eq_nil ?_
    rw [List.map_singleton, List.mem_singleton]
    rintro rfl
    exact h (w.write_mem_tags b)
  simp [object, tagged, Fields.cons, required, hnil]

end Json
