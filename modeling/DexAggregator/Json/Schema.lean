import DexAggregator.Json.Codec

set_option autoImplicit false

/-! # JSON schemas

A schema is the set of documents it admits. The keywords are those that describe the documents of
derived serializers: the type of a value, the elements of an array, the required fields of an object
and the schemas of its fields, and alternatives.

A codec meets a schema when it reads no other document. Like the laws of codecs this is put together
from fields and variants. -/

namespace Json

/-- The types of the keyword `type`. -/
inductive Kind where
  | null
  | boolean
  | number
  | string
  | array
  | object
deriving DecidableEq

def kind : Json → Kind
  | .null => .null
  | .bool _ => .boolean
  | .num _ => .number
  | .str _ => .string
  | .arr _ => .array
  | .obj _ => .object

abbrev Schema := Json → Bool

namespace Schema

def type (kinds : List Kind) : Schema := fun doc => doc.kind ∈ kinds

def array (items : Schema) : Schema
  | .arr elems => elems.all items
  | _ => false

def object (required : List String) (properties : List (String × Schema)) : Schema
  | .obj fields => required.all (fun name => name ∈ fields.map Prod.fst) &&
    properties.all fun property => (valuesOf property.1 fields).all property.2
  | _ => false

def anyOf (schemas : List Schema) : Schema := fun doc => schemas.any fun S => S doc

/-- The schema of a variant of an externally tagged enumeration. -/
def variant (tag : String) (payload : Schema) : Schema := object [tag] [(tag, payload)]

theorem anyOf_of_mem {schemas : List Schema} {S : Schema} {doc : Json} (hmem : S ∈ schemas)
    (h : S doc = true) : anyOf schemas doc = true :=
  List.any_eq_true.2 ⟨S, hmem, h⟩

end Schema

variable {α β : Type} {S : Schema} {c : Codec α}

/-- The schema admits every document that the codec reads. -/
def Codec.Meets (c : Codec α) (S : Schema) : Prop :=
  ∀ doc a, c.decode doc = some a → S doc = true

/-- What the schema refuses is not read. -/
theorem Codec.Meets.decode_eq_none (h : c.Meets S) {doc : Json} (hrefused : S doc = false) :
    c.decode doc = none := by
  rw [Option.eq_none_iff_forall_ne_some]
  intro a ha
  exact Bool.noConfusion (hrefused.symm.trans (h doc a ha))

theorem Codec.Meets.anyOf (h : c.Meets S) {schemas : List Schema} (hmem : S ∈ schemas) :
    c.Meets (Schema.anyOf schemas) :=
  fun doc a hdoc => Schema.anyOf_of_mem hmem (h doc a hdoc)

theorem Codec.Meets.refine (h : c.Meets S) (write : β → α) (read : α → Option β)
    (hread : ∀ b, read (write b) = some b) : (c.refine write read hread).Meets S := by
  intro doc b hdoc
  obtain ⟨a, ha, _⟩ := Option.bind_eq_some_iff.1 hdoc
  exact h doc a ha

theorem string_meets {kinds : List Kind} (h : Kind.string ∈ kinds) :
    string.Meets (Schema.type kinds) := by
  intro doc s hdoc
  cases doc with
  | str => exact decide_eq_true h
  | _ => cases hdoc

theorem Codec.Meets.list (h : c.Meets S) : (list c).Meets (Schema.array S) := by
  intro doc elems hdoc
  cases doc with
  | arr docs =>
      refine List.all_eq_true.2 fun elem helem => ?_
      have hread : docs.mapM c.decode = some elems := hdoc
      clear hdoc
      induction docs generalizing elems with
      | nil => cases helem
      | cons doc docs ih =>
          simp only [List.mapM_cons, Option.bind_eq_bind, Option.bind_eq_some_iff] at hread
          obtain ⟨a, ha, elems', helems', _⟩ := hread
          rcases List.mem_cons.1 helem with rfl | helem
          · exact h elem a ha
          · exact ih elems' helem helems'
  | _ => cases hdoc

/-! ## Records -/

/-- The schema admits every value that the field of a record is read from. -/
def Member.Meets (m : Member α) (S : Schema) : Prop :=
  ∀ values a, m.read values = some a → ∀ value ∈ values, S value = true

theorem Codec.Meets.required (h : c.Meets S) : (required c).Meets S := by
  intro values a hread value hvalue
  rcases values with _ | ⟨value', _ | ⟨_, _⟩⟩
  · cases hread
  · obtain rfl := List.mem_singleton.1 hvalue
    exact h value a hread
  · cases hread

theorem Codec.Meets.optional (h : c.Meets S) (hnull : S .null = true) : (optional c).Meets S := by
  intro values a hread value hvalue
  rcases values with _ | ⟨value', _ | ⟨_, _⟩⟩
  · cases hvalue
  · obtain rfl := List.mem_singleton.1 hvalue
    cases value with
    | null => exact hnull
    | _ =>
        obtain ⟨b, hb, _⟩ := Option.map_eq_some_iff.1 hread
        exact h _ b hb
  · rcases value' <;> cases hread

/-- The fields that are read have the names `required` among them and admitted values. -/
def Fields.Meets (f : Fields α) (required : List String) (properties : List (String × Schema)) :
    Prop :=
  ∀ fields a, f.read fields = some a → (∀ name ∈ required, name ∈ fields.map Prod.fst) ∧
    ∀ property ∈ properties, ∀ value ∈ valuesOf property.1 fields, property.2 value = true

theorem Fields.nil_meets : Fields.nil.Meets [] [] := by
  intro fields a _
  simp

variable {name : String} {rest : Fields β} {hname : name ∉ rest.names} {required : List String}
  {properties : List (String × Schema)}

/-- One more field in front, which may be left out. -/
theorem Fields.Meets.cons (hrest : rest.Meets required properties) {m : Member α}
    (h : m.Meets S) : (Fields.cons name m rest hname).Meets required ((name, S) :: properties) := by
  intro fields p hread
  simp only [Fields.cons, Option.bind_eq_bind, Option.bind_eq_some_iff] at hread
  obtain ⟨a, ha, b, hb, _⟩ := hread
  obtain ⟨hrequired, hproperties⟩ := hrest fields b hb
  refine ⟨hrequired, ?_⟩
  intro property hproperty
  rcases List.mem_cons.1 hproperty with rfl | hproperty
  · exact h _ a ha
  · exact hproperties property hproperty

/-- One more field in front, which may not be left out. -/
theorem Fields.Meets.consRequired (hrest : rest.Meets required properties) (h : c.Meets S) :
    (Fields.cons name (Json.required c) rest hname).Meets (name :: required)
      ((name, S) :: properties) := by
  intro fields p hread
  obtain ⟨hrequired, hproperties⟩ := hrest.cons h.required fields p hread
  refine ⟨?_, hproperties⟩
  intro name' hname'
  rcases List.mem_cons.1 hname' with rfl | hname'
  · simp only [Fields.cons, Option.bind_eq_bind, Option.bind_eq_some_iff] at hread
    obtain ⟨a, ha, _⟩ := hread
    by_contra habsent
    rw [valuesOf_eq_nil habsent] at ha
    cases ha
  · exact hrequired name' hname'

/-- The order in which a schema lists the fields does not matter. -/
theorem Fields.Meets.object {f : Fields α} (h : f.Meets required properties)
    {required' : List String} {properties' : List (String × Schema)}
    (hrequired : required' ⊆ required) (hproperties : properties' ⊆ properties) :
    (object f).Meets (Schema.object required' properties') := by
  intro doc a hdoc
  cases doc with
  | obj fields =>
      obtain ⟨hnames, hvalues⟩ := h fields a hdoc
      simp only [Schema.object, Bool.and_eq_true, List.all_eq_true, decide_eq_true_eq]
      exact ⟨fun name hmem => hnames name (hrequired hmem),
        fun property hmem => hvalues property (hproperties hmem)⟩
  | _ => cases hdoc

/-! ## Externally tagged enumerations -/

/-- One of the schemas admits a variant that is read. -/
def Variants.Meets (v : Variants α) (schemas : List Schema) : Prop :=
  ∀ tag payload a, v.read tag payload = some a →
    ∃ S ∈ schemas, S (.obj [(tag, payload)]) = true

theorem Codec.Meets.variant (h : c.Meets S) {payload : Json} {a : α}
    (hpayload : c.decode payload = some a) (tag : String) :
    Schema.variant tag S (.obj [(tag, payload)]) = true := by
  simp [Schema.variant, Schema.object, valuesOf, h payload a hpayload]

theorem Codec.Meets.single (h : c.Meets S) (tag : String) :
    (Variants.single tag c).Meets [Schema.variant tag S] := by
  intro tag' payload a hread
  simp only [Variants.single] at hread
  split at hread
  · next heq => exact ⟨_, List.mem_singleton_self _, heq ▸ h.variant hread tag⟩
  · cases hread

theorem Variants.Meets.cons {rest : Variants β} {schemas : List Schema}
    (hrest : rest.Meets schemas) {tag : String} (h : c.Meets S) (htag : tag ∉ rest.tags) :
    (Variants.cons tag c rest htag).Meets (Schema.variant tag S :: schemas) := by
  intro tag' payload p hread
  simp only [Variants.cons] at hread
  split at hread
  · next heq =>
      obtain ⟨a, ha, _⟩ := Option.map_eq_some_iff.1 hread
      exact ⟨_, List.mem_cons_self, heq ▸ h.variant ha tag⟩
  · obtain ⟨b, hb, _⟩ := Option.map_eq_some_iff.1 hread
    obtain ⟨S', hmem, hS'⟩ := hrest tag' payload b hb
    exact ⟨S', List.mem_cons_of_mem _ hmem, hS'⟩

theorem Variants.Meets.tagged {v : Variants α} {schemas : List Schema} (h : v.Meets schemas) :
    (tagged v).Meets (Schema.anyOf schemas) := by
  intro doc a hdoc
  match doc, hdoc with
  | .obj [(tag, payload)], hdoc =>
      obtain ⟨S', hmem, hS'⟩ := h tag payload a hdoc
      exact Schema.anyOf_of_mem hmem hS'

end Json
