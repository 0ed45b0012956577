import HiddenRule.Proofs.Spellings

/-
  This file proves what the shapes of stored values keep.

  A stored type is lawful if a value is read from every
  spelling of its form, provided that the depth allows for
  the spelling, and if the form of a value that was read at a
  depth is no deeper.  Together the two say that what was
  read can be stored and read again, whichever text it was
  read from.

  Numbers, names of closed lists and lists of lawful values
  are lawful.  For variants and records there is a lemma for
  each direction.

  Main declarations:
    * `LawfulStored`
    * `LawfulStored.read_of_spelledAs`
    * `LawfulStored.read_write_iff`
    * `LawfulStored.read_write_of_read`
    * `LawfulStored.decode_variant` and
      `LawfulStored.variant_nesting_le`
    * `Fields.required_of_spell` and
      `Fields.required_nesting_le`
    * `Json.pair?_spelled` and `Json.exists_of_pair?`
-/

------------------------------------------------------------
-- Lawful Stored Types
------------------------------------------------------------

namespace HiddenRule

/-
  The forms of a stored type keep its values: they are plain,
  a value is read from each spelling of its form, and no
  value is read at a depth that is too small for its form.
-/
class LawfulStored
    (α : Type)
    [Stored α] : Prop where
  encode_plain (value : α) : (Stored.encode value).Plain
  decode_spelled {depth : Nat} {json : Json} (value : α) :
    (Stored.encode value).SpelledAs json →
      json.nesting ≤ depth →
        Stored.decode depth json = some value
  nesting_le {depth : Nat} {json : Json} {value : α} :
    Stored.decode depth json = some value →
      (Stored.encode value).nesting ≤ depth
  decode_null (depth : Nat) :
    (Stored.decode depth .null : Option α) = none

namespace LawfulStored

variable {α : Type}
variable [Stored α]

/- A text is read by reading the JSON that it writes. -/
theorem read_eq
    {text : String}
    {json : Json}
    (hText : Json.parse? text.toList = some json) :
    (Stored.read text : Option α) =
      Stored.decode Stored.depthLimit json := by
  rw [Stored.read, hText]
  rfl

variable [LawfulStored α]

/- A value is read from every text that spells its form. -/
theorem read_of_spelledAs
    {text : String}
    {json : Json}
    {value : α}
    (hText : Json.parse? text.toList = some json)
    (hSpelled : (Stored.encode value).SpelledAs json)
    (hNesting : json.nesting ≤ Stored.depthLimit) :
    Stored.read text = some value := by
  rw [read_eq hText]
  exact decode_spelled value hSpelled hNesting

/- The text of a value writes its form. -/
theorem parse?_write
    (value : α) :
    Json.parse? (Stored.write value).toList =
      some (Stored.encode value) := by
  rw [Stored.write, Json.text, String.toList_ofList]
  exact (encode_plain value).parse?_render

/-
  A value is read back from its text if and only if its form
  is not nested too deeply.
-/
theorem read_write_iff
    {value : α} :
    Stored.read (Stored.write value) = some value ↔
      (Stored.encode value).nesting ≤ Stored.depthLimit := by
  constructor
  · rw [read_eq (parse?_write value)]
    exact nesting_le
  · exact read_of_spelledAs (parse?_write value)
      (encode_plain value).spelledAs_self

/-
  A value that was read from any text is read back from its
  own text.
-/
theorem read_write_of_read
    {text : String}
    {value : α}
    (hRead : Stored.read text = some value) :
    Stored.read (Stored.write value) = some value := by
  rw [Stored.read, Option.bind_eq_bind,
    Option.bind_eq_some_iff] at hRead
  rcases hRead with ⟨json, -, hDecode⟩
  exact read_write_iff.mpr (nesting_le hDecode)

end LawfulStored

end HiddenRule

------------------------------------------------------------
-- Numbers
------------------------------------------------------------

namespace HiddenRule

namespace Json

/- A number of so many bits is read back. -/
theorem unsigned?_ofNat
    {width n : Nat}
    (hLt : n < twoPow width) :
    (ofNat n).unsigned? (twoPow width) = some n := by
  rw [ofNat, unsigned?, Numeral.ofDigits?_toDigits]
  simp [hLt]

end Json

/- Numbers of so many bits are stored lawfully. -/
theorem LawfulStored.of_width
    {α : Type}
    [Stored α]
    {width : Nat}
    {toNat : α → Nat}
    {ofNat : Nat → α}
    (hEncode : ∀ n : α, Stored.encode n = .ofNat (toNat n))
    (hDecode :
      ∀ depth value,
        Stored.decode depth value =
          (value.unsigned? (twoPow width)).map ofNat)
    (hLt : ∀ n, toNat n < twoPow width)
    (hBack : ∀ n, ofNat (toNat n) = n) :
    LawfulStored α where
  encode_plain n := by
    rw [hEncode]
    exact .number _
  decode_spelled n hSpelled _ := by
    rw [hEncode] at hSpelled
    rw [hSpelled.eq_ofNat, hDecode,
      Json.unsigned?_ofNat (hLt n), Option.map_some, hBack]
  nesting_le {_ _ n} _ := by
    rw [hEncode]
    exact Nat.zero_le _
  decode_null _ := hDecode _ _

instance : LawfulStored UInt8 :=
  .of_width (fun _ => rfl) (fun _ _ => rfl)
    UInt8.toNat_lt fun _ => UInt8.ofNat_toNat

instance : LawfulStored UInt32 :=
  .of_width (fun _ => rfl) (fun _ _ => rfl)
    UInt32.toNat_lt fun _ => UInt32.ofNat_toNat

instance : LawfulStored UInt64 :=
  .of_width (fun _ => rfl) (fun _ _ => rfl)
    UInt64.toNat_lt fun _ => UInt64.ofNat_toNat

instance : LawfulStored (BitVec 128) :=
  .of_width (fun _ => rfl) (fun _ _ => rfl)
    BitVec.isLt fun n => by simp

instance : LawfulStored Bool where
  encode_plain b := .bool b
  decode_spelled b hSpelled _ := by
    rw [Json.SpelledAs.eq_bool hSpelled]
    rfl
  nesting_le _ := Nat.zero_le _
  decode_null _ := rfl

end HiddenRule

------------------------------------------------------------
-- Lists
------------------------------------------------------------

namespace HiddenRule

namespace LawfulStored

variable {α : Type}
variable [Stored α] [LawfulStored α]

/- Spelled values are read one by one. -/
theorem mapM_decode_spelled
    {depth : Nat}
    {values : List α}
    {spelled : List Json}
    (hLength : spelled.length = values.length)
    (hSpelled :
      ∀ (i : Nat) (value : α) (json : Json),
        values[i]? = some value →
          spelled[i]? = some json →
            (Stored.encode value).SpelledAs json)
    (hDepth : ∀ json ∈ spelled, json.nesting ≤ depth) :
    spelled.mapM (Stored.decode depth) = some values := by
  induction values generalizing spelled with
  | nil =>
      obtain rfl := List.length_eq_zero_iff.mp hLength
      rfl
  | cons value values ih =>
      cases spelled with
      | nil => cases hLength
      | cons json spelled =>
          rw [List.forall_mem_cons] at hDepth
          have hHead :=
            decode_spelled value
              (hSpelled 0 value json rfl rfl) hDepth.1
          have hTail :=
            ih (Nat.succ.inj hLength)
              (fun i => hSpelled (i + 1)) hDepth.2
          rw [List.mapM_cons, hHead, hTail]
          rfl

/- No value that is read in a row is too deep. -/
theorem nesting_le_of_mapM
    {depth : Nat}
    {items : List Json}
    {values : List α}
    (hDecode :
      items.mapM (Stored.decode depth) = some values) :
    ∀ value ∈ values,
      (Stored.encode value).nesting ≤ depth := by
  induction items generalizing values with
  | nil =>
      obtain rfl : [] = values := Option.some.inj hDecode
      exact List.forall_mem_nil _
  | cons item items ih =>
      rw [List.mapM_cons] at hDecode
      simp only [Option.bind_eq_bind, Option.pure_def,
        Option.bind_eq_some_iff, Option.some.injEq]
        at hDecode
      rcases hDecode with ⟨value, hValue, later, hLater, rfl⟩
      exact List.forall_mem_cons.mpr
        ⟨nesting_le hValue, ih hLater⟩

end LawfulStored

/- A list needs one level more than its values. -/
theorem Stored.nesting_encode_list_le
    {α : Type}
    [Stored α]
    {depth : Nat}
    (hDepth :
      ∀ value : α, (encode value).nesting ≤ depth)
    (values : List α) :
    (encode values).nesting ≤ depth + 1 :=
  Json.nesting_array_le_iff.mpr ⟨depth, rfl,
    List.forall_mem_map.mpr fun value _ => hDepth value⟩

/- The items of an array are one level deeper. -/
theorem Json.items?_eq_some_iff
    {depth : Nat}
    {value : Json}
    {items : List Json} :
    value.items? depth = some items ↔
      ∃ inner, depth = inner + 1 ∧ value = .array items := by
  cases depth <;> cases value <;> simp [Json.items?]

instance
    {α : Type}
    [Stored α] [LawfulStored α] :
    LawfulStored (List α) where
  encode_plain values :=
    .array (List.forall_mem_map.mpr fun value _ =>
      LawfulStored.encode_plain value)
  decode_spelled values hSpelled hDepth := by
    rcases Json.SpelledAs.exists_array hSpelled with
      ⟨spelled, rfl, hLength, hItems⟩
    rcases Json.nesting_array_le_iff.mp hDepth with
      ⟨inner, rfl, hInner⟩
    rw [List.length_map] at hLength
    refine LawfulStored.mapM_decode_spelled hLength ?_ hInner
    intro i value json hValue hJson
    apply hItems i _ json _ hJson
    rw [List.getElem?_map, hValue]
    rfl
  nesting_le hDecode := by
    rcases Option.bind_eq_some_iff.mp hDecode with
      ⟨items, hItems, hValues⟩
    rcases Json.items?_eq_some_iff.mp hItems with
      ⟨inner, rfl, -⟩
    exact Json.nesting_array_le_iff.mpr ⟨inner, rfl,
      List.forall_mem_map.mpr
        (LawfulStored.nesting_le_of_mapM hValues)⟩
  decode_null depth := by
    cases depth <;> rfl

instance
    {α : Type}
    [Stored α] [LawfulStored α] :
    LawfulStored (Array α) where
  encode_plain values :=
    LawfulStored.encode_plain values.toList
  decode_spelled values hSpelled hDepth :=
    congrArg (Option.map List.toArray)
      (LawfulStored.decode_spelled values.toList hSpelled
        hDepth)
  nesting_le hDecode := by
    rcases Option.map_eq_some_iff.mp hDecode with
      ⟨values, hValues, rfl⟩
    exact LawfulStored.nesting_le (α := List α) hValues
  decode_null depth :=
    congrArg (Option.map List.toArray)
      (LawfulStored.decode_null depth)

end HiddenRule

------------------------------------------------------------
-- Names
------------------------------------------------------------

namespace HiddenRule

/- Every value of a closed list is found by its label. -/
class LawfulLabels
    (α : Type)
    [Labelled α] : Prop where
  ofLabel?_label (value : α) :
    Labelled.ofLabel? (Labelled.label value) = some value

/- A closed list is stored lawfully by its labels. -/
instance
    {α : Type}
    [Labelled α] [LawfulLabels α] :
    LawfulStored α where
  encode_plain _ := .string _
  decode_spelled {depth json} value hSpelled hDepth := by
    have hName :
        json.name? depth = some (Labelled.label value) := by
      rw [Json.name?,
        Json.SpelledAs.variant?_of_name hSpelled hDepth]
      rfl
    change (json.name? depth).bind _ = _
    rw [hName]
    exact LawfulLabels.ofLabel?_label value
  nesting_le _ := Nat.zero_le _
  decode_null depth := by
    cases depth <;> rfl

end HiddenRule

------------------------------------------------------------
-- Variants
------------------------------------------------------------

namespace HiddenRule

/- At depth 0, a variant has no content. -/
theorem Json.eq_null_of_variant?_zero
    {value content : Json}
    {name : String}
    (hVariant : value.variant? 0 = some (name, content)) :
    content = .null := by
  unfold variant? at hVariant
  split at hVariant <;> simp_all

namespace LawfulStored

variable {α β : Type}
variable [Stored α] [LawfulStored α]

/-
  A reader that looks at the content of a variant one level
  deeper reads the variant of a stored content.
-/
theorem decode_variant
    {decode : (depth : Nat) → Json → Option β}
    {make : α → β}
    {name : String}
    {depth : Nat}
    {json : Json}
    (value : α)
    (hDecode :
      ∀ inner content,
        decode (inner + 1) (.ofVariant name content) =
          (Stored.decode inner content).map make)
    (hSpelled :
      (Json.ofVariant name (Stored.encode value)).SpelledAs
        json)
    (hDepth : json.nesting ≤ depth) :
    decode depth json = some (make value) := by
  rcases hSpelled.exists_variant hDepth with
    ⟨inner, spelled, rfl, rfl, hContent, hInner⟩
  rw [hDecode, decode_spelled value hContent hInner]
  rfl

/-
  The content of a variant that was read at a depth can be
  stored in a variant at that depth, whatever its name.
-/
theorem variant_nesting_le
    {depth : Nat}
    {json content : Json}
    {name name' : String}
    {value : α}
    (hVariant : json.variant? depth = some (name, content))
    (hDecode :
      Stored.decode (depth - 1) content = some value) :
    (Json.ofVariant name' (Stored.encode value)).nesting ≤
      depth := by
  cases depth with
  | zero =>
      rw [Json.eq_null_of_variant?_zero hVariant,
        decode_null] at hDecode
      cases hDecode
  | succ inner =>
      exact Json.nesting_ofVariant_le_iff.mpr
        ⟨inner, rfl, nesting_le hDecode⟩

end LawfulStored

end HiddenRule

------------------------------------------------------------
-- Records
------------------------------------------------------------

namespace HiddenRule

namespace Json

/-
  Fields that were read at a depth can be stored in a record
  at that depth, whatever the form they were read from.
-/
theorem nesting_ofMembers_le
    {names : List String}
    {depth : Nat}
    {value : Json}
    {fields : Fields}
    {members : List (String × Json)}
    (hFields : value.fields? names depth = some fields)
    (hMembers :
      ∀ member ∈ members, member.2.nesting ≤ depth - 1) :
    (ofMembers members).nesting ≤ depth := by
  cases depth with
  | zero => simp [fields?] at hFields
  | succ inner =>
      exact nesting_ofMembers_le_iff.mpr
        ⟨inner, rfl, hMembers⟩

/- A record leaves a level for the variant around it. -/
theorem nesting_ofVariant_ofMembers_le
    {name : String}
    {members : List (String × Json)}
    {depth : Nat}
    (hRecord : (ofMembers members).nesting ≤ depth - 1) :
    (ofVariant name (ofMembers members)).nesting ≤ depth := by
  rcases nesting_ofMembers_le_iff.mp hRecord with
    ⟨inner, hInner, -⟩
  have hDepth : depth = (depth - 1) + 1 := by omega
  exact nesting_ofVariant_le_iff.mpr
    ⟨depth - 1, hDepth, hRecord⟩

end Json

namespace Fields

variable {α : Type}
variable [Stored α] [LawfulStored α]
variable {fields : Fields}
variable {depth : Nat}
variable {name : String}
variable {value : α}

/- A field that spells a value is read as that value. -/
theorem required_of_spell
    (hSpell : fields.Spell depth name (Stored.encode value)) :
    fields.required depth name = some value := by
  rcases hSpell with ⟨json, hField, hSpelled, hDepth⟩
  rw [required, hField]
  exact LawfulStored.decode_spelled value hSpelled hDepth

/- The value of a field is not too deep. -/
theorem required_nesting_le
    (hRequired : fields.required depth name = some value) :
    (Stored.encode value).nesting ≤ depth := by
  rcases Option.bind_eq_some_iff.mp hRequired with
    ⟨json, -, hDecode⟩
  exact LawfulStored.nesting_le hDecode

end Fields

end HiddenRule

------------------------------------------------------------
-- Records Of Two Fields
------------------------------------------------------------

namespace HiddenRule

namespace Json

variable {α β γ : Type}
variable [Stored α] [Stored β]
variable [LawfulStored α] [LawfulStored β]
variable {left right : String}

/- A record of two fields is plain. -/
theorem plain_pair
    (hNe : left ≠ right)
    (x : α)
    (y : β) :
    (ofPair left right x y).Plain := by
  apply plain_ofMembers
  · simpa using hNe
  · simp [LawfulStored.encode_plain]

/- Two spelled fields are read. -/
theorem pair?_spelled
    (hNe : left ≠ right)
    (make : α → β → γ)
    (x : α)
    (y : β)
    {depth : Nat}
    {json : Json}
    (hSpelled : (ofPair left right x y).SpelledAs json)
    (hDepth : json.nesting ≤ depth) :
    pair? left right make depth json = some (make x y) := by
  rcases hSpelled.exists_fields? [left, right] (by simp) rfl
      (by simpa using hNe) hDepth with
    ⟨inner, fields, rfl, hFields, hMembers⟩
  simp only [List.forall_mem_cons] at hMembers
  rcases hMembers with ⟨hLeft, hRight, -⟩
  rw [pair?, hFields]
  simp only [Option.bind_eq_bind, Option.bind_some,
    Nat.add_sub_cancel]
  rw [Fields.required_of_spell hLeft,
    Fields.required_of_spell hRight]
  rfl

/- Two fields that were read are not too deep. -/
theorem exists_of_pair?
    {make : α → β → γ}
    {value : Json}
    {made : γ}
    {depth : Nat}
    (hPair : pair? left right make depth value = some made) :
    ∃ x y,
      made = make x y ∧
        (ofPair left right x y).nesting ≤ depth := by
  simp only [pair?, Option.bind_eq_bind, Option.pure_def,
    Option.bind_eq_some_iff, Option.some.injEq] at hPair
  rcases hPair with
    ⟨fields, hFields, x, hLeft, y, hRight, rfl⟩
  refine ⟨x, y, rfl, nesting_ofMembers_le hFields ?_⟩
  simp only [List.forall_mem_cons]
  exact ⟨Fields.required_nesting_le hLeft,
    Fields.required_nesting_le hRight, List.forall_mem_nil _⟩

end Json

end HiddenRule
