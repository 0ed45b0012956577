import HiddenRule.Json.Reading
import HiddenRule.Label
import HiddenRule.Power

/-
  This file defines how values are stored as JSON.

  A stored type has a form to write and a reader, which may
  accept further forms.  The reader is given a depth: the
  number of arrays and objects that it may still enter.
  Values that it passes over are not entered.

  Three shapes recur.  A name of a closed list is a text.  A
  variant is an object with one member, whose name tells the
  variant; where the content is null, the name alone may
  stand for it.  A record is an object with named fields, or
  an array of the fields in order.

  Key definitions include:
    * `Stored`
    * `Stored.write` and `Stored.read`
    * `Json.variant?`
    * `Json.fields?`
    * `Fields.required` and `Fields.optional`
    * `Json.ofPair` and `Json.pair?`
-/

namespace HiddenRule

------------------------------------------------------------
-- Stored Types
------------------------------------------------------------

/- A type whose values are stored as JSON. -/
class Stored
    (α : Type) where
  encode : α → Json
  decode : (depth : Nat) → Json → Option α

namespace Stored

/- The number of nested arrays and objects in a stored text. -/
def depthLimit : Nat :=
  127

/- The text of a value. -/
def write
    {α : Type}
    [Stored α]
    (value : α) : String :=
  (encode value).text

/- The value that a text stores. -/
def read
    {α : Type}
    [Stored α]
    (text : String) : Option α := do
  let value ← Json.parse? text.toList
  decode depthLimit value

end Stored

------------------------------------------------------------
-- Numbers
------------------------------------------------------------

/- The number below a limit that plain digits write. -/
def Json.unsigned?
    (limit : Nat) : Json → Option Nat
| .number token =>
    (Numeral.ofDigits? 10 token).filter (· < limit)
| _ => none

instance : Stored UInt8 where
  encode n := .ofNat n.toNat
  decode _ value :=
    (value.unsigned? (twoPow 8)).map UInt8.ofNat

instance : Stored UInt32 where
  encode n := .ofNat n.toNat
  decode _ value :=
    (value.unsigned? (twoPow 32)).map UInt32.ofNat

instance : Stored UInt64 where
  encode n := .ofNat n.toNat
  decode _ value :=
    (value.unsigned? (twoPow 64)).map UInt64.ofNat

instance : Stored (BitVec 128) where
  encode n := .ofNat n.toNat
  decode _ value :=
    (value.unsigned? (twoPow 128)).map (BitVec.ofNat 128)

instance : Stored Bool where
  encode b := .bool b
  decode
  | _, .bool b => some b
  | _, _ => none

------------------------------------------------------------
-- Lists And Absence
------------------------------------------------------------

/- The items of an array. -/
def Json.items? : (depth : Nat) → Json → Option (List Json)
| _ + 1, .array items => some items
| _, _ => none

instance
    {α : Type}
    [Stored α] : Stored (List α) where
  encode values := .array (values.map Stored.encode)
  decode depth value := do
    let items ← value.items? depth
    items.mapM (Stored.decode (depth - 1))

instance
    {α : Type}
    [Stored α] : Stored (Array α) where
  encode values := Stored.encode values.toList
  decode depth value :=
    (Stored.decode depth value).map List.toArray

instance
    {α : Type}
    [Stored α] : Stored (Option α) where
  encode
  | none => .null
  | some value => Stored.encode value
  decode
  | _, .null => some none
  | depth, value => (Stored.decode depth value).map some

------------------------------------------------------------
-- Variants
------------------------------------------------------------

namespace Json

/- A variant with content. -/
def ofVariant
    (name : String)
    (content : Json) : Json :=
  .ofMembers [(name, content)]

/-
  The name and the content of a variant.  A name alone has
  null as its content.
-/
def variant? :
    (depth : Nat) → Json → Option (String × Json)
| _, .string (some name) => some (name, .null)
| _ + 1, .object [(some name, content)] =>
    some (name, content)
| _, _ => none

/- The name of a variant whose content is null. -/
def name?
    (depth : Nat)
    (value : Json) : Option String := do
  match ← value.variant? depth with
  | (name, .null) => some name
  | _ => none

end Json

/- A value of a closed list is stored by its label. -/
instance
    {α : Type}
    [Labelled α] : Stored α where
  encode value := .ofString (Labelled.label value)
  decode depth value := do
    Labelled.ofLabel? (← value.name? depth)

------------------------------------------------------------
-- Records
------------------------------------------------------------

/- The stored fields of a record, by their names. -/
abbrev Fields : Type :=
  String → Option Json

namespace Json

/- The members of an object, if each of them has a name. -/
def named? :
    List (Option String × Json) →
      Option (List (String × Json))
| [] => some []
| (name, value) :: rest => do
    let name ← name
    let later ← named? rest
    return (name, value) :: later

/-
  The fields of a record with given names.  An object may
  hold further members, but no field twice; an array may be
  too short, but not too long.
-/
def fields?
    (names : List String) :
    (depth : Nat) → Json → Option Fields
| _ + 1, .array items =>
    if items.length ≤ names.length then
      some fun name => items[names.idxOf name]?
    else
      none
| _ + 1, .object members => do
    let members ← named? members
    let keys := members.map Prod.fst
    if names.all fun name => keys.count name ≤ 1 then
      return fun name => members.lookup name
    else
      none
| _, _ => none

end Json

namespace Fields

/- A field that must be there. -/
def required
    {α : Type}
    [Stored α]
    (fields : Fields)
    (depth : Nat)
    (name : String) : Option α := do
  Stored.decode depth (← fields name)

/- A field that may be left out. -/
def optional
    {α : Type}
    [Stored α]
    (fields : Fields)
    (depth : Nat)
    (name : String)
    (otherwise : α) : Option α :=
  match fields name with
  | none => some otherwise
  | some value => Stored.decode depth value

end Fields

namespace Json

variable {α β γ : Type}
variable [Stored α] [Stored β]

/- The record of two fields. -/
def ofPair
    (left right : String)
    (x : α)
    (y : β) : Json :=
  .ofMembers
    [(left, Stored.encode x), (right, Stored.encode y)]

/- What is made of the two fields of a record. -/
def pair?
    (left right : String)
    (make : α → β → γ)
    (depth : Nat)
    (value : Json) : Option γ := do
  let fields ← value.fields? [left, right] depth
  let x ← fields.required (depth - 1) left
  let y ← fields.required (depth - 1) right
  return make x y

end Json

end HiddenRule
