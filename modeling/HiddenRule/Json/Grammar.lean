import HiddenRule.Grammar.Entry
import HiddenRule.Json.Stored

/-
  This file defines how the entries of a grammar are stored.

  Key definitions include:
    * `Entry.encode` and `Entry.decode`
-/

namespace HiddenRule

------------------------------------------------------------
-- Sets Of Tags
------------------------------------------------------------

/- A set of tags is stored as its byte. -/
instance : Stored TagSet where
  encode set := Stored.encode set.bits
  decode depth value := do
    let bits ← Stored.decode depth value
    return { bits }

------------------------------------------------------------
-- Entries
------------------------------------------------------------

namespace Entry

/- The names of the stored fields of an entry. -/
def fieldNames : List String :=
  ["constructor", "weight", "tags", "children",
   "variant_count", "separate_tags"]

/- The stored form of an entry. -/
def encode
    (entry : Entry) : Json :=
  .ofMembers
    [("constructor", Stored.encode entry.constructor),
     ("weight", Stored.encode entry.weight),
     ("tags", Stored.encode entry.tags),
     ("children", Stored.encode entry.children),
     ("variant_count", Stored.encode entry.variantCount),
     ("separate_tags", Stored.encode entry.separateTags)]

/- The entry in its stored form. -/
def decode
    (depth : Nat)
    (value : Json) : Option Entry := do
  let fields ← value.fields? fieldNames depth
  let inner := depth - 1
  let constructor ← fields.required inner "constructor"
  let weight ← fields.required inner "weight"
  let tags ← fields.required inner "tags"
  let children ← fields.required inner "children"
  let variantCount ← fields.required inner "variant_count"
  let separateTags ← fields.required inner "separate_tags"
  return {
    constructor
    weight
    tags
    children
    variantCount
    separateTags }

instance : Stored Entry where
  encode := encode
  decode := decode

end Entry

end HiddenRule
