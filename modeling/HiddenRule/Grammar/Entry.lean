import HiddenRule.Grammar.Constructor
import HiddenRule.Grammar.Tags

/-
  This file defines the entries of a grammar.

  An entry offers a constructor for its kind.  It says how
  often it is taken in comparison with others, which tags
  its node claims, which kinds fill the slots of the node,
  and in how many flavors the node comes.

  Key definitions include:
    * `Entry`
    * `Entry.kind`
    * `Entry.childBudget`
    * `EntryError`
    * `Entry.withVariants`
-/

namespace HiddenRule

------------------------------------------------------------
-- Entries
------------------------------------------------------------

/-
  One way to expand a kind.  Unless said otherwise, an entry
  claims nothing, has no children and one flavor, and shares
  its budget with its children.
-/
structure Entry where
  constructor : Constructor
  weight : UInt32
  tags : TagSet := .empty
  children : List Kind := []
  variantCount : UInt64 := 1
  separateTags : Bool := false
deriving DecidableEq, Repr

namespace Entry

/- The kind that an entry expands. -/
def kind
    (entry : Entry) : Kind :=
  entry.constructor.kind

/- Whether an entry can be taken at all. -/
def available
    (entry : Entry) : Bool :=
  0 < entry.weight

/-
  The budget in which the children of an entry start, when
  the tags of the entry itself are claimed.
-/
def childBudget
    (entry : Entry)
    (used : TagSet) : TagSet :=
  if entry.separateTags then used.isolated else used

end Entry

------------------------------------------------------------
-- Refused Entries
------------------------------------------------------------

/- Why an entry is not accepted. -/
inductive EntryError where
| noVariant : EntryError
| alreadyRegistered : Constructor → EntryError
deriving DecidableEq, Repr

namespace EntryError

/- The words in which a refusal is reported. -/
def message : EntryError → String
| .noVariant => "An entry needs at least one variant"
| .alreadyRegistered constructor =>
    "Constructor " ++ constructor.name ++
      " already registered"

end EntryError

namespace Entry

/- An entry with a number of flavors, at least one. -/
def withVariants
    (entry : Entry)
    (count : UInt64) : Except EntryError Entry :=
  if count = 0 then
    .error .noVariant
  else
    .ok { entry with variantCount := count }

end Entry

end HiddenRule
