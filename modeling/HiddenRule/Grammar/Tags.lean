import HiddenRule.Label

/-
  This file defines the tags of the grammar.

  A tag names a dimension of the board that a node
  constrains.  The tags claimed so far form a budget: what
  is claimed may not be claimed again.  A set of tags is
  stored as a byte, one bit for each tag; bits that belong
  to no tag are kept but have no name.

  Key definitions include:
    * `Tag`
    * `TagSet`
    * `TagSet.insert` and `TagSet.union`
    * `TagSet.contains` and `TagSet.intersects`
    * `TagSet.isolated`
    * `TagSet.text`
-/

namespace HiddenRule

------------------------------------------------------------
-- Tags
------------------------------------------------------------

/- The dimensions of the board. -/
inductive Tag where
| shape
| color
| position
deriving DecidableEq, Repr, Inhabited

namespace Tag

/- Every tag, in the order of their bits. -/
def all : List Tag :=
  [.shape, .color, .position]

/- The bit of a tag. -/
def bit : Tag → UInt8
| .shape => 1
| .color => 2
| .position => 4

/- The name of a tag in messages. -/
def name : Tag → String
| .shape => "SHAPE"
| .color => "COLOR"
| .position => "POSITION"

instance : Labelled Tag where
  all := all
  label
  | .shape => "Shape"
  | .color => "Color"
  | .position => "Position"

end Tag

------------------------------------------------------------
-- Sets Of Tags
------------------------------------------------------------

/- A set of tags, as a byte. -/
structure TagSet where
  bits : UInt8
deriving DecidableEq, Repr, Inhabited

namespace TagSet

/- The set without tags. -/
def empty : TagSet where
  bits := 0

/- Whether a set has no tags and no other bits. -/
def isEmpty
    (set : TagSet) : Bool :=
  set.bits == 0

/- The tags and bits of two sets. -/
def union
    (left right : TagSet) : TagSet where
  bits := left.bits ||| right.bits

/- A set with one more tag. -/
def insert
    (set : TagSet)
    (tag : Tag) : TagSet where
  bits := set.bits ||| tag.bit

/- The set of the listed tags. -/
def ofList
    (tags : List Tag) : TagSet :=
  tags.foldl insert empty

/- Whether a tag belongs to a set. -/
def contains
    (set : TagSet)
    (tag : Tag) : Bool :=
  set.bits &&& tag.bit != 0

/- Whether two sets share a bit. -/
def intersects
    (left right : TagSet) : Bool :=
  left.bits &&& right.bits != 0

/- The tags of a set, in the order of their bits. -/
def toList
    (set : TagSet) : List Tag :=
  Tag.all.filter set.contains

/-
  The budget of a child that starts afresh: of what was
  claimed only the position stays claimed.
-/
def isolated
    (set : TagSet) : TagSet :=
  if set.contains .position then
    empty.insert .position
  else
    empty

/- The names of the tags of a set, between braces. -/
def text
    (set : TagSet) : String :=
  "\x7b" ++ ", ".intercalate (set.toList.map Tag.name) ++
    "\x7d"

end TagSet

end HiddenRule
