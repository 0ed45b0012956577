/-
  This file defines closed lists of names.

  Several notions of the game are finite: the colors, the
  rows of a board, the constructors of the grammar.  Each of
  their values has a label, the name under which it is
  stored and read back.

  Key definitions include:
    * `Labelled`
    * `Labelled.ofLabel?`
-/

namespace HiddenRule

------------------------------------------------------------
-- Labels
------------------------------------------------------------

/-
  A finite type whose values are listed in a fixed order and
  carry one label each.
-/
class Labelled
    (α : Type) where
  all : List α
  label : α → String

namespace Labelled

/- The first value that carries a label. -/
def ofLabel?
    {α : Type}
    [Labelled α]
    (text : String) : Option α :=
  all.find? fun value => label value == text

end Labelled

end HiddenRule
