import HiddenRule.Grammar.Constructor
import HiddenRule.Grammar.Tags
import HiddenRule.Text.Numeral

/-
  This file defines why a rule cannot be built.

  Key definitions include:
    * `BuildError`
    * `BuildError.name`
    * `BuildError.message`
-/

namespace HiddenRule

------------------------------------------------------------
-- Failures To Build
------------------------------------------------------------

/-
  A failure to build a rule, or a fault of a grammar that
  would lead to one.
-/
inductive BuildError where
| noApplicableEntry : Kind → (used : TagSet) → BuildError
| malformedVariant :
    Constructor → (variant count : Nat) → BuildError
| noVariants : Constructor → BuildError
| childMismatch :
    Constructor → (slot : Nat) → (expected : Role) →
      (found : Option Role) → BuildError
| childCount :
    Constructor → (expected found : Nat) → BuildError
| unreachableKind : (parent : Constructor) → Kind → BuildError
| noTagFreeRoot : BuildError
deriving DecidableEq, Repr

namespace BuildError

/- The name of a failure. -/
def name : BuildError → String
| .noApplicableEntry _ _ => "NoApplicableEntry"
| .malformedVariant _ _ _ => "MalformedVariant"
| .noVariants _ => "NoVariants"
| .childMismatch _ _ _ _ => "ChildMismatch"
| .childCount _ _ _ => "ChildCount"
| .unreachableKind _ _ => "UnreachableKind"
| .noTagFreeRoot => "NoTagFreeRoot"

/- The words in which a failure is reported. -/
def message : BuildError → String
| .noApplicableEntry kind used =>
    "no grammar entry of kind " ++ kind.text ++
      " fits the tag budget " ++ used.text
| .malformedVariant constructor variant count =>
    "variant " ++ Numeral.decimal variant ++
      " is out of range for " ++ constructor.name ++
      " (" ++ Numeral.decimal count ++ " variants)"
| .noVariants constructor =>
    constructor.name ++ " has no variants"
| .childMismatch constructor slot expected found =>
    constructor.name ++ " expects a " ++ expected.text ++
      " in child slot " ++ Numeral.decimal slot ++
      ", found " ++ (found.map Role.text).getD "nothing"
| .childCount constructor expected found =>
    constructor.name ++ " holds " ++
      Numeral.decimal expected ++
      " children but was given " ++ Numeral.decimal found
| .unreachableKind parent kind =>
    parent.name ++ " refers to kind " ++ kind.text ++
      ", which has no entry with positive weight"
| .noTagFreeRoot =>
    "grammar has no tag-free RULE entry with positive weight"

end BuildError

end HiddenRule
