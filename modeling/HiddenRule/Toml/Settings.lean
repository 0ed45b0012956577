import HiddenRule.Power
import HiddenRule.Settings
import HiddenRule.Toml.Reading

/-
  This file defines how settings are read from TOML.

  A table of settings holds them by name.  An array may
  stand for it and holds them in order.  Settings that are
  left out have their usual values, and others than those
  known are passed over.

  Key definitions include:
    * `Toml.fields?`
    * `LoadError`
    * `Settings.ofToml`
-/

namespace HiddenRule

------------------------------------------------------------
-- Fields
------------------------------------------------------------

namespace Toml

/- The number below a limit that an integer is. -/
def unsigned?
    (limit : Nat) : Value → Option Nat
| .integer n =>
    if 0 ≤ n ∧ n < limit then some n.toNat else none
| _ => none

/-
  The fields that a value has under given names.  A moment
  counts as a table without any.
-/
def fields?
    (names : List String) :
    Value → Option (String → Option Value)
| .table _ table => some fun name => table.lookup name
| .array items =>
    some fun name => items[names.idxOf name]?
| .tables older last =>
    let items := older ++ [last]
    some fun name =>
      (items[names.idxOf name]?).map (.table .header)
| .moment _ => some fun _ => none
| _ => none

/- A field below a limit, or the usual number. -/
def unsignedField
    (fields : String → Option Value)
    (limit : Nat)
    (name : String)
    (usual : Nat) : Option Nat :=
  match fields name with
  | none => some usual
  | some value => unsigned? limit value

end Toml

------------------------------------------------------------
-- Settings
------------------------------------------------------------

/- The settings for sampling that a value holds. -/
def SamplingSettings.ofTomlValue?
    (value : Toml.Value) : Option SamplingSettings := do
  let fields ←
    Toml.fields? ["max_attempts", "min_fill", "max_fill"]
      value
  let usual : SamplingSettings := {}
  let maxAttempts ←
    Toml.unsignedField fields (twoPow 32) "max_attempts"
      usual.maxAttempts.toNat
  let minFill ←
    Toml.unsignedField fields (twoPow 64) "min_fill"
      usual.minFill.toNat
  let maxFill ←
    Toml.unsignedField fields (twoPow 64) "max_fill"
      usual.maxFill.toNat
  return {
    maxAttempts := UInt32.ofNat maxAttempts
    minFill := UInt64.ofNat minFill
    maxFill := UInt64.ofNat maxFill }

/- The settings that a document holds. -/
def Settings.ofTomlTable?
    (table : Toml.Table) : Option Settings := do
  let usual : Settings := {}
  let seed ←
    match table.lookup "seed" with
    | none => some usual.seed
    | some value =>
        (Toml.unsigned? (twoPow 64) value).map fun n =>
          some (UInt64.ofNat n)
  let sampling ←
    match table.lookup "synthesis" with
    | none => some usual.sampling
    | some value => SamplingSettings.ofTomlValue? value
  let challengeCount ←
    Toml.unsignedField (fun name => table.lookup name)
      (twoPow 64) "challenge_count" usual.challengeCount.toNat
  return {
    seed
    sampling
    challengeCount := UInt64.ofNat challengeCount }

/- Why a text gives no settings. -/
inductive LoadError where
| unreadable : LoadError
| refused : SettingsError → LoadError
deriving DecidableEq, Repr

/- The settings of a text, which must be acceptable. -/
def Settings.ofToml
    (text : String) : Except LoadError Settings := do
  match Toml.parse? text >>= ofTomlTable? with
  | none => throw .unreadable
  | some settings => do
      settings.validate.mapError .refused
      return settings

end HiddenRule
