import HiddenRule.Text.Numeral

/-
  This file defines the settings of a game.

  Settings that cannot be honored are refused; the settings
  for random boards are looked at first.

  Key definitions include:
    * `SamplingSettings` and `SamplingSettings.validate`
    * `Settings` and `Settings.validate`
    * `SettingsError`
-/

namespace HiddenRule

------------------------------------------------------------
-- Settings
------------------------------------------------------------

/-
  How random boards are drawn: how many are tried for a set
  of examples, and how many symbols lie on one.
-/
structure SamplingSettings where
  maxAttempts : UInt32 := 1000
  minFill : UInt64 := 3
  maxFill : UInt64 := 9
deriving DecidableEq, Repr, Inhabited

/-
  The settings of a game: a fixed seed, if there is one, how
  random boards are drawn, and how many boards are dealt for
  a challenge.
-/
structure Settings where
  seed : Option UInt64 := none
  sampling : SamplingSettings := {}
  challengeCount : UInt64 := 5
deriving DecidableEq, Repr, Inhabited

------------------------------------------------------------
-- Refused Settings
------------------------------------------------------------

/- Why settings are refused. -/
inductive SettingsError where
| zeroAttempts : SettingsError
| maxFillTooLarge : (maxFill : UInt64) → SettingsError
| fillsInverted : (minFill maxFill : UInt64) → SettingsError
| challengeTooSmall : (count : UInt64) → SettingsError
deriving DecidableEq, Repr

namespace SettingsError

/- The words for what is wrong. -/
def reason : SettingsError → String
| .zeroAttempts => "max_attempts must be positive"
| .maxFillTooLarge maxFill =>
    "max_fill " ++ Numeral.decimal maxFill.toNat ++
      " exceeds the 9 cells of a board"
| .fillsInverted minFill maxFill =>
    "min_fill " ++ Numeral.decimal minFill.toNat ++
      " is greater than max_fill " ++
      Numeral.decimal maxFill.toNat
| .challengeTooSmall count =>
    "challenge_count " ++ Numeral.decimal count.toNat ++
      " leaves no room for one board of each side"

/- The words in which a refusal is reported. -/
def message
    (error : SettingsError) : String :=
  "invalid config: " ++ error.reason

end SettingsError

------------------------------------------------------------
-- Validation
------------------------------------------------------------

namespace SamplingSettings

/- Refuse settings by which no board can be drawn. -/
def validate
    (settings : SamplingSettings) :
    Except SettingsError Unit :=
  if settings.maxAttempts = 0 then
    .error .zeroAttempts
  else if settings.maxFill > 9 then
    .error (.maxFillTooLarge settings.maxFill)
  else if settings.minFill > settings.maxFill then
    .error (.fillsInverted settings.minFill settings.maxFill)
  else
    .ok ()

end SamplingSettings

namespace Settings

/-
  Refuse settings by which no board can be drawn, or no
  challenge holds boards of both sides.
-/
def validate
    (settings : Settings) : Except SettingsError Unit := do
  settings.sampling.validate
  if settings.challengeCount < 2 then
    throw (.challengeTooSmall settings.challengeCount)
  else
    return ()

end Settings

end HiddenRule
