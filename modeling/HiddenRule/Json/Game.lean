import HiddenRule.Draw.Stream
import HiddenRule.Examples.Basic
import HiddenRule.Json.Board
import HiddenRule.Settings

/-
  This file defines how the parts of a game are stored:
  places in a random stream, sets of examples and settings.

  The fields of settings may be left out; then they have
  their usual values.

  Key definitions include:
    * `Snapshot.encode` and `Snapshot.decode`
    * `Examples.encode` and `Examples.decode`
    * `SamplingSettings.encode` and
      `SamplingSettings.decode`
    * `Settings.encode` and `Settings.decode`
-/

namespace HiddenRule

------------------------------------------------------------
-- Places In A Stream
------------------------------------------------------------

namespace Snapshot

/- The stored form of a place in a stream. -/
def encode
    (snapshot : Snapshot) : Json :=
  .ofPair "seed" "word_pos" snapshot.seed
    snapshot.wordPosition

/- The place in a stream in its stored form. -/
def decode
    (depth : Nat)
    (value : Json) : Option Snapshot :=
  value.pair? "seed" "word_pos" mk depth

instance : Stored Snapshot where
  encode := encode
  decode := decode

end Snapshot

------------------------------------------------------------
-- Examples
------------------------------------------------------------

namespace Examples

/- The names of the stored fields of a set of examples. -/
def fieldNames : List String :=
  ["positives", "negatives", "attempts", "wanted_positive",
   "wanted_negative"]

/- The stored form of a set of examples. -/
def encode
    (examples : Examples) : Json :=
  .ofMembers
    [("positives", Stored.encode examples.positives),
     ("negatives", Stored.encode examples.negatives),
     ("attempts", Stored.encode examples.attempts),
     ("wanted_positive",
       Stored.encode examples.wantedPositive),
     ("wanted_negative",
       Stored.encode examples.wantedNegative)]

/- The set of examples in its stored form. -/
def decode
    (depth : Nat)
    (value : Json) : Option Examples := do
  let fields ← value.fields? fieldNames depth
  let inner := depth - 1
  let positives ← fields.required inner "positives"
  let negatives ← fields.required inner "negatives"
  let attempts ← fields.required inner "attempts"
  let wantedPositive ←
    fields.required inner "wanted_positive"
  let wantedNegative ←
    fields.required inner "wanted_negative"
  return {
    positives
    negatives
    attempts
    wantedPositive
    wantedNegative }

instance : Stored Examples where
  encode := encode
  decode := decode

end Examples

------------------------------------------------------------
-- Settings
------------------------------------------------------------

namespace SamplingSettings

/- The names of the fields of settings for sampling. -/
def fieldNames : List String :=
  ["max_attempts", "min_fill", "max_fill"]

/- The stored form of settings for sampling. -/
def encode
    (settings : SamplingSettings) : Json :=
  .ofMembers
    [("max_attempts", Stored.encode settings.maxAttempts),
     ("min_fill", Stored.encode settings.minFill),
     ("max_fill", Stored.encode settings.maxFill)]

/- The settings for sampling in their stored form. -/
def decode
    (depth : Nat)
    (value : Json) : Option SamplingSettings := do
  let fields ← value.fields? fieldNames depth
  let usual : SamplingSettings := {}
  let inner := depth - 1
  let maxAttempts ←
    fields.optional inner "max_attempts" usual.maxAttempts
  let minFill ←
    fields.optional inner "min_fill" usual.minFill
  let maxFill ←
    fields.optional inner "max_fill" usual.maxFill
  return { maxAttempts, minFill, maxFill }

instance : Stored SamplingSettings where
  encode := encode
  decode := decode

end SamplingSettings

namespace Settings

/- The names of the fields of settings. -/
def fieldNames : List String :=
  ["seed", "synthesis", "challenge_count"]

/- The stored form of settings. -/
def encode
    (settings : Settings) : Json :=
  .ofMembers
    [("seed", Stored.encode settings.seed),
     ("synthesis", settings.sampling.encode),
     ("challenge_count",
       Stored.encode settings.challengeCount)]

/- The settings in their stored form. -/
def decode
    (depth : Nat)
    (value : Json) : Option Settings := do
  let fields ← value.fields? fieldNames depth
  let usual : Settings := {}
  let inner := depth - 1
  let seed ← fields.optional inner "seed" usual.seed
  let sampling ←
    fields.optional inner "synthesis" usual.sampling
  let challengeCount ←
    fields.optional inner "challenge_count"
      usual.challengeCount
  return { seed, sampling, challengeCount }

instance : Stored Settings where
  encode := encode
  decode := decode

end Settings

end HiddenRule
