import HiddenRule.Draw.Range
import HiddenRule.Draw.Sample
import HiddenRule.Examples.Basic
import HiddenRule.Rule.Basic
import HiddenRule.Settings

/-
  This file defines how random boards are drawn and sorted
  by a rule.

  Key definitions include:
    * `Sampler`
    * `Sampler.fillCells`
    * `Sampler.randomBoard` and `Sampler.boards`
    * `Sampler.search` and `Sampler.examples`
-/

namespace HiddenRule

------------------------------------------------------------
-- Samplers
------------------------------------------------------------

/- A sampler works by settings that were not refused. -/
structure Sampler where
  settings : SamplingSettings
  valid : settings.validate = .ok ()

namespace Sampler

/- The sampler for given settings. -/
def ofSettings
    (settings : SamplingSettings) :
    Except SettingsError Sampler :=
  match hValid : settings.validate with
  | .ok () => .ok { settings, valid := hValid }
  | .error error => .error error

------------------------------------------------------------
-- Random Boards
------------------------------------------------------------

/- A random symbol: its color, then its shape. -/
def randomSymbol
    (stream : Stream) : Except Fault (Symbol × Stream) := do
  let (colorIndex, stream) ←
    stream.range 0 Color.all.length
  let color ← Checked.lookup Color.all colorIndex
  let (shapeIndex, stream) ←
    stream.range 0 Shape.all.length
  let shape ← Checked.lookup Shape.all shapeIndex
  return (.filled color shape, stream)

/-
  Go through cells in order and fill so many of them.  The
  chance of a cell is the number of symbols that remain over
  the number of cells that are left, itself included.
-/
def fillCells :
    List Cell → (remaining : Nat) → Board → Stream →
      Except Fault (Board × Stream)
| [], _, board, stream => .ok (board, stream)
| cell :: rest, remaining, board, stream =>
    let left := rest.length + 1
    let (sample, stream) := stream.unit
    if sample.isBelow remaining left then do
      let (symbol, stream) ← randomSymbol stream
      let board ← board.set cell symbol
      let remaining ← Checked.sub remaining 1
      fillCells rest remaining board stream
    else
      fillCells rest remaining board stream

/-
  A random board.  The number of symbols on it is drawn
  first, every number within the settings as likely as
  another.
-/
def randomBoard
    (sampler : Sampler)
    (stream : Stream) : Except Fault (Board × Stream) := do
  let top ←
    Checked.add 64 sampler.settings.maxFill.toNat 1
  let (target, stream) ←
    stream.range sampler.settings.minFill.toNat top
  fillCells Cell.all target .empty stream

/- So many random boards after those that were drawn. -/
def moreBoards
    (sampler : Sampler) :
    (count : Nat) → (drawn : List Board) → Stream →
      Except Fault (List Board × Stream)
| 0, drawn, stream => .ok (drawn.reverse, stream)
| count + 1, drawn, stream => do
    let (board, stream) ← sampler.randomBoard stream
    moreBoards sampler count (board :: drawn) stream

/- So many random boards, if there is room for all. -/
def boards
    (sampler : Sampler)
    (count : UInt64)
    (stream : Stream)
    (memory : Nat := Machine.usual.memory) :
    Except Fault (List Board × Stream) := do
  Checked.reserve count.toNat Examples.boardBytes memory
  moreBoards sampler count.toNat [] stream

------------------------------------------------------------
-- Examples
------------------------------------------------------------

/- Draw boards for a rule, at most so many. -/
def collect
    (sampler : Sampler)
    (rule : Rule) :
    (left : Nat) → Examples → Stream →
      Except Fault (Examples × Stream)
| 0, examples, stream => .ok (examples, stream)
| left + 1, examples, stream =>
    if examples.isComplete then
      .ok (examples, stream)
    else do
      let attempts ←
        Checked.add 32 examples.attempts.toNat 1
      let (board, stream) ← sampler.randomBoard stream
      let follows ← rule.evaluate board
      let tried :=
        { examples with attempts := UInt32.ofNat attempts }
      collect sampler rule left (tried.offer board follows)
        stream

/-
  Example boards for a rule, so many of each side, unless
  the attempts run out.  The room for them is not looked at.
-/
def search
    (sampler : Sampler)
    (rule : Rule)
    (wantedPositive wantedNegative : UInt64)
    (stream : Stream) :
    Except Fault (Examples × Stream) :=
  collect sampler rule sampler.settings.maxAttempts.toNat
    (.empty wantedPositive wantedNegative) stream

/- Example boards for a rule, if there is room for all. -/
def examples
    (sampler : Sampler)
    (rule : Rule)
    (wantedPositive wantedNegative : UInt64)
    (stream : Stream)
    (memory : Nat := Machine.usual.memory) :
    Except Fault (Examples × Stream) := do
  Examples.reserve memory wantedPositive wantedNegative
  sampler.search rule wantedPositive wantedNegative stream

end Sampler

end HiddenRule
