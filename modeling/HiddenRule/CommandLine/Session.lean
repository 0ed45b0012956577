import HiddenRule.CommandLine.Options
import HiddenRule.Board.Reading
import HiddenRule.Game
import HiddenRule.Toml.Settings

/-
  This file defines what the program does for a command
  line: it shows a rule, says whether a board follows it,
  and shows example boards.

  Key definitions include:
    * `FileError`
    * `Failure` and `Failure.text`
    * `Showing`
    * `Report`
    * `Options.play`
    * `run`
-/

namespace HiddenRule

namespace CommandLine

------------------------------------------------------------
-- Failures
------------------------------------------------------------

/- Why a file cannot be read. -/
inductive FileError where
| notFound
| denied
| notDirectory
| isDirectory
| nameTooLong
| notText
deriving DecidableEq, Repr

namespace FileError

/- The words in which it is reported. -/
def message : FileError → String
| .notFound => "No such file or directory (os error 2)"
| .denied => "Permission denied (os error 13)"
| .notDirectory => "Not a directory (os error 20)"
| .isDirectory => "Is a directory (os error 21)"
| .nameTooLong => "File name too long (os error 36)"
| .notText => "stream did not contain valid UTF-8"

end FileError

/- What failed, and the causes of it, the nearest first. -/
structure Failure where
  context : String
  causes : List String
deriving DecidableEq, Repr

namespace Failure

/- A cause with its number. -/
def numbered
    (cause : String)
    (i : Nat) : String :=
  let number := Numeral.decimal i
  "".pushn ' ' (5 - number.length) ++ number ++ ": " ++ cause

/- The lines for causes; several are numbered. -/
def causeLines : List String → List String
| [cause] => ["    " ++ cause]
| causes =>
    causes.zipIdx.map fun (cause, i) => numbered cause i

/- The report of a failure. -/
def text
    (failure : Failure) : String :=
  let lines :=
    ["Error: " ++ failure.context, "", "Caused by:"] ++
      causeLines failure.causes
  String.join (lines.map (· ++ "\n"))

/- A failure with one cause. -/
def because
    (context cause : String) : Failure where
  context := context
  causes := [cause]

/- Settings that cannot be read from a file. -/
def ofLoadError
    (path : String) : LoadError → Failure
| .unreadable =>
    { context := "failed to load " ++ path
      causes :=
        ["failed to parse config",
         "not a TOML document with settings"] }
| .refused error =>
    because ("failed to load " ++ path) error.message

end Failure

------------------------------------------------------------
-- Showings
------------------------------------------------------------

/-
  What is shown of a game: the lines, the records of the
  log, and the fault that ended it early, if one did.
-/
structure Showing where
  lines : List String := []
  records : List Record := []
  fault : Option Fault := none
deriving DecidableEq, Repr

namespace Showing

/-
  One part of a showing and then the next.  What was shown
  before a fault stays; nothing is shown after it.
-/
def followedBy
    (showing next : Showing) : Showing :=
  match showing.fault with
  | some _ => showing
  | none =>
      { lines := showing.lines ++ next.lines
        records := showing.records ++ next.records
        fault := next.fault }

/- A part of a showing that may come to a fault. -/
def ofResult : Except Fault Showing → Showing
| .ok showing => showing
| .error fault => { fault := some fault }

end Showing

------------------------------------------------------------
-- Playing
------------------------------------------------------------

/- The settings in a file that was read. -/
def settingsOf
    (path : String)
    (content : Except FileError String) :
    Except Failure Settings := do
  let text ← content.mapError fun error =>
    .because ("failed to read " ++ path) error.message
  (Settings.ofToml text).mapError (.ofLoadError path)

/- The lines that say whether a board follows a rule. -/
def verdictLines
    (board : Board)
    (follows : Bool) : List String :=
  let verdict := if follows then "follows" else "breaks"
  ["", board.table, "",
   "This board " ++ verdict ++ " the rule."]

/- The lines that show boards of one side. -/
def boardLines
    (label : String)
    (boards : List Board) : List String :=
  boards.zipIdx.flatMap fun (board, i) =>
    ["", label ++ " #" ++ Numeral.decimal (i + 1) ++ ":",
     board.table]

/- The line for a record of the log. -/
def recordLine
    (record : Record) : String :=
  let fields :=
    record.fields.map fun (name, value) =>
      name ++ "=" ++ value
  " ".intercalate
    (record.level.name :: record.message :: fields)

/- Show whether a board follows a rule, if there is one. -/
def showVerdict
    (rule : Rule) : Option Board → Showing
| none => {}
| some board => .ofResult do
    let follows ← rule.evaluate board
    return { lines := verdictLines board follows }

/- Show example boards for a rule, so many of each side. -/
def showExamples
    (game : Game)
    (rule : Rule)
    (positive negative : UInt64) : Showing := .ofResult do
  let answer ← game.examples rule positive negative
  let boards := answer.value
  return {
    lines :=
      boardLines "Follows" boards.positives.toList ++
        boardLines "Breaks" boards.negatives.toList
    records := answer.records }

/-
  Show a rule of a game, then a board if there is one, and
  then examples.
-/
def Options.showGame
    (options : Options)
    (board : Option Board)
    (game : Game) : Except Failure Showing :=
  let drawn := game.newRule
  let records := game.startRecord :: drawn.records
  match drawn.value with
  | .ok rule =>
      let opening : Showing :=
        { lines := ["Rule: " ++ rule.describe], records }
      let verdict := showVerdict rule board
      let examples :=
        showExamples drawn.game rule options.positive
          options.negative
      .ok ((opening.followedBy verdict).followedBy examples)
  | .error (.fault fault) =>
      .ok { records, fault := some fault }
  | .error (.failed error) =>
      .error (.because "rule generation failed" error.message)
  | .error .tooDeep =>
      .error (.because "rule generation failed"
        "the grammar asks for too deep a rule")

/-
  Show a game with settings.  The seed of the options goes
  before that of the settings, and a board that cannot be
  read is refused before the game begins.
-/
def Options.play
    (options : Options)
    (settings : Settings)
    (otherwise : UInt64)
    (machine : Machine) : Except Failure Showing := do
  let settings :=
    { settings with seed := options.seed <|> settings.seed }
  let board ← options.grid.mapM fun text =>
    (Board.ofText text).mapError fun error =>
      .because "invalid --grid" error.message
  let game ←
    (Game.start .standard settings otherwise machine).mapError
      fun error =>
        .because "failed to start engine" error.message
  options.showGame board game

------------------------------------------------------------
-- Reports
------------------------------------------------------------

/-
  What the program writes, and the code with which it ends.
  There is none if the system stops it.
-/
structure Report where
  exitCode : Option UInt8
  output : String := ""
  errors : String := ""
deriving DecidableEq, Repr

/- The text of lines. -/
def linesText
    (lines : List String) : String :=
  String.join (lines.map (· ++ "\n"))

/- The answer to a request for the version. -/
def versionText : String :=
  linesText ["zendo 0.1.0"]

/- The answer to a request for help. -/
def helpText : String :=
  linesText
    ["Generate a random Zendo rule and example boards",
     "",
     "Usage: zendo [OPTIONS]",
     "",
     "Options:",
     "  -s, --seed <SEED>          " ++
       "Seed for a reproducible rule " ++
       "(overrides the config file)",
     "  -c, --config <CONFIG>      TOML configuration file",
     "  -p, --positive <POSITIVE>  " ++
       "Boards that follow the rule [default: 2]",
     "  -n, --negative <NEGATIVE>  " ++
       "Boards that break the rule [default: 2]",
     "  -g, --grid <GRID>          " ++
       "Board to test, as nine tokens such as " ++
       "\"rC __ __ __ yT __ __ __ bS\"",
     "  -v, --verbose              Verbose output",
     "  -h, --help                 Print help",
     "  -V, --version              Print version"]

/-
  The code with which a program ends.  A fault has its own;
  without memory the system stops the program.
-/
def exitCodeOf : Option Fault → Option UInt8
| none => some 0
| some .outOfMemory => none
| some _ => some 101

/-
  The report of a game that was shown.  The log belongs to
  it if it is wanted, without its least important records.
-/
def Report.ofGame
    (verbose : Bool) : Except Failure Showing → Report
| .error failure =>
    { exitCode := some 1, errors := failure.text }
| .ok showing =>
    let wanted := showing.records.filter fun record =>
      verbose && record.level != .trace
    let faults := showing.fault.toList.map fun fault =>
      "fault: " ++ fault.message
    { exitCode := exitCodeOf showing.fault
      output := linesText showing.lines
      errors := linesText (wanted.map recordLine ++ faults) }

/-
  Do what arguments ask for.  Files are read as given, a
  number stands for the seed if there is no other, and a
  machine gives memory and depth.
-/
def run
    {m : Type → Type}
    [Monad m]
    (readFile : String → m (Except FileError String))
    (otherwise : UInt64)
    (arguments : List String)
    (machine : Machine := .usual) : m Report := do
  match Request.ofArguments arguments with
  | .error error =>
      return {
        exitCode := some 2
        errors := linesText ["error: " ++ error.message] }
  | .ok .help =>
      return { exitCode := some 0, output := helpText }
  | .ok .version =>
      return { exitCode := some 0, output := versionText }
  | .ok (.play options) => do
      let settings ←
        match options.config with
        | none => pure (.ok {})
        | some path => do
            let content ← readFile path
            pure (settingsOf path content)
      let result := do
        options.play (← settings) otherwise machine
      return .ofGame options.verbose result

end CommandLine

end HiddenRule
