import HiddenRule.Power
import HiddenRule.Text.Numeral

/-
  This file defines the options of the command line.

  An option has a letter and a name.  Letters may stand
  together behind one dash, of which the last one may have
  its value attached, with or without an equals sign; a name
  has its value after an equals sign.  A value may also be
  the next argument, unless that looks like an option.  No
  option may be given twice, and there are no arguments
  other than options.

  Key definitions include:
    * `Switch`
    * `Options`
    * `Request` and `Request.ofArguments`
    * `UsageError`
-/

namespace HiddenRule

namespace CommandLine

------------------------------------------------------------
-- Switches
------------------------------------------------------------

/- The options, with and without a value. -/
inductive Switch where
| seed
| config
| positive
| negative
| grid
| verbose
| help
| version
deriving DecidableEq, Repr, Inhabited

namespace Switch

/- Every option. -/
def all : List Switch :=
  [.seed, .config, .positive, .negative, .grid, .verbose,
   .help, .version]

/- The letter of an option. -/
def letter : Switch → Char
| .seed => 's'
| .config => 'c'
| .positive => 'p'
| .negative => 'n'
| .grid => 'g'
| .verbose => 'v'
| .help => 'h'
| .version => 'V'

/- The name of an option. -/
def name : Switch → String
| .seed => "seed"
| .config => "config"
| .positive => "positive"
| .negative => "negative"
| .grid => "grid"
| .verbose => "verbose"
| .help => "help"
| .version => "version"

/- The option with a letter. -/
def ofLetter?
    (c : Char) : Option Switch :=
  all.find? fun switch => switch.letter == c

/- The option with a name. -/
def ofName?
    (text : String) : Option Switch :=
  all.find? fun switch => switch.name == text

/- Whether an option has a value. -/
def takesValue : Switch → Bool
| .verbose => false
| .help => false
| .version => false
| _ => true

end Switch

------------------------------------------------------------
-- Requests
------------------------------------------------------------

/- How a game is to be shown. -/
structure Options where
  seed : Option UInt64 := none
  config : Option String := none
  positive : UInt64 := 2
  negative : UInt64 := 2
  grid : Option String := none
  verbose : Bool := false
deriving DecidableEq, Repr, Inhabited

/- What the command line asks for. -/
inductive Request where
| play : Options → Request
| help : Request
| version : Request
deriving DecidableEq, Repr, Inhabited

/- What is wrong with a command line. -/
inductive UsageError where
| unknown : (argument : String) → UsageError
| unexpected : (argument : String) → UsageError
| missingValue : Switch → UsageError
| unexpectedValue : Switch → (value : String) → UsageError
| invalidValue : Switch → (value : String) → UsageError
| repeated : Switch → UsageError
deriving DecidableEq, Repr

namespace UsageError

/- The words in which it is reported. -/
def message : UsageError → String
| .unknown argument => "unknown option: " ++ argument
| .unexpected argument => "unexpected argument: " ++ argument
| .missingValue switch =>
    "--" ++ switch.name ++ " needs a value"
| .unexpectedValue switch value =>
    "--" ++ switch.name ++ " has no value, found: " ++ value
| .invalidValue switch value =>
    "invalid value for --" ++ switch.name ++ ": " ++ value
| .repeated switch =>
    "--" ++ switch.name ++ " is given more than once"

end UsageError

------------------------------------------------------------
-- Single Options
------------------------------------------------------------

/- The options read so far, and which of them were given. -/
structure Scan where
  options : Options := {}
  given : List Switch := []
deriving Repr, Inhabited

/- What follows from one argument. -/
inductive Step where
| finish : Request → Step
| next : Scan → Step
| await : Scan → Switch → Step

namespace Scan

/- Note that an option is given. -/
def note
    (scan : Scan)
    (switch : Switch) : Except UsageError Scan :=
  if switch ∈ scan.given then
    .error (.repeated switch)
  else
    .ok { scan with given := switch :: scan.given }

/- The options with a value; a path must not be empty. -/
def setValue?
    (options : Options)
    (value : String) : Switch → Option Options
| .seed => do
    let n ← Numeral.unsigned? (twoPow 64) value
    return { options with seed := some (.ofNat n) }
| .config =>
    if value.isEmpty then
      none
    else
      some { options with config := some value }
| .positive => do
    let n ← Numeral.unsigned? (twoPow 64) value
    return { options with positive := .ofNat n }
| .negative => do
    let n ← Numeral.unsigned? (twoPow 64) value
    return { options with negative := .ofNat n }
| .grid => some { options with grid := some value }
| _ => none

/- Give an option its value. -/
def give
    (scan : Scan)
    (switch : Switch)
    (value : String) : Except UsageError Scan := do
  let scan ← scan.note switch
  match setValue? scan.options value switch with
  | some options => .ok { scan with options }
  | none => .error (.invalidValue switch value)

/- Give an option without a value. -/
def turnOn
    (scan : Scan)
    (switch : Switch) : Except UsageError Step := do
  match switch with
  | .help => .ok (.finish .help)
  | .version => .ok (.finish .version)
  | _ => do
      let scan ← scan.note switch
      let options := { scan.options with verbose := true }
      return .next { scan with options }

/- Read letters that stand together. -/
def readLetters :
    Scan → List Char → Except UsageError Step
| scan, [] => .ok (.next scan)
| scan, c :: rest => do
    match Switch.ofLetter? c with
    | none => throw (.unknown (String.ofList ['-', c]))
    | some switch =>
        if switch.takesValue then
          match rest with
          | [] => return .await scan switch
          | '=' :: value =>
              let value := String.ofList value
              return .next (← scan.give switch value)
          | value =>
              let value := String.ofList value
              return .next (← scan.give switch value)
        else
          match ← scan.turnOn switch with
          | .next scan => readLetters scan rest
          | other => return other

/- Read a name, with a value if one is attached. -/
def readName
    (scan : Scan)
    (argument : List Char) : Except UsageError Step := do
  let name := String.ofList (argument.takeWhile (· != '='))
  match Switch.ofName? name,
      argument.dropWhile (· != '=') with
  | none, _ => throw (.unknown ("--" ++ name))
  | some switch, [] =>
      if switch.takesValue then
        return .await scan switch
      else
        scan.turnOn switch
  | some switch, _ :: value =>
      let value := String.ofList value
      if switch.takesValue then
        return .next (← scan.give switch value)
      else
        throw (.unexpectedValue switch value)

------------------------------------------------------------
-- Arguments
------------------------------------------------------------

/- Whether an argument can be a value. -/
def isValue
    (argument : String) : Bool :=
  match argument.toList with
  | ['-'] => true
  | '-' :: _ => false
  | _ => true

/- Read one argument that is not a value. -/
def readArgument
    (scan : Scan)
    (argument : String) : Except UsageError Step :=
  match argument.toList with
  | '-' :: '-' :: name => scan.readName name
  | '-' :: c :: letters => scan.readLetters (c :: letters)
  | _ => .error (.unexpected argument)

/- Read all arguments; two dashes end the options. -/
def readArguments :
    Scan → List String → Except UsageError Request
| scan, [] => .ok (.play scan.options)
| scan, ["--"] => .ok (.play scan.options)
| scan, argument :: rest => do
    if argument == "--" then
      throw (.unexpected (rest.headD ""))
    match ← scan.readArgument argument with
    | .finish request => return request
    | .next scan => readArguments scan rest
    | .await scan switch =>
        match rest with
        | [] => throw (.missingValue switch)
        | value :: later =>
            if isValue value then do
              let scan ← scan.give switch value
              readArguments scan later
            else
              throw (.missingValue switch)

end Scan

/- What arguments ask for. -/
def Request.ofArguments
    (arguments : List String) : Except UsageError Request :=
  Scan.readArguments {} arguments

end CommandLine

end HiddenRule
