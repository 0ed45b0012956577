import HiddenRule.CommandLine.Session

/-
  This file runs the program: it reads the file of settings
  if one is named, draws a seed, and writes the report.
-/

namespace HiddenRule

namespace CommandLine

/-
  The number of a system error.  It is given with either
  sign, and the numbers are small.
-/
def errorNumber
    (code : UInt32) : UInt32 :=
  if code < 1000 then code else 0 - code

/- Why a file could not be read. -/
def fileError : IO.Error → FileError
| .permissionDenied .. => .denied
| .inappropriateType _ code _ =>
    if errorNumber code = 21 then
      .isDirectory
    else
      .notDirectory
| .invalidArgument _ code _ =>
    if errorNumber code = 36 then
      .nameTooLong
    else
      .notFound
| _ => .notFound

/- Read a text file. -/
def readText
    (path : String) :
    IO (Except FileError String) := do
  try
    let bytes ← IO.FS.readBinFile path
    match String.fromUTF8? bytes with
    | some text => return .ok text
    | none => return .error .notText
  catch error =>
    return .error (fileError error)

/- A random seed. -/
def randomSeed : IO UInt64 := do
  let bytes ← IO.getRandomBytes 8
  return bytes.foldl (fun n byte => n * 256 + byte.toUInt64) 0

end CommandLine

end HiddenRule

open HiddenRule

/- The program.  Without memory it ends as if aborted. -/
def main
    (arguments : List String) : IO UInt32 := do
  let report ←
    CommandLine.run CommandLine.readText
      (← CommandLine.randomSeed) arguments
  (← IO.getStdout).putStr report.output
  (← IO.getStderr).putStr report.errors
  return (report.exitCode.getD 134).toUInt32
