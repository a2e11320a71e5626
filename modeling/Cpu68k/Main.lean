import Cpu68k.CommandLine.Report

/-!
# The program

Reads the files that the arguments name, and prints the report.
-/

namespace Cpu68k

namespace CommandLine

/-- The contents of a file, if it can be read. -/
def readFile? (path : String) : IO (Option ByteArray) := do
  try
    return some (← IO.FS.readBinFile path)
  catch _ =>
    return none

/-- Runs an image and prints what happened. -/
def runProgram (a : Arguments) (threshold : Threshold) : IO UInt32 := do
  let image ← readFile? a.image
  let config ← match a.config? with
    | some path => readFile? path
    | none => pure none
  let files : Files := fun path =>
    if path = a.image then image else if some path = a.config? then config else none
  match a.run files threshold with
  | .error e =>
    IO.eprintln ("Error: " ++ e.message)
    return 1
  | .ok report =>
    report.log.forM fun line => IO.eprintln line
    report.output.forM fun line => IO.println line
    return report.exit.toUInt32

end CommandLine

end Cpu68k

open Cpu68k CommandLine in
/-- The program. The environment variable `RUST_LOG` names the least level that the
log shows. -/
def main (args : List String) : IO UInt32 := do
  match Invocation.ofArguments? args with
  | none =>
    IO.eprintln "usage: m68k-runner IMAGE [--model M] [--config PATH] [--load-addr ADDR]"
    IO.eprintln "  [--ram-size BYTES] [--max-steps N] [--vector-faults] [--dump] [--version]"
    return 2
  | some .version =>
    IO.println versionText
    return 0
  | some (.run arguments) =>
    let level ← IO.getEnv "RUST_LOG"
    runProgram arguments ((level.bind thresholdOfName?).getD (some .info))
