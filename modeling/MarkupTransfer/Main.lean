import MarkupTransfer.CommandLine.Run
/-!
# The program

Reads the arguments and, where the command asks for it, the standard input.
-/

open MarkupTransfer

/-- Run the command line. -/
def main (arguments : List String) : IO UInt32 := do
  match CommandLine.parse? (arguments.map String.toList) with
  | none =>
    let outcome := CommandLine.Outcome.usage
    (← IO.getStderr).putStr (String.ofList outcome.errors)
    return outcome.code.toUInt32
  | some request =>
    let input ← if request.readsInput then (← IO.getStdin).readBinToEnd else pure .empty
    let outcome := request.answer input
    (← IO.getStdout).putStr (String.ofList outcome.output)
    (← IO.getStderr).putStr (String.ofList outcome.errors)
    return outcome.code.toUInt32
