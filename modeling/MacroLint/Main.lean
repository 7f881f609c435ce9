import MacroLint.CommandLine

/-!
# The program

Reads the arguments, the dialect setting and the input, and writes the report.
-/

set_option autoImplicit false

namespace MacroLint

/-- Everything that is left to read from a stream. -/
partial def readToEnd (stream : IO.FS.Stream) (soFar : ByteArray) : IO ByteArray := do
  let chunk ← stream.read 65536
  if chunk.isEmpty then return soFar else readToEnd stream (soFar ++ chunk)

end MacroLint

/-- Reports on the literals in the arguments, or on those in the input. -/
def main (arguments : List String) : IO UInt32 := do
  let setting ← IO.getEnv "SQLMACRO_DIALECT"
  let input ← if arguments.isEmpty then MacroLint.readToEnd (← IO.getStdin) .empty else pure .empty
  let report :=
    MacroLint.CommandLine.run (setting.map String.toList) (arguments.map String.toList) input
  (← IO.getStdout).putStr (String.ofList report.output)
  (← IO.getStderr).putStr (String.ofList report.errors)
  return report.exit.toUInt32
