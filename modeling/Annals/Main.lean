import Annals.Cli.Scene

/-!
# The command line

Runs the program with the arguments of the process in the scene that standard input describes.
-/

namespace Annals.Cli

/-- The bytes of a stream up to its end, after those read so far. -/
partial def readAll (input : IO.FS.Stream) (sofar : ByteArray) : IO ByteArray := do
  let chunk ← input.read 65536
  if chunk.isEmpty then return sofar else readAll input (sofar ++ chunk)

def write (output : IO.FS.Stream) (bytes : Bytes) : IO Unit := do
  output.write (ByteArray.mk bytes.toArray)
  output.flush

/-- The exit code after a scene that cannot be read. -/
def badSceneExitCode : UInt32 := 64

/-- Writes what an invocation leaves behind and gives its exit code. -/
def Answer.show (a : Answer) : IO UInt32 := do
  write (← IO.getStdout) a.stdout
  let escaped : Text :=
    match a.escaped? with
    | none => []
    | some failure => failure.message ++ ['\n']
  write (← IO.getStderr) (Utf8.encode (a.stderr ++ escaped))
  return a.exitCode.toNat.toUInt32

/-- Runs the program in the scene that bytes describe. -/
def runIn (description : Bytes) (args : List Text) : IO UInt32 :=
  match Scene.read {} (textLines description) with
  | .error line => do
    write (← IO.getStderr) (Utf8.encode ("Unknown line: " ++ line ++ ['\n']))
    return badSceneExitCode
  | .ok scene => (invoke scene.world args).show

end Annals.Cli

def main (args : List String) : IO UInt32 := do
  let description ← Annals.Cli.readAll (← IO.getStdin) .empty
  Annals.Cli.runIn description.toList (args.map String.toList)
