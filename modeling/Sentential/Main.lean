import Sentential.CommandLine.Session

namespace Sentential.Program

open CommandLine

-- Why a file cannot be used, by the number of the error, the sign of which does not count.
def fileError (e : IO.Error) : FileError :=
  let has (code n : UInt32) : Bool := code = n ∨ code = 0 - n
  match e with
  | .noFileOrDirectory .. => .notFound
  | .permissionDenied .. => .permissionDenied
  | .inappropriateType _ code _ => if has code 20 then .notDirectory else .isDirectory
  | .invalidArgument _ code _ => if has code 36 then .nameTooLong else .other (toString e)
  | e => .other (toString e)

-- The text that the bytes encode.
def decodeText (bytes : ByteArray) : Except FileError String :=
  match String.fromUTF8? bytes with
  | some text => .ok text
  | none => .error .notText

def attempt {α : Type} (act : IO (Except FileError α)) : IO (Except FileError α) := do
  try act catch e => return .error (fileError e)

def realWorld : Host IO where
  load path := attempt do return decodeText (← IO.FS.readBinFile path)
  input := attempt do return decodeText (← (← IO.getStdin).readBinToEnd)
  save path text := attempt do
    IO.FS.writeFile path text
    return .ok ()
  freshSeed := do return (← IO.rand 0 (UInt64.size - 1)).toUInt64 + (← IO.monoNanosNow).toUInt64
  print text := IO.print text
  complain text := IO.eprint text

end Sentential.Program

open Sentential Sentential.CommandLine in
-- What to log is set by the environment variable `PROPLOGIC_LOG`, for all parts of `proplogic` or for
-- some. The log does not begin with a banner of the version and the build, which only a build knows.
def main (arguments : List String) : IO UInt32 := do
  let setting := (← IO.getEnv "PROPLOGIC_LOG").getD ""
  Session.run Program.realWorld (.ofSetting "proplogic" setting) arguments
