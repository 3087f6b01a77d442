import Woodland.CommandLine.Session

/-! The program itself: arguments and files in, files and lines out, and the time that the work took. -/

namespace Woodland.Program

open CommandLine

def hasCode (code n : UInt32) : Bool := code = n ∨ code + n = 0

def fileFault : IO.Error → FileFault
  | .noFileOrDirectory .. => .notFound
  | .alreadyExists .. => .alreadyThere
  | .inappropriateType _ code _ => if hasCode code 21 then .isADirectory else .notADirectory
  | e@(.invalidArgument _ code _) => if hasCode code 36 then .nameTooLong else .other (toString e)
  | e => .other (toString e)

def guarded {α : Type} (action : IO α) : IO (Except FileFault α) := do
  try return .ok (← action)
  catch e => return .error (fileFault e)

def readText (path : String) : IO (Except FileFault String) := do
  return (← guarded (IO.FS.readBinFile path)).bind fun bytes =>
    match String.fromUTF8? bytes with
    | some text => .ok text
    | none => .error .notText

instance : FileAccess IO where
  read := readText
  createDirectories path :=
    if path.isEmpty then pure (.ok ()) else guarded (IO.FS.createDirAll path)
  write path text := guarded (IO.FS.writeFile path text)

def milliseconds (nanoseconds : Nat) : String :=
  let hundredths := (nanoseconds + 5000) / 10000
  let places := toString (hundredths % 100 + 100)
  toString (hundredths / 100) ++ "." ++ String.ofList (places.toList.drop 1) ++ "ms"

def finish (r : Report) : IO UInt32 := do
  r.output.forM IO.println
  r.errors.forM IO.eprintln
  return r.exitCode.toUInt32

def session (arguments : List String) : IO UInt32 := do
  match ← prepare arguments with
  | .error r => finish r
  | .ok p =>
    p.output.forM IO.println
    let start ← IO.monoNanosNow
    match p.forest with
    | .error r => finish r
    | .ok f =>
      let grown ← IO.monoNanosNow
      (closing f).forM IO.println
      let drawn ← IO.monoNanosNow
      IO.println ("  Generation time: " ++ milliseconds (grown - start))
      IO.println ("  Frame build time (x2): " ++ milliseconds (drawn - grown))
      return 0

end Woodland.Program

def main (arguments : List String) : IO UInt32 := Woodland.Program.session arguments
