import Diagnostics.Report

/-!
# The Report as a Program

Reading a file and printing an outcome. Errors of the operating system are
passed on with its own words and numbers.

## Main definitions

* `ReadError.ofSystem`: A failure of the system as a reason not to read.
* `readInput`: Read a file.
* `main`: The command line.
-/

namespace Diagnostics

/-- A failure by its number and words. Some calls give the number with a minus
    sign, wrapped around, and the words with a small letter. -/
def ReadError.ofNumber (code : UInt32) (text : String) : ReadError :=
  .system text.capitalize (if code < 0x80000000 then code else 0 - code).toNat

/-- The number and the words of the operating system for a failure. -/
def ReadError.ofSystem (failure : IO.Error) : ReadError :=
  match failure with
  | .noFileOrDirectory _ code text => .ofNumber code text
  | .permissionDenied _ code text => .ofNumber code text
  | .inappropriateType _ code text => .ofNumber code text
  | .invalidArgument _ code text => .ofNumber code text
  | .resourceExhausted _ code text => .ofNumber code text
  | .noSuchThing _ code text => .ofNumber code text
  | .hardwareFault code text => .ofNumber code text
  | .illegalOperation code text => .ofNumber code text
  | .unsupportedOperation code text => .ofNumber code text
  | .otherError code text => .ofNumber code text
  | other => .ofNumber 0 (toString other)

/-- Read a file and say where it really is. A path that cannot be resolved stands
    for itself. -/
def readInput (path : String) : BaseIO (Except ReadError InputFile) := do
  match ← (IO.FS.readBinFile path).toBaseIO with
  | .error failure => return .error (.ofSystem failure)
  | .ok bytes =>
    let absolute ← (IO.FS.realPath path).toBaseIO
    let absolutePath := match absolute with
      | .ok resolved => toString resolved
      | .error _ => path
    return (InputFile.decode bytes).map fun contents => { absolutePath, contents }

end Diagnostics

/-- Report on the file that the arguments name. -/
def main (args : List String) : IO UInt32 := do
  let file ← match Diagnostics.Report.inputPath? args with
    | some path => Diagnostics.readInput path
    | none => pure (.error .notFound)
  match Diagnostics.Report.run args (fun _ => file) [] with
  | some outcome =>
    IO.print outcome.stdout
    IO.eprint outcome.stderr
    return outcome.exitCode.toUInt32
  | none => return 101
