import Ranging.Demo.Command
import Ranging.Demo.LogFilter

/-!
The demonstration as a program. Notes go to the standard error stream; the variable `RUST_LOG`
says which of them.
-/
namespace Ranging.Demo

open Ranging.Settings (FileFault Holder SettingsError textOf)

def attempt {α : Type} (action : IO α) : IO (Except FileFault α) := do
  match ← action.toBaseIO with
  | .error e => return .error (.other e.toString)
  | .ok x => return .ok x

def readSettings (path : String) : IO (Except SettingsError Holder) := do
  let content ← attempt (IO.FS.readBinFile path)
  return Holder.standard.loadRead path (content.bind textOf)

def serve : Request → IO Outcome
  | .writeStandard none => return .failed .noPath
  | .writeStandard (some path) => do
    let written ← attempt (IO.FS.writeFile path Holder.standard.text)
    return standardSaved path (Holder.standard.saveWritten path written)
  | .demonstrate none slots => return demonstrate (.ok .standard) slots
  | .demonstrate (some path) slots => return demonstrate (← readSettings path) slots

end Ranging.Demo

open Ranging.Demo in
def main (arguments : List String) : IO UInt32 := do
  let filter := ((← IO.getEnv "RUST_LOG").map LogFilter.ofText).getD .standard
  let outcome ← serve (.ofArguments arguments)
  for entry in filter.entries outcome.notes do
    IO.eprintln s!"[{entry}"
  if let some failure := outcome.failure then
    IO.eprintln s!"Error: {failure.message}"
  return outcome.exitCode
