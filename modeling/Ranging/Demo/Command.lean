import Ranging.Demo.Trial

/-!
The command line of the demonstration.

`--write-default <path>` writes the standard settings to a file. Anything else is a demonstration:
the first argument is a settings file, the second the number of slots, and both may be left out.
-/
namespace Ranging.Demo

open Ranging.Settings (FileStore Holder SettingsError)

inductive Request where
  | writeStandard (path : Option String)
  | demonstrate (settings slots : Option String)
  deriving Repr, DecidableEq

/-- The request of some arguments; those left over do not matter. -/
def Request.ofArguments : List String → Request
  | [] => .demonstrate none none
  | first :: rest =>
    if first = "--write-default" then .writeStandard rest.head?
    else .demonstrate (some first) rest.head?

structure Outcome where
  /-- The notes in order. -/
  notes : List Note
  failure : Option Failure
  deriving DecidableEq

namespace Outcome

def failed (failure : Failure) : Outcome := ⟨[], some failure⟩

def exitCode (o : Outcome) : UInt32 :=
  match o.failure with
  | none => 0
  | some (.fault _) => 101
  | some _ => 1

end Outcome

/-- The slots of a demonstration that is not told otherwise. -/
def standardSlots : Nat := 2000

/-- A whole number below `2 ^ 64`; a plus sign may stand before it. -/
def slotCount? (text : String) : Option Nat :=
  let digits :=
    match text.toList with
    | '+' :: rest => rest
    | cs => cs
  if digits.isEmpty || !digits.all Char.isDigit then none
  else
    let count := digits.foldl (fun n c => n * 10 + (c.toNat - 48)) 0
    if count < wordLimit then some count else none

/-- A demonstration with the settings in force, or the error in obtaining them. -/
def demonstrate (settings : Except SettingsError Holder) (slots : Option String) : Outcome :=
  match settings with
  | .error e => .failed (.settings e)
  | .ok holder =>
    match (slots.map slotCount?).getD (some standardSlots) with
    | none => .failed (.slotCount (slots.getD ""))
    | some count =>
      match Trial.run holder.document count with
      | .error halt => ⟨halt.notes.reverse, some halt.failure⟩
      | .ok trial => ⟨trial.notes.reverse, none⟩

def standardSaved {α : Type} (path : String) : Except SettingsError α → Outcome
  | .error e => .failed (.settings e)
  | .ok _ => ⟨[.documentWritten path], none⟩

/-- Does what is asked for, with the files of a directory. -/
def Request.perform (files : FileStore) : Request → Outcome × FileStore
  | writeStandard none => (.failed .noPath, files)
  | writeStandard (some path) =>
    let saved := Holder.standard.saveFile files path
    (standardSaved path saved, (saved.map Prod.snd).toOption.getD files)
  | .demonstrate none slots => (Demo.demonstrate (.ok .standard) slots, files)
  | .demonstrate (some path) slots => (Demo.demonstrate (Holder.ofFile files path) slots, files)

example : slotCount? "+9" = some 9 := by decide +kernel
example : slotCount? "-1" = none := by decide +kernel
example : slotCount? "18446744073709551616" = none := by decide +kernel

end Ranging.Demo
