import Ranging.Settings.Document
import Ranging.Settings.FileStore

/-!
The settings in force, and the file behind them.

A holder only takes sound settings, and a call that fails leaves it as it was.
-/
namespace Ranging.Settings

open Ranging.Json (FloatText)

/-- Why settings were not taken, loaded or saved. -/
inductive SettingsError where
  | flawed (flaw : Flaw)
  | unreadable (path : String) (fault : FileFault)
  | unwritable (path : String) (fault : FileFault)
  | noPath
  /-- The text is no settings document. -/
  | malformed
  deriving DecidableEq

def SettingsError.message : SettingsError → String
  | flawed flaw => flaw.message
  | unreadable path fault =>
    s!"I/O error: Failed to read config file '{path}': {fault.message}"
  | unwritable path fault =>
    s!"I/O error: Failed to write config file '{path}': {fault.message}"
  | noPath => "I/O error: No file path set for saving configuration"
  | malformed => "Serialization error: Failed to parse config"

structure Holder where
  document : Document
  /-- The file that the settings were last loaded from or saved to. -/
  path : Option String
  /-- Whether the settings changed since then. -/
  modified : Bool
  deriving DecidableEq

namespace Holder

/-- The standard settings, without a file. -/
def standard : Holder := ⟨.standard, none, false⟩

def updateTag (h : Holder) (tag : TagSettings) : Except SettingsError Holder :=
  match tag.validate with
  | .error flaw => .error (.flawed flaw)
  | .ok () => .ok { h with document := { h.document with tag := tag }, modified := true }

def updateField (h : Holder) (field : FieldSettings) : Except SettingsError Holder :=
  match field.validate with
  | .error flaw => .error (.flawed flaw)
  | .ok () => .ok { h with document := { h.document with field := field }, modified := true }

def load [FloatText] (h : Holder) (text : String) : Except SettingsError Holder :=
  match Document.ofText? text with
  | none => .error .malformed
  | some document =>
    match document.validate with
    | .error flaw => .error (.flawed flaw)
    | .ok () => .ok { h with document := document, modified := false }

/-- Takes what came of reading a file, which then stands behind the settings. -/
def loadRead [FloatText] (h : Holder) (path : String) (read : Except FileFault String) :
    Except SettingsError Holder :=
  match read with
  | .error fault => .error (.unreadable path fault)
  | .ok text =>
    match h.load text with
    | .error e => .error e
    | .ok h => .ok { h with path := some path }

def loadFile [FloatText] (h : Holder) (files : FileStore) (path : String) :
    Except SettingsError Holder :=
  h.loadRead path (files.readText path)

/-- Standard settings replaced by those of a file. -/
def ofFile [FloatText] (files : FileStore) (path : String) : Except SettingsError Holder :=
  standard.loadFile files path

def text [FloatText] (h : Holder) : String := h.document.text

/-- Takes note of what came of writing the settings to a file, which then stands behind them. -/
def saveWritten {α : Type} (h : Holder) (path : String) (written : Except FileFault α) :
    Except SettingsError (Holder × α) :=
  match written with
  | .error fault => .error (.unwritable path fault)
  | .ok x => .ok ({ h with path := some path, modified := false }, x)

/-- Writes the settings to a file, which then stands behind them. -/
def saveFile [FloatText] (h : Holder) (files : FileStore) (path : String) :
    Except SettingsError (Holder × FileStore) :=
  h.saveWritten path (files.writeText path h.text)

def save [FloatText] (h : Holder) (files : FileStore) : Except SettingsError (Holder × FileStore) :=
  match h.path with
  | none => .error .noPath
  | some path => h.saveFile files path

end Holder
end Ranging.Settings
