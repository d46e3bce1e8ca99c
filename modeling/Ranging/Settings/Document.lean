import Ranging.Observation.Json
import Ranging.Settings.Field
import Ranging.Settings.Tag

/-!
Settings as a JSON document.

What a document leaves out keeps its standard value, except that an anchor needs an id and a
position.
-/
namespace Ranging.Settings

open Ranging.Json
open Ranging.Number (Single)
open Ranging.Pairing (Matching)

/-- The settings of a tag and of the field around it. -/
structure Document where
  tag : TagSettings
  field : FieldSettings
  deriving DecidableEq

/-- The settings that hold where nothing else is said. -/
def Document.standard : Document := ⟨.standard, .standard⟩

/-- The largest number of a 64-bit word. -/
def maxWord : Nat := 2 ^ 64 - 1

def matchingName : Matching → String
  | .rotating => "random"
  | .youngest => "youngest"

def matchingOfName? (name : String) : Option Matching :=
  if name = "random" then some .rotating
  else if name = "youngest" then some .youngest
  else none

/-- A matching rule from its name, alone or as the one key of an object with `null`. -/
def matchingOfJson? : Value → Option Matching
  | .text (some name) => matchingOfName? name
  | .object [(some name, .null)] => matchingOfName? name
  | _ => none

namespace TagSettings

/-- The fields of a tag's settings. -/
def fieldNames : List String :=
  ["receive_timeout", "inactivity_window_ms", "remote_data_validity_ms", "tof_validity_ms",
    "matching_algorithm", "timestamp_frequency_hz", "estimator_queue_capacity", "two_d_height",
    "tracked_pair"]

def toJson [FloatText] (s : TagSettings) : Value :=
  .record (fieldNames.zip [
    .ofNat s.receiveTimeout.toNat,
    .ofNat s.inactivityWindow,
    .ofNat s.heardValidity,
    .ofNat s.flightValidity,
    .text (some (matchingName s.matching)),
    .ofFloat s.tickFrequency,
    .ofNat s.queueCapacity,
    match s.fixedHeight with
      | none => .null
      | some height => .ofSingle height,
    .array [anchorIdToJson s.trackedPair.1, anchorIdToJson s.trackedPair.2]])

def ofJson? [FloatText] (v : Value) : Option TagSettings := do
  let d := standard
  match ← v.fields? fieldNames with
  | [timeout, window, heard, flight, matching, frequency, capacity, height, pair] =>
    let timeout ←
      optional d.receiveTimeout (fun v => (v.natural? 65535).map UInt16.ofNat) timeout
    let window ← optional d.inactivityWindow (Value.natural? maxWord) window
    let heard ← optional d.heardValidity (Value.natural? maxWord) heard
    let flight ← optional d.flightValidity (Value.natural? maxWord) flight
    let matching ← optional d.matching matchingOfJson? matching
    let frequency ← optional d.tickFrequency Value.float? frequency
    let capacity ← optional d.queueCapacity (Value.natural? maxWord) capacity
    let height ← optional d.fixedHeight (nullable? Value.single?) height
    let pair ← optional d.trackedPair (Value.pair? anchorIdOfJson?) pair
    return ⟨timeout, window, heard, flight, matching, frequency, capacity, height, pair⟩
  | _ => none

end TagSettings

namespace Site

def fieldNames : List String := ["id", "position", "clock_drift_ppm", "clock_offset_s"]

def toJson [FloatText] (s : Site) : Value :=
  .record (fieldNames.zip [
    anchorIdToJson s.id,
    s.position.toJson Value.ofFloat,
    .ofFloat s.driftPpm,
    .ofFloat s.clockStart])

def ofJson? [FloatText] (v : Value) : Option Site := do
  match ← v.fields? fieldNames with
  | [id, position, drift, start] =>
    let id ← required anchorIdOfJson? id
    let position ← required (Vec3.ofJson? Value.float?) position
    let drift ← optional 0.0 Value.float? drift
    let start ← optional 0.0 Value.float? start
    return ⟨id, position, drift, start⟩
  | _ => none

def listOfJson? [FloatText] : Value → Option (List Site)
  | .array items => items.mapM ofJson?
  | _ => none

end Site

namespace FieldSettings

def fieldNames : List String :=
  ["anchors", "tag_position", "tag_clock_offset_s", "slot_ms", "loss_probability",
    "distance_interval", "seed"]

def toJson [FloatText] (s : FieldSettings) : Value :=
  .record (fieldNames.zip [
    .array (s.sites.map Site.toJson),
    s.tagPosition.toJson Value.ofFloat,
    .ofFloat s.tagClockStart,
    .ofNat s.slotMs,
    .ofFloat s.lossProbability,
    .ofNat s.distanceInterval.toNat,
    .ofNat s.seed.toNat])

def ofJson? [FloatText] (v : Value) : Option FieldSettings := do
  let d := standard
  match ← v.fields? fieldNames with
  | [sites, tagPosition, start, slot, loss, interval, seed] =>
    let sites ← optional d.sites Site.listOfJson? sites
    let tagPosition ← optional d.tagPosition (Vec3.ofJson? Value.float?) tagPosition
    let start ← optional d.tagClockStart Value.float? start
    let slot ← optional d.slotMs (Value.natural? maxWord) slot
    let loss ← optional d.lossProbability Value.float? loss
    let interval ←
      optional d.distanceInterval (fun v => (v.natural? (2 ^ 32 - 1)).map UInt32.ofNat) interval
    let seed ← optional d.seed (fun v => (v.natural? maxWord).map UInt64.ofNat) seed
    return ⟨sites, tagPosition, start, slot, loss, interval, seed⟩
  | _ => none

end FieldSettings

namespace Document

def fieldNames : List String := ["tag", "simulator"]

def toJson [FloatText] (d : Document) : Value :=
  .record (fieldNames.zip [d.tag.toJson, d.field.toJson])

def ofJson? [FloatText] (v : Value) : Option Document := do
  let d := standard
  match ← v.fields? fieldNames with
  | [tag, field] =>
    let tag ← optional d.tag TagSettings.ofJson? tag
    let field ← optional d.field FieldSettings.ofJson? field
    return ⟨tag, field⟩
  | _ => none

/-- The text of a document, one line per item and member. -/
def text [FloatText] (d : Document) : String := String.ofList (d.toJson.pretty 0)

def ofText? [FloatText] (text : String) : Option Document := do
  let value ← Value.read text.toList
  ofJson? value

/-- Checks both parts; a flaw of the tag's settings comes first. -/
def validate (d : Document) : Except Flaw Unit := do
  d.tag.validate
  d.field.validate

end Document
end Ranging.Settings
