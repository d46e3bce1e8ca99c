import Ranging.Json.Record
import Ranging.Observation

/-!
Observations as JSON.
-/
namespace Ranging

open Ranging.Json
open Ranging.Number (Single)

namespace Vec3

def toJson {α : Type} (coordinate : α → Value) (v : Vec3 α) : Value :=
  .array (v.toList.map coordinate)

/-- A point from an array of exactly three coordinates. -/
def ofJson? {α : Type} (coordinate? : Value → Option α) (v : Value) : Option (Vec3 α) :=
  match v.items? 3 with
  | some [x, y, z] => do
    let x ← coordinate? x
    let y ← coordinate? y
    let z ← coordinate? z
    return ⟨x, y, z⟩
  | _ => none

end Vec3

def anchorIdToJson (id : UInt8) : Value := .ofNat id.toNat

def anchorIdOfJson? (v : Value) : Option UInt8 := (v.natural? 255).map UInt8.ofNat

namespace Quality

def toJson (q : Quality) : Value :=
  .record [
    ("first_path_power", .ofSingle q.firstPathPower),
    ("receive_power", .ofSingle q.receivePower),
    ("snr", .ofSingle q.snr)]

def ofJson? (v : Value) : Option Quality := do
  match ← v.fields? ["first_path_power", "receive_power", "snr"] with
  | [firstPathPower, receivePower, snr] =>
    let firstPathPower ← required Value.single? firstPathPower
    let receivePower ← required Value.single? receivePower
    let snr ← required Value.single? snr
    return ⟨firstPathPower, receivePower, snr⟩
  | _ => none

end Quality

namespace Measurement

def toJson (m : Measurement) : Value :=
  .record [
    ("anchor_ids", .array [anchorIdToJson m.anchors.1, anchorIdToJson m.anchors.2]),
    ("anchor_positions",
      .array [m.positions.1.toJson Value.ofSingle, m.positions.2.toJson Value.ofSingle]),
    ("distance_diff", .ofSingle m.difference),
    ("std_dev", .ofSingle m.deviation)]

def ofJson? (v : Value) : Option Measurement := do
  match ← v.fields? ["anchor_ids", "anchor_positions", "distance_diff", "std_dev"] with
  | [anchors, positions, difference, deviation] =>
    let anchors ← required (Value.pair? anchorIdOfJson?) anchors
    let positions ← required (Value.pair? (Vec3.ofJson? Value.single?)) positions
    let difference ← required Value.single? difference
    let deviation ← required Value.single? deviation
    return ⟨anchors, positions, difference, deviation⟩
  | _ => none

end Measurement

namespace HeightFix

def toJson (h : HeightFix) : Value :=
  .record [
    ("timestamp_ms", .ofNat h.time),
    ("height", .ofSingle h.height),
    ("std_dev", .ofSingle h.deviation)]

def ofJson? (v : Value) : Option HeightFix := do
  match ← v.fields? ["timestamp_ms", "height", "std_dev"] with
  | [time, height, deviation] =>
    let time ← required (Value.natural? (2 ^ 64 - 1)) time
    let height ← required Value.single? height
    let deviation ← required Value.single? deviation
    return ⟨time, height, deviation⟩
  | _ => none

end HeightFix
end Ranging
