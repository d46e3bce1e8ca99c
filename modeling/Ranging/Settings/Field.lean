import Ranging.Settings.Tag
import Ranging.Space
import Ranging.Wire.Frame
import Ranging.Wire.RangePacket

/-!
The settings of a simulated field of anchors.
-/
namespace Ranging.Settings

structure Site where
  id : UInt8
  /-- Where it stands, in metres. -/
  position : Vec3 Float
  /-- How far its clock rate is off, in parts per million. -/
  driftPpm : Float
  /-- Where its clock starts, in seconds. -/
  clockStart : Float
  deriving DecidableEq

/-- A field of anchors around a tag. -/
structure FieldSettings where
  sites : List Site
  tagPosition : Vec3 Float
  /-- Where the tag's clock starts, in seconds. -/
  tagClockStart : Float
  /-- Time between two transmissions, in milliseconds. -/
  slotMs : Nat
  /-- The probability that the tag misses a frame. -/
  lossProbability : Float
  /-- Anchors relay distances in one of this many of their packets. -/
  distanceInterval : UInt32
  seed : UInt64
  deriving DecidableEq

namespace FieldSettings

/-- Eight anchors in the corners of a room of 4 by 4 by 3 metres. -/
def standard : FieldSettings where
  sites := [
    ⟨0, ⟨0.0, 0.0, 0.2⟩, 3.0, 0.013 * 0.0⟩,
    ⟨1, ⟨4.0, 0.0, 2.8⟩, -2.5, 0.013 * 1.0⟩,
    ⟨2, ⟨4.0, 4.0, 0.2⟩, 1.0, 0.013 * 2.0⟩,
    ⟨3, ⟨0.0, 4.0, 2.8⟩, 4.2, 0.013 * 3.0⟩,
    ⟨4, ⟨0.0, 0.0, 2.8⟩, -4.0, 0.013 * 4.0⟩,
    ⟨5, ⟨4.0, 0.0, 0.2⟩, 0.5, 0.013 * 5.0⟩,
    ⟨6, ⟨4.0, 4.0, 2.8⟩, -1.5, 0.013 * 6.0⟩,
    ⟨7, ⟨0.0, 4.0, 0.2⟩, 2.0, 0.013 * 7.0⟩]
  tagPosition := ⟨1.5, 2.0, 1.0⟩
  tagClockStart := 16.5
  slotMs := 5
  lossProbability := 0.0
  distanceInterval := 2
  seed := 42

/-- Bytes of a position announcement with telemetry. -/
def announcementSize : Nat := 22

/-- The payload of an anchor that has heard all `count - 1` others. -/
def payloadSize (count : Nat) : Nat :=
  Wire.headerSize + (count - 1) * Wire.fullRecordSize + announcementSize

/-- The largest drift that the tag's rate filter follows, in parts per million. -/
def maxDriftPpm : Float := 10.0

/-- Time of flight between two sites, in ticks. -/
def flightTicks (a b : Site) : Float :=
  distance a.position b.position / speedOfLight * tickFrequency

/-- Checks a site against those before it in the list. -/
def validateSite (site : Site) (before : List Site) : Except Flaw Unit := do
  if before.any (·.id == site.id) then throw (.siteIdRepeated site.id)
  if site.driftPpm.abs > maxDriftPpm then throw (.clockDrift site.driftPpm)
  if before.any fun other => flightTicks site other ≥ 65535.0 then
    throw (.sitesTooFar site.id)

/-- Checks the sites of a list, those in `before` standing in front of it. -/
def validateSites (before : List Site) : List Site → Except Flaw Unit
  | [] => .ok ()
  | site :: rest => do
    validateSite site before
    validateSites (before ++ [site]) rest

/-- Checks the ranges in the order of the settings; the first flaw counts. -/
def validate (s : FieldSettings) : Except Flaw Unit := do
  if s.sites.length < 2 then throw (.tooFewSites s.sites.length)
  if Wire.maxPayload < payloadSize s.sites.length then throw (.tooManySites s.sites.length)
  validateSites [] s.sites
  if s.slotMs = 0 then throw .slotZero
  if !(0.0 ≤ s.lossProbability && s.lossProbability ≤ 1.0) then
    throw (.lossProbability s.lossProbability)
  if s.distanceInterval = 0 then throw .distanceIntervalZero

end FieldSettings
end Ranging.Settings
