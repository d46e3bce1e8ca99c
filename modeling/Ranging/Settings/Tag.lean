import Ranging.Pairing.Matching
import Ranging.Settings.Flaw
import Ranging.Telemetry.Basic
import Ranging.Anchor.Registry

/-!
The settings of a tag.
-/
namespace Ranging.Settings

open Ranging.Number (Single)
open Ranging.Pairing (Matching)

/-- The settings of a tag; times are in milliseconds. -/
structure TagSettings where
  /-- Receive timeout handed to the radio, in its own units. -/
  receiveTimeout : UInt16
  /-- How long an anchor may be silent before it is expired. -/
  inactivityWindow : Nat
  /-- How long what an anchor heard from others is used. -/
  heardValidity : Nat
  /-- How long a time of flight between anchors is used. -/
  flightValidity : Nat
  matching : Matching
  /-- Ticks per second of the radio times. -/
  tickFrequency : Float
  queueCapacity : Nat
  /-- The height fed to the estimator when positioning in two dimensions, in metres. -/
  fixedHeight : Option Single
  /-- The pair of anchors that is tracked in detail. -/
  trackedPair : UInt8 × UInt8
  deriving DecidableEq

namespace TagSettings

def standard : TagSettings where
  receiveTimeout := 10000
  inactivityWindow := Anchor.Registry.defaultWindow
  heardValidity := 30
  flightValidity := 2000
  matching := .rotating
  tickFrequency := Ranging.tickFrequency
  queueCapacity := 20
  fixedHeight := none
  trackedPair := (1, 2)

/-- Checks the ranges in the order of the settings; the first flaw counts. -/
def validate (s : TagSettings) : Except Flaw Unit := do
  if s.receiveTimeout = 0 then throw .receiveTimeoutZero
  if s.inactivityWindow = 0 then throw .inactivityWindowZero
  if s.heardValidity = 0 ∨ s.inactivityWindow < s.heardValidity then
    throw (.heardValidity s.heardValidity)
  if s.flightValidity = 0 then throw .flightValidityZero
  if !(s.tickFrequency.isFinite && s.tickFrequency > 0.0) then
    throw (.tickFrequency s.tickFrequency)
  if s.queueCapacity = 0 then throw .queueCapacityZero
  if let some height := s.fixedHeight then
    if !height.isFinite then throw (.heightNotFinite height)
  if s.trackedPair.1 = s.trackedPair.2 then throw (.trackedPairEqual s.trackedPair.1)

end TagSettings
end Ranging.Settings
