import Ranging.Number.Single
import Ranging.Number.Text

/-!
What can be wrong with settings, and how it is reported.
-/
namespace Ranging.Settings

open Ranging.Number (Single DecimalStyle BinaryFormat)

/-- Floats in reports never have an exponent, and whole numbers no point. -/
def reportStyle : DecimalStyle where
  tie := .up
  positional := none
  pointZero := false
  signedExponent := false

/-- A 64-bit float in a report. -/
def reportFloat (x : Float) : String :=
  String.ofList (reportStyle.text .double (Number.ofFloat x))

/-- A 32-bit float in a report. -/
def reportSingle (x : Single) : String :=
  String.ofList (reportStyle.text .single x.reading)

/-- A setting that is out of its range, with the value that it has. -/
inductive Flaw where
  | receiveTimeoutZero
  | inactivityWindowZero
  /-- The validity is zero or exceeds the inactivity window. -/
  | heardValidity (ms : Nat)
  | flightValidityZero
  | tickFrequency (hertz : Float)
  | queueCapacityZero
  | heightNotFinite (height : Single)
  | trackedPairEqual (id : UInt8)
  | tooFewSites (count : Nat)
  | tooManySites (count : Nat)
  | siteIdRepeated (id : UInt8)
  | clockDrift (partsPerMillion : Float)
  | sitesTooFar (id : UInt8)
  | slotZero
  | lossProbability (probability : Float)
  | distanceIntervalZero
  deriving DecidableEq

namespace Flaw

def parameter : Flaw → String
  | receiveTimeoutZero => "receive_timeout"
  | inactivityWindowZero => "inactivity_window_ms"
  | heardValidity _ => "remote_data_validity_ms"
  | flightValidityZero => "tof_validity_ms"
  | tickFrequency _ => "timestamp_frequency_hz"
  | queueCapacityZero => "estimator_queue_capacity"
  | heightNotFinite _ => "two_d_height"
  | trackedPairEqual _ => "tracked_pair"
  | tooFewSites _ => "anchors"
  | tooManySites _ => "anchors"
  | siteIdRepeated _ => "anchors.id"
  | clockDrift _ => "anchors.clock_drift_ppm"
  | sitesTooFar _ => "anchors.position"
  | slotZero => "slot_ms"
  | lossProbability _ => "loss_probability"
  | distanceIntervalZero => "distance_interval"

def value : Flaw → String
  | receiveTimeoutZero => "0"
  | inactivityWindowZero => "0"
  | heardValidity ms => toString ms
  | flightValidityZero => "0"
  | tickFrequency hertz => reportFloat hertz
  | queueCapacityZero => "0"
  | heightNotFinite height => reportSingle height
  | trackedPairEqual id => s!"[{id}, {id}]"
  | tooFewSites count => toString count
  | tooManySites count => toString count
  | siteIdRepeated id => toString id
  | clockDrift partsPerMillion => reportFloat partsPerMillion
  | sitesTooFar id => toString id
  | slotZero => "0"
  | lossProbability probability => reportFloat probability
  | distanceIntervalZero => "0"

/-- What the setting ought to satisfy. -/
def reason : Flaw → String
  | receiveTimeoutZero => "Receive timeout must be non-zero"
  | inactivityWindowZero => "Inactivity window must be non-zero"
  | heardValidity _ => "Remote data validity must be non-zero and within the inactivity window"
  | flightValidityZero => "Time of flight validity must be non-zero"
  | tickFrequency _ => "Timestamp frequency must be positive"
  | queueCapacityZero => "Estimator queue needs room for at least one item"
  | heightNotFinite _ => "Height must be finite"
  | trackedPairEqual _ => "Tracked anchors must differ"
  | tooFewSites _ => "At least two anchors are needed"
  | tooManySites _ => "Too many anchors to fit in one frame"
  | siteIdRepeated _ => "Anchor ids must be unique"
  | clockDrift _ => "Drift outside the crystal tolerance"
  | sitesTooFar _ => "Anchors too far apart"
  | slotZero => "Slot must be non-zero"
  | lossProbability _ => "Probability must be within 0..1"
  | distanceIntervalZero => "Interval must be non-zero"

def message (f : Flaw) : String :=
  s!"Invalid parameter '{f.parameter}' = '{f.value}': {f.reason}"

end Flaw
end Ranging.Settings
