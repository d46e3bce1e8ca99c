import Ranging.Observation.Json
import Ranging.Settings.Flaw

/-!
What a demonstration reports while it runs, note by note.

A note is the event itself; its level, its origin and its wording follow from it.
-/
namespace Ranging.Demo

open Ranging.Number (Single DecimalStyle BinaryFormat)

/-- How much a note matters. -/
inductive Level where
  | error
  | warn
  | info
  | debug
  | trace
  deriving Repr, DecidableEq

namespace Level

/-- The levels from the one that matters most. -/
def rank : Level → Nat
  | error => 0
  | warn => 1
  | info => 2
  | debug => 3
  | trace => 4

def name : Level → String
  | error => "ERROR"
  | warn => "WARN"
  | info => "INFO"
  | debug => "DEBUG"
  | trace => "TRACE"

def column (l : Level) : String := String.ofList (l.name.toList.rightpad 5 ' ')

end Level

inductive Origin where
  | demo
  | tag
  | estimatorQueue
  | field
  deriving Repr, DecidableEq

/-- The name of an origin; names of one part of the program begin alike. -/
def Origin.name : Origin → String
  | demo => "tdoa3_sim"
  | tag => "tdoa3_tag::api::dispatcher"
  | estimatorQueue => "tdoa3_tag::api::emitter"
  | field => "tdoa3_tag::hardware::simulator"

/-- Something worth reporting. -/
inductive Note where
  | documentWritten (path : String)
  | heightFixed (height : Single)
  | started (slots : Nat) (anchors : List UInt8) (tagPosition : Vec3 Float)
  | frameLost (sequence anchor : UInt8)
  | itemRefused
  | anchorsUnknown (anchors : UInt8 × UInt8)
  | differenceTaken (measurement : Measurement) (expected : Float)
  | heightTaken (height : Single)
  | controlSent (frames : Nat)
  | packetsCounted (received toEstimator refused malformed : UInt32)
  | anchorsActive (anchors : List UInt8)
  /-- How many differences were compared, and the root of their mean squared error. -/
  | errorMeasured (count : Nat) (error : Float)
  | lastDifference (measurement : Measurement)
  deriving DecidableEq

/-- Positions in notes have an exponent below `10 ^ -4` and from `10 ^ 16` on. -/
def positionStyle : DecimalStyle where
  tie := .up
  positional := some (-4, 15)
  pointZero := true
  signedExponent := false

/-- Items in brackets. -/
def bracketed (items : List String) : String := "[" ++ ", ".intercalate items ++ "]"

/-- Anchor ids in brackets. -/
def idsText (ids : List UInt8) : String :=
  bracketed (ids.map fun id => String.ofList (Number.naturalText id.toNat))

/-- A position in brackets. -/
def positionText (p : Vec3 Float) : String :=
  bracketed (p.toList.map fun x =>
    String.ofList (positionStyle.text .double (Number.ofFloat x)))

/-- A 64-bit float with a fixed number of places. -/
def placesText (places : Nat) (x : Float) : String :=
  String.ofList (Number.fixedText places (Number.ofFloat x))

/-- A 32-bit float with a fixed number of places. -/
def singlePlacesText (places : Nat) (x : Single) : String :=
  String.ofList (Number.fixedText places x.reading)

namespace Note

def level : Note → Level
  | itemRefused | anchorsUnknown _ => .warn
  | heightFixed _ | frameLost _ _ | differenceTaken _ _ | heightTaken _ => .debug
  | _ => .info

def origin : Note → Origin
  | heightFixed _ => .tag
  | itemRefused => .estimatorQueue
  | frameLost _ _ => .field
  | _ => .demo

def text : Note → String
  | documentWritten path => s!"Default configuration written to {path}"
  | heightFixed height => s!"2D positioning enabled at {Settings.reportSingle height} m height"
  | started slots anchors tagPosition =>
    s!"Simulating {slots} slots with anchors {idsText anchors}, tag at {positionText tagPosition}"
  | frameLost sequence anchor => s!"Simulated loss of packet {sequence} from anchor {anchor}"
  | itemRefused => "Estimator queue full, measurement dropped"
  | anchorsUnknown anchors =>
    s!"Measurement for unknown anchors {idsText [anchors.1, anchors.2]}"
  | differenceTaken m expected =>
    s!"{idsText [m.anchors.1, m.anchors.2]}: {singlePlacesText 3 m.difference} m " ++
      s!"(expected {placesText 3 expected} m)"
  | heightTaken height => s!"Height {singlePlacesText 2 height} m"
  | controlSent frames => s!"Control frames sent: {frames}"
  | packetsCounted received toEstimator refused malformed =>
    s!"Packets received: {received}, to estimator: {toEstimator}, dropped: {refused}, " ++
      s!"malformed: {malformed}"
  | anchorsActive anchors => s!"Active anchors: {idsText anchors}"
  | errorMeasured count error => s!"{count} measurements, RMS error {placesText 4 error} m"
  | lastDifference m => s!"Last measurement: {String.ofList m.toJson.compact}"

/-- The note as a log has it: level, origin, text. Further lines of the text are indented. -/
def entry (n : Note) : String :=
  let text := String.ofList (n.text.toList.flatMap fun c =>
    if c = '\n' then "\n    ".toList else [c])
  s!"{n.level.column} {n.origin.name}] {text}"

end Note
end Ranging.Demo
