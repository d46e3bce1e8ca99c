import Ranging.Demo.Note
import Ranging.Field.Simulator
import Ranging.Radio.Bench
import Ranging.Random.ChaCha
import Ranging.Settings.Holder
import Ranging.Tag

/-!
A demonstration: a simulated field of anchors is heard by a tag, and what the tag hands to its
estimator is compared with the geometry.
-/
namespace Ranging.Demo

open Ranging.Estimator (Queue)
open Ranging.Field (Simulator)
open Ranging.Radio (Bench)
open Ranging.Random (Generator)
open Ranging.Settings (Document SettingsError)
open Ranging.Wire (ControlPacket WireError)

inductive Failure where
  | noPath
  | settings (error : SettingsError)
  /-- The slot count is no whole number of 64 bits. -/
  | slotCount (text : String)
  | wire (error : WireError)
  | radio (error : RadioError)
  | fault (fault : Fault)
  deriving DecidableEq

def Failure.message : Failure → String
  | noPath => "Missing output path"
  | settings e => e.message
  | slotCount text => s!"invalid slot count: {text}"
  | wire e => e.message
  | radio e => e.message
  | fault .overflow => "number out of range"
  | fault .unexpectedEvent => "unexpected radio event"
  | fault .noRoom => "capacity overflow"
  | fault .outOfRange => "index out of range"

/-- A failure with the notes before it, latest first. -/
structure Halt where
  failure : Failure
  notes : List Note
  deriving DecidableEq

/-- A demonstration under way. -/
structure Trial where
  field : Simulator Generator
  tag : Tag Queue ControlQueue
  radio : Bench
  compared : Nat
  squaredErrors : Float
  last : Option Measurement
  /-- The notes so far, latest first. -/
  notes : List Note

namespace Trial

def note (t : Trial) (n : Note) : Trial := { t with notes := n :: t.notes }

/-- Lets the tag react to an event, with a note for every item that its queue refuses. -/
def event (t : Trial) (event : RadioEvent) (now : Nat) : Except Halt Trial :=
  match t.tag.respond t.radio event now with
  | .error fault => .error ⟨.fault fault, t.notes⟩
  | .ok (tag, radio, done) =>
    let refused := (tag.sink.refused - t.tag.sink.refused).toNat
    let notes := List.replicate refused .itemRefused ++ t.notes
    match tag.refresh now, done with
    | .error fault, _ => .error ⟨.fault fault, notes⟩
    | .ok _, .error e => .error ⟨.radio e, notes⟩
    | .ok tag, .ok () => .ok { t with tag := tag, radio := radio, notes := notes }

def compare (t : Trial) (item : EstimatorItem) : Trial :=
  match item with
  | .height fix => t.note (.heightTaken fix.height)
  | .difference m =>
    match t.field.expectedDifference m.anchors.1 m.anchors.2 with
    | none => t.note (.anchorsUnknown m.anchors)
    | some expected =>
      let error := m.difference.toFloat - expected
      { t.note (.differenceTaken m expected) with
        compared := t.compared + 1
        squaredErrors := t.squaredErrors + error * error
        last := some m }

/-- Empties the estimator's queue. -/
def drain (t : Trial) : Trial :=
  let (queue, items) := t.tag.sink.receive t.tag.sink.channel.waiting.length
  items.foldl compare { t with tag := { t.tag with sink := queue } }

/-- The next slot: an anchor transmits, the tag hears it or not, and the queue is emptied. -/
def slot (t : Trial) : Except Halt Trial :=
  match t.field.next with
  | .error e => .error ⟨.wire e, t.notes⟩
  | .ok (field, transmission) =>
    let t := { t with field := field }
    let after :=
      match transmission.frame with
      | some frame =>
        { t with radio := t.radio.addFrame frame }.event .packetReceived transmission.now
      | none =>
        (t.note (.frameLost transmission.sequence transmission.anchor)).event .receiveTimeout
          transmission.now
    after.map drain

def slots : Nat → Trial → Except Halt Trial
  | 0, t => .ok t
  | count + 1, t =>
    match t.slot with
    | .error halt => .error halt
    | .ok t => slots count t

/-- Sets field, tag and radio up. -/
def start (d : Document) (count : Nat) : Except Halt Trial :=
  match Simulator.start d.field with
  | .error flaw => .error ⟨.settings (.flawed flaw), []⟩
  | .ok field =>
    match (Queue.create d.tag.queueCapacity).bind fun queue => Tag.start d.tag queue ⟨[]⟩ 0 with
    | .error fault => .error ⟨.fault fault, []⟩
    | .ok (.error flaw) => .error ⟨.settings (.flawed flaw), []⟩
    | .ok (.ok tag) =>
      match tag.initialise Bench.fresh with
      | (_, _, .error e) => .error ⟨.radio e, []⟩
      | (tag, radio, .ok ()) =>
        let notes : List Note :=
          match d.tag.fixedHeight with
          | none => []
          | some height => [.heightFixed height]
        let t : Trial := ⟨field, tag, radio, 0, 0.0, none, notes⟩
        (t.event .timeout 0).map fun t =>
          t.note (.started count t.field.anchorIds t.field.tagPosition)

def finalPacket : ControlPacket := ⟨0, [0x00], by decide⟩

/-- Sends the final control packet, if the tag is ranging. -/
def sendFinalPacket (t : Trial) : Except Halt Trial :=
  if t.tag.rangingOk then
    let t := { t with tag := { t.tag with source := ⟨t.tag.source.pending ++ [finalPacket]⟩ } }
    (t.event .timeout t.field.timeMs).map fun t => t.note (.controlSent t.radio.sent.length)
  else .ok t

def summarise (t : Trial) : Trial :=
  let telemetry := t.tag.telemetry
  let t := t.note (.packetsCounted telemetry.rates.received.count
    telemetry.rates.toEstimator.count telemetry.tallies.refused telemetry.tallies.malformed)
  let t := t.note (.anchorsActive (t.tag.activeAnchorIds t.field.timeMs))
  let t :=
    if 0 < t.compared then
      t.note (.errorMeasured t.compared (t.squaredErrors / Float.ofNat t.compared).sqrt)
    else t
  match t.last with
  | none => t
  | some m => t.note (.lastDifference m)

def run (d : Document) (count : Nat) : Except Halt Trial := do
  let t ← start d count
  let t ← slots count t
  let t ← t.sendFinalPacket
  return t.summarise

end Trial
end Ranging.Demo
