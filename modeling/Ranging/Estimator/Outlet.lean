import Ranging.Estimator.Handle

/-!
A sink that is chosen when a tag is set up.
-/
namespace Ranging.Estimator

inductive Outlet where
  | collected (collector : Collector)
  | channelled (channel : Channel)
  /-- A queue behind a handle; it may have others. -/
  | queued (queue : Attached Channel)
  deriving Repr, DecidableEq

namespace Outlet

/-- An outlet to a queue of its own, if there can be room for it. -/
def queue (capacity : Nat) : Except Fault Outlet :=
  (Memory.bounded ⟨[], []⟩ capacity).map fun (memory, handle) => queued ⟨memory, handle⟩

/-- Everything a collecting outlet has taken. -/
def items : Outlet → List EstimatorItem
  | collected c => c.items
  | _ => []

/-- The channel behind an outlet, while its receiving end is there. -/
def channel? : Outlet → Option Channel
  | collected _ => none
  | channelled c => if c.isOpen then some c else none
  | queued q => q.channel?.filter (·.isOpen)

/-- How many items wait to be received. -/
def waiting? (o : Outlet) : Option Nat := o.channel?.map (·.waiting.length)

def refused? : Outlet → Option UInt32
  | queued q => q.memory.refused? q.handle
  | _ => none

/-- Receives up to `count` items. -/
def receive (o : Outlet) (count : Nat) : Outlet × List EstimatorItem :=
  match o with
  | collected c => (collected c, [])
  | channelled c => let (c, items) := c.receive count; (channelled c, items)
  | queued q =>
    let (memory, items) := q.memory.receive q.handle.channel count
    (queued { q with memory := memory }, items)

/-- Gives up the receiving end. -/
def close : Outlet → Outlet
  | collected c => collected c
  | channelled c => channelled c.close
  | queued q => queued { q with memory := q.memory.close q.handle.channel }

/-- An outlet for somebody else; to a queue it leads through a handle of its own. -/
def clone : Outlet → Outlet
  | queued q => queued { q with handle := q.handle.clone }
  | o => o

/-- An outlet behind what somebody did at a clone of it. -/
def rejoin : Outlet → Outlet → Outlet
  | queued q, queued other => queued { q with memory := other.memory }
  | _, other => other

end Outlet

instance : Sink Outlet where
  offer
    | .collected c, item => let (c, taken) := Sink.offer c item; (.collected c, taken)
    | .channelled c, item => let (c, taken) := Sink.offer c item; (.channelled c, taken)
    | .queued q, item => let (q, taken) := Sink.offer q item; (.queued q, taken)

end Ranging.Estimator
