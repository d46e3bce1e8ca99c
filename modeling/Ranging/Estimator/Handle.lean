import Ranging.Estimator.Sink

/-!
Queues that are shared through handles.

The channel of a queue and the count of its refusals stand in a memory, and a handle only says
where. So all clones of a handle reach the same channel and the same count. An offer through a
handle has two accesses to what is shared: the channel takes or refuses the item, and then a
refusal is counted.
-/
namespace Ranging.Estimator

/-- A channel with bounded room, whatever it is made of. -/
class BoundedChannel (χ : Type) where
  create : Nat → Except Fault χ
  /-- Takes or refuses an item; true when it took the item. -/
  send : χ → EstimatorItem → χ × Bool
  /-- Receives up to so many items. -/
  receive : χ → Nat → χ × List EstimatorItem
  /-- Gives up the receiving end. -/
  close : χ → χ

instance : BoundedChannel Channel where
  create := Channel.create
  send := Channel.send
  receive := Channel.receive
  close := Channel.close

/-- What handles refer to. -/
structure Memory (χ : Type) where
  channels : List χ
  /-- Counts of refusals; each wraps at 32 bits. -/
  refusals : List UInt32
  deriving Repr, DecidableEq

/-- Where the channel of a queue stands, and where its refusals are counted. -/
structure Handle where
  channel : Nat
  refusals : Nat
  deriving Repr, DecidableEq

/-- Another handle on the same queue. -/
def Handle.clone (h : Handle) : Handle where
  channel := h.channel
  refusals := h.refusals

namespace Memory

variable {χ : Type}

/-- How many items were refused through a handle and its clones. -/
def refused? (memory : Memory χ) (h : Handle) : Option UInt32 := memory.refusals[h.refusals]?

/-- Counts a refusal. -/
def countRefusal (memory : Memory χ) (h : Handle) : Memory χ :=
  { memory with refusals := memory.refusals.modify h.refusals (· + 1) }

variable [BoundedChannel χ]

/-- Puts a queue into a memory, if there can be room for it. -/
def bounded (memory : Memory χ) (capacity : Nat) : Except Fault (Memory χ × Handle) := do
  let channel ← BoundedChannel.create capacity
  return (⟨memory.channels ++ [channel], memory.refusals ++ [0]⟩,
    ⟨memory.channels.length, memory.refusals.length⟩)

/-- Has the channel of a queue take or refuse an item. -/
def offer (memory : Memory χ) (h : Handle) (item : EstimatorItem) : Memory χ × Bool :=
  match memory.channels[h.channel]? with
  | none => (memory, false)
  | some channel =>
    let (channel, taken) := BoundedChannel.send channel item
    ({ memory with channels := memory.channels.set h.channel channel }, taken)

/-- Offers an item and counts it if it is refused. -/
def send (memory : Memory χ) (h : Handle) (item : EstimatorItem) : Memory χ × Bool :=
  let (memory, taken) := memory.offer h item
  (if taken then memory else memory.countRefusal h, taken)

/-- Receives up to `count` items from the channel at a place. -/
def receive (memory : Memory χ) (place count : Nat) : Memory χ × List EstimatorItem :=
  match memory.channels[place]? with
  | none => (memory, [])
  | some channel =>
    let (channel, items) := BoundedChannel.receive channel count
    ({ memory with channels := memory.channels.set place channel }, items)

/-- Gives up the receiving end of the channel at a place. -/
def close (memory : Memory χ) (place : Nat) : Memory χ :=
  { memory with channels := memory.channels.modify place BoundedChannel.close }

end Memory

/-- A handle with the memory that it refers to. -/
structure Attached (χ : Type) where
  memory : Memory χ
  handle : Handle
  deriving Repr, DecidableEq

/-- The channel that a handle leads to. -/
def Attached.channel? {χ : Type} (a : Attached χ) : Option χ := a.memory.channels[a.handle.channel]?

instance {χ : Type} [BoundedChannel χ] : Sink (Attached χ) where
  offer a item :=
    let (memory, taken) := a.memory.send a.handle item
    (⟨memory, a.handle⟩, taken)

end Ranging.Estimator
