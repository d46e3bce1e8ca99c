import Mathlib.Data.List.Chain
import Ranging.Estimator.Handle
import Ranging.Proofs.Estimator.Answers

/-!
# A queue between its emitters and the estimator

Several parties emit through handles on one queue while the estimator receives from it. Nothing
holds one of them back for another: what a party has to do is a list of tasks, each a single access
to what is shared, and anything can happen between two of them. What reaches the channel, from
either end, stands in a history.

The queue is held against its history (`Exchange.Sound`): what was received and what still waits is
what was taken, in order, and every refusal is counted or about to be. One action keeps that up, so
every run does (`performAll_accounted`). An emit is no single action, so its height can be taken
though its measurement was refused (`height_alone`), but only if something was received in between.
-/
namespace Ranging.Estimator

open Ranging.Number (Single)
open Ranging.Telemetry (Note Count)

/-- What makes a channel a first-in first-out buffer of as many items as it was created for. -/
structure Fifo (χ : Type) [BoundedChannel χ] where
  capacity : χ → Nat
  /-- The items not yet received, oldest first. -/
  waiting : χ → List EstimatorItem
  /-- The receiving end is still there. -/
  isOpen : χ → Prop
  create {n : Nat} {c : χ} : BoundedChannel.create n = .ok c →
    capacity c = n ∧ waiting c = [] ∧ isOpen c
  capacity_send (c : χ) (item : EstimatorItem) :
    capacity (BoundedChannel.send c item).1 = capacity c
  isOpen_send (c : χ) (item : EstimatorItem) :
    isOpen (BoundedChannel.send c item).1 ↔ isOpen c
  /-- With room and a receiving end an item is taken. -/
  send_taken {c : χ} : isOpen c → (waiting c).length < capacity c → ∀ item,
    (BoundedChannel.send c item).2 = true ∧
      waiting (BoundedChannel.send c item).1 = waiting c ++ [item]
  /-- Without one of them it is refused; no receiver waits to be handed an item. -/
  send_refused {c : χ} : ¬ (isOpen c ∧ (waiting c).length < capacity c) → ∀ item,
    (BoundedChannel.send c item).2 = false ∧ waiting (BoundedChannel.send c item).1 = waiting c
  capacity_receive (c : χ) (n : Nat) : capacity (BoundedChannel.receive c n).1 = capacity c
  isOpen_receive (c : χ) (n : Nat) : isOpen (BoundedChannel.receive c n).1 ↔ isOpen c
  receive (c : χ) (n : Nat) : (BoundedChannel.receive c n).2 = (waiting c).take n ∧
    waiting (BoundedChannel.receive c n).1 = (waiting c).drop n
  close (c : χ) : capacity (BoundedChannel.close c) = capacity c ∧
    waiting (BoundedChannel.close c) = [] ∧ ¬ isOpen (BoundedChannel.close c)

/-- Whether a channel takes the next item. -/
def Fifo.hasRoom {χ : Type} [BoundedChannel χ] (fifo : Fifo χ) (c : χ) : Prop :=
  fifo.isOpen c ∧ (fifo.waiting c).length < fifo.capacity c

/-- The channel of this library is such a buffer. -/
def Channel.fifo : Fifo Channel where
  capacity := capacity
  waiting := waiting
  isOpen c := c.isOpen = true
  create h := by
    rw [Channel.create_eq_ok h]
    exact ⟨rfl, rfl, rfl⟩
  capacity_send c item := by
    show (c.send item).1.capacity = _
    unfold send
    split <;> rfl
  isOpen_send c item := by
    show (c.send item).1.isOpen = true ↔ _
    unfold send
    split <;> rfl
  send_taken hopen hroom item := by
    have hsend : (_ && _) = true := Bool.and_eq_true_iff.mpr ⟨hopen, decide_eq_true hroom⟩
    show (send _ item).2 = true ∧ (send _ item).1.waiting = _
    rw [send, if_pos hsend]
    exact ⟨rfl, rfl⟩
  send_refused hroom item := by
    show (send _ item).2 = false ∧ (send _ item).1.waiting = _
    rw [send, if_neg (by simpa using hroom)]
    exact ⟨rfl, rfl⟩
  capacity_receive _ _ := rfl
  isOpen_receive _ _ := Iff.rfl
  receive _ _ := ⟨rfl, rfl⟩
  close _ := ⟨rfl, rfl, Bool.false_ne_true⟩

/-! ### Parties and their tasks -/

/-- Something that an emit has to do. Each task is one access to what is shared. -/
inductive Task where
  | offer (item : EstimatorItem)
  /-- Counts a refusal where all handles on the queue do. -/
  | count
  | note (n : Note)

/-- What an answer leaves to be done. -/
def Task.behind (item : EstimatorItem) (taken : Bool) : List Task :=
  (if taken then [] else [count]) ++ (answerNotes (item, taken)).map note

def Task.item? : Task → Option EstimatorItem
  | offer item => some item
  | _ => none

def Task.note? : Task → Option Note
  | note n => some n
  | _ => none

def Task.isCount : Task → Bool
  | count => true
  | _ => false

/-- Somebody who emits through a handle. -/
structure Party where
  handle : Handle
  /-- Everything that it emits, in order. -/
  items : List EstimatorItem
  /-- What it has yet to do. -/
  tasks : List Task

/-- The party goes on with an emit once it has done what it has to do. -/
def Party.emit (p : Party) (items : List EstimatorItem) : Party :=
  { p with items := p.items ++ items, tasks := p.tasks ++ items.map .offer }

/-- What several parties have yet to do. -/
def pending (parties : List Party) : List Task := parties.flatMap (·.tasks)

/-! ### The history of a queue -/

inductive Event where
  /-- A party offered an item, which was taken or refused. -/
  | offered (party : Nat) (item : EstimatorItem) (taken : Bool)
  | received (item : EstimatorItem)
  deriving DecidableEq

/-- The offers of a history with their answers. -/
def answered (history : List Event) : List (EstimatorItem × Bool) :=
  history.filterMap fun
    | .offered _ item taken => some (item, taken)
    | .received _ => none

/-- The items that a party offered. -/
def offeredBy (party : Nat) (history : List Event) : List EstimatorItem :=
  history.filterMap fun
    | .offered i item _ => if i = party then some item else none
    | .received _ => none

def receivedItems (history : List Event) : List EstimatorItem :=
  history.filterMap fun
    | .offered _ _ _ => none
    | .received item => some item

@[simp] theorem answered_append (history more : List Event) :
    answered (history ++ more) = answered history ++ answered more :=
  List.filterMap_append

@[simp] theorem offeredBy_append (i : Nat) (history more : List Event) :
    offeredBy i (history ++ more) = offeredBy i history ++ offeredBy i more :=
  List.filterMap_append

@[simp] theorem receivedItems_append (history more : List Event) :
    receivedItems (history ++ more) = receivedItems history ++ receivedItems more :=
  List.filterMap_append

@[simp] theorem answered_offered (i : Nat) (item : EstimatorItem) (taken : Bool) :
    answered [.offered i item taken] = [(item, taken)] := rfl

@[simp] theorem receivedItems_offered (i : Nat) (item : EstimatorItem) (taken : Bool) :
    receivedItems [.offered i item taken] = [] := rfl

@[simp] theorem answered_received (items : List EstimatorItem) :
    answered (items.map .received) = [] := by
  simp [answered]

@[simp] theorem offeredBy_received (i : Nat) (items : List EstimatorItem) :
    offeredBy i (items.map .received) = [] := by
  simp [offeredBy]

@[simp] theorem receivedItems_received (items : List EstimatorItem) :
    receivedItems (items.map .received) = items := by
  simp [receivedItems]

theorem itemsRefused_append (log more : List (EstimatorItem × Bool)) :
    itemsRefused (log ++ more) = itemsRefused log + itemsRefused more :=
  List.countP_append

/-- The items that were taken, oldest first. -/
def itemsTaken (log : List (EstimatorItem × Bool)) : List EstimatorItem :=
  (log.filter (·.2)).map (·.1)

@[simp] theorem itemsTaken_append (log more : List (EstimatorItem × Bool)) :
    itemsTaken (log ++ more) = itemsTaken log ++ itemsTaken more := by
  simp [itemsTaken]

/-- Right behind a refusal nothing is taken. -/
def Event.Follows : Event → Event → Prop
  | .offered _ _ false, .offered _ _ true => False
  | _, _ => True

def Event.isRefusal : Event → Bool
  | .offered _ _ false => true
  | _ => false

/-! ### Actions -/

/-- A queue with its parties, whose telemetry is one, and with its receiving end. -/
structure Exchange (χ : Type) where
  memory : Memory χ
  /-- The place of the channel that the receiving end belongs to. -/
  channel : Nat
  parties : List Party
  telemetry : Telemetry
  /-- What reached the channel, oldest first. -/
  history : List Event

/-- Something that happens at a queue. -/
inductive Exchange.Action where
  /-- A party has its handle cloned for a new one. -/
  | clone (party : Nat)
  | emit (party : Nat) (e : Emitter) (m : Measurement) (now : Nat)
  /-- A party does the next of its tasks. -/
  | proceed (party : Nat)
  | receive (count : Nat)
  /-- Gives up the receiving end. -/
  | close

namespace Exchange

section

variable {χ : Type} [BoundedChannel χ]

/-- A new queue with one party, if there can be room for it. -/
def start (capacity : Nat) (telemetry : Telemetry) : Except Fault (Exchange χ) := do
  let (memory, handle) ← Memory.bounded ⟨[], []⟩ capacity
  return ⟨memory, handle.channel, [⟨handle, [], []⟩], telemetry, []⟩

/-- Has the party `p`, which is the one of number `i`, do a task. -/
def work (x : Exchange χ) (i : Nat) (p : Party) : Task → Exchange χ
  | .offer item =>
    let (memory, taken) := x.memory.offer p.handle item
    { x with
      memory := memory
      parties := x.parties.set i { p with tasks := Task.behind item taken ++ p.tasks }
      history := x.history ++ [.offered i item taken] }
  | .count => { x with memory := x.memory.countRefusal p.handle, parties := x.parties.set i p }
  | .note n => { x with telemetry := x.telemetry.note n, parties := x.parties.set i p }

def perform (x : Exchange χ) : Action → Exchange χ
  | .clone i =>
    match x.parties[i]? with
    | none => x
    | some p => { x with parties := x.parties ++ [⟨p.handle.clone, [], []⟩] }
  | .emit i e m now =>
    match x.parties[i]? with
    | none => x
    | some p => { x with parties := x.parties.set i (p.emit (e.items (some m) now)) }
  | .proceed i =>
    match x.parties[i]? with
    | some ⟨handle, items, task :: tasks⟩ => x.work i ⟨handle, items, tasks⟩ task
    | _ => x
  | .receive count =>
    let (memory, items) := x.memory.receive x.channel count
    { x with memory := memory, history := x.history ++ items.map .received }
  | .close => { x with memory := x.memory.close x.channel }

/-- Actions in the order in which they happen. -/
def performAll (x : Exchange χ) (actions : List Action) : Exchange χ := actions.foldl perform x

/-- What is about to be counted in the telemetry. -/
def notesDue (x : Exchange χ) : List Count :=
  Note.counted ((pending x.parties).filterMap Task.note?)

/-- Nobody has anything left to do. -/
def AtRest (x : Exchange χ) : Prop := ∀ p ∈ x.parties, p.tasks = []

variable {x : Exchange χ} {fifo : Fifo χ} {capacity : Nat} {c : χ} {n : UInt32}

/-! ### What an action can do -/

/-- What becomes of a queue by an action, as long as the receiving end is not given up. -/
inductive Step (x : Exchange χ) : Exchange χ → Prop
  | idle : Step x x
  | clone {p : Party} (hp : p ∈ x.parties) :
      Step x { x with parties := x.parties ++ [⟨p.handle.clone, [], []⟩] }
  | emit {i : Nat} {p : Party} (hp : x.parties[i]? = some p) (items : List EstimatorItem) :
      Step x { x with parties := x.parties.set i (p.emit items) }
  | work {i : Nat} {p : Party} {task : Task} {tasks : List Task} (hp : x.parties[i]? = some p)
      (htasks : p.tasks = task :: tasks) : Step x (x.work i { p with tasks := tasks } task)
  | receive (count : Nat) : Step x (x.perform (.receive count))

theorem perform_step (x : Exchange χ) {a : Action} (h : .close ≠ a) : Step x (x.perform a) := by
  cases a with
  | clone i =>
    cases hp : x.parties[i]? with
    | none => simpa only [perform, hp] using Step.idle
    | some p => simpa only [perform, hp] using Step.clone (List.mem_of_getElem? hp)
  | emit i e m now =>
    cases hp : x.parties[i]? with
    | none => simpa only [perform, hp] using Step.idle
    | some p => simpa only [perform, hp] using Step.emit hp _
  | proceed i =>
    cases hp : x.parties[i]? with
    | none => simpa only [perform, hp] using Step.idle
    | some p =>
      obtain ⟨handle, items, _ | ⟨task, tasks⟩⟩ := p
      · simpa only [perform, hp] using Step.idle
      · simpa only [perform, hp] using Step.work hp rfl
  | receive count => exact .receive count
  | close => exact absurd rfl h

/-! ### Histories and tasks -/

theorem pending_split (before : List Party) (p : Party) (after : List Party) :
    pending (before ++ p :: after) = pending before ++ p.tasks ++ pending after := by
  simp [pending]

theorem pending_set {parties : List Party} {i : Nat} {p : Party} (h : parties[i]? = some p) :
    ∃ before after, pending parties = before ++ p.tasks ++ after ∧
      ∀ q, pending (parties.set i q) = before ++ q.tasks ++ after := by
  obtain ⟨hi, rfl⟩ := List.getElem?_eq_some_iff.mp h
  have hsplit : parties = parties.take i ++ parties[i] :: parties.drop (i + 1) := by
    rw [← List.drop_eq_getElem_cons hi, List.take_append_drop]
  refine ⟨_, _, (congrArg pending hsplit).trans (pending_split _ _ _), fun q => ?_⟩
  rw [List.set_eq_take_append_cons_drop, if_pos hi, pending_split]

theorem countP_behind (item : EstimatorItem) (taken : Bool) :
    (Task.behind item taken).countP Task.isCount = itemsRefused [(item, taken)] := by
  rcases item with m | height <;> cases taken <;> rfl

theorem notes_behind (item : EstimatorItem) (taken : Bool) :
    (Task.behind item taken).filterMap Task.note? = answerNotes (item, taken) := by
  rcases item with m | height <;> cases taken <;> rfl

theorem items_behind (item : EstimatorItem) (taken : Bool) :
    (Task.behind item taken).filterMap Task.item? = [] := by
  rcases item with m | height <;> cases taken <;> rfl

/-- Between a refusal and an item that is taken something is received. -/
theorem received_between {before between after : List Event} {i j : Nat}
    {item item' : EstimatorItem}
    (h : (before ++ .offered i item false :: (between ++ .offered j item' true :: after)).IsChain
      Event.Follows) : ∃ r, .received r ∈ between := by
  replace h := (List.isChain_append.mp h).2.1
  -- as long as nothing is received, everything is refused
  induction between generalizing i item with
  | nil => exact absurd (List.isChain_cons_cons.mp h).1 id
  | cons e rest ih =>
    obtain ⟨hfollows, hrest⟩ := List.isChain_cons_cons.mp h
    match e with
    | .received r => exact ⟨r, List.mem_cons_self⟩
    | .offered _ _ true => exact absurd hfollows id
    | .offered _ _ false =>
      obtain ⟨r, hr⟩ := ih hrest
      exact ⟨r, List.mem_cons_of_mem _ hr⟩

/-! ### The invariant -/

/-- A channel agrees with the history of what reached it. -/
structure Lined (fifo : Fifo χ) (capacity : Nat) (history : List Event) (c : χ) : Prop where
  sized : fifo.capacity c = capacity
  room : (fifo.waiting c).length ≤ capacity
  kept : fifo.isOpen c → receivedItems history ++ fifo.waiting c = itemsTaken (answered history)
  follows : history.IsChain Event.Follows
  /-- A channel that has just refused an item has no room. -/
  last : ∀ e ∈ history.getLast?, e.isRefusal = true → ¬ fifo.hasRoom c

/-- The parties share the one queue, and each has offered its items as far as it has come. -/
structure Seated (parties : List Party) (history : List Event) : Prop where
  handles : ∀ p ∈ parties, p.handle = ⟨0, 0⟩
  offered : ∀ i p, parties[i]? = some p →
    offeredBy i history ++ p.tasks.filterMap Task.item? = p.items
  nobody : ∀ i, parties[i]? = none → offeredBy i history = []

/-- Every answer is counted or about to be, where `n` refusals are counted at the queue. -/
structure Booked (parties : List Party) (telemetry : Telemetry) (history : List Event)
    (n : UInt32) : Prop where
  counted : n + .ofNat ((pending parties).countP Task.isCount) =
    .ofNat (itemsRefused (answered history))
  noted : ∀ k, telemetry.ranging.get k +
      .ofNat ((Note.counted ((pending parties).filterMap Task.note?)).count k) =
    .ofNat ((Note.counted ((answered history).flatMap answerNotes)).count k)

/-- A queue with the channel `c` and `n` refusals counted agrees with its history. -/
structure Sound (fifo : Fifo χ) (capacity : Nat) (x : Exchange χ) (c : χ) (n : UInt32) :
    Prop where
  memory : x.memory = ⟨[c], [n]⟩
  channel : x.channel = 0
  lined : Lined fifo capacity x.history c
  seated : Seated x.parties x.history
  booked : Booked x.parties x.telemetry x.history n

/-- A new queue with the channel `c`. -/
def around (c : χ) (telemetry : Telemetry) : Exchange χ :=
  ⟨⟨[c], [0]⟩, 0, [⟨⟨0, 0⟩, [], []⟩], telemetry, []⟩

theorem start_eq_map (capacity : Nat) (telemetry : Telemetry) :
    start capacity telemetry =
      (BoundedChannel.create capacity).map fun c : χ => around c telemetry := by
  unfold start Memory.bounded
  cases (BoundedChannel.create capacity : Except Fault χ) <;> rfl

theorem Sound.start {anchor remote : UInt8} {now : Nat} {telemetry : Telemetry}
    (htelemetry : Telemetry.starting anchor remote now = .ok telemetry) (fifo : Fifo χ)
    (hstart : start capacity telemetry = .ok x) :
    ∃ c n, Sound fifo capacity x c n ∧ fifo.isOpen c := by
  rw [start_eq_map] at hstart
  obtain ⟨c, hc, rfl⟩ := map_eq_ok_iff.mp hstart
  obtain ⟨hcapacity, hwaiting, hopen⟩ := fifo.create hc
  refine ⟨c, 0, ⟨rfl, rfl, ⟨hcapacity, ?_, fun _ => hwaiting, .nil, nofun⟩,
    ⟨?_, ?_, fun _ _ => rfl⟩, ⟨rfl, ?_⟩⟩, hopen⟩
  · rw [hwaiting]
    exact Nat.zero_le _
  · exact fun p hp => List.mem_singleton.mp hp ▸ rfl
  · intro i p hp
    obtain rfl := List.mem_singleton.mp (List.mem_of_getElem? hp)
    rfl
  · intro k
    have hzero : (around c telemetry).telemetry.ranging.get k = 0 :=
      (Telemetry.starting_counts htelemetry).1 k
    rw [hzero]
    rfl

/-! ### The channel -/

theorem Lined.offer {history : List Event} (h : Lined fifo capacity history c) (i : Nat)
    (item : EstimatorItem) :
    Lined fifo capacity (history ++ [.offered i item (BoundedChannel.send c item).2])
      (BoundedChannel.send c item).1 := by
  have hsized := (fifo.capacity_send c item).trans h.sized
  have hopen := fifo.isOpen_send c item
  by_cases hroom : fifo.hasRoom c
  · obtain ⟨htaken, hwaiting⟩ := fifo.send_taken hroom.1 hroom.2 item
    have hlt := hroom.2
    rw [htaken]
    refine ⟨hsized, ?_, fun ho => ?_, ?_, ?_⟩
    · rw [hwaiting, List.length_append, List.length_singleton, ← h.sized]
      exact hlt
    · rw [hwaiting, receivedItems_append, answered_append, itemsTaken_append,
        ← h.kept (hopen.mp ho), receivedItems_offered, List.append_nil, List.append_assoc]
      rfl
    · refine List.isChain_append.mpr ⟨h.follows, .singleton _, fun e he e' he' => ?_⟩
      obtain rfl := Option.some.inj he'
      -- a refusal right before would have left no room
      match e with
      | .offered _ _ false => exact absurd hroom (h.last _ he rfl)
      | .offered _ _ true | .received _ => exact trivial
    · intro e he hrefusal
      obtain rfl := Option.some.inj (List.getLast?_concat.symm.trans he)
      cases hrefusal
  · obtain ⟨hrefused, hwaiting⟩ := fifo.send_refused hroom item
    rw [hrefused]
    refine ⟨hsized, ?_, fun ho => ?_, ?_, ?_⟩
    · rw [hwaiting]
      exact h.room
    · rw [hwaiting, receivedItems_append, answered_append, itemsTaken_append,
        ← h.kept (hopen.mp ho), receivedItems_offered, List.append_nil]
      exact (List.append_nil _).symm
    · refine List.isChain_append.mpr ⟨h.follows, .singleton _, fun e he e' he' => ?_⟩
      obtain rfl := Option.some.inj he'
      match e with
      | .offered _ _ false | .offered _ _ true | .received _ => exact trivial
    · intro e he hrefusal hroom'
      have hlt := hroom'.2
      rw [hwaiting, hsized, ← h.sized] at hlt
      exact hroom ⟨hopen.mp hroom'.1, hlt⟩

theorem isChain_received (items : List EstimatorItem) :
    (items.map Event.received).IsChain Event.Follows := by
  induction items with
  | nil => exact .nil
  | cons item rest ih =>
    cases rest with
    | nil => exact .singleton _
    | cons => exact .cons_cons trivial ih

/-- What is received comes off the front of what waits. -/
theorem Lined.receive {history : List Event} (h : Lined fifo capacity history c) (count : Nat) :
    Lined fifo capacity (history ++ (BoundedChannel.receive c count).2.map .received)
      (BoundedChannel.receive c count).1 := by
  have hsized := (fifo.capacity_receive c count).trans h.sized
  have hopen := fifo.isOpen_receive c count
  obtain ⟨hitems, hwaiting⟩ := fifo.receive c count
  rw [hitems]
  refine ⟨hsized, ?_, fun ho => ?_, ?_, fun e he hrefusal hroom => ?_⟩
  · rw [hwaiting, List.length_drop]
    exact Nat.le_trans (Nat.sub_le _ _) h.room
  · rw [hwaiting, receivedItems_append, receivedItems_received, List.append_assoc,
      List.take_append_drop, h.kept (hopen.mp ho), answered_append, answered_received,
      List.append_nil]
  · refine List.isChain_append.mpr ⟨h.follows, isChain_received _, fun e _ e' he' => ?_⟩
    obtain ⟨item, -, rfl⟩ := List.mem_map.mp (List.mem_of_mem_head? he')
    match e with
    | .offered _ _ false | .offered _ _ true | .received _ => exact trivial
  · -- only if nothing was received can a refusal still be the last event
    cases htaken : (fifo.waiting c).take count with
    | nil =>
      rw [htaken, List.map_nil, List.append_nil] at he
      have hall := List.take_append_drop count (fifo.waiting c)
      rw [htaken, List.nil_append] at hall
      have hlt := hroom.2
      rw [hwaiting, hall, hsized, ← h.sized] at hlt
      exact h.last e he hrefusal ⟨hopen.mp hroom.1, hlt⟩
    | cons item rest =>
      rw [htaken, List.map_cons, List.getLast?_append_cons] at he
      rw [← List.map_cons] at he
      obtain ⟨r, -, rfl⟩ := List.mem_map.mp (List.mem_of_getLast? he)
      cases hrefusal

/-- Behind the receiving end nothing waits and there is no room. -/
theorem Lined.close {history : List Event} (h : Lined fifo capacity history c) :
    Lined fifo capacity history (BoundedChannel.close c) := by
  obtain ⟨hsized, hwaiting, hclosed⟩ := fifo.close c
  refine ⟨hsized.trans h.sized, ?_, fun ho => absurd ho hclosed, h.follows,
    fun _ _ _ hroom => hclosed hroom.1⟩
  rw [hwaiting]
  exact Nat.zero_le _

/-! ### The parties -/

variable {parties : List Party} {history events : List Event} {telemetry telemetry' : Telemetry}
  {n' : UInt32} {i : Nat} {p q : Party}

theorem Seated.concat (h : Seated parties history) (hp : p ∈ parties) :
    Seated (parties ++ [⟨p.handle.clone, [], []⟩]) history := by
  refine ⟨fun q hq => ?_, fun i q hq => ?_, fun i hi => ?_⟩
  · rcases List.mem_append.mp hq with hq | hq
    · exact h.handles q hq
    · rw [List.mem_singleton.mp hq]
      exact h.handles p hp
  · by_cases hi : i < parties.length
    · rw [List.getElem?_append_left hi] at hq
      exact h.offered i q hq
    · -- nothing was offered in the name of the new party
      rw [List.getElem?_append_right (Nat.not_lt.mp hi)] at hq
      obtain rfl := List.mem_singleton.mp (List.mem_of_getElem? hq)
      rw [h.nobody i (List.getElem?_eq_none (Nat.not_lt.mp hi))]
      rfl
  · rw [List.getElem?_eq_none_iff, List.length_append] at hi
    exact h.nobody i (List.getElem?_eq_none (Nat.le_of_add_right_le hi))

/-- The party `p` becomes `q` by offering items that it had yet to offer. -/
theorem Seated.set (h : Seated parties history) (hp : parties[i]? = some p)
    (hhandle : q.handle = p.handle)
    (hoffered : p.items = offeredBy i history ++ p.tasks.filterMap Task.item? →
      q.items = offeredBy i (history ++ events) ++ q.tasks.filterMap Task.item?)
    (hothers : ∀ j, j ≠ i → offeredBy j events = []) :
    Seated (parties.set i q) (history ++ events) := by
  refine ⟨fun q' hq' => ?_, fun j q' hq' => ?_, fun j hj => ?_⟩
  · rcases List.mem_or_eq_of_mem_set hq' with hq' | rfl
    · exact h.handles q' hq'
    · rw [hhandle]
      exact h.handles p (List.mem_of_getElem? hp)
  · by_cases hj : j = i
    · subst hj
      rw [List.getElem?_set_self (List.getElem?_eq_some_iff.mp hp).1] at hq'
      obtain rfl := Option.some.inj hq'
      exact (hoffered (h.offered j p hp).symm).symm
    · rw [List.getElem?_set_ne (Ne.symm hj)] at hq'
      rw [offeredBy_append, hothers j hj, List.append_nil]
      exact h.offered j q' hq'
  · have hnone : parties[j]? = none := by
      rw [List.getElem?_eq_none_iff, List.length_set] at hj
      exact List.getElem?_eq_none hj
    have hne : j ≠ i := by
      rintro rfl
      rw [hp] at hnone
      cases hnone
    rw [offeredBy_append, h.nobody j hnone, hothers j hne]
    rfl

/-! ### The counts -/

theorem Booked.concat (h : Booked parties telemetry history n) (handle : Handle) :
    Booked (parties ++ [⟨handle, [], []⟩]) telemetry history n := by
  have hpending : pending (parties ++ [⟨handle, [], []⟩]) = pending parties := by
    simp [pending]
  exact ⟨by rw [hpending]; exact h.counted, by rw [hpending]; exact h.noted⟩

/-- The party `p` becomes `q`: what is counted and what it has yet to count grow together by the new
answers. -/
theorem Booked.set (h : Booked parties telemetry history n) (hp : parties[i]? = some p)
    (hcount : n' + .ofNat (q.tasks.countP Task.isCount) =
      n + .ofNat (p.tasks.countP Task.isCount) + .ofNat (itemsRefused (answered events)))
    (hnotes : ∀ k, telemetry'.ranging.get k +
        .ofNat ((Note.counted (q.tasks.filterMap Task.note?)).count k) =
      telemetry.ranging.get k + .ofNat ((Note.counted (p.tasks.filterMap Task.note?)).count k) +
        .ofNat ((Note.counted ((answered events).flatMap answerNotes)).count k)) :
    Booked (parties.set i q) telemetry' (history ++ events) n' := by
  obtain ⟨before, after, hpending, hset⟩ := pending_set hp
  -- what the others have to do stays, and sums of words only have to be rearranged
  have hcounted := h.counted
  have hnoted := h.noted
  rw [hpending] at hcounted hnoted
  refine ⟨?_, fun k => ?_⟩
  · rw [hset, answered_append, itemsRefused_append, UInt32.ofNat_add, ← hcounted]
    simp only [List.countP_append, UInt32.ofNat_add]
    grind
  · have hk := hnoted k
    rw [hset, answered_append, List.flatMap_append, Note.counted_append, List.count_append,
      UInt32.ofNat_add, ← hk]
    simp only [List.filterMap_append, Note.counted_append, List.count_append, UInt32.ofNat_add]
    grind

/-- The party `p` becomes `q` without an offer. -/
theorem Seated.replace (h : Seated parties history) (hp : parties[i]? = some p)
    (hhandle : q.handle = p.handle)
    (hoffered : p.items = offeredBy i history ++ p.tasks.filterMap Task.item? →
      q.items = offeredBy i history ++ q.tasks.filterMap Task.item?) :
    Seated (parties.set i q) history := by
  have hset : Seated (parties.set i q) (history ++ []) :=
    h.set hp hhandle (by simpa using hoffered) fun _ _ => rfl
  rwa [List.append_nil] at hset

theorem Booked.replace (h : Booked parties telemetry history n) (hp : parties[i]? = some p)
    (hcount : n' + .ofNat (q.tasks.countP Task.isCount) = n + .ofNat (p.tasks.countP Task.isCount))
    (hnotes : ∀ k, telemetry'.ranging.get k +
        .ofNat ((Note.counted (q.tasks.filterMap Task.note?)).count k) =
      telemetry.ranging.get k +
        .ofNat ((Note.counted (p.tasks.filterMap Task.note?)).count k)) :
    Booked (parties.set i q) telemetry' history n' := by
  have hset : Booked (parties.set i q) telemetry' (history ++ []) n' :=
    h.set hp (hcount.trans (UInt32.add_zero _).symm)
      fun k => (hnotes k).trans (UInt32.add_zero _).symm
  rwa [List.append_nil] at hset

/-! ### Every action keeps the invariant -/

theorem Sound.emit (h : Sound fifo capacity x c n) (hp : x.parties[i]? = some p)
    (items : List EstimatorItem) :
    Sound fifo capacity { x with parties := x.parties.set i (p.emit items) } c n := by
  have hitems : (items.map Task.offer).filterMap Task.item? = items := by
    simp [List.filterMap_map, Function.comp_def, Task.item?]
  have hcount : (items.map Task.offer).countP Task.isCount = 0 := by
    simp [List.countP_map, Function.comp_def, Task.isCount]
  have hnotes : (items.map Task.offer).filterMap Task.note? = [] := by
    simp [Task.note?]
  refine ⟨h.memory, h.channel, h.lined, h.seated.replace hp rfl fun hoffered => ?_,
    h.booked.replace hp ?_ fun k => ?_⟩
  · show p.items ++ items = _ ++ (p.tasks ++ items.map Task.offer).filterMap Task.item?
    rw [List.filterMap_append, hitems, ← List.append_assoc, ← hoffered]
  · show n + .ofNat ((p.tasks ++ items.map Task.offer).countP Task.isCount) = _
    rw [List.countP_append, hcount, Nat.add_zero]
  · show _ + UInt32.ofNat
      ((Note.counted ((p.tasks ++ items.map Task.offer).filterMap Task.note?)).count k) = _
    rw [List.filterMap_append, hnotes, List.append_nil]

theorem Sound.offer (h : Sound fifo capacity x c n) (hp : x.parties[i]? = some p)
    {item : EstimatorItem} {tasks : List Task} (htasks : p.tasks = .offer item :: tasks) :
    Sound fifo capacity (x.work i { p with tasks := tasks } (.offer item))
      (BoundedChannel.send c item).1 n := by
  have hoffer : x.memory.offer p.handle item =
      (⟨[(BoundedChannel.send c item).1], [n]⟩, (BoundedChannel.send c item).2) := by
    rw [h.memory, h.seated.handles p (List.mem_of_getElem? hp)]
    rfl
  simp only [Exchange.work, hoffer]
  refine ⟨rfl, h.channel, h.lined.offer i item, h.seated.set hp rfl (fun hoffered => ?_)
    fun j hj => ?_, h.booked.set hp ?_ fun k => ?_⟩
  · simp [hoffered, htasks, items_behind, Task.item?, offeredBy]
  · simp [offeredBy, Ne.symm hj]
  · simp only [htasks, List.countP_append, List.countP_cons, countP_behind, answered_offered,
      UInt32.ofNat_add, Task.isCount]
    grind
  · simp only [htasks, List.filterMap_append, notes_behind, List.filterMap_cons, Task.note?,
      answered_offered, List.flatMap_singleton, Note.counted_append, List.count_append,
      UInt32.ofNat_add]
    grind

theorem Sound.count (h : Sound fifo capacity x c n) (hp : x.parties[i]? = some p)
    {tasks : List Task} (htasks : p.tasks = .count :: tasks) :
    Sound fifo capacity (x.work i { p with tasks := tasks } .count) c (n + 1) := by
  have hcount : x.memory.countRefusal p.handle = ⟨[c], [n + 1]⟩ := by
    rw [h.memory, h.seated.handles p (List.mem_of_getElem? hp)]
    rfl
  simp only [Exchange.work, hcount]
  refine ⟨rfl, h.channel, h.lined, h.seated.replace hp rfl fun hoffered => ?_,
    h.booked.replace hp ?_ fun k => ?_⟩
  · rwa [htasks] at hoffered
  · rw [htasks, List.countP_cons_of_pos rfl, UInt32.ofNat_add]
    show n + 1 + _ = n + (_ + 1)
    grind
  · rw [htasks]
    rfl

theorem Sound.note (h : Sound fifo capacity x c n) (hp : x.parties[i]? = some p) {m : Note}
    {tasks : List Task} (htasks : p.tasks = .note m :: tasks) :
    Sound fifo capacity (x.work i { p with tasks := tasks } (.note m)) c n := by
  refine ⟨h.memory, h.channel, h.lined, h.seated.replace hp rfl fun hoffered => ?_,
    h.booked.replace hp ?_ fun k => ?_⟩
  · rwa [htasks] at hoffered
  · rw [htasks, List.countP_cons_of_neg Bool.false_ne_true]
  · have hnote := Telemetry.get_noteAll x.telemetry [m] k
    show (x.telemetry.noteAll [m]).ranging.get k + _ = _
    have hnotes : (Task.note m :: tasks).filterMap Task.note? = [m] ++ tasks.filterMap Task.note? :=
      rfl
    rw [hnote, htasks, hnotes, Note.counted_append, List.count_append, UInt32.ofNat_add,
      UInt32.add_assoc]

theorem Sound.receive (h : Sound fifo capacity x c n) (count : Nat) :
    Sound fifo capacity (x.perform (.receive count)) (BoundedChannel.receive c count).1 n := by
  have hreceive : x.memory.receive x.channel count =
      (⟨[(BoundedChannel.receive c count).1], [n]⟩, (BoundedChannel.receive c count).2) := by
    rw [h.memory, h.channel]
    rfl
  simp only [perform, hreceive]
  refine ⟨rfl, h.channel, h.lined.receive count, ⟨h.seated.handles, fun i p hp => ?_,
    fun i hi => ?_⟩, ⟨?_, fun k => ?_⟩⟩
  · rw [offeredBy_append, offeredBy_received, List.append_nil]
    exact h.seated.offered i p hp
  · rw [offeredBy_append, offeredBy_received, List.append_nil]
    exact h.seated.nobody i hi
  · rw [answered_append, answered_received, List.append_nil]
    exact h.booked.counted
  · rw [answered_append, answered_received, List.append_nil]
    exact h.booked.noted k

theorem Sound.close (h : Sound fifo capacity x c n) :
    Sound fifo capacity (x.perform .close) (BoundedChannel.close c) n where
  memory := by
    show x.memory.close x.channel = _
    rw [h.memory, h.channel]
    rfl
  channel := h.channel
  lined := h.lined.close
  seated := h.seated
  booked := h.booked

theorem Sound.step (h : Sound fifo capacity x c n) {x' : Exchange χ} (hs : Step x x') :
    ∃ c' n', Sound fifo capacity x' c' n' ∧ (fifo.isOpen c' ↔ fifo.isOpen c) := by
  cases hs with
  | idle => exact ⟨c, n, h, Iff.rfl⟩
  | clone hp =>
    exact ⟨c, n, { h with seated := h.seated.concat hp, booked := h.booked.concat _ }, Iff.rfl⟩
  | emit hp items => exact ⟨c, n, h.emit hp items, Iff.rfl⟩
  | @work i p task tasks hp htasks =>
    cases task with
    | offer item => exact ⟨_, _, h.offer hp htasks, fifo.isOpen_send c item⟩
    | count => exact ⟨_, _, h.count hp htasks, Iff.rfl⟩
    | note m => exact ⟨_, _, h.note hp htasks, Iff.rfl⟩
  | receive count => exact ⟨_, _, h.receive count, fifo.isOpen_receive c count⟩

/-! ### Runs -/

theorem performAll_concat (x : Exchange χ) (actions : List Action) (a : Action) :
    x.performAll (actions ++ [a]) = (x.performAll actions).perform a := by
  simp [performAll]

/-- The receiving end is there until it is given up. -/
theorem Sound.performAll (h : Sound fifo capacity x c n) (hopen : fifo.isOpen c)
    (actions : List Action) :
    ∃ c' n', Sound fifo capacity (x.performAll actions) c' n' ∧
      (fifo.isOpen c' ↔ .close ∉ actions) := by
  -- from the end, since what has happened before an action is what its invariant speaks of
  induction actions using List.reverseRecOn with
  | nil => exact ⟨c, n, h, iff_of_true hopen List.not_mem_nil⟩
  | append_singleton actions a ih =>
    obtain ⟨c, n, hsound, hiff⟩ := ih
    rw [performAll_concat]
    by_cases ha : .close = a
    · subst ha
      refine ⟨_, n, hsound.close, iff_of_false (fifo.close c).2.2 fun hnever => hnever ?_⟩
      exact List.mem_append_right _ List.mem_cons_self
    · obtain ⟨c', n', hsound', hiff'⟩ := hsound.step (perform_step _ ha)
      refine ⟨c', n', hsound', hiff'.trans (hiff.trans ?_)⟩
      rw [List.mem_append, List.mem_singleton, not_or]
      exact (and_iff_left ha).symm

/-- What holds of a queue with the channel `c` after some actions. -/
structure Accounted (fifo : Fifo χ) (capacity : Nat) (actions : List Action) (x : Exchange χ)
    (c : χ) : Prop where
  channel : x.memory.channels[x.channel]? = some c
  /-- Every party offers its items in order. -/
  offered : ∀ i p, x.parties[i]? = some p →
    offeredBy i x.history ++ p.tasks.filterMap Task.item? = p.items
  /-- Nothing taken is lost, doubled or moved while there is a receiving end. -/
  kept : .close ∉ actions →
    receivedItems x.history ++ fifo.waiting c = itemsTaken (answered x.history)
  room : (fifo.waiting c).length ≤ capacity
  /-- Whether the next item is refused, through whichever handle. -/
  refusal : ∀ p ∈ x.parties, ∀ item, (x.memory.offer p.handle item).2 = false ↔
    (fifo.waiting c).length = capacity ∨ .close ∈ actions
  /-- All handles count the same refusals, those that are about to be counted apart. -/
  refused : ∀ p ∈ x.parties, ∃ n, x.memory.refused? p.handle = some n ∧
    n + .ofNat ((pending x.parties).countP Task.isCount) =
      .ofNat (itemsRefused (answered x.history))
  refusalNoted : x.telemetry.ranging.refused + .ofNat (x.notesDue.count .refused) =
    .ofNat (itemsRefused (answered x.history))
  sendingNoted : x.telemetry.ranging.toEstimator + .ofNat (x.notesDue.count .toEstimator) =
    .ofNat (differencesTaken (answered x.history))
  /-- With nothing left to do all counts are those of the answers. -/
  settled : x.AtRest →
    (∀ p ∈ x.parties,
      x.memory.refused? p.handle = some (.ofNat (itemsRefused (answered x.history)))) ∧
    x.telemetry.ranging.refused = .ofNat (itemsRefused (answered x.history)) ∧
    x.telemetry.ranging.toEstimator = .ofNat (differencesTaken (answered x.history))
  /-- A height is not taken behind its refused measurement, nor any item behind another one that
  was refused, unless something is received in between. -/
  between : ∀ before between after i j item item',
    x.history = before ++ .offered i item false :: (between ++ .offered j item' true :: after) →
    ∃ r, .received r ∈ between

theorem Sound.refused? (h : Sound fifo capacity x c n) (hp : p ∈ x.parties) :
    x.memory.refused? p.handle = some n := by
  rw [h.memory, h.seated.handles p hp]
  rfl

theorem Sound.refusal (h : Sound fifo capacity x c n) (hp : p ∈ x.parties)
    (item : EstimatorItem) : (x.memory.offer p.handle item).2 = false ↔ ¬ fifo.hasRoom c := by
  rw [h.memory, h.seated.handles p hp]
  show (BoundedChannel.send c item).2 = false ↔ _
  by_cases hroom : fifo.hasRoom c
  · rw [(fifo.send_taken hroom.1 hroom.2 item).1]
    exact iff_of_false Bool.true_eq_false.mp (not_not_intro hroom)
  · exact iff_of_true (fifo.send_refused hroom item).1 hroom

omit [BoundedChannel χ] in
theorem pending_atRest (h : x.AtRest) : pending x.parties = [] := List.flatMap_eq_nil_iff.mpr h

theorem Sound.counts (h : Sound fifo capacity x c n) :
    n + .ofNat ((pending x.parties).countP Task.isCount) =
        .ofNat (itemsRefused (answered x.history)) ∧
      x.telemetry.ranging.refused + .ofNat (x.notesDue.count .refused) =
        .ofNat (itemsRefused (answered x.history)) ∧
      x.telemetry.ranging.toEstimator + .ofNat (x.notesDue.count .toEstimator) =
        .ofNat (differencesTaken (answered x.history)) := by
  have hnoted := h.booked.noted
  simp only [count_answerNotes] at hnoted
  exact ⟨h.booked.counted, hnoted .refused, hnoted .toEstimator⟩

theorem Sound.settled (h : Sound fifo capacity x c n) (hrest : x.AtRest) :
    n = .ofNat (itemsRefused (answered x.history)) ∧
      x.telemetry.ranging.refused = .ofNat (itemsRefused (answered x.history)) ∧
      x.telemetry.ranging.toEstimator = .ofNat (differencesTaken (answered x.history)) := by
  obtain ⟨hcounted, hrefused, hsent⟩ := h.counts
  simp only [notesDue, pending_atRest hrest] at hcounted hrefused hsent
  exact ⟨(UInt32.add_zero n).symm.trans hcounted, (UInt32.add_zero _).symm.trans hrefused,
    (UInt32.add_zero _).symm.trans hsent⟩

/-- Whatever happens at a queue, and in whatever order, what it takes arrives in order and what it
refuses is counted. -/
theorem performAll_accounted {anchor remote : UInt8} {now : Nat} {telemetry : Telemetry}
    (htelemetry : Telemetry.starting anchor remote now = .ok telemetry) (fifo : Fifo χ)
    (hstart : Exchange.start capacity telemetry = .ok x) (actions : List Action) :
    ∃ c, (x.performAll actions).Accounted fifo capacity actions c := by
  obtain ⟨c₀, n₀, hsound₀, hopen₀⟩ := Sound.start htelemetry fifo hstart
  obtain ⟨c, n, hsound, hopen⟩ := hsound₀.performAll hopen₀ actions
  generalize x.performAll actions = x at *
  refine ⟨c, ?_, hsound.seated.offered, fun hnever => hsound.lined.kept (hopen.mpr hnever),
    hsound.lined.room, fun p hp item => ?_,
    fun p hp => ⟨n, hsound.refused? hp, hsound.counts.1⟩, hsound.counts.2.1, hsound.counts.2.2,
    fun hrest => ?_,
    fun before between after i j item item' hhistory => ?_⟩
  · rw [hsound.memory, hsound.channel]
    rfl
  · have hroom := hsound.lined.room
    have hsized := hsound.lined.sized
    rw [hsound.refusal hp, Fifo.hasRoom, hopen, hsized]
    by_cases hclosed : Action.close ∈ actions <;> simp [hclosed]
    omega
  · obtain ⟨hn, hrefused, hsent⟩ := hsound.settled hrest
    exact ⟨fun p hp => hn ▸ hsound.refused? hp, hrefused, hsent⟩
  · exact received_between (hhistory ▸ hsound.lined.follows)

/-! ### An emit without interruption -/

theorem performAll_append (x : Exchange χ) (actions more : List Action) :
    x.performAll (actions ++ more) = (x.performAll actions).performAll more :=
  List.foldl_append

/-- A party offers an item, and then does what the answer leaves to be done. -/
theorem proceed_offer {handle : Handle} {items : List EstimatorItem} {item : EstimatorItem}
    {tasks : List Task} (hp : x.parties[i]? = some ⟨handle, items, .offer item :: tasks⟩) :
    ∃ k, x.performAll (List.replicate k (.proceed i)) =
      { x with
        memory := (x.memory.send handle item).1
        parties := x.parties.set i ⟨handle, items, tasks⟩
        telemetry := x.telemetry.noteAll (answerNotes (item, (x.memory.send handle item).2))
        history := x.history ++ [.offered i item (x.memory.send handle item).2] } := by
  have hset (q : Party) : (x.parties.set i q)[i]? = some q :=
    List.getElem?_set_self (List.getElem?_eq_some_iff.mp hp).1
  unfold Memory.send
  -- how many tasks an answer leaves depends on the answer and on the item
  rcases hoffer : x.memory.offer handle item with ⟨memory, _ | _⟩
  · have hbehind : Task.behind item false = [.count, .note .itemRefused] := by cases item <;> rfl
    have hnotes : answerNotes (item, false) = [.itemRefused] := by cases item <;> rfl
    refine ⟨3, ?_⟩
    simp only [List.replicate, performAll, List.foldl, perform, work, hp, hoffer, hbehind, hset,
      List.set_set, List.cons_append, List.nil_append, hnotes]
    rfl
  · cases item with
    | difference m =>
      have hbehind : Task.behind (.difference m) true = [.note (.measurementSent m)] := rfl
      refine ⟨2, ?_⟩
      simp only [List.replicate, performAll, List.foldl, perform, work, hp, hoffer, hbehind, hset,
        List.set_set, List.cons_append, List.nil_append]
      rfl
    | height fix =>
      have hbehind : Task.behind (.height fix) true = [] := rfl
      refine ⟨1, ?_⟩
      simp only [List.replicate, performAll, List.foldl, perform, work, hp, hoffer, hbehind,
        List.nil_append]
      rfl

/-- Left alone, a party offers its items as a sink is offered them one after the other. -/
theorem proceed_offers {handle : Handle} {items : List EstimatorItem} (ahead : List EstimatorItem)
    (hp : x.parties[i]? = some ⟨handle, items, ahead.map .offer⟩) :
    ∃ k x', x.performAll (List.replicate k (.proceed i)) = x' ∧
      x'.parties[i]? = some ⟨handle, items, []⟩ ∧
      (⟨x'.memory, handle⟩ : Attached χ) = offerAll ⟨x.memory, handle⟩ ahead ∧
      x'.telemetry = x.telemetry.noteAll
        ((answers (⟨x.memory, handle⟩ : Attached χ) ahead).flatMap answerNotes) := by
  induction ahead generalizing x with
  | nil => exact ⟨0, x, rfl, hp, rfl, rfl⟩
  | cons item ahead ih =>
    obtain ⟨k, hfirst⟩ := proceed_offer hp
    obtain ⟨l, x', hrest, hparty, hmemory, htelemetry⟩ :=
      ih (x := x.performAll (List.replicate k (.proceed i))) (by
        rw [hfirst]
        exact List.getElem?_set_self (List.getElem?_eq_some_iff.mp hp).1)
    refine ⟨k + l, x', ?_, hparty, ?_, ?_⟩
    · rw [List.replicate_add, performAll_append, hrest]
    · rw [hmemory, hfirst]
      rfl
    · rw [htelemetry, hfirst]
      exact (Telemetry.noteAll_append _ _ _).symm

/-- An emit that nothing interrupts is that of the emitter. -/
theorem emit_uninterrupted {handle : Handle} {items : List EstimatorItem}
    (hp : x.parties[i]? = some ⟨handle, items, []⟩) (e : Emitter) (m : Measurement) (now : Nat) :
    ∃ k x', x.performAll (.emit i e m now :: List.replicate k (.proceed i)) = x' ∧
      (⟨x'.memory, handle⟩, x'.telemetry) =
        e.emit (⟨x.memory, handle⟩ : Attached χ) m now x.telemetry := by
  have hbegun : (x.perform (.emit i e m now)).parties[i]? =
      some ⟨handle, items ++ e.items (some m) now, (e.items (some m) now).map .offer⟩ := by
    simp only [perform, hp]
    exact List.getElem?_set_self (List.getElem?_eq_some_iff.mp hp).1
  obtain ⟨k, x', hrun, -, hmemory, htelemetry⟩ := proceed_offers _ hbegun
  refine ⟨k, x', hrun, ?_⟩
  rw [Emitter.emit_eq, hmemory, htelemetry]
  simp only [perform, hp]
  rfl

end

/-! ### A crowded queue -/

/-- A difference between two anchors at one place. -/
def nearby : Measurement := ⟨(1, 2), (⟨0, 0, 0⟩, ⟨0, 0, 0⟩), 0, 0⟩

/-- A queue with one place. -/
def narrow : Except Fault (Exchange Channel) := do
  let telemetry ← Telemetry.starting 1 2 0
  start 1 telemetry

/-- Two handles on a queue with one place, and in the end nobody is there to receive. -/
def busy : List Action :=
  [.clone 0, .emit 1 ⟨none⟩ nearby 5, .proceed 1, .emit 0 ⟨some 0⟩ nearby 6, .proceed 0,
    .proceed 1, .receive 1, .proceed 0, .proceed 0, .proceed 0, .close, .emit 1 ⟨some 0⟩ nearby 7,
    .proceed 1, .proceed 1, .proceed 1, .proceed 1, .proceed 1, .proceed 1]

theorem performAll_accounted_busy : ∃ telemetry x c,
    Telemetry.starting 1 2 0 = .ok telemetry ∧ start 1 telemetry = .ok x ∧
      (x.performAll busy).Accounted Channel.fifo 1 busy c ∧
      (x.performAll busy).history.map Event.isRefusal = [false, true, false, false, true, true] ∧
      (x.performAll busy).parties.map (·.tasks.length) = [0, 0] ∧
      (x.performAll busy).memory.refusals = [3] := by
  have hrun : narrow.map (fun x => ((x.performAll busy).history.map Event.isRefusal,
      (x.performAll busy).parties.map (·.tasks.length), (x.performAll busy).memory.refusals)) =
      .ok ([false, true, false, false, true, true], [0, 0], [3]) := by
    decide +kernel
  obtain ⟨x, hx, hend⟩ := map_eq_ok_iff.mp hrun
  obtain ⟨telemetry, htelemetry, hstart⟩ := bind_eq_ok_iff.mp hx
  obtain ⟨c, hc⟩ := performAll_accounted htelemetry Channel.fifo hstart busy
  simp only [Prod.mk.injEq] at hend
  exact ⟨telemetry, x, c, htelemetry, hstart, hc, hend⟩

/-- The measurement of the second emit finds the only place taken. It is free again when the height
follows. -/
def raced : List Action :=
  [.emit 0 ⟨none⟩ nearby 5, .proceed 0, .proceed 0, .emit 0 ⟨some 0⟩ nearby 6, .proceed 0,
    .receive 1, .proceed 0, .proceed 0, .proceed 0]

/-- An emit delivered its height though its own measurement was refused. -/
def HeightAlone (history : List Event) : Prop :=
  ∃ before between after i m fix,
    history = before ++ .offered i (.difference m) false ::
      (between ++ .offered i (.height fix) true :: after) ∧ offeredBy i between = []

/-- An emit is no single action: its height can be taken without its measurement, and an answer
stands in the history before it is counted, at the queue or in the telemetry. And there is no queue
of just any size. -/
theorem height_alone : ∃ telemetry, ∃ x : Exchange Channel,
    Telemetry.starting 1 2 0 = .ok telemetry ∧ start 1 telemetry = .ok x ∧
      HeightAlone (x.performAll raced).history ∧
      itemsRefused (answered (x.performAll (raced.take 5)).history) = 1 ∧
      (x.performAll (raced.take 5)).memory.refusals = [0] ∧
      (x.performAll (raced.take 5)).telemetry.ranging.refused = 0 ∧
      differencesTaken (answered (x.performAll (raced.take 2)).history) = 1 ∧
      (x.performAll (raced.take 2)).telemetry.ranging.toEstimator = 0 ∧
      (start (2 ^ 63) telemetry : Except Fault (Exchange Channel)) = .error .noRoom := by
  have hrun : narrow.map (fun x => ((x.performAll raced).history,
      itemsRefused (answered (x.performAll (raced.take 5)).history),
      (x.performAll (raced.take 5)).memory.refusals,
      (x.performAll (raced.take 5)).telemetry.ranging.refused,
      differencesTaken (answered (x.performAll (raced.take 2)).history),
      (x.performAll (raced.take 2)).telemetry.ranging.toEstimator)) =
      .ok ([.offered 0 (.difference nearby) true, .offered 0 (.difference nearby) false,
        .received (.difference nearby), .offered 0 (.height ⟨6, 0, heightDeviation⟩) true],
        1, [0], 0, 1, 0) := by
    decide +kernel
  obtain ⟨x, hx, hend⟩ := map_eq_ok_iff.mp hrun
  obtain ⟨telemetry, htelemetry, hstart⟩ := bind_eq_ok_iff.mp hx
  simp only [Prod.mk.injEq] at hend
  obtain ⟨hhistory, hrefused, hcounted, hnoted, htaken, hsent⟩ := hend
  have hnone : Channel.create (2 ^ 63) = .error .noRoom := if_neg (by decide)
  refine ⟨telemetry, x, htelemetry, hstart, ?_, hrefused, hcounted, hnoted, htaken, hsent, ?_⟩
  · exact ⟨[.offered 0 (.difference nearby) true], [.received (.difference nearby)], [], 0, nearby,
      ⟨6, 0, heightDeviation⟩, hhistory, rfl⟩
  · rw [start_eq_map]
    show (Channel.create (2 ^ 63)).map _ = _
    rw [hnone]
    rfl

end Exchange
end Ranging.Estimator
