import Ranging.Proofs.Anchor.Recall

/-!
# A context as the chronicle of its anchor

`Context.Follows` says everything that a context holds in terms of the packets since it was made,
newest first: the last sign of life of its anchor, the anchor's latest packet, the last position
that it announced and when, and otherwise what its own packets make of a blank context. A new
context follows the packet that it was made for, and each further packet keeps it in step.
-/
namespace Ranging.Anchor

open Ranging.Number (Single)

/-! ### Signs of life and positions -/

/-- A packet shows that an anchor is there: it sent the packet, or the sender says that it heard
it. -/
def Reception.shows (x : Reception) (k : UInt8) : Bool := x.sender == k || x.packet.names k

/-- When the packets of a history showed that an anchor is there, the last time first. -/
def signs (h : List Reception) (k : UInt8) : List Nat := (h.filter (·.shows k)).map (·.now)

/-- The last position that the packets of an anchor announced, and when. -/
def latestPlacement (h : List Reception) (k : UInt8) : Option Placement :=
  h.findSome? fun x => if x.sender = k then x.placement? else none

section

variable {h : List Reception} {x : Reception} {k : UInt8} {date : Nat}

theorem max?_signs_shown (hdate : (signs h k).max? = some date) (hx : x.shows k = true) :
    (signs (x :: h) k).max? = some (max date x.now) := by
  unfold signs at *
  rw [List.filter_cons, if_pos hx, List.map_cons, List.max?_cons, hdate]
  exact congrArg some (Nat.max_comm x.now date)

theorem signs_silent (hx : x.shows k = false) : signs (x :: h) k = signs h k := by
  simp [signs, hx]

theorem latestPlacement_self (h : List Reception) (x : Reception) :
    latestPlacement (x :: h) x.sender = x.placement?.or (latestPlacement h x.sender) := by
  cases hx : x.placement? <;> simp [latestPlacement, hx]

theorem latestPlacement_other (hk : k ≠ x.sender) :
    latestPlacement (x :: h) k = latestPlacement h k := by
  simp [latestPlacement, Ne.symm hk]

end

/-! ### Contexts -/

namespace Context

/-- A context apart from the date at which its anchor was last heard. -/
def undated (c : Context) : Context := { c with lastSeen := 0 }

/-- What the packets of one anchor in a history make of a blank context. -/
def replay (k : UInt8) (h : List Reception) : Context :=
  (h.filter (·.sender == k)).foldr (fun x c => c.receive x) (.fresh k 0)

/-- A context holds what the packets since it was made say, and nothing else. -/
structure Follows (c : Context) (since : List Reception) : Prop where
  lastSeen : (signs since c.id).max? = some c.lastSeen
  latest : ∃ x, latestFrom since c.id = some x ∧ c.latest = some ⟨x.receivedAt, x.sentAt⟩ ∧
    c.sequence = x.packet.sequence
  placement : c.placement = latestPlacement since c.id
  replayed : c.undated = (replay c.id since).undated

theorem replay_self (h : List Reception) (x : Reception) :
    replay x.sender (x :: h) = (replay x.sender h).receive x := by
  simp [replay]

theorem replay_other {h : List Reception} {x : Reception} {k : UInt8} (hk : k ≠ x.sender) :
    replay k (x :: h) = replay k h := by
  simp [replay, Ne.symm hk]

theorem rate_undated (c : Context) (x : Reception) :
    (c.undated.rated x).rate = (c.rated x).rate := by
  have hsample : c.undated.sample? x = c.sample? x := rfl
  unfold rated
  rw [hsample]
  cases c.sample? x <;> rfl

/-- The date has no part in what a packet does to the rest of a context. -/
theorem undated_receive {c d : Context} (h : c.undated = d.undated) (x : Reception) :
    (c.receive x).undated = (d.receive x).undated := by
  have hundated (c : Context) : (c.receive x).undated = (c.undated.receive x).undated := by
    rw [receive_eq, receive_eq, rate_undated]
    rfl
  rw [hundated c, hundated d, h]

namespace Follows

variable {c : Context} {since : List Reception} {x : Reception}

/-- A new context follows the packet that it was made for. -/
theorem opening (x : Reception) : ((fresh x.sender x.now).receive x).Follows [x] := by
  have hid : ((fresh x.sender x.now).receive x).id = x.sender := by rw [receive_eq]; rfl
  have hblank : (fresh x.sender x.now).undated = (replay x.sender []).undated := rfl
  refine ⟨?_, ⟨x, hid.symm ▸ latestFrom_self [] x, ?_⟩, ?_, ?_⟩
  · rw [hid, receive_eq]
    simp [signs, Reception.shows, fresh]
  · rw [receive_eq]
    exact ⟨rfl, rfl⟩
  · rw [hid, latestPlacement_self, receive_eq]
    rfl
  · rw [hid, replay_self]
    exact undated_receive hblank x

/-- A packet of its own anchor. -/
theorem own (h : c.Follows since) (hid : c.id = x.sender) :
    (c.receive x).Follows (x :: since) := by
  have hid' : (c.receive x).id = x.sender := by
    rw [receive_eq]
    exact hid
  have hshows : x.shows x.sender = true := by simp [Reception.shows]
  obtain ⟨hseen, -, hplacement, hreplayed⟩ := h
  rw [hid] at hseen hplacement hreplayed
  refine ⟨?_, ⟨x, hid'.symm ▸ latestFrom_self since x, ?_⟩, ?_, ?_⟩
  · rw [hid', receive_eq]
    exact max?_signs_shown hseen hshows
  · rw [receive_eq]
    exact ⟨rfl, rfl⟩
  · rw [hid', latestPlacement_self, receive_eq, ← hplacement]
  · rw [hid', replay_self]
    exact undated_receive hreplayed x

/-- A packet of another anchor, which names this one or not. -/
theorem other (h : c.Follows since) (hid : c.id ≠ x.sender) :
    (c.refreshIf x.now (x.packet.names c.id)).Follows (x :: since) := by
  have hshows : x.shows c.id = x.packet.names c.id := by
    simp [Reception.shows, beq_false_of_ne (Ne.symm hid)]
  obtain ⟨hseen, hlatest, hplacement, hreplayed⟩ := h
  rw [refreshIf_eq]
  refine ⟨?_, ?_, hplacement.trans (latestPlacement_other hid).symm, ?_⟩
  · dsimp only
    cases hnames : x.packet.names c.id with
    | true => exact max?_signs_shown hseen (hshows.trans hnames)
    | false => exact (congrArg List.max? (signs_silent (hshows.trans hnames))).trans hseen
  · dsimp only
    rw [latestFrom_other hid]
    exact hlatest
  · dsimp only
    rw [replay_other hid]
    exact hreplayed

end Follows
end Context
end Ranging.Anchor
