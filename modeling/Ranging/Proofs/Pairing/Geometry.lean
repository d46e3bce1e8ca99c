import Mathlib.Tactic.FieldSimp
import Mathlib.Tactic.Linarith
import Mathlib.Tactic.Ring
import Ranging.Proofs.Pairing.Measurement
import Ranging.Number.Binary

/-!
# Distance differences as geometry

A `Passage` is one packet of a partner and one of the sender, as they cross space: when they were
sent, how long they took, how the sender's clock runs and where both clocks started. An engine that
has the readings of its clocks on record, cut to the widths of the counters, works out how much
longer the sender's packet travelled to the tag than the partner's, and none of the rest shows
(`Passage.Stored.differenceIn_geometry`). The arithmetic is that of rationals here:
`Engine.differenceIn` is `Engine.difference` with the numbers left open.
-/
namespace Ranging

/-- Ticks between two readings that were cut to the width of their counter. -/
theorem Clock.elapsed_of_emod {bits later earlier : Nat} {a b : Int}
    (hlater : (later : Int) = a % 2 ^ bits) (hearlier : (earlier : Int) = b % 2 ^ bits)
    (hnn : 0 ≤ a - b) (hlt : a - b < 2 ^ bits) :
    (elapsed bits later earlier : Int) = a - b := by
  have hdiff : ((later : Int) - earlier) % 2 ^ bits = a - b := by
    rw [hlater, hearlier, ← Int.sub_emod, Int.emod_eq_of_lt hnn hlt]
  unfold elapsed
  rw [Nat.cast_pow, Nat.cast_ofNat, hdiff, Int.toNat_of_nonneg hnn]

namespace Pairing

open Ranging.Anchor
open Ranging.Clock (truncate elapsed tagBits anchorBits)

/-- The work of `Engine.difference` in numbers of any kind: `ofTicks` takes whole ticks into them,
`read` the constants and the clock ratio. -/
def Engine.differenceIn {α : Type} [Sub α] [Mul α] [Div α] (ofTicks : Nat → α) (read : Float → α)
    (e : Engine) (other current : Context) (sentAt receivedAt now : Nat) :
    Except Fault (Option α) :=
  match current.recentFlight other.id now e.flightValidity, current.heard.find other.id,
    other.latest with
  | some flight, some heard, some arrival => do
    let anchorTicks ← addWithin flight (elapsed anchorBits sentAt heard.value.receivedAt)
    let tagTicks := elapsed tagBits receivedAt arrival.receivedAt
    return some (distanceDifference ofTicks (read speedOfLight) (read e.tickFrequency)
      (read current.rate.value) tagTicks anchorTicks)
  | _, _, _ => .ok none

/-- The engine computes in floats. -/
theorem Engine.difference_eq (e : Engine) (other current : Context)
    (sentAt receivedAt now : Nat) :
    e.difference other current sentAt receivedAt now =
      e.differenceIn Float.ofNat id other current sentAt receivedAt now := rfl

/-- The rational that a float stands for; zero for what is no number. -/
def exactValue (x : Float) : ℚ :=
  match Number.ofFloat x with
  | ⟨negative, .finite significand exponent⟩ =>
    (if negative then -1 else 1) * significand * 2 ^ exponent
  | _ => 0

/-- A packet of a partner and a later one of the sender, which heard the first. Times and delays are
in tag ticks from an origin of their own; `heardAt`, `sentAt` and `flight` are what the sender's
clock makes of them. -/
structure Passage where
  /-- When the partner sent its packet. -/
  partnerSent : Int
  /-- When the sender sent its own. -/
  senderSent : Int
  /-- How long the partner's packet took to the tag. -/
  partnerDelay : Nat
  /-- How long the sender's packet took to the tag. -/
  senderDelay : Nat
  /-- How long the partner's packet took to the sender. -/
  crossing : Nat
  /-- Where the tag's clock started. -/
  tagOffset : Int
  /-- Where the sender's clock started, in its own ticks. -/
  anchorOffset : ℚ
  /-- Ticks of the sender's clock per tag tick. -/
  rate : ℚ
  rate_pos : 0 < rate
  heardAt : Nat
  heardAt_eq : (heardAt : ℚ) = rate * (partnerSent + crossing) + anchorOffset
  sentAt : Nat
  sentAt_eq : (sentAt : ℚ) = rate * senderSent + anchorOffset
  flight : Nat
  flight_eq : (flight : ℚ) = rate * crossing
  /-- The sender's clock wraps at most once from the partner's packet to its own. -/
  anchor_within : 0 ≤ rate * (senderSent - partnerSent - crossing) ∧
    rate * (senderSent - partnerSent - crossing) < 2 ^ anchorBits
  /-- So does the tag's clock between the two arrivals. -/
  tag_within : 0 ≤ (senderSent + senderDelay) - (partnerSent + partnerDelay) ∧
    (senderSent + senderDelay) - (partnerSent + partnerDelay) < 2 ^ tagBits

namespace Passage

/-- What an engine has on record of a passage when the sender's packet arrives. Clock readings are
kept as the counters have them, times of flight in full. -/
structure Stored (p : Passage) (read : Float → ℚ) (e : Engine) (other current : Context)
    (sentAt receivedAt now : Nat) : Prop where
  rate : read current.rate.value = 1 / p.rate
  flight : current.recentFlight other.id now e.flightValidity = some p.flight
  heard : ∃ entry, current.heard.find other.id = some entry ∧
    entry.value.receivedAt = truncate anchorBits p.heardAt
  arrival : ∃ exchange, other.latest = some exchange ∧
    (exchange.receivedAt : Int) = (p.partnerSent + p.partnerDelay + p.tagOffset) % 2 ^ tagBits
  sentAt : sentAt = truncate anchorBits p.sentAt
  receivedAt : (receivedAt : Int) = (p.senderSent + p.senderDelay + p.tagOffset) % 2 ^ tagBits

/-- What the sender's clock counts from the partner's packet to its own. -/
def anchorTicks (p : Passage) : Nat := p.sentAt - p.heardAt

theorem heardAt_le (p : Passage) : p.heardAt ≤ p.sentAt := by
  have hnn := p.anchor_within.1
  have hle : (p.heardAt : ℚ) ≤ p.sentAt := by
    rw [p.heardAt_eq, p.sentAt_eq]
    linarith
  exact_mod_cast hle

theorem anchorTicks_eq (p : Passage) :
    (p.anchorTicks : ℚ) = p.rate * (p.senderSent - p.partnerSent - p.crossing) := by
  unfold anchorTicks
  rw [Nat.cast_sub p.heardAt_le, p.sentAt_eq, p.heardAt_eq]
  ring

theorem anchorTicks_lt (p : Passage) : p.anchorTicks < 2 ^ anchorBits := by
  have hlt := p.anchor_within.2
  rw [← p.anchorTicks_eq] at hlt
  exact_mod_cast hlt

/-- Together with the flight it is the time between the two transmissions, by the sender's clock. -/
theorem flight_add_anchorTicks (p : Passage) :
    ((p.flight + p.anchorTicks : Nat) : ℚ) = p.rate * (p.senderSent - p.partnerSent) := by
  rw [Nat.cast_add, p.flight_eq, p.anchorTicks_eq]
  ring

/-- The cut readings of the sender's clock say what it counted. -/
theorem elapsed_anchor (p : Passage) :
    elapsed anchorBits (truncate anchorBits p.sentAt) (truncate anchorBits p.heardAt) =
      p.anchorTicks := by
  have hticks : (p.sentAt : Int) - p.heardAt = p.anchorTicks := by
    have hle := p.heardAt_le
    unfold anchorTicks
    omega
  have helapsed : (elapsed anchorBits (truncate anchorBits p.sentAt)
      (truncate anchorBits p.heardAt) : Int) = p.sentAt - p.heardAt :=
    Clock.elapsed_of_emod (Int.natCast_emod p.sentAt _) (Int.natCast_emod p.heardAt _) (by omega)
      (by rw [hticks]; exact_mod_cast p.anchorTicks_lt)
  exact_mod_cast helapsed.trans hticks

/-- The cut readings of the tag's clock say how much later the second packet arrived, wherever the
clock started. -/
theorem elapsed_tag (p : Passage) {later earlier : Nat}
    (hlater : (later : Int) = (p.senderSent + p.senderDelay + p.tagOffset) % 2 ^ tagBits)
    (hearlier : (earlier : Int) = (p.partnerSent + p.partnerDelay + p.tagOffset) % 2 ^ tagBits) :
    (elapsed tagBits later earlier : Int) =
      (p.senderSent + p.senderDelay) - (p.partnerSent + p.partnerDelay) := by
  have hdiff : p.senderSent + p.senderDelay + p.tagOffset -
      (p.partnerSent + p.partnerDelay + p.tagOffset) =
      (p.senderSent + p.senderDelay) - (p.partnerSent + p.partnerDelay) := by ring
  rw [← hdiff]
  exact Clock.elapsed_of_emod (by exact_mod_cast hlater) (by exact_mod_cast hearlier)
    (hdiff ▸ p.tag_within.1) (by rw [hdiff]; exact_mod_cast p.tag_within.2)

/-- In exact numbers the clock ratio undoes the rate of the sender's clock, and of the times only
the two delays to the tag remain. -/
theorem distanceDifference_eq (p : Passage) (speed frequency : ℚ) {tagTicks : Nat}
    (htag : (tagTicks : Int) =
      (p.senderSent + p.senderDelay) - (p.partnerSent + p.partnerDelay)) :
    distanceDifference Nat.cast speed frequency (1 / p.rate) tagTicks (p.flight + p.anchorTicks) =
      speed / frequency * (p.senderDelay - p.partnerDelay) := by
  have hrate : p.rate ≠ 0 := p.rate_pos.ne'
  have htagq : (tagTicks : ℚ) =
      (p.senderSent + p.senderDelay) - (p.partnerSent + p.partnerDelay) := by
    exact_mod_cast congrArg (Int.cast (R := ℚ)) htag
  unfold distanceDifference
  rw [p.flight_add_anchorTicks, htagq]
  calc speed * ((p.senderSent + p.senderDelay) - (p.partnerSent + p.partnerDelay) -
        p.rate * (p.senderSent - p.partnerSent) * (1 / p.rate)) / frequency
      = speed * ((p.senderSent + p.senderDelay) - (p.partnerSent + p.partnerDelay) -
        (p.senderSent - p.partnerSent)) / frequency := by field_simp
    _ = speed / frequency * (p.senderDelay - p.partnerDelay) := by ring

variable {p : Passage} {read : Float → ℚ} {e : Engine} {other current : Context}
  {sentAt receivedAt now : Nat}

/-- What the engine works out for a passage, where the flight and the ticks of the sender's clock
fit a word. If not, the computation is abandoned. -/
theorem Stored.differenceIn_eq (h : p.Stored read e other current sentAt receivedAt now) :
    e.differenceIn Nat.cast read other current sentAt receivedAt now =
      if p.flight + p.anchorTicks < wordLimit then
        .ok (some (read speedOfLight / read e.tickFrequency *
          ((p.senderDelay : ℚ) - p.partnerDelay)))
      else .error .overflow := by
  obtain ⟨heard, hfind, hheard⟩ := h.heard
  obtain ⟨arrival, hlatest, harrival⟩ := h.arrival
  have htag := p.elapsed_tag h.receivedAt harrival
  unfold Engine.differenceIn addWithin
  simp only [h.flight, hfind, hlatest, hheard, h.sentAt, p.elapsed_anchor, h.rate]
  by_cases hfits : p.flight + p.anchorTicks < wordLimit
  · simp only [hfits, if_true, bind, Except.bind, p.distanceDifference_eq _ _ htag]
    rfl
  · simp only [hfits, if_false, bind, Except.bind]

/-- With a flight that came over the air there is always a difference. -/
theorem Stored.differenceIn_of_wellFormed (hw : current.WellFormed)
    (h : p.Stored read e other current sentAt receivedAt now) :
    e.differenceIn Nat.cast read other current sentAt receivedAt now =
      .ok (some (read speedOfLight / read e.tickFrequency *
        ((p.senderDelay : ℚ) - p.partnerDelay))) := by
  obtain ⟨entry, hfind, -, hvalue⟩ := Engine.recentFlight_some h.flight
  have hflight : p.flight < 2 ^ 16 := hvalue ▸ hw.flights_lt entry (Table.find_mem hfind).1
  have hticks : p.anchorTicks < 2 ^ 32 := p.anchorTicks_lt
  have hfits : p.flight + p.anchorTicks < wordLimit := by
    unfold wordLimit
    omega
  rw [h.differenceIn_eq, if_pos hfits]

/-! ### What comes out of a passage -/

/-- The sender's clock runs slow by 30 ppm, both counters wrap, and the sender is the nearer one. -/
def drifting : Passage where
  partnerSent := 2 ^ 40 - 100
  senderSent := 2 ^ 40 - 100 + 32769 * 131072
  partnerDelay := 900
  senderDelay := 250
  crossing := 32769
  tagOffset := -12345
  anchorOffset := (2 ^ 32 - 7) - 32768 / 32769 * (2 ^ 40 - 100 + 32769)
  rate := 32768 / 32769
  rate_pos := by norm_num
  heardAt := 2 ^ 32 - 7
  heardAt_eq := by norm_num
  sentAt := 2 ^ 32 - 7 + 32768 * 131071
  sentAt_eq := by norm_num
  flight := 32768
  flight_eq := by norm_num
  anchor_within := by norm_num [anchorBits]
  tag_within := by norm_num [tagBits]

/-- A passage from a partner so far away that its flight alone takes up a word. -/
def remote : Passage where
  partnerSent := 0
  senderSent := 2 ^ 64
  partnerDelay := 2 ^ 64
  senderDelay := 0
  crossing := 2 ^ 64 - 1
  tagOffset := 0
  anchorOffset := 0
  rate := 1
  rate_pos := by norm_num
  heardAt := 2 ^ 64 - 1
  heardAt_eq := by norm_num
  sentAt := 2 ^ 64
  sentAt_eq := by norm_num
  flight := 2 ^ 64 - 1
  flight_eq := by norm_num
  anchor_within := by norm_num [anchorBits]
  tag_within := by norm_num [tagBits]

/-- The context of the partner, which the tag heard at `receivedAt`. -/
def partnerAt (receivedAt : Nat) : Context :=
  { (Context.fresh 1 0).setLatest receivedAt 0 5 with placement := some ⟨⟨0, 0, 0⟩, 0⟩ }

/-- The context of the sender with the record of a passage. -/
def senderOf (p : Passage) (rate : Float) (previous : Exchange) : Context :=
  { Context.fresh 2 0 with
    latest := some previous
    heard := [⟨1, ⟨truncate anchorBits p.heardAt, 5⟩, 0⟩]
    flights := [⟨1, p.flight, 0⟩]
    placement := some ⟨⟨0, 0, 0⟩, 0⟩
    rate := ⟨rate, 0⟩ }

/-- An engine with the two contexts. -/
def engineOf (partner sender : Context) : Engine :=
  ⟨⟨[partner, sender], 2000⟩, default, .rotating, 0, tickFrequency, 30, 2000⟩

/-- The difference that an engine works out for a passage is how much further the sender is from the
tag than the partner, and a measurement names the two in this order: neither the clocks nor the
times of sending nor the way between the anchors show. Flights too long for the sum are refused. -/
theorem Stored.differenceIn_geometry
    (h : p.Stored read e other current sentAt receivedAt now) :
    e.differenceIn Nat.cast read other current sentAt receivedAt now =
      (if p.flight + p.anchorTicks < wordLimit then
        .ok (some (read speedOfLight / read e.tickFrequency *
          ((p.senderDelay : ℚ) - p.partnerDelay)))
      else .error .overflow) ∧
    ∀ difference m, Engine.measurement? other current difference = some m →
      m.anchors = (other.id, current.id) := by
  refine ⟨h.differenceIn_eq, fun difference m hm => ?_⟩
  obtain ⟨_, _, -, -, rfl⟩ := Engine.measurement?_some hm
  rfl

/-- The engine with the record of the passage from `drifting` finds it 650 ticks nearer. -/
theorem differenceIn_geometry_drifting :
    let partner := partnerAt ((2 ^ 40 - 100 + 900 - 12345) % 2 ^ 40)
    let sender := senderOf drifting 1.000030517578125 ⟨0, 0⟩
    let receivedAt := (2 ^ 40 - 100 + 32769 * 131072 + 250 - 12345) % 2 ^ 40
    let sentAt := (2 ^ 32 - 7 + 32768 * 131071) % 2 ^ 32
    drifting.Stored exactValue (engineOf partner sender) partner sender sentAt receivedAt 0 ∧
      (engineOf partner sender).differenceIn Nat.cast exactValue partner sender sentAt receivedAt
          0 =
        .ok (some (exactValue speedOfLight / exactValue tickFrequency * -650)) := by
  intro partner sender receivedAt sentAt
  have hratio : Number.ofFloat 1.000030517578125 =
      ⟨false, .finite (2 ^ 52 + 2 ^ 37) (-52)⟩ := by decide +kernel
  have hstored : drifting.Stored exactValue (engineOf partner sender) partner sender sentAt
      receivedAt 0 := {
    rate := by norm_num [exactValue, sender, senderOf, drifting, hratio]
    flight := by decide +kernel
    heard := ⟨_, rfl, rfl⟩
    arrival := ⟨_, rfl, by decide⟩
    sentAt := by decide
    receivedAt := by decide }
  refine ⟨hstored, ?_⟩
  rw [hstored.differenceIn_geometry.1, if_pos (by decide)]
  norm_num [drifting, engineOf]

/-- Without the bound on the sum there is no difference: all is on record as `remote` has it, and
the work on the packet is abandoned. -/
theorem differenceIn_remote_overflow :
    let partner := partnerAt 0
    let sender := senderOf remote 1.0 ⟨2 ^ 40 - 1000, 2 ^ 32 - 1000⟩
    let e := engineOf partner sender
    remote.Stored exactValue e partner sender 0 0 0 ∧
      e.processPacket 2 0 0 0 = .error .overflow ∧
      e.differenceIn Nat.cast exactValue partner sender 0 0 0 ≠
        .ok (some (exactValue speedOfLight / exactValue e.tickFrequency *
          ((remote.senderDelay : ℚ) - remote.partnerDelay))) := by
  intro partner sender e
  have hone : Number.ofFloat 1.0 = ⟨false, .finite (2 ^ 52) (-52)⟩ := by decide +kernel
  have hstored : remote.Stored exactValue e partner sender 0 0 0 := {
    rate := by norm_num [exactValue, sender, senderOf, remote, hone]
    flight := by decide +kernel
    heard := ⟨_, rfl, rfl⟩
    arrival := ⟨_, rfl, by decide⟩
    sentAt := by decide
    receivedAt := by decide }
  refine ⟨hstored, by decide +kernel, ?_⟩
  rw [hstored.differenceIn_eq, if_neg (by decide)]
  exact nofun

end Passage

end Pairing
end Ranging
