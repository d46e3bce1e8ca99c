import Ranging.Proofs.Anchor.WellFormed
import Ranging.Pairing.Engine

/-!
# What a measurement rests on

`Engine.hear` is the part of the work on a range packet that can yield a measurement. With a
well-formed registry it always gives a result, it changes the registry as `Registry.prepared` says
and leaves the rules of the engine alone (`hear_spec`). A measurement comes out only with everything
that `Basis.Supports` lists (`hear_some`).
-/
namespace Ranging.Pairing.Engine

open Ranging.Anchor
open Ranging.Clock (RateFilter elapsed tagBits anchorBits)
open Ranging.Number (Single)

variable {e e' : Engine} {x : Reception} {c other : Context} {m : Measurement} {now : Nat}

/-- What of the settings an engine works by. -/
def rules (e : Engine) : Matching × Float × Nat × Nat :=
  (e.matching, e.tickFrequency, e.heardValidity, e.flightValidity)

/-- The engine once a packet is stored: its sender tracked, the relayed values in place, the named
anchors refreshed. -/
def gathered (e : Engine) (x : Reception) : Engine :=
  x.packet.records.foldl (noteRecord x.sender x.now)
    ((e.beginPacket x.sender x.now).relay x.sender x.packet x.now).1

/-- Works out a range packet up to the measurement that it may yield. -/
def hear (e : Engine) (x : Reception) : Except Fault (Engine × Option Measurement) :=
  (e.gathered x).processPacket x.sender x.sentAt x.receivedAt x.now

/-! ### Storing the packet -/

theorem relay_beginPacket (e : Engine) (x : Reception) :
    (e.beginPacket x.sender x.now).relay x.sender x.packet x.now =
      ((e.beginPacket x.sender x.now).modifyContext x.sender (·.relayed x.packet x.now),
        x.packet.size) := by
  have hf : (e.beginPacket x.sender x.now).registry.find x.sender =
      some (e.registry.heardNow x.sender x.now) := Registry.find_track_self ..
  unfold relay
  rw [hf]
  simp only [Context.relay_eq, modifyContext]
  have hsame : (e.beginPacket x.sender x.now).registry.modify x.sender
      (fun _ => (e.registry.heardNow x.sender x.now).relayed x.packet x.now) =
      (e.beginPacket x.sender x.now).registry.modify x.sender (·.relayed x.packet x.now) := by
    refine Registry.modify_congr fun c hc => ?_
    rw [hf, Option.some.injEq] at hc
    rw [hc]
  rw [hsame]

theorem noteRecord_registry (id : UInt8) (now : Nat) (e : Engine) (record : Wire.RemoteRecord) :
    (noteRecord id now e record).registry =
      if record.anchor ≠ id ∧ record.receivedAt ≠ 0 then
        (e.registry.touch record.anchor now).1
      else e.registry := by
  unfold noteRecord
  cases record.distance with
  | none => split <;> rfl
  | some d => by_cases hd : d = 0 <;> simp only [hd, if_true, if_false] <;> split <;> rfl

theorem noteRecord_rules (id : UInt8) (now : Nat) (e : Engine) (record : Wire.RemoteRecord) :
    (noteRecord id now e record).rules = e.rules := by
  unfold noteRecord
  cases record.distance with
  | none => split <;> rfl
  | some d => by_cases hd : d = 0 <;> simp only [hd, if_true, if_false] <;> split <;> rfl

theorem gathered_registry (e : Engine) (x : Reception) :
    (e.gathered x).registry = e.registry.gathered x := by
  unfold gathered Registry.gathered Registry.refreshNamed
  rw [relay_beginPacket]
  have hstart : ((e.beginPacket x.sender x.now).modifyContext x.sender
      (·.relayed x.packet x.now)).registry =
      (e.registry.track x.sender x.now).modify x.sender (·.relayed x.packet x.now) := rfl
  rw [← hstart]
  generalize (e.beginPacket x.sender x.now).modifyContext x.sender (·.relayed x.packet x.now) = e
  induction x.packet.records generalizing e with
  | nil => rfl
  | cons record rest ih => rw [List.foldl_cons, List.foldl_cons, ih, noteRecord_registry]

theorem gathered_rules (e : Engine) (x : Reception) : (e.gathered x).rules = e.rules := by
  unfold gathered
  rw [relay_beginPacket]
  show _ = ((e.beginPacket x.sender x.now).modifyContext x.sender
    (·.relayed x.packet x.now)).rules
  generalize (e.beginPacket x.sender x.now).modifyContext x.sender (·.relayed x.packet x.now) = e
  induction x.packet.records generalizing e with
  | nil => rfl
  | cons record rest ih => rw [List.foldl_cons, ih, noteRecord_rules]

/-! ### The clock sample -/

/-- Feeding the rate filter changes the sender's context as `Context.rated` says, and answers
whether there was a sample that the filter accepted. -/
theorem updateRate_spec (hc : e.registry.find x.sender = some c) :
    (e.updateRate x.sender x.sentAt x.receivedAt).1.registry =
        e.registry.modify x.sender (·.rated x) ∧
      (e.updateRate x.sender x.sentAt x.receivedAt).1.rules = e.rules ∧
      ((e.updateRate x.sender x.sentAt x.receivedAt).2 = true →
        ∃ sample, c.sample? x = some sample ∧ (c.rate.update sample).2 = true) := by
  have hsample : e.rateSample? x.sender x.sentAt x.receivedAt = c.sample? x := by
    unfold rateSample?
    rw [hc]
    rfl
  unfold updateRate
  rw [hsample, hc]
  cases hs : c.sample? x with
  | none =>
    -- without a sample `rated` is the identity, and so is the engine's step
    refine ⟨?_, rfl, fun h => nomatch h⟩
    have hsame :
        e.registry.modify x.sender (·.rated x) = e.registry.modify x.sender fun c => c := by
      refine Registry.modify_congr fun d hd => ?_
      rw [hc, Option.some.injEq] at hd
      simp [Context.rated, ← hd, hs]
    rw [hsame, Registry.modify_self]
  | some sample =>
    have hreg : e.registry.modify x.sender (fun d => { d with rate := (c.rate.update sample).1 }) =
        e.registry.modify x.sender (·.rated x) := by
      refine Registry.modify_congr fun d hd => ?_
      rw [hc, Option.some.injEq] at hd
      simp [Context.rated, ← hd, hs]
    by_cases hr : (c.rate.update sample).2
    · simp only [hr, if_true]
      exact ⟨hreg, rfl, fun _ => ⟨sample, rfl, hr⟩⟩
    · simp only [hr]
      exact ⟨hreg, rfl, fun h => nomatch h⟩

/-! ### The choice of a partner -/

theorem mem_turned {α : Type} {start : UInt64} {xs : List α} {a : α} (h : a ∈ turned start xs) :
    a ∈ xs := by
  obtain ⟨i, -, hi⟩ := List.mem_filterMap.mp h
  exact List.mem_of_getElem? hi

theorem lastHeard_mem {cs : List Context} (h : lastHeard cs = some c) : c ∈ cs := by
  induction cs generalizing c with
  | nil => cases h
  | cons head rest ih =>
    unfold lastHeard at h
    cases hl : lastHeard rest with
    | none =>
      simp only [hl, Option.some.injEq] at h
      simp [h]
    | some best =>
      simp only [hl] at h
      split at h
      · exact List.mem_cons_of_mem _ (ih (h ▸ hl))
      · simp [Option.some.inj h]

/-- Whatever the rule of matching, a partner comes from a usable recent entry. -/
theorem choose_some (h : e.choose c now = some other) :
    ∃ entry ∈ c.heard, now - entry.updated ≤ e.heardValidity ∧
      e.usable? c now entry = some other := by
  have hrecent : ∃ entry ∈ c.heard.recent now e.heardValidity,
      e.usable? c now entry = some other := by
    unfold choose at h
    cases hm : e.matching with
    | rotating =>
      simp only [hm] at h
      obtain ⟨before, entry, after, hsplit, hu, -⟩ := List.findSome?_eq_some_iff.mp h
      have hmem : entry ∈ turned e.offset (c.heard.recent now e.heardValidity) := by
        simp [hsplit]
      exact ⟨entry, mem_turned hmem, hu⟩
    | youngest =>
      simp only [hm] at h
      exact List.mem_filterMap.mp (lastHeard_mem h)
  obtain ⟨entry, hmem, hu⟩ := hrecent
  obtain ⟨hmem, hage⟩ := List.mem_filter.mp hmem
  exact ⟨entry, hmem, by simpa using hage, hu⟩

theorem usable?_some {entry : Entry Heard} (h : e.usable? c now entry = some other) :
    entry.key ≠ c.id ∧ e.registry.find entry.key = some other ∧
      e.registry.isActive now other = true ∧ other.sequence = entry.value.sequence := by
  unfold usable? at h
  split at h
  · cases h
  · rename_i hne
    cases hf : e.registry.findActive entry.key now with
    | none => simp [hf] at h
    | some d =>
      simp only [hf] at h
      split at h
      · rename_i hu
        rw [Option.some.injEq] at h
        subst h
        obtain ⟨htracked, hactive⟩ := Registry.findActive_eq_some_iff.mp hf
        exact ⟨hne, htracked, hactive, hu.2.1⟩
      · cases h

/-! ### The distance difference -/

theorem recentFlight_some {id : UInt8} {age ticks : Nat}
    (h : c.recentFlight id now age = some ticks) :
    ∃ entry, c.flights.find id = some entry ∧ now - entry.updated ≤ age ∧
      entry.value = ticks := by
  unfold Context.recentFlight at h
  cases hf : c.flights.find id with
  | none => simp [hf] at h
  | some entry =>
    simp only [hf] at h
    split at h
    · rename_i hage
      exact ⟨entry, rfl, hage, Option.some.inj h⟩
    · cases h

theorem addWithin_elapsed {ticks later earlier : Nat} (h : ticks < 2 ^ 16) :
    addWithin ticks (elapsed anchorBits later earlier) =
      .ok (ticks + elapsed anchorBits later earlier) := by
  have helapsed : elapsed anchorBits later earlier < 2 ^ 32 := Clock.elapsed_lt ..
  rw [addWithin_eq_ok_iff]
  exact ⟨by unfold wordLimit; omega, rfl⟩

/-- The distance difference of a pair, where all of its terms are there. -/
def differenceOf (e : Engine) (x : Reception) (rate : Float) (arrival : Exchange)
    (heard : Heard) (flight : Nat) : Float :=
  distanceDifference Float.ofNat speedOfLight e.tickFrequency rate
    (elapsed tagBits x.receivedAt arrival.receivedAt)
    (flight + elapsed anchorBits x.sentAt heard.receivedAt)

/-- With flights that came over the air there is always an answer. -/
theorem difference_ok (hw : c.WellFormed) (e : Engine) (other : Context) (x : Reception) :
    ∃ d, e.difference other c x.sentAt x.receivedAt x.now = .ok d := by
  unfold difference
  cases hfl : c.recentFlight other.id x.now e.flightValidity with
  | none => exact ⟨none, rfl⟩
  | some flight =>
    cases hh : c.heard.find other.id with
    | none => exact ⟨none, rfl⟩
    | some heard =>
      cases ha : other.latest with
      | none => exact ⟨none, rfl⟩
      | some arrival =>
        obtain ⟨entry, hf, -, hval⟩ := recentFlight_some hfl
        have hlt : flight < 2 ^ 16 := hval ▸ hw.flights_lt entry (Table.find_mem hf).1
        simp only [addWithin_elapsed hlt]
        exact ⟨_, rfl⟩

/-- A difference is that of the values on record. -/
theorem difference_some {d : Float}
    (h : e.difference other c x.sentAt x.receivedAt x.now = .ok (some d)) :
    ∃ flight heard arrival, c.flights.find other.id = some flight ∧
      x.now - flight.updated ≤ e.flightValidity ∧ c.heard.find other.id = some heard ∧
      other.latest = some arrival ∧
      d = e.differenceOf x c.rate.value arrival heard.value flight.value := by
  unfold difference at h
  cases hfl : c.recentFlight other.id x.now e.flightValidity with
  | none => simp [hfl] at h
  | some ticks =>
    obtain ⟨flight, hf, hage, rfl⟩ := recentFlight_some hfl
    cases hh : c.heard.find other.id with
    | none => simp [hfl, hh] at h
    | some heard =>
      cases ha : other.latest with
      | none => simp [hfl, hh, ha] at h
      | some arrival =>
        refine ⟨flight, heard, arrival, hf, hage, rfl, rfl, ?_⟩
        simp only [hfl, hh, ha] at h
        obtain ⟨ticks, hsum, hd⟩ := bind_eq_ok_iff.mp h
        rw [addWithin_eq_ok_iff] at hsum
        cases hd
        rw [hsum.2]
        rfl

theorem measurement?_some {difference : Float}
    (h : measurement? other c difference = some m) :
    ∃ p q, other.position = some p ∧ c.position = some q ∧
      m = ⟨(other.id, c.id), (p, q), .ofFloat difference, measurementDeviation⟩ := by
  unfold measurement? at h
  cases hp : other.position with
  | none => simp [hp] at h
  | some p =>
    cases hq : c.position with
    | none => simp [hp, hq] at h
    | some q =>
      simp only [hp, hq, Option.some.injEq] at h
      exact ⟨p, q, rfl, rfl, h.symm⟩

/-! ### The work as a whole -/

@[simp] theorem rotate_registry (e : Engine) : e.rotate.registry = e.registry := by
  unfold rotate
  split <;> rfl

@[simp] theorem rotate_rules (e : Engine) : e.rotate.rules = e.rules := by
  unfold rotate
  split <;> rfl

/-- What a measurement rests on: the contexts of both anchors before the packet, and what the
matching found in them. -/
structure Basis where
  sender : Context
  partner : Context
  /-- The times of the sender's packet before this one. -/
  previous : Exchange
  /-- The times of the partner's latest packet. -/
  arrival : Exchange
  sample : Float
  /-- What the sender heard of the partner. -/
  heard : Entry Heard
  /-- The time of flight between the two. -/
  flight : Entry Nat

/-- A measurement that an engine gets out of a range packet, with everything that it needs. -/
structure Basis.Supports (b : Basis) (e : Engine) (x : Reception) (m : Measurement) : Prop where
  sender : e.registry.find x.sender = some b.sender
  partner : e.registry.find b.partner.id = some b.partner
  ne : b.partner.id ≠ x.sender
  active : e.registry.isActive x.now
    (b.partner.refreshIf x.now (x.packet.names b.partner.id)) = true
  previous : b.sender.latest = some b.previous
  sample : RateFilter.sample? x.receivedAt b.previous.receivedAt x.sentAt b.previous.sentAt =
    some b.sample
  accepted : (b.sender.rate.update b.sample).2 = true
  heard : (b.sender.heard.store x.now x.packet.heard).find b.partner.id = some b.heard
  heard_age : x.now - b.heard.updated ≤ e.heardValidity
  arrival : b.partner.latest = some b.arrival
  sequence : b.partner.sequence = b.heard.value.sequence
  flight : (b.sender.flights.store x.now x.packet.flights).find b.partner.id = some b.flight
  flight_age : x.now - b.flight.updated ≤ e.flightValidity
  measurement : ∃ p q, b.partner.position = some p ∧ b.sender.position = some q ∧
    m = ⟨(b.partner.id, x.sender), (p, q),
      .ofFloat (e.differenceOf x (b.sender.rate.update b.sample).1.value b.arrival
        b.heard.value b.flight.value), measurementDeviation⟩

/-- Only the registry and the rules of an engine matter. -/
theorem Basis.Supports.congr {b : Basis} (h : b.Supports e x m)
    (hreg : e'.registry = e.registry) (hrules : e'.rules = e.rules) : b.Supports e' x m := by
  simp only [rules, Prod.mk.injEq] at hrules
  obtain ⟨-, hfrequency, hheard, hflight⟩ := hrules
  obtain ⟨p, q, hp, hq, hm⟩ := h.measurement
  refine { h with
    sender := hreg ▸ h.sender
    partner := hreg ▸ h.partner
    active := hreg ▸ h.active
    heard_age := hheard ▸ h.heard_age
    flight_age := hflight ▸ h.flight_age
    measurement := ⟨p, q, hp, hq, ?_⟩ }
  rw [hm]
  unfold differenceOf
  rw [hfrequency]

/-- What the work on a stored packet does: always the same to the registry, and a measurement only
of a partner that the choice found. -/
theorem processPacket_spec (hc : e.registry.find x.sender = some c) (hw : c.WellFormed) :
    ∃ (e' : Engine) (result : Option Measurement),
      e.processPacket x.sender x.sentAt x.receivedAt x.now = .ok (e', result) ∧
      e'.registry = e.registry.modify x.sender (·.rated x) ∧ e'.rules = e.rules ∧
      ∀ m, result = some m →
        (∃ sample, c.sample? x = some sample ∧ (c.rate.update sample).2 = true) ∧
        ∃ (e₁ : Engine) (other : Context) (d : Float),
          e₁.registry = e.registry.modify x.sender (·.rated x) ∧ e₁.rules = e.rules ∧
          e₁.choose (c.rated x) x.now = some other ∧
          e₁.difference other (c.rated x) x.sentAt x.receivedAt x.now = .ok (some d) ∧
          measurement? other (c.rated x) d = some m := by
  obtain ⟨hreg, hrules, hrel⟩ := updateRate_spec hc
  unfold processPacket
  generalize e.updateRate x.sender x.sentAt x.receivedAt = u at hreg hrules hrel
  obtain ⟨e₁, reliable⟩ := u
  cases reliable with
  | false => exact ⟨e₁, none, rfl, hreg, hrules, fun _ h => nomatch h⟩
  | true =>
    -- the counters and the place of the rotating search do not show in registry and rules
    have hregr : ({ e₁ with telemetry := e₁.telemetry.timeReliable } : Engine).rotate.registry =
        e.registry.modify x.sender (·.rated x) := by simpa using hreg
    have hrulesr : ({ e₁ with telemetry := e₁.telemetry.timeReliable } : Engine).rotate.rules =
        e.rules := by rw [rotate_rules]; exact hrules
    simp only [if_true]
    generalize ({ e₁ with telemetry := e₁.telemetry.timeReliable } : Engine).rotate = e₂ at *
    have hfind : e₂.registry.find x.sender = some (c.rated x) := by
      rw [hregr, Registry.find_modify_self (Context.rated_id · x), hc]
      rfl
    simp only [hfind]
    cases hch : e₂.choose (c.rated x) x.now with
    | none => exact ⟨e₂, none, rfl, hregr, hrulesr, fun _ h => nomatch h⟩
    | some other =>
      obtain ⟨d, hd⟩ := difference_ok (hw.rated x)
        { e₂ with telemetry := e₂.telemetry.partnerFound } other x
      simp only [hd]
      cases d with
      | none => exact ⟨_, none, rfl, hregr, hrulesr, fun _ h => nomatch h⟩
      | some d =>
        refine ⟨_, measurement? other (c.rated x) d, rfl, hregr, hrulesr, fun m hm => ?_⟩
        exact ⟨hrel rfl, _, other, d, hregr, hrulesr, hch, hd, hm⟩

section

variable (hw : e.registry.WellFormed)
include hw

/-- Working out a range packet always gives a result, and a measurement only from a sample that was
accepted, a partner that was chosen and a difference that was computed for it. -/
theorem hear_spec (x : Reception) :
    ∃ e' result, e.hear x = .ok (e', result) ∧ e'.registry = e.registry.prepared x ∧
      e'.rules = e.rules ∧
      ∀ m, result = some m →
        (∃ sample, (e.registry.known x).sample? x = some sample ∧
          ((e.registry.known x).rate.update sample).2 = true) ∧
        ∃ (e₁ : Engine) (other : Context) (d : Float),
          e₁.registry = e.registry.prepared x ∧ e₁.rules = e.rules ∧
          e₁.choose ((e.registry.known x).prepared x) x.now = some other ∧
          e₁.difference other ((e.registry.known x).prepared x) x.sentAt x.receivedAt x.now =
            .ok (some d) ∧
          measurement? other ((e.registry.known x).prepared x) d = some m := by
  have hc : (e.gathered x).registry.find x.sender =
      some (((e.registry.known x).refresh x.now).relayed x.packet x.now) := by
    rw [gathered_registry, Registry.find_gathered_sender]
  have hprepared : (e.gathered x).registry.modify x.sender (·.rated x) =
      e.registry.prepared x := by
    rw [gathered_registry]
    rfl
  have hrules := gathered_rules e x
  obtain ⟨e', result, hok, hreg', hrules', hm⟩ := processPacket_spec hc (hw.relayed x)
  refine ⟨e', result, hok, hreg'.trans hprepared, hrules'.trans hrules, fun m hres => ?_⟩
  obtain ⟨hsample, e₁, other, d, hreg₁, hrules₁, hch, hd, hmeas⟩ := hm m hres
  exact ⟨hsample, e₁, other, d, hreg₁.trans hprepared, hrules₁.trans hrules, hch, hd, hmeas⟩

/-- A partner was tracked before the packet, and what the sender's table has for it is recent. -/
theorem choose_prepared {e₁ : Engine} (hreg : e₁.registry = e.registry.prepared x)
    (h : e₁.choose ((e.registry.known x).prepared x) x.now = some other) :
    ∃ partner entry, e.registry.find partner.id = some partner ∧ partner.id ≠ x.sender ∧
      other = partner.refreshIf x.now (x.packet.names partner.id) ∧
      e.registry.isActive x.now other = true ∧
      ((e.registry.known x).prepared x).heard.find partner.id = some entry ∧
      x.now - entry.updated ≤ e₁.heardValidity ∧ partner.sequence = entry.value.sequence := by
  obtain ⟨entry, hmem, hage, hu⟩ := choose_some h
  obtain ⟨hne, hfind, hactive, hseq⟩ := usable?_some hu
  rw [Context.prepared_id, Registry.known_id] at hne
  rw [hreg] at hfind
  obtain ⟨partner, hpartner, rfl⟩ := Registry.find_prepared_of_ne hw.distinct hne hfind
  have hid : entry.key = partner.id := (Registry.find_mem hpartner).2.symm
  have hheard := Table.find_eq_some ((hw.known x).prepared x).heard_keys hmem
  rw [hid] at hpartner hne hactive hheard
  refine ⟨partner, entry, hpartner, hne, by rw [hid], ?_, hheard, hage, ?_⟩
  · rw [hid, ← hactive]
    unfold Registry.isActive
    rw [hreg, Registry.prepared_window]
  · rw [← hseq, Context.refreshIf_eq]

/-- A measurement comes out only with a basis for it. -/
theorem hear_some (h : e.hear x = .ok (e', some m)) : ∃ b : Basis, b.Supports e x m := by
  obtain ⟨_, result, hok, -, -, hm⟩ := hear_spec hw x
  have hres : result = some m := by
    have hout := hok.symm.trans h
    simp only [Except.ok.injEq, Prod.mk.injEq] at hout
    exact hout.2
  obtain ⟨⟨sample, hs, hacc⟩, e₁, other, d, hreg, hrules, hch, hd, hmeas⟩ := hm m hres
  simp only [rules, Prod.mk.injEq] at hrules
  obtain ⟨-, hfrequency, hhv, hfv⟩ := hrules
  obtain ⟨previous, hprev, hsample⟩ := Context.sample?_some hs
  obtain ⟨partner, entry, hpartner, hne, rfl, hactive, hheard, hage, hseq⟩ :=
    choose_prepared hw hreg hch
  obtain ⟨flight, heard, arrival, hflight, hfage, hheard', harrival, hdval⟩ := difference_some hd
  obtain ⟨p, q, hp, hq, hmval⟩ := measurement?_some hmeas
  have hrate : ((e.registry.known x).prepared x).rate =
      ((e.registry.known x).rate.update sample).1 := by
    rw [Context.prepared_eq]
    simp only [Context.rated, hs]
  -- the entry that the choice went by is the one that the difference was computed from
  rw [Context.refreshIf_id] at hflight hheard' hmval
  obtain rfl : heard = entry := Option.some.inj (hheard'.symm.trans hheard)
  simp only [Context.prepared_eq, Context.refreshIf_eq] at hheard hflight harrival hp hq
  refine ⟨⟨e.registry.known x, partner, previous, arrival, sample, heard, flight⟩, ?_⟩
  exact {
    sender := Registry.find_known hs
    partner := hpartner
    ne := hne
    active := hactive
    previous := hprev
    sample := hsample
    accepted := hacc
    heard := hheard
    heard_age := hhv ▸ hage
    arrival := harrival
    sequence := hseq
    flight := hflight
    flight_age := hfv ▸ hfage
    measurement := by
      refine ⟨p, q, hp, hq, ?_⟩
      rw [hmval, hdval, hrate, Context.prepared_id, Registry.known_id]
      unfold differenceOf
      rw [hfrequency] }

end

end Ranging.Pairing.Engine
