import Ranging.Proofs.Tag.Run

/-!
# The packets behind a measurement

On the air a packet goes by a number of seven bits. Here the anchors' transmissions are a list,
newest first, in which a packet of an anchor has a true index: how many that anchor sent before.
Every measurement pairs a packet that a record refers to with the packet of that anchor that the
tag heard last; their numbers agree, and they are the same packet exactly if fewer than 128 lie
between them (`Reached.same_packet_iff`).
-/
namespace Ranging

open Ranging.Anchor
open Ranging.Estimator
open Ranging.Pairing (Engine)
open Ranging.Radio (Bench)
open Ranging.Settings (TagSettings)
open Ranging.Wire (Announcement Bytes RangePacket RemoteRecord)

/-! ### Transmissions -/

/-- A range packet that an anchor sent. -/
structure Transmission where
  sender : UInt8
  packet : RangePacket
  /-- What stands behind the range section. -/
  control : Bytes
  /-- For each record the index of the packet that it refers to. -/
  references : List Nat
  /-- When the packet reached the tag, in ticks and milliseconds, unless it was lost. -/
  arrival : Option (Nat × Nat)

namespace Transmission

/-- The packet as it reached the tag. -/
def reception? (b : Transmission) : Option Reception :=
  b.arrival.map fun a => ⟨b.sender, b.packet, b.control, a.1, a.2⟩

/-- What a packet says its sender heard, each with the index of the packet that it heard. -/
def referred (b : Transmission) : List (UInt8 × Heard × Nat) :=
  (b.packet.records.zip b.references).filterMap fun p => p.1.heard?.map fun h => (h.1, h.2, p.2)

end Transmission

/-- How many packets an anchor has sent. -/
def sentBy (air : List Transmission) (n : UInt8) : Nat := air.countP (·.sender == n)

/-- A transmission after others numbers its packet by its index, and each record refers by number
to a packet that was sent. -/
structure Transmission.Numbered (past : List Transmission) (b : Transmission) : Prop where
  sequence : b.packet.sequence.toNat = sentBy past b.sender % 128
  references : b.references.length = b.packet.records.length
  sent : ∀ p ∈ b.packet.records.zip b.references,
    p.2 < sentBy past p.1.anchor ∧ p.1.sequence.toNat = p.2 % 128

/-- Every anchor numbers its packets one after the other. -/
def Lawful : List Transmission → Prop
  | [] => True
  | b :: past => b.Numbered past ∧ Lawful past

instance (past : List Transmission) (b : Transmission) : Decidable (b.Numbered past) :=
  decidable_of_iff (b.packet.sequence.toNat = sentBy past b.sender % 128 ∧
      b.references.length = b.packet.records.length ∧
      ∀ p ∈ b.packet.records.zip b.references,
        p.2 < sentBy past p.1.anchor ∧ p.1.sequence.toNat = p.2 % 128)
    ⟨fun h => ⟨h.1, h.2.1, h.2.2⟩, fun h => ⟨h.sequence, h.references, h.sent⟩⟩

instance Lawful.decidable : (air : List Transmission) → Decidable (Lawful air)
  | [] => .isTrue trivial
  | b :: past =>
    have := Lawful.decidable past
    inferInstanceAs (Decidable (b.Numbered past ∧ Lawful past))

/-- The packet of `r` that reached the tag last, and its index. -/
def lastArrival : List Transmission → UInt8 → Option (Reception × Nat)
  | [], _ => none
  | b :: past, r =>
    match b.reception? with
    | some x => if x.sender = r then some (x, sentBy past r) else lastArrival past r
    | none => lastArrival past r

/-- What a packet of `n` that reached the tag said last of a packet of `r`, and the index of that
packet of `r`. -/
def lastReference : List Transmission → UInt8 → UInt8 → Option (Heard × Nat)
  | [], _, _ => none
  | b :: past, n, r =>
    match b.reception? with
    | some x =>
      if x.sender = n then (Table.lastValue b.referred r).or (lastReference past n r)
      else lastReference past n r
    | none => lastReference past n r

/-- The packets that reached the tag. -/
def arrivals (air : List Transmission) : List Reception := air.filterMap Transmission.reception?

/-! ### Numbers and indices -/

theorem lastValue_map {α β : Type} (f : α → β) (values : List (UInt8 × α)) (k : UInt8) :
    Table.lastValue (values.map fun v => (v.1, f v.2)) k = (Table.lastValue values k).map f := by
  induction values with
  | nil => rfl
  | cons v rest ih =>
    rw [List.map_cons, Table.lastValue_cons, Table.lastValue_cons, ih]
    cases Table.lastValue rest k with
    | none => by_cases hk : k = v.1 <;> simp [hk]
    | some w => rfl

theorem Transmission.referred_heard {past : List Transmission} {b : Transmission}
    (h : b.Numbered past) : (b.referred.map fun v => (v.1, v.2.1)) = b.packet.heard := by
  unfold Transmission.referred RangePacket.heard
  have hlength := h.references
  generalize b.packet.records = records at hlength
  generalize b.references = references at hlength
  induction records generalizing references with
  | nil => rfl
  | cons record rest ih =>
    cases references with
    | nil => cases hlength
    | cons i references =>
      have hrest := ih references (Nat.succ.inj hlength)
      cases hr : record.heard? <;> simp [hr, hrest]

/-- A packet carries the low bits of the index that a record gives it. -/
theorem Transmission.Numbered.referred {past : List Transmission} {b : Transmission} {r : UInt8}
    {heard : Heard} {i : Nat} (h : b.Numbered past)
    (hlast : Table.lastValue b.referred r = some (heard, i)) :
    heard.sequence.toNat = i % 128 := by
  obtain ⟨⟨record, i⟩, hmem, hsome⟩ := List.mem_filterMap.mp (Table.mem_of_lastValue hlast)
  obtain ⟨v, hv, hpair⟩ := Option.map_eq_some_iff.mp hsome
  cases hpair
  rw [← (h.sent _ hmem).2]
  unfold RemoteRecord.heard? at hv
  split at hv
  · cases hv
  · rw [Option.some.injEq] at hv
    rw [← hv]

theorem Transmission.reception?_some {b : Transmission} {x : Reception}
    (h : b.reception? = some x) : x.sender = b.sender ∧ x.packet = b.packet := by
  obtain ⟨a, -, rfl⟩ := Option.map_eq_some_iff.mp h
  exact ⟨rfl, rfl⟩

section

variable {air : List Transmission} {n r : UInt8}

/-- The packet that the tag heard last carries the low bits of its index. -/
theorem lastArrival_spec {y : Reception} (hair : Lawful air)
    (h : latestFrom (arrivals air) r = some y) :
    ∃ j, lastArrival air r = some (y, j) ∧ y.packet.sequence.toNat = j % 128 := by
  induction air with
  | nil => cases h
  | cons b past ih =>
    unfold arrivals at h
    rw [List.filterMap_cons] at h
    unfold lastArrival
    cases hb : b.reception? with
    | none =>
      rw [hb] at h
      exact ih hair.2 h
    | some x =>
      rw [hb] at h
      obtain ⟨hsender, hpacket⟩ := Transmission.reception?_some hb
      dsimp only at h ⊢
      by_cases hr : x.sender = r
      · subst hr
        rw [latestFrom_self, Option.some.injEq] at h
        subst h
        rw [if_pos rfl, hpacket, hsender]
        exact ⟨_, rfl, hair.1.sequence⟩
      · rw [latestFrom_other (Ne.symm hr)] at h
        rw [if_neg hr]
        exact ih hair.2 h

/-- What was reported last of an anchor carries the low bits of the index that it refers to. -/
theorem lastReference_spec {date : Nat} {heard : Heard} (hair : Lawful air)
    (h : latestReport RangePacket.heard (arrivals air) n r = some (date, heard)) :
    ∃ i, lastReference air n r = some (heard, i) ∧ heard.sequence.toNat = i % 128 := by
  induction air with
  | nil => cases h
  | cons b past ih =>
    unfold arrivals at h
    rw [List.filterMap_cons] at h
    unfold lastReference
    cases hb : b.reception? with
    | none =>
      rw [hb] at h
      exact ih hair.2 h
    | some x =>
      rw [hb] at h
      obtain ⟨-, hpacket⟩ := Transmission.reception?_some hb
      dsimp only at h ⊢
      by_cases hn : x.sender = n
      · subst hn
        rw [if_pos rfl]
        have hvalue := lastValue_map Prod.fst b.referred r
        rw [Transmission.referred_heard hair.1, ← hpacket] at hvalue
        cases hlast : Table.lastValue b.referred r with
        | none =>
          -- this packet says nothing of `r`, so an earlier report counts
          rw [hlast] at hvalue
          rw [latestReport_silent hvalue] at h
          exact ih hair.2 h
        | some v =>
          rw [hlast] at hvalue
          rw [latestReport_self hvalue] at h
          cases h
          exact ⟨v.2, rfl, hair.1.referred hlast⟩
      · rw [latestReport_other (Ne.symm hn)] at h
        rw [if_neg hn]
        exact ih hair.2 h

end

namespace Tag

variable {σ κ ρ : Type} [Sink σ] [Radio ρ] [ControlSource κ] {settings : TagSettings}
  {steps : List (Step ρ)} {t : Tag σ κ} {step : Step ρ} {m : Measurement}
  {air : List Transmission}

/-- The packet of the partner that the sender heard, with index `i`, and the one that the tag heard
last, with index `j`, agree in their numbers. They are the same one if less than 128 apart. -/
theorem Reached.same_packet_iff (ht : Reached settings steps t) (hair : Lawful air)
    (harrivals : arrivals air = history (steps ++ [step])) (hm : .difference m ∈ t.offers step) :
    ∃ (x y : Reception) (b : Engine.Basis) (i j : Nat),
      step.reception? = some x ∧ b.Supports t.engine x m ∧
        lastReference air m.anchors.2 m.anchors.1 = some (b.heard.value, i) ∧
        lastArrival air m.anchors.1 = some (y, j) ∧ b.arrival = ⟨y.receivedAt, y.sentAt⟩ ∧
        i % 128 = j % 128 ∧ (i = j ↔ i < j + 128 ∧ j < i + 128) := by
  obtain ⟨x, b, hx, hb⟩ := offers_some ht.wellFormed hm
  obtain ⟨p, q, -, -, rfl⟩ := hb.measurement
  rw [history_concat steps hx] at harrivals
  obtain ⟨y, hy, htimes, hsequence⟩ := ht.arrival_recalled hb
  rw [← latestFrom_other hb.ne, ← harrivals] at hy
  have hheard := ht.heard_recalled hb
  rw [← harrivals] at hheard
  obtain ⟨j, hj, hnumber⟩ := lastArrival_spec hair hy
  obtain ⟨i, hi, hreferred⟩ := lastReference_spec hair hheard
  rw [← hsequence, hnumber] at hreferred
  exact ⟨x, y, b, i, j, hx, hb, hi, hj, htimes, hreferred.symm, by omega⟩

/-- A packet of anchor 1 that never reached the tag. -/
def lost (i : Nat) : Transmission :=
  ⟨1, ⟨UInt8.ofNat (i % 128), 0, 0, [], Nat.zero_le _⟩, [], [], none⟩

/-- Of the packets of anchor 1 only the one with index 5 reached the tag. -/
def longLoss : List Transmission :=
  (List.range 128).reverse.map (fun i => lost (i + 6)) ++
    ⟨1, ⟨5, 3000000, 0, [], Nat.zero_le _⟩, Announcement.encode ⟨⟨0, 0, 0⟩, none, none⟩, [],
      some (3002000, 10)⟩ ::
    (List.range 5).reverse.map lost ++
    [⟨2, ⟨1, 2000000, 0, [], Nat.zero_le _⟩, [], [], some (2001000, 5)⟩,
      ⟨2, ⟨0, 1000000, 0, [], Nat.zero_le _⟩, Announcement.encode ⟨⟨0, 0, 0⟩, none, none⟩, [],
        some (1001000, 0)⟩]

/-- Anchor 2 heard the packet of anchor 1 with index 133, which has the same number. -/
def wrapped : Transmission :=
  ⟨2, ⟨2, 4000000, 1, [⟨1, 5, 3001500, some 1500⟩], one_le_maxRecords⟩, [], [133],
    some (4001000, 1500)⟩

/-- The call for a transmission that reaches a bench radio. -/
def hearing? (b : Transmission) : Option (Step Bench) :=
  b.arrival.map fun a => hearing b.sender b.packet b.control a.1 a.2

/-- The calls up to the packet that refers to another one. -/
def beforeWrapped : List (Step Bench) := (longLoss.filterMap hearing?).reverse

def hearingWrapped : Step Bench := hearing 2 wrapped.packet [] 4001000 1500

theorem wrapped_lawful : Lawful (wrapped :: longLoss) := by decide +kernel

theorem arrivals_wrapped :
    arrivals (wrapped :: longLoss) = history (beforeWrapped ++ [hearingWrapped]) := by
  decide +kernel

/-- Whether a measurement pairs two different packets of the partner. -/
def pairsApart (air : List Transmission) (m : Measurement) : Bool :=
  match lastReference air m.anchors.2 m.anchors.1, lastArrival air m.anchors.1 with
  | some (_, i), some (_, j) => i != j
  | _, _ => false

theorem exists_of_pairsApart (h : pairsApart air m = true) :
    ∃ heard y i j, lastReference air m.anchors.2 m.anchors.1 = some (heard, i) ∧
      lastArrival air m.anchors.1 = some (y, j) ∧ i ≠ j := by
  unfold pairsApart at h
  split at h
  · rename_i heard i y j hi hj
    exact ⟨heard, y, i, j, hi, hj, bne_iff_ne.mp h⟩
  · cases h

/-- A packet can be paired with another one 128 later. -/
theorem different_packets_paired :
    ∃ (t : Tag Collector ControlQueue) (m : Measurement) (heard : Heard) (y : Reception)
      (i j : Nat), Reached .standard beforeWrapped t ∧
        InOrder (beforeWrapped ++ [hearingWrapped]) ∧ Lawful (wrapped :: longLoss) ∧
        arrivals (wrapped :: longLoss) = history (beforeWrapped ++ [hearingWrapped]) ∧
        .difference m ∈ t.offers hearingWrapped ∧
        lastReference (wrapped :: longLoss) m.anchors.2 m.anchors.1 = some (heard, i) ∧
        lastArrival (wrapped :: longLoss) m.anchors.1 = some (y, j) ∧ i ≠ j := by
  have hcheck : (reach? .standard beforeWrapped).any
      (·.measures hearingWrapped (pairsApart (wrapped :: longLoss))) = true := by
    decide +kernel
  obtain ⟨t, ht, hmeasures⟩ := exists_reached hcheck
  obtain ⟨m, hm, hapart⟩ := measures_iff.mp hmeasures
  obtain ⟨heard, y, i, j, hi, hj, hne⟩ := exists_of_pairsApart hapart
  exact ⟨t, m, heard, y, i, j, ht, by decide +kernel, wrapped_lawful, arrivals_wrapped, hm, hi, hj,
    hne⟩

theorem same_packet_iff_wrapped :
    ∃ (t : Tag Collector ControlQueue) (m : Measurement), Reached .standard beforeWrapped t ∧
      Lawful (wrapped :: longLoss) ∧
      arrivals (wrapped :: longLoss) = history (beforeWrapped ++ [hearingWrapped]) ∧
      .difference m ∈ t.offers hearingWrapped ∧
      ∃ (x y : Reception) (b : Engine.Basis) (i j : Nat),
        hearingWrapped.reception? = some x ∧ b.Supports t.engine x m ∧
          lastReference (wrapped :: longLoss) m.anchors.2 m.anchors.1 = some (b.heard.value, i) ∧
          lastArrival (wrapped :: longLoss) m.anchors.1 = some (y, j) ∧
          b.arrival = ⟨y.receivedAt, y.sentAt⟩ ∧ i % 128 = j % 128 ∧
          (i = j ↔ i < j + 128 ∧ j < i + 128) := by
  have hcheck : (reach? .standard beforeWrapped).any (·.measures hearingWrapped fun _ => true) =
      true := by
    decide +kernel
  obtain ⟨t, ht, hmeasures⟩ := exists_reached hcheck
  obtain ⟨m, hm, -⟩ := measures_iff.mp hmeasures
  exact ⟨t, m, ht, wrapped_lawful, arrivals_wrapped, hm,
    ht.same_packet_iff wrapped_lawful arrivals_wrapped hm⟩

end Tag
end Ranging
