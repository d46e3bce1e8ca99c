import Mathlib.Data.List.Forall2
import Ranging.Proofs.Field.Slot
import Ranging.Random.ChaCha

/-!
# Simulated traffic

The anchors of a field take turns, so the number of a slot says whose turn it is and how many
packets each anchor has sent (`rounds`). A field behind that many slots is at a stage
(`Simulator.Stage`): every anchor's counters are those of its packets, wrapped. A slot moves on to
the next stage (`Stage.advanced`), and its frame, heard or not, is as the stage says
(`Stage.broadcast_conforms`). By induction all traffic of a field is well formed
(`traffic_conforms`).
-/
namespace Ranging.Field

open Ranging.Number (Single)
open Ranging.Random (Generator Source)
open Ranging.Settings (FieldSettings Site)
open Ranging.Wire

/-! ### Turns -/

/-- How many packets anchor `j` of `count` has sent in the first `m` slots. -/
def rounds (count m j : Nat) : Nat := m / count + if j < m % count then 1 else 0

/-- The next turn is that of the next anchor, or the first one's in the next round. -/
theorem succ_turn {count : Nat} (h : 0 < count) (m : Nat) :
    (m % count + 1 < count ∧ (m + 1) / count = m / count ∧ (m + 1) % count = m % count + 1) ∨
    (m % count + 1 = count ∧ (m + 1) / count = m / count + 1 ∧ (m + 1) % count = 0) := by
  have hm := Nat.div_add_mod m count
  rcases Nat.lt_or_ge (m % count + 1) count with hmore | hlast
  · have hsucc : m + 1 = count * (m / count) + (m % count + 1) := by omega
    have hdiv : (m + 1) / count = m / count + (m % count + 1) / count := by
      rw [hsucc, Nat.mul_add_div h]
    have hmod : (m + 1) % count = (m % count + 1) % count := (Nat.mod_add_mod m count 1).symm
    rw [Nat.div_eq_of_lt hmore] at hdiv
    rw [Nat.mod_eq_of_lt hmore] at hmod
    exact .inl ⟨hmore, hdiv, hmod⟩
  · have hlt := Nat.mod_lt m h
    have hsucc : m + 1 = count * (m / count + 1) := by rw [Nat.mul_succ]; omega
    refine .inr ⟨by omega, ?_, ?_⟩
    · rw [hsucc, Nat.mul_div_cancel_left _ h]
    · rw [hsucc, Nat.mul_mod_right]

theorem rounds_turn (count m : Nat) : rounds count m (m % count) = m / count := by
  rw [rounds, if_neg (Nat.lt_irrefl _), Nat.add_zero]

/-- Only the anchor whose turn it is sends. -/
theorem rounds_succ {count : Nat} (h : 0 < count) (m : Nat) {j : Nat} (hj : j < count) :
    rounds count (m + 1) j = rounds count m j + if j = m % count then 1 else 0 := by
  unfold rounds
  obtain ⟨hturn, hdiv, hmod⟩ | ⟨hturn, hdiv, hmod⟩ := succ_turn h m <;>
    rw [hdiv, hmod] <;> split <;> split <;> (try split) <;> omega

/-! ### Anchors -/

/-- The number of the packet behind `n` others. -/
def sequenceOf (n : Nat) : UInt8 := UInt8.ofNat (n % 128)

theorem sequenceOf_masked (n : Nat) : sequenceOf n &&& sequenceMask = sequenceOf n := by
  have hmask : ∀ k < 128, UInt8.ofNat k &&& sequenceMask = UInt8.ofNat k := by decide +kernel
  exact hmask _ (Nat.mod_lt _ (by decide))

theorem sequenceOf_succ (n : Nat) : (sequenceOf n + 1) &&& sequenceMask = sequenceOf (n + 1) := by
  have hmask : ∀ k < 128, (UInt8.ofNat k + 1) &&& sequenceMask = UInt8.ofNat ((k + 1) % 128) := by
    decide +kernel
  unfold sequenceOf
  rw [hmask _ (Nat.mod_lt _ (by decide)), Nat.mod_add_mod]

namespace AnchorState

/-- An anchor that has sent `n` packets. -/
structure HasSent (a : AnchorState) (n : Nat) : Prop where
  sequence : a.sequence = sequenceOf n
  sent : a.sent = UInt32.ofNat n
  latest : a.latest.map (·.sequence) = if n = 0 then none else some (sequenceOf (n - 1))

theorem HasSent.fresh (site : Site) : (fresh site).HasSent 0 := ⟨rfl, rfl, rfl⟩

theorem HasSent.transmitted {a : AnchorState} {n : Nat} (h : a.HasSent n) (time : Float) :
    (a.transmitted time).HasSent (n + 1) where
  sequence := by
    show (a.sequence + 1) &&& sequenceMask = _
    rw [h.sequence, sequenceOf_succ]
  sent := by
    show a.sent + 1 = _
    rw [h.sent, UInt32.ofNat_add]
    rfl
  latest := congrArg some h.sequence

end AnchorState

/-! ### Stages -/

namespace Simulator

variable {γ : Type}

/-- A field with these settings behind `m` slots. -/
structure Stage (settings : FieldSettings) (m : Nat) (s : Simulator γ) : Prop where
  fits : s.Fits
  sites : s.anchors.map (·.site) = settings.sites
  turn : s.turn = m % settings.sites.length
  interval : s.distanceInterval = settings.distanceInterval
  anchors : ∀ j (a : AnchorState), s.anchors[j]? = some a →
    a.HasSent (rounds settings.sites.length m j)

variable {settings : FieldSettings} {m : Nat} {s : Simulator γ}

theorem Stage.length (h : s.Stage settings m) : s.anchors.length = settings.sites.length := by
  rw [← h.sites, List.length_map]

/-- A field starts at the first stage. -/
theorem Stage.start [Source γ] (h : start settings = .ok s) : s.Stage settings 0 := by
  obtain ⟨hvalid, hpos, rfl⟩ := start_eq_ok_iff.mp h
  have hfits := (FieldSettings.validate_eq_ok_iff.mp hvalid).2.1
  refine ⟨?_, ?_, (Nat.zero_mod _).symm, rfl, fun j a ha => ?_⟩
  · show FieldSettings.payloadSize (settings.sites.map AnchorState.fresh).length ≤ maxPayload
    rwa [List.length_map]
  · show (settings.sites.map AnchorState.fresh).map (·.site) = settings.sites
    rw [List.map_map]
    exact List.map_id _
  · obtain ⟨site, -, rfl⟩ := List.mem_map.mp (List.mem_of_getElem? ha)
    have hnone : rounds settings.sites.length 0 j = 0 := by
      rw [rounds, Nat.zero_div, Nat.zero_mod, if_neg (Nat.not_lt_zero j)]
    rw [hnone]
    exact .fresh site

theorem sender_eq (s : Simulator γ) : s.anchors[s.turn]? = some s.sender :=
  List.getElem?_eq_getElem s.turn_lt

theorem Stage.sender (h : s.Stage settings m) : s.sender.HasSent (m / settings.sites.length) := by
  have hsender := h.anchors _ _ s.sender_eq
  rwa [h.turn, rounds_turn] at hsender

/-- A slot leads to the next stage. -/
theorem Stage.advanced [Source γ] (h : s.Stage settings m) : s.advanced.Stage settings (m + 1) := by
  have hlength : s.advanced.anchors.length = s.anchors.length := List.length_set
  have hpos : 0 < settings.sites.length := h.length ▸ Nat.lt_of_le_of_lt (Nat.zero_le _) s.turn_lt
  refine ⟨?_, ?_, ?_, h.interval, fun j a ha => ?_⟩
  · show FieldSettings.payloadSize s.advanced.anchors.length ≤ maxPayload
    exact hlength ▸ h.fits
  · show (s.anchors.set s.turn (s.sender.transmitted s.sendTime)).map (·.site) = settings.sites
    have hlt : s.turn < (s.anchors.map (·.site)).length := by simpa using s.turn_lt
    have hsite : (s.anchors.map (·.site))[s.turn] = s.sender.site := List.getElem_map _
    rw [List.map_set, ← h.sites]
    show (s.anchors.map (·.site)).set s.turn s.sender.site = _
    rw [← hsite, List.set_getElem_self]
  · show (s.turn + 1) % s.anchors.length = _
    rw [h.turn, h.length, Nat.mod_add_mod]
  · have hset : (s.anchors.set s.turn (s.sender.transmitted s.sendTime))[j]? = some a := ha
    have hj : j < settings.sites.length :=
      h.length ▸ hlength ▸ (List.getElem?_eq_some_iff.mp ha).1
    rw [rounds_succ hpos m hj, ← h.turn]
    rw [List.getElem?_set] at hset
    by_cases hturn : s.turn = j
    · subst hturn
      rw [if_pos rfl, if_pos s.turn_lt] at hset
      cases hset
      rw [if_pos rfl]
      exact (h.anchors _ _ s.sender_eq).transmitted _
    · rw [if_neg hturn] at hset
      rw [if_neg (Ne.symm hturn)]
      exact h.anchors j a hset

/-! ### What the anchors relay -/

end Simulator

/-- The anchors that the sender in slot `m` has heard, with the number of the packet it heard last:
those before it in this round, those behind it in the round before. -/
def relayed (sites : List Site) (m : Nat) : List (UInt8 × UInt8) :=
  sites.zipIdx.filterMap fun (site, j) =>
    if j < m % sites.length then some (site.id, sequenceOf (m / sites.length))
    else if m % sites.length < j ∧ 1 ≤ m / sites.length then
      some (site.id, sequenceOf (m / sites.length - 1))
    else none

namespace Simulator

variable {γ : Type} {settings : FieldSettings} {m : Nat} {s : Simulator γ}

theorem Stage.recordOf (h : s.Stage settings m) {a : AnchorState} {j : Nat}
    (ha : s.anchors[j]? = some a) :
    (s.recordOf (a, j)).map (fun r => (r.anchor, r.sequence)) =
      if j < m % settings.sites.length then
        some (a.site.id, sequenceOf (m / settings.sites.length))
      else if m % settings.sites.length < j ∧ 1 ≤ m / settings.sites.length then
        some (a.site.id, sequenceOf (m / settings.sites.length - 1))
      else none := by
  have hlatest := (h.anchors j a ha).latest
  have hrounds : rounds settings.sites.length m j =
    m / settings.sites.length + if j < m % settings.sites.length then 1 else 0 := rfl
  unfold Simulator.recordOf
  rw [h.turn]
  generalize rounds settings.sites.length m j = n at *
  generalize m % settings.sites.length = i at *
  generalize m / settings.sites.length = q at *
  by_cases hnone : n = 0
  · rw [if_pos hnone, Option.map_eq_none_iff] at hlatest
    rw [hlatest, if_neg (by split at hrounds <;> omega), if_neg (by split at hrounds <;> omega)]
    rfl
  · rw [if_neg hnone, Option.map_eq_some_iff] at hlatest
    obtain ⟨latest, hheard, hsequence⟩ := hlatest
    rw [hheard]
    -- an anchor before the sender has sent in this round, one behind it in the round before
    rcases Nat.lt_trichotomy j i with hlt | rfl | hgt
    · have hlast : n - 1 = q := by rw [hrounds, if_pos hlt]; rfl
      simp [AnchorState.record, hsequence, hlast, hlt, Nat.ne_of_lt hlt]
    · simp
    · have hlast : n = q := by rw [hrounds, if_neg (Nat.lt_asymm hgt)]; rfl
      simp [AnchorState.record, hsequence, ← hlast, hgt, Nat.ne_of_gt hgt, Nat.lt_asymm hgt,
        Nat.one_le_iff_ne_zero, hnone]

/-- In configured order, the sender relays exactly what it has heard. -/
theorem Stage.records (h : s.Stage settings m) :
    s.records.map (fun r => (r.anchor, r.sequence)) = relayed settings.sites m := by
  have hsites : settings.sites.zipIdx = s.anchors.zipIdx.map (Prod.map (·.site) id) := by
    rw [← h.sites, List.zipIdx_map]
  unfold Simulator.records relayed
  rw [hsites, List.map_filterMap, List.filterMap_map]
  refine List.filterMap_congr fun entry hentry => ?_
  exact h.recordOf (List.mem_zipIdx_iff_getElem?.mp hentry)

theorem sequence_of_mem_relayed {sites : List Site} {m : Nat} {entry : UInt8 × UInt8}
    (h : entry ∈ relayed sites m) : ∃ n, entry.2 = sequenceOf n := by
  obtain ⟨⟨site, j⟩, -, hentry⟩ := List.mem_filterMap.mp h
  dsimp only at hentry
  split at hentry
  · cases hentry
    exact ⟨_, rfl⟩
  · split at hentry
    · cases hentry
      exact ⟨_, rfl⟩
    · cases hentry

/-- The numbers in a packet have seven bits already, so nothing of it is lost on the air. -/
theorem Stage.aired_packet (h : s.Stage settings m) :
    (s.packet h.fits).aired = s.packet h.fits := by
  have hfew := h.fits.records_le
  unfold maxRecords at hfew
  refine RangePacket.aired_eq_self_iff.mpr ⟨?_, ?_, ?_⟩
  · show s.sender.sequence &&& sequenceMask = s.sender.sequence
    rw [h.sender.sequence, sequenceOf_masked]
  · show (UInt8.ofNat s.records.length).toNat = s.records.length
    rw [UInt8.toNat_ofNat', Nat.mod_eq_of_lt (by omega)]
  · refine (List.map_congr_left fun r hr => ?_).trans (List.map_id _)
    have hmem : (r.anchor, r.sequence) ∈ relayed settings.sites m :=
      h.records ▸ List.mem_map_of_mem hr
    obtain ⟨n, hn⟩ := sequence_of_mem_relayed hmem
    unfold RemoteRecord.aired
    rw [show r.sequence = sequenceOf n from hn, sequenceOf_masked, ← hn]
    rfl

/-- All records carry distances, or none does. -/
theorem Stage.distances (h : s.Stage settings m) {r : RemoteRecord} (hr : r ∈ s.records) :
    r.distance.isSome ↔
      m / settings.sites.length % 2 ^ 32 % settings.distanceInterval.toNat = 0 := by
  have hcount : (s.sender.sent % s.distanceInterval == 0) = true ↔
      m / settings.sites.length % 2 ^ 32 % settings.distanceInterval.toNat = 0 := by
    rw [h.sender.sent, h.interval, beq_iff_eq, ← UInt32.toNat_inj, UInt32.toNat_mod,
      UInt32.toNat_ofNat']
    rfl
  obtain ⟨⟨a, j⟩, -, hentry⟩ := List.mem_filterMap.mp hr
  unfold Simulator.recordOf at hentry
  split at hentry
  · cases hentry
  · split at hentry
    · cases hentry
    · cases hentry
      rw [← hcount]
      unfold AnchorState.record
      split <;> simp_all

/-! ### Traffic -/

section

variable [Source γ]

/-- The next slots, as many as asked for. -/
def traffic : Nat → Simulator γ → Except WireError (Simulator γ × List Transmission)
  | 0, s => .ok (s, [])
  | count + 1, s => do
    let (s, t) ← s.next
    let (s, ts) ← traffic count s
    return (s, t :: ts)

/-- What is transmitted in the next slots, whether the tag hears it or not. -/
def broadcasts : Nat → Simulator γ → Except WireError (List Transmission)
  | 0, _ => .ok []
  | count + 1, s => do
    let t ← s.transmit (s.time + s.slotSeconds)
    let (s, _) ← s.next
    let ts ← broadcasts count s
    return t :: ts

theorem traffic_succ (s : Simulator γ) (h : s.Fits) (count : Nat) :
    traffic (count + 1) s =
      (traffic count s.advanced).map fun out => (out.1, s.transmission h :: out.2) := by
  show (s.next >>= fun out => traffic count out.1 >>= fun rest => _) = _
  rw [next_eq h]
  show (traffic count s.advanced >>= fun rest => _) = _
  cases traffic count s.advanced <;> rfl

theorem broadcasts_succ (s : Simulator γ) (h : s.Fits) (count : Nat) :
    broadcasts (count + 1) s = (broadcasts count s.advanced).map (s.broadcast h :: ·) := by
  show (s.transmit s.sendTime >>= fun t => s.next >>= fun out => broadcasts count out.1 >>=
    fun rest => _) = _
  rw [transmit_eq h, next_eq h]
  show (broadcasts count s.advanced >>= fun rest => _) = _
  cases broadcasts count s.advanced <;> rfl

end

end Simulator

/-- What is read of the bytes of a frame that is sent in slot `m` from a site. -/
structure Reads (settings : FieldSettings) (m : Nat) (site : Site) (data : Bytes) (f : Frame)
    (p : RangePacket) (a : Announcement) : Prop where
  frame : Frame.decode data = .ok f
  number : f.header.sequence = sequenceOf (m / settings.sites.length)
  destination : f.header.destination = broadcastAddress
  source : f.header.source = nodeAddress site.id ∧ f.header.sourceAnchor = site.id
  short : f.payload.length ≤ maxPayload
  packet : Payload.decode f.payload = .ok (.range p)
  sequence : p.sequence = sequenceOf (m / settings.sites.length)
  records : p.records.map (fun r => (r.anchor, r.sequence)) = relayed settings.sites m
  distances : ∀ r ∈ p.records, r.distance.isSome ↔
    m / settings.sites.length % 2 ^ 32 % settings.distanceInterval.toNat = 0
  control : ControlSection.decode (f.payload.drop p.size) = .ok (some (.position a))
  position : a.position = site.position.map Single.ofFloat
  telemetry : a.snr.isSome ∧ a.powerDiff.isSome

/-- What the transmission in slot `m` of a field is. -/
def Transmission.Conforms (settings : FieldSettings) (m : Nat) (t : Transmission) : Prop :=
  ∃ site, settings.sites[m % settings.sites.length]? = some site ∧ t.anchor = site.id ∧
    ∀ frame, t.frame = some frame → ∃ f p a, Reads settings m site frame.data f p a

/-- What the tag has of a transmission: all of it, or all but the frame. -/
inductive Transmission.Reaches (sent : Transmission) : Transmission → Prop where
  | heard : sent.Reaches sent
  | missed : sent.Reaches { sent with frame := none }

theorem Transmission.Reaches.conforms {settings : FieldSettings} {m : Nat}
    {sent t : Transmission} (h : sent.Reaches t) (hsent : sent.Conforms settings m) :
    t.Conforms settings m := by
  cases h with
  | heard => exact hsent
  | missed =>
    obtain ⟨site, hsite, hanchor, -⟩ := hsent
    exact ⟨site, hsite, hanchor, nofun⟩

namespace Simulator

variable {γ : Type} {settings : FieldSettings} {m : Nat} {s : Simulator γ}

theorem Stage.reads (h : s.Stage settings m) : Reads settings m s.sender.site
    (s.frame h.fits).data ⟨s.header, s.bytes h.fits⟩ (s.packet h.fits)
    (s.announcement s.sender) where
  frame := Frame.decode_encode s.header (s.bytes h.fits)
  number := h.sender.sequence
  destination := rfl
  source := ⟨rfl, toUInt8_nodeAddress s.sender.site.id⟩
  short := length_bytes_le h.fits
  packet := by
    have hdecode := Payload.decode_encode (s.packet h.fits) (s.announcement s.sender).encode
    rwa [h.aired_packet] at hdecode
  sequence := h.sender.sequence
  records := h.records
  distances := fun _ hr => h.distances hr
  control := by
    have hsize := (s.packet h.fits).length_encode
    rw [h.aired_packet] at hsize
    show ControlSection.decode ((s.bytes h.fits).drop (s.packet h.fits).size) = _
    unfold bytes
    rw [← hsize, List.drop_left]
    exact ControlSection.decode_encode (s.announcement s.sender)
  position := rfl
  telemetry := ⟨rfl, rfl⟩

theorem Stage.broadcast_conforms (h : s.Stage settings m) :
    (s.broadcast h.fits).Conforms settings m := by
  refine ⟨s.sender.site, ?_, rfl, fun frame hframe => ?_⟩
  · rw [← h.turn, ← h.sites, List.getElem?_map, s.sender_eq]
    rfl
  · obtain rfl := Option.some.inj hframe
    exact ⟨_, _, _, h.reads⟩

section

variable [Source γ]

theorem broadcast_reaches (h : s.Fits) : (s.broadcast h).Reaches (s.transmission h) := by
  unfold transmission
  split
  · exact .missed
  · exact .heard

/-- The next slots go well, whatever the tag misses of what is transmitted in them. -/
theorem Stage.traffic (h : s.Stage settings m) (count : Nat) :
    ∃ s' ts, s.traffic count = .ok (s', ts) ∧ s'.Stage settings (m + count) ∧
      ∃ sent, s.broadcasts count = .ok sent ∧ sent.length = count ∧
        List.Forall₂ Transmission.Reaches sent ts ∧
        ∀ n (t : Transmission), sent[n]? = some t →
          t.frame.isSome ∧ t.Conforms settings (m + n) := by
  -- slot by slot, so the first slot is one at any stage
  induction count generalizing m s with
  | zero => exact ⟨s, [], rfl, h, [], rfl, rfl, .nil, nofun⟩
  | succ count ih =>
    obtain ⟨s', ts, htraffic, hstage, sent, hbroadcasts, hlength, hreaches, hsent⟩ := ih h.advanced
    refine ⟨s', s.transmission h.fits :: ts, ?_, ?_, s.broadcast h.fits :: sent, ?_,
      congrArg Nat.succ hlength, .cons (broadcast_reaches h.fits) hreaches, fun n t ht => ?_⟩
    · rw [traffic_succ s h.fits, htraffic]
      rfl
    · rwa [Nat.add_right_comm] at hstage
    · rw [broadcasts_succ s h.fits, hbroadcasts]
      rfl
    · cases n with
      | zero =>
        cases ht
        exact ⟨rfl, h.broadcast_conforms⟩
      | succ n =>
        have hrest := hsent n t ht
        rwa [Nat.add_right_comm] at hrest

/-- All traffic of a field is well formed: in every slot a frame is transmitted that is as the slot
has it, and the tag has it or misses it. -/
theorem traffic_conforms {s₀ : Simulator γ} (hstart : start settings = .ok s₀) (count : Nat) :
    ∃ s ts sent, s₀.traffic count = .ok (s, ts) ∧ s₀.broadcasts count = .ok sent ∧
      ts.length = count ∧ List.Forall₂ Transmission.Reaches sent ts ∧
      (∀ m (t : Transmission), sent[m]? = some t → t.frame.isSome ∧ t.Conforms settings m) ∧
      ∀ m (t : Transmission), ts[m]? = some t → t.Conforms settings m := by
  obtain ⟨s, ts, htraffic, -, sent, hbroadcasts, hlength, hreaches, hsent⟩ :=
    (Stage.start hstart).traffic count
  simp only [Nat.zero_add] at hsent
  refine ⟨s, ts, sent, htraffic, hbroadcasts, hreaches.length_eq ▸ hlength, hreaches, hsent,
    fun m t ht => ?_⟩
  obtain ⟨hlt, hget⟩ := List.getElem?_eq_some_iff.mp ht
  have hlt' : m < sent.length := hreaches.length_eq ▸ hlt
  have hreach : sent[m].Reaches ts[m] := List.Forall₂.get hreaches hlt' hlt
  exact (hget ▸ hreach).conforms (hsent m _ (List.getElem?_eq_getElem hlt')).2

end

/-! ### Fields that lose nothing -/

section

variable [Source γ]

theorem drawLoss_never (h : ¬ s.lossProbability > 0.0) : s.drawLoss.1 = false :=
  congrArg Prod.fst (if_neg h)

/-- What holds of the next transmission whatever has happened holds of all traffic. -/
theorem forall_traffic {P : Transmission → Prop} {probability : Float}
    (hP : ∀ (s : Simulator γ) (h : s.Fits), s.lossProbability = probability →
      P (s.transmission h))
    (h : s.Stage settings m) (hprobability : s.lossProbability = probability) {count : Nat}
    {s' : Simulator γ} {ts : List Transmission} (htraffic : s.traffic count = .ok (s', ts)) :
    ∀ t ∈ ts, P t := by
  induction count generalizing m s ts with
  | zero =>
    cases htraffic
    exact nofun
  | succ count ih =>
    rw [traffic_succ s h.fits, map_eq_ok_iff] at htraffic
    obtain ⟨out, hrest, hout⟩ := htraffic
    cases hout
    exact List.forall_mem_cons.mpr
      ⟨hP s h.fits hprobability, ih h.advanced hprobability hrest⟩

theorem Stage.heard (h : s.Stage settings m) (hnever : ¬ s.lossProbability > 0.0) {count : Nat}
    {s' : Simulator γ} {ts : List Transmission} (htraffic : s.traffic count = .ok (s', ts)) :
    ∀ t ∈ ts, t.frame.isSome := by
  refine forall_traffic (fun s h hs => ?_) h rfl htraffic
  unfold transmission
  rw [drawLoss_never (hs ▸ hnever)]
  rfl

end

/-- Eight anchors, so each has sent more than once, and the tag hears all of it. -/
theorem traffic_conforms_standard : ∃ (s₀ s : Simulator Generator) (ts sent : List Transmission),
    start .standard = .ok s₀ ∧ s₀.traffic 20 = .ok (s, ts) ∧ s₀.broadcasts 20 = .ok sent ∧
      ts.length = 20 ∧ List.Forall₂ Transmission.Reaches sent ts ∧
      (∀ t ∈ ts, t.frame.isSome) ∧
      ∀ m (t : Transmission), ts[m]? = some t → t.Conforms .standard m := by
  have hstart : start .standard = .ok (initial .standard (by decide) : Simulator Generator) :=
    start_eq_ok_iff.mpr ⟨FieldSettings.standard_valid, _, rfl⟩
  obtain ⟨s, ts, sent, htraffic, hbroadcasts, hlength, hreaches, -, hconforms⟩ :=
    traffic_conforms hstart 20
  have hnever : ¬ (initial .standard (by decide) : Simulator Generator).lossProbability > 0.0 := by
    show ¬ FieldSettings.standard.lossProbability > 0.0
    decide +kernel
  exact ⟨_, s, ts, sent, hstart, htraffic, hbroadcasts, hlength, hreaches,
    (Stage.start hstart).heard hnever htraffic, hconforms⟩

end Simulator
end Ranging.Field
