import Ranging.Proofs.Pairing.Choice
import Ranging.Proofs.Tag.Chronicle

/-!
# Who was heard last

The rule of the youngest goes by the dates on record, and these are moved by an anchor's own packets
and by those that name it (`Reached.max?_signs`). So the partner it takes has the last sign of life,
which need not be a packet of its own: of two anchors the one whose packet was heard later is passed
over if a packet has named the other one since (`Reached.youngest_partner`).
-/
namespace Ranging

open Ranging.Anchor
open Ranging.Estimator
open Ranging.Pairing (Engine)
open Ranging.Radio (Bench)
open Ranging.Settings (TagSettings)
open Ranging.Wire (Announcement)

/-! ### The choice of the youngest -/

namespace Pairing.Engine

variable {e : Engine} {c other d : Context} {now start : Nat} {entry : Anchor.Entry Heard}

theorem Usable.unique (h : e.Usable c now entry other) (h' : e.Usable c now entry d) : d = other :=
  Option.some.inj (h'.tracked.symm.trans h.tracked)

/-- Whatever the rule, the partner comes with a usable entry. -/
theorem Picks.exists_usable (h : e.Picks start c now other) :
    ∃ entry, e.Usable c now entry other := by
  unfold Picks at h
  cases hm : e.matching with
  | youngest =>
    simp only [hm] at h
    obtain ⟨-, entry, -, -, husable, -⟩ := h
    exact ⟨entry, husable⟩
  | rotating =>
    simp only [hm] at h
    obtain ⟨-, entry, -, -, husable, -⟩ := h
    exact ⟨entry, husable⟩

/-- The youngest was heard of no earlier than any other anchor with a usable entry. -/
theorem Picks.lastSeen_le (hm : e.matching = .youngest) (h : e.Picks start c now other)
    (hentry : entry ∈ e.candidates c now) (hd : e.Usable c now entry d) :
    d.lastSeen ≤ other.lastSeen := by
  simp only [Picks, hm] at h
  obtain ⟨before, picked, after, hsplit, husable, hbefore, hafter⟩ := h
  rw [hsplit] at hentry
  rcases List.mem_append.mp hentry with hentry | hentry
  · exact hbefore entry hentry d hd
  · rcases List.mem_cons.mp hentry with rfl | hentry
    · exact Nat.le_of_eq (congrArg Context.lastSeen (husable.unique hd))
    · exact Nat.le_of_lt (hafter entry hentry d hd)

/-- The engine as the matching finds it: a packet is stored and its clock sample is taken. -/
def stored (e : Engine) (x : Reception) : Engine := { e with registry := e.registry.prepared x }

/-- An anchor that could be paired with the sender of a packet. -/
def Pairable (e : Engine) (x : Reception) (k : UInt8) : Prop :=
  ∃ entry ∈ (e.stored x).candidates ((e.registry.known x).prepared x) x.now, entry.key = k ∧
    ∃ d, (e.stored x).Usable ((e.registry.known x).prepared x) x.now entry d

end Pairing.Engine

/-! ### Dates on record -/

namespace Anchor

variable {h : List Reception} {x y z : Reception} {k : UInt8}

/-- A history has its newest packets first. -/
def NewestFirst (h : List Reception) : Prop := h.Pairwise fun newer older => older.now ≤ newer.now

theorem mem_of_latestFrom (hy : latestFrom h k = some y) : y ∈ h ∧ y.sender = k :=
  ⟨List.mem_of_find?_eq_some hy, by simpa using List.find?_some hy⟩

/-- No packet of an anchor is newer than its latest. -/
theorem NewestFirst.le_latest (hh : NewestFirst h) (hy : latestFrom h k = some y) (hz : z ∈ h)
    (hk : z.sender = k) : z.now ≤ y.now := by
  obtain ⟨hfrom, newer, older, rfl, hnewer⟩ := List.find?_eq_some_iff_append.mp hy
  rcases List.mem_append.mp hz with hz | hz
  · exact absurd (beq_iff_eq.mpr hk) (by simpa using hnewer z hz)
  · rcases List.mem_cons.mp hz with rfl | hz
    · exact Nat.le_refl _
    · exact (List.pairwise_cons.mp (List.pairwise_append.mp hh).2.1).1 z hz

theorem mem_signs {date : Nat} :
    date ∈ signs h k ↔ ∃ z ∈ h, z.shows k = true ∧ z.now = date := by
  simp [signs, and_assoc]

theorem signs_append (h h' : List Reception) (k : UInt8) :
    signs (h ++ h') k = signs h k ++ signs h' k := by
  simp [signs]

/-- A packet of an anchor is one of its signs of life. -/
theorem le_max?_signs {date : Nat} (hdate : (signs h k).max? = some date) (hy : y ∈ h)
    (hown : y.sender = k) : y.now ≤ date :=
  (List.max?_eq_some_iff.mp hdate).2 _ (mem_signs.mpr ⟨y, hy, by simp [Reception.shows, hown], rfl⟩)

/-- What shows an anchor later than its latest packet is a packet that names it. -/
theorem NewestFirst.exists_naming (hh : NewestFirst h) (hy : latestFrom h k = some y) {date : Nat}
    (hne : k ≠ x.sender) (hdate : (signs (x :: h) k).max? = some date) (hlater : y.now < date) :
    ∃ z ∈ x :: h, z.sender ≠ k ∧ z.packet.names k = true ∧ z.now = date := by
  obtain ⟨z, hz, hshows, rfl⟩ := mem_signs.mp (List.max?_eq_some_iff.mp hdate).1
  have hother : z.sender ≠ k := by
    intro hown
    rcases List.mem_cons.mp hz with rfl | hz
    · exact hne hown.symm
    · have hlast := hh.le_latest hy hz hown
      omega
  exact ⟨z, hz, hother, by simpa [Reception.shows, beq_false_of_ne hother] using hshows, rfl⟩

end Anchor

namespace Tag

variable {σ κ ρ : Type} [Radio ρ] {steps : List (Step ρ)} {step : Step ρ}

theorem InOrder.newestFirst (h : InOrder steps) : NewestFirst (history steps) := by
  unfold NewestFirst history
  rw [List.pairwise_reverse, List.pairwise_filterMap]
  refine h.imp fun {s s'} hle x hx y hy => ?_
  rw [Step.reception?_now hx, Step.reception?_now hy]
  exact hle

/-- The date on record of an anchor is that of its last sign of life. -/
theorem Reached.max?_signs [Sink σ] [ControlSource κ] {settings : TagSettings} {t : Tag σ κ}
    {c : Context} {k : UInt8} (ht : Reached settings steps t) (horder : InOrder steps)
    (hc : t.engine.registry.find k = some c) :
    (signs (history steps) k).max? = some c.lastSeen := by
  have hbehind : (Registry.behind settings.inactivityWindow steps).find k = some c := by
    rw [← hc, ht.spec.1]
    rfl
  obtain ⟨before, opening, later, rfl, htenure, hfollows⟩ := Registry.exists_tenure hbehind
  obtain ⟨x, hx, hsender⟩ := htenure.opened
  have hseen := hfollows.lastSeen
  rw [(Registry.find_mem hc).2, List.max?_eq_some_iff] at hseen
  have hhistory : history (before ++ opening :: later) =
      history (opening :: later) ++ history before := by
    simp [history]
  rw [hhistory, signs_append, List.max?_eq_some_iff]
  refine ⟨List.mem_append_left _ hseen.1, fun date hdate => ?_⟩
  rcases List.mem_append.mp hdate with hdate | hdate
  · exact hseen.2 date hdate
  · -- what was before the tenure is no later than the packet that opened it
    obtain ⟨z, hz, -, rfl⟩ := mem_signs.mp hdate
    have hopening : x.now ∈ signs (history (opening :: later)) k := by
      refine mem_signs.mpr ⟨x, ?_, by simp [Reception.shows, hsender], rfl⟩
      rw [history_cons, hx]
      exact List.mem_append_right _ (List.mem_singleton_self x)
    have hfirst : InOrder (before ++ [opening]) :=
      horder.sublist (List.Sublist.append_left (by simp) before)
    exact Nat.le_trans (Step.reception?_now hx ▸ hfirst.now_le hz) (hseen.2 _ hopening)

/-- A measurement that a call offers is of the partner that was chosen with the packet stored. -/
theorem offers_chosen {t : Tag σ κ} [ControlSource κ] {m : Measurement} {x : Reception}
    (hw : t.engine.registry.WellFormed) (hx : step.reception? = some x)
    (hm : .difference m ∈ t.offers step) :
    ∃ (e : Engine) (other : Context), e.registry = t.engine.registry.prepared x ∧
      e.rules = t.engine.rules ∧
      e.choose ((t.engine.registry.known x).prepared x) x.now = some other ∧
      m.anchors = (other.id, x.sender) := by
  cases step with
  | initialise radio now => cases hx
  | sweep now => cases hx
  | event radio event now =>
    obtain ⟨e, engine, measurement, hregistry, hrules, hhear, hrespond⟩ := respond_some t hw hx
    obtain ⟨t₁, radio', done, hok, hout⟩ := hrespond (⟨[]⟩ : Collector)
    rw [offers_event hok hout] at hm
    obtain rfl := Emitter.difference_mem_items.mp hm
    have hwe : e.registry.WellFormed := hregistry ▸ hw
    obtain ⟨_, result, hhear', -, -, hchosen⟩ := Engine.hear_spec hwe x
    have hresult : result = some m := by
      have hsame := hhear'.symm.trans hhear
      simp only [Except.ok.injEq, Prod.mk.injEq] at hsame
      exact hsame.2
    obtain ⟨-, e₁, other, d, hregistry₁, hrules₁, hchoose, -, hmeasured⟩ := hchosen m hresult
    rw [hregistry] at hregistry₁ hchoose
    refine ⟨e₁, other, hregistry₁, hrules₁.trans hrules, hchoose, ?_⟩
    obtain ⟨_, _, -, -, rfl⟩ := Engine.measurement?_some hmeasured
    dsimp only
    rw [Context.prepared_id, Registry.known_id]

section

variable [Sink σ] [ControlSource κ] {settings : TagSettings} {t : Tag σ κ} {m : Measurement}
  {x : Reception} {k : UInt8}

/-- Of an anchor that can be paired the tag heard a packet, and when the matching runs its date on
record is that of its last sign of life, the packet that is worked out included. -/
theorem Reached.prepared_signs {c : Context} (ht : Reached settings steps t)
    (horder : InOrder (steps ++ [step])) (hne : k ≠ x.sender)
    (hc : (t.engine.registry.prepared x).find k = some c) (hlatest : c.latest.isSome) :
    (∃ y, latestFrom (history steps) k = some y) ∧
      (signs (x :: history steps) k).max? = some c.lastSeen := by
  have hbefore : InOrder steps := (List.pairwise_append.mp horder).1
  obtain ⟨old, hold, rfl⟩ := Registry.find_prepared_of_ne ht.wellFormed.distinct hne hc
  rw [Context.refreshIf_eq] at hlatest ⊢
  obtain ⟨exchange, hexchange⟩ := Option.isSome_iff_exists.mp hlatest
  obtain ⟨y, hy, -⟩ := (ht.recalls _ _ hold).latest exchange hexchange
  refine ⟨⟨y, (Registry.find_mem hold).2 ▸ hy⟩, ?_⟩
  have hsigns := ht.max?_signs hbefore hold
  have hshows : x.shows k = x.packet.names k := by
    simp [Reception.shows, beq_false_of_ne (Ne.symm hne)]
  dsimp only
  cases hnames : x.packet.names k with
  | true => exact max?_signs_shown hsigns (hshows.trans hnames)
  | false => exact (congrArg List.max? (signs_silent (hshows.trans hnames))).trans hsigns

/-- With the rule of the youngest the partner in a measurement has the last sign of life of all
anchors that could be paired. Another one of them was heard later by a packet of its own only if
some packet has named the partner since, which may be the packet that is worked out. -/
theorem Reached.youngest_partner (ht : Reached settings steps t)
    (hyoungest : settings.matching = .youngest) (horder : InOrder (steps ++ [step]))
    (hx : step.reception? = some x) (hm : .difference m ∈ t.offers step)
    (hk : t.engine.Pairable x k) :
    ∃ y y' date date', latestFrom (history steps) m.anchors.1 = some y ∧
      latestFrom (history steps) k = some y' ∧
      (signs (x :: history steps) m.anchors.1).max? = some date ∧
      (signs (x :: history steps) k).max? = some date' ∧ date' ≤ date ∧
      (y.now < y'.now → ∃ z ∈ x :: history steps, z.sender ≠ m.anchors.1 ∧
        z.packet.names m.anchors.1 = true ∧ y'.now ≤ z.now) := by
  have hnewest : NewestFirst (history steps) :=
    InOrder.newestFirst (List.pairwise_append.mp horder).1
  obtain ⟨e, other, hregistry, hrules, hchoose, hanchors⟩ := offers_chosen ht.wellFormed hx hm
  have hmatching : e.matching = .youngest :=
    (congrArg Prod.fst (hrules.trans ht.spec.2.1)).trans hyoungest
  have hpicks := (Engine.choose_eq_some_iff fun h => nomatch hmatching.symm.trans h).mp hchoose
  obtain ⟨entry, hentry, rfl, rival, hrival⟩ := hk
  -- both contexts stand in the registry that the matching goes by
  have hsender : ((t.engine.registry.known x).prepared x).id = x.sender := by
    rw [Context.prepared_id, Registry.known_id]
  obtain ⟨entry₁, hchosen⟩ := hpicks.exists_usable
  have hid : other.id = entry₁.key := (Registry.find_mem hchosen.tracked).2
  have hne : other.id ≠ x.sender := by
    rw [hid, ← hsender]
    exact hchosen.ne
  have hfind : (t.engine.registry.prepared x).find other.id = some other := by
    rw [hid, ← hregistry]
    exact hchosen.tracked
  obtain ⟨⟨y, hy⟩, hdate⟩ := ht.prepared_signs horder hne hfind hchosen.latest
  obtain ⟨⟨y', hy'⟩, hdate'⟩ :=
    ht.prepared_signs horder (hsender ▸ hrival.ne) hrival.tracked hrival.latest
  have hle : rival.lastSeen ≤ other.lastSeen := by
    have hcandidates :=
      Engine.candidates_congr (show e.rules = (t.engine.stored x).rules from hrules)
        ((t.engine.registry.known x).prepared x) x.now
    exact hpicks.lastSeen_le hmatching (hcandidates ▸ hentry) (hrival.congr hregistry hrules)
  rw [hanchors]
  refine ⟨y, y', _, _, hy, hy', hdate, hdate', hle, fun hlater => ?_⟩
  obtain ⟨hmem, hsent⟩ := mem_of_latestFrom hy'
  have hown : y'.now ≤ rival.lastSeen := le_max?_signs hdate' (List.mem_cons_of_mem x hmem) hsent
  obtain ⟨z, hz, hother, hnames, hzdate⟩ := hnewest.exists_naming hy hne hdate (by omega)
  exact ⟨z, hz, hother, hnames, by omega⟩

end

/-! ### A later packet passed over -/

/-- The standard settings with the rule of the youngest. -/
def youngest : TagSettings := { TagSettings.standard with matching := .youngest }

/-- Anchor 2 is heard twice, then anchor 1, then anchor 3. -/
def threeHeard : List (Step Bench) :=
  [hearing 2 ⟨0, 1000000, 0, [], Nat.zero_le _⟩ (Announcement.encode ⟨⟨0, 0, 0⟩, none, none⟩)
      1001000 0,
    hearing 2 ⟨1, 2000000, 0, [], Nat.zero_le _⟩ [] 2001000 5,
    hearing 1 ⟨5, 3000000, 0, [], Nat.zero_le _⟩ (Announcement.encode ⟨⟨0, 0, 0⟩, none, none⟩)
      3002000 10,
    hearing 3 ⟨8, 3500000, 0, [], Nat.zero_le _⟩ (Announcement.encode ⟨⟨0, 0, 0⟩, none, none⟩)
      3502000 12]

/-- Anchor 2 says that it heard both, anchor 3 first. -/
def bothNamed : Step Bench :=
  hearing 2 ⟨2, 4000000, 0, [⟨3, 8, 3501500, some 1500⟩, ⟨1, 5, 3001500, some 1500⟩], by decide⟩ []
    4001000 15

/-- Whether an anchor can be paired with the sender of a packet. -/
def pairs (e : Engine) (x : Reception) (k : UInt8) : Bool :=
  let current := (e.registry.known x).prepared x
  ((e.stored x).candidates current x.now).any fun entry =>
    entry.key = k && ((e.stored x).usable? current x.now entry).isSome

theorem pairable_of_pairs {e : Engine} {x : Reception} {k : UInt8} (h : pairs e x k = true) :
    e.Pairable x k := by
  obtain ⟨entry, hentry, hpairs⟩ := List.any_eq_true.mp h
  rw [Bool.and_eq_true, decide_eq_true_eq] at hpairs
  obtain ⟨d, hd⟩ := Option.isSome_iff_exists.mp hpairs.2
  exact ⟨entry, hentry, hpairs.1, d, Engine.usable?_eq_some_iff.mp hd⟩

/-- Whether a packet yields a measurement with `partner` although `k` could be paired and was heard
later by a packet of its own. -/
def passesOver (t : Tag σ κ) [ControlSource κ] (past : List Reception) (step : Step ρ)
    (partner k : UInt8) : Bool :=
  step.reception?.any fun x => t.measures step (·.anchors == (partner, x.sender)) &&
    pairs t.engine x k && (latestFrom past partner).any fun y =>
      (latestFrom past k).any fun y' => y.now < y'.now

theorem exists_of_passesOver {t : Tag σ κ} [ControlSource κ] {past : List Reception}
    {partner k : UInt8} (h : t.passesOver past step partner k = true) :
    ∃ x m y y', step.reception? = some x ∧ .difference m ∈ t.offers step ∧
      m.anchors = (partner, x.sender) ∧ t.engine.Pairable x k ∧
      latestFrom past partner = some y ∧ latestFrom past k = some y' ∧ y.now < y'.now := by
  obtain ⟨x, hx, hpassed⟩ := (Option.any_eq_true _ _).mp h
  simp only [Bool.and_eq_true] at hpassed
  obtain ⟨⟨hmeasures, hpairs⟩, hdates⟩ := hpassed
  obtain ⟨m, hm, hanchors⟩ := measures_iff.mp hmeasures
  obtain ⟨y, hy, hlater⟩ := (Option.any_eq_true _ _).mp hdates
  obtain ⟨y', hy', hlt⟩ := (Option.any_eq_true _ _).mp hlater
  exact ⟨x, m, y, y', hx, hm, beq_iff_eq.mp hanchors, pairable_of_pairs hpairs, hy, hy',
    of_decide_eq_true hlt⟩

theorem passesOver_threeHeard : (reach? youngest threeHeard).any
    (·.passesOver (history threeHeard) bothNamed 1 3) = true := by
  decide +kernel

/-- Anchor 3 was heard after anchor 1, and anchor 1 is taken all the same. -/
theorem later_packet_passed_over :
    ∃ (t : Tag Collector ControlQueue) (x : Reception) (m : Measurement) (y y' : Reception),
      Reached youngest threeHeard t ∧ InOrder (threeHeard ++ [bothNamed]) ∧
        bothNamed.reception? = some x ∧ .difference m ∈ t.offers bothNamed ∧
        m.anchors = (1, x.sender) ∧ t.engine.Pairable x 3 ∧
        latestFrom (history threeHeard) 1 = some y ∧
        latestFrom (history threeHeard) 3 = some y' ∧ y.now < y'.now := by
  obtain ⟨t, ht, hpassed⟩ := exists_reached passesOver_threeHeard
  obtain ⟨x, m, y, y', hx, hm, hanchors, hpairable, hy, hy', hlt⟩ := exists_of_passesOver hpassed
  exact ⟨t, x, m, y, y', ht, by decide, hx, hm, hanchors, hpairable, hy, hy', hlt⟩

theorem youngest_partner_threeHeard :
    ∃ (t : Tag Collector ControlQueue) (x : Reception) (m : Measurement),
      Reached youngest threeHeard t ∧ bothNamed.reception? = some x ∧
        .difference m ∈ t.offers bothNamed ∧ t.engine.Pairable x 3 ∧
        ∃ y y' date date', latestFrom (history threeHeard) m.anchors.1 = some y ∧
          latestFrom (history threeHeard) 3 = some y' ∧
          (signs (x :: history threeHeard) m.anchors.1).max? = some date ∧
          (signs (x :: history threeHeard) 3).max? = some date' ∧ date' ≤ date ∧
          (y.now < y'.now → ∃ z ∈ x :: history threeHeard, z.sender ≠ m.anchors.1 ∧
            z.packet.names m.anchors.1 = true ∧ y'.now ≤ z.now) := by
  obtain ⟨t, ht, hpassed⟩ := exists_reached passesOver_threeHeard
  obtain ⟨x, m, -, -, hx, hm, -, hpairable, -⟩ := exists_of_passesOver hpassed
  exact ⟨t, x, m, ht, hx, hm, hpairable, ht.youngest_partner rfl (by decide) hx hm hpairable⟩

end Tag
end Ranging
