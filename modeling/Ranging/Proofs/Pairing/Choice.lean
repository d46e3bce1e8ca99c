import Mathlib.Data.List.Rotate
import Ranging.Proofs.Pairing.Notes

/-!
# Which partner is found

`Engine.Usable` says what makes an entry of the sender's table usable, and `Engine.Picks` which
usable entry each rule of matching takes. The choice of the engine is this one
(`Engine.choose_eq_some_iff`). So a packet with a reliable clock finds a partner exactly when there
is a usable entry, it is counted then and only then, and nothing that is looked up behind the match
is missing (`Engine.processPacket_finds`).
-/
namespace Ranging.Pairing

open Ranging.Anchor
open Ranging.Clock (elapsed tagBits anchorBits)

/-! ### Searches in a list -/

section

variable {α : Type} {c : Context} {cs : List Context}

theorem lastHeard_eq_none : Engine.lastHeard cs = none ↔ cs = [] := by
  cases cs with
  | nil => simp [Engine.lastHeard]
  | cons head rest =>
    unfold Engine.lastHeard
    cases Engine.lastHeard rest with
    | none => simp
    | some best => by_cases h : head.lastSeen ≤ best.lastSeen <;> simp [h]

/-- The last of the latest: nothing before it is later, and all behind it is earlier. -/
theorem lastHeard_eq_some_iff : Engine.lastHeard cs = some c ↔
    ∃ before after, cs = before ++ c :: after ∧ (∀ d ∈ before, d.lastSeen ≤ c.lastSeen) ∧
      ∀ d ∈ after, d.lastSeen < c.lastSeen := by
  induction cs generalizing c with
  | nil => simp [Engine.lastHeard]
  | cons head rest ih =>
    constructor
    · intro h
      unfold Engine.lastHeard at h
      cases hl : Engine.lastHeard rest with
      | none =>
        obtain rfl : head = c := by simpa [hl] using h
        exact ⟨[], rest, rfl, by simp, by simp [lastHeard_eq_none.mp hl]⟩
      | some best =>
        obtain ⟨before, after, rfl, hbefore, hafter⟩ := ih.mp hl
        -- a tie goes to what stands behind the head
        by_cases hle : head.lastSeen ≤ best.lastSeen
        · obtain rfl : best = c := by simpa [hl, hle] using h
          refine ⟨head :: before, after, rfl, ?_, hafter⟩
          simpa using ⟨hle, hbefore⟩
        · obtain rfl : head = c := by simpa [hl, hle] using h
          refine ⟨[], before ++ best :: after, rfl, by simp, fun d hd => ?_⟩
          rcases List.mem_append.mp hd with hd | hd
          · have := hbefore d hd
            omega
          · rcases List.mem_cons.mp hd with rfl | hd
            · omega
            · have := hafter d hd
              omega
    · rintro ⟨before, after, hsplit, hbefore, hafter⟩
      unfold Engine.lastHeard
      cases before with
      | nil =>
        obtain ⟨rfl, rfl⟩ : head = c ∧ rest = after := by simpa using hsplit
        cases hl : Engine.lastHeard rest with
        | none => rfl
        | some best =>
          have hlt := hafter best (Engine.lastHeard_mem hl)
          simp only [if_neg (Nat.not_le.mpr hlt)]
      | cons first before =>
        obtain ⟨rfl, rfl⟩ : head = first ∧ rest = before ++ c :: after := by simpa using hsplit
        have hl := ih.mpr ⟨before, after, rfl, fun d hd => hbefore d (by simp [hd]), hafter⟩
        simp only [hl, if_pos (hbefore head (by simp))]

/-- The same among what a search makes of the values of a list. -/
theorem lastHeard_filterMap_eq_some_iff {f : α → Option Context} {xs : List α} :
    Engine.lastHeard (xs.filterMap f) = some c ↔
      ∃ before x after, xs = before ++ x :: after ∧ f x = some c ∧
        (∀ y ∈ before, ∀ d, f y = some d → d.lastSeen ≤ c.lastSeen) ∧
        ∀ y ∈ after, ∀ d, f y = some d → d.lastSeen < c.lastSeen := by
  rw [lastHeard_eq_some_iff]
  constructor
  · rintro ⟨ds, ds', hsplit, hbefore, hafter⟩
    obtain ⟨before, rest, rfl, rfl, hrest⟩ := List.filterMap_eq_append_iff.mp hsplit
    obtain ⟨skipped, x, after, rfl, hskipped, hx, rfl⟩ := List.filterMap_eq_cons_iff.mp hrest
    refine ⟨before ++ skipped, x, after, by simp, hx, fun y hy d hd => ?_, fun y hy d hd =>
      hafter d (List.mem_filterMap.mpr ⟨y, hy, hd⟩)⟩
    rcases List.mem_append.mp hy with hy | hy
    · exact hbefore d (List.mem_filterMap.mpr ⟨y, hy, hd⟩)
    · rw [hskipped y hy] at hd
      cases hd
  · rintro ⟨before, x, after, rfl, hx, hbefore, hafter⟩
    refine ⟨before.filterMap f, after.filterMap f, by simp [hx], fun d hd => ?_, fun d hd => ?_⟩
    · obtain ⟨y, hy, hd⟩ := List.mem_filterMap.mp hd
      exact hbefore y hy d hd
    · obtain ⟨y, hy, hd⟩ := List.mem_filterMap.mp hd
      exact hafter y hy d hd

theorem filterMap_getElem?_range (xs : List α) :
    (List.range xs.length).filterMap (xs[·]?) = xs := by
  induction xs with
  | nil => rfl
  | cons x rest ih =>
    rw [List.length_cons, List.range_succ_eq_map, List.filterMap_cons, List.filterMap_map]
    simpa [Function.comp_def] using ih

/-- As long as no place is beyond the numbers of a word, a list is turned by rotating it. -/
theorem turned_eq_rotate {start : UInt64} {xs : List α}
    (h : start.toNat + xs.length ≤ 2 ^ 64) :
    Engine.turned start xs = xs.rotate start.toNat := by
  have hplace : ∀ i ∈ List.range xs.length,
      xs[(start + UInt64.ofNat i).toNat % xs.length]? = (xs.rotate start.toNat)[i]? := by
    intro i hi
    have hi := List.mem_range.mp hi
    have hsum : (start + UInt64.ofNat i).toNat = i + start.toNat := by
      rw [UInt64.toNat_add, UInt64.toNat_ofNat']
      omega
    rw [hsum, List.getElem?_rotate hi]
  unfold Engine.turned
  rw [List.filterMap_congr hplace]
  simpa using filterMap_getElem?_range (xs.rotate start.toNat)

end

namespace Engine

variable {e : Engine} {c other : Context} {now : Nat}

/-! ### Usable entries -/

/-- The entries of a context that are recent enough to be matched, in slot order. -/
def candidates (e : Engine) (c : Context) (now : Nat) : Table Heard :=
  c.heard.filter (now - ·.updated ≤ e.heardValidity)

theorem candidates_congr {e' : Engine} (hrules : e'.rules = e.rules) (c : Context) (now : Nat) :
    e'.candidates c now = e.candidates c now := by
  have hheard : e'.heardValidity = e.heardValidity := congrArg (fun rules => rules.2.2.1) hrules
  unfold candidates
  rw [hheard]

/-- What makes an entry of `c` usable: it is about another anchor, that anchor is tracked and heard
of within the window, its latest packet is the very one that the entry refers to, and the time of
flight to it is known and recent. -/
structure Usable (e : Engine) (c : Context) (now : Nat) (entry : Entry Heard)
    (other : Context) : Prop where
  ne : entry.key ≠ c.id
  tracked : e.registry.find entry.key = some other
  active : now - other.lastSeen ≤ e.registry.window
  latest : other.latest.isSome
  sequence : other.sequence = entry.value.sequence
  flight : ∃ flight, c.flights.find entry.key = some flight ∧
    now - flight.updated ≤ e.flightValidity

/-- Nothing but the registry and the rules of an engine makes an entry usable. -/
theorem Usable.congr {e' : Engine} {entry : Entry Heard} (h : e.Usable c now entry other)
    (hregistry : e'.registry = e.registry) (hrules : e'.rules = e.rules) :
    e'.Usable c now entry other where
  ne := h.ne
  tracked := hregistry ▸ h.tracked
  active := hregistry ▸ h.active
  latest := h.latest
  sequence := h.sequence
  flight := by
    have hflight : e'.flightValidity = e.flightValidity :=
      congrArg (fun rules => rules.2.2.2) hrules
    exact hflight ▸ h.flight

theorem recentFlight_isSome_iff {id : UInt8} {age : Nat} :
    (c.recentFlight id now age).isSome ↔
      ∃ flight, c.flights.find id = some flight ∧ now - flight.updated ≤ age := by
  unfold Context.recentFlight
  cases c.flights.find id with
  | none => simp
  | some flight =>
    simp only [Option.some.injEq, exists_eq_left']
    split <;> simp_all only [Option.isSome_some, Option.isSome_none, Bool.false_eq_true]

theorem usable?_eq_some_iff {entry : Entry Heard} :
    e.usable? c now entry = some other ↔ e.Usable c now entry other := by
  unfold usable?
  constructor
  · intro h
    by_cases hkey : entry.key = c.id
    · simp [hkey] at h
    · cases hactive : e.registry.findActive entry.key now with
      | none => simp [hkey, hactive] at h
      | some d =>
        simp only [hkey, hactive, if_false] at h
        split at h
        · rename_i hu
          cases h
          obtain ⟨htracked, hwithin⟩ := Registry.findActive_eq_some_iff.mp hactive
          exact ⟨hkey, htracked, of_decide_eq_true hwithin, hu.1, hu.2.1,
            recentFlight_isSome_iff.mp hu.2.2⟩
        · cases h
  · intro h
    have hactive := Registry.findActive_eq_some_iff.mpr ⟨h.tracked, decide_eq_true h.active⟩
    have hflight := recentFlight_isSome_iff.mpr h.flight
    simp only [h.ne, if_false, hactive, h.latest, h.sequence, hflight, and_self, if_true]

/-! ### The choice -/

/-- The partner that a rule of matching takes: of the usable entries the one whose anchor was heard
of last, the last in slot order if there are several, or the first one in cyclic order from the
place `start`. -/
def Picks (e : Engine) (start : Nat) (c : Context) (now : Nat) (other : Context) : Prop :=
  match e.matching with
  | .youngest => ∃ before entry after, e.candidates c now = before ++ entry :: after ∧
      e.Usable c now entry other ∧
      (∀ x ∈ before, ∀ d, e.Usable c now x d → d.lastSeen ≤ other.lastSeen) ∧
      ∀ x ∈ after, ∀ d, e.Usable c now x d → d.lastSeen < other.lastSeen
  | .rotating => ∃ before entry after,
      (e.candidates c now).rotate (start % (e.candidates c now).length) =
        before ++ entry :: after ∧
      e.Usable c now entry other ∧ ∀ x ∈ before, ∀ d, ¬ e.Usable c now x d

section

variable (hplaces : e.matching = .rotating →
  e.offset.toNat + (e.candidates c now).length ≤ 2 ^ 64)
include hplaces

theorem choose_eq_some_iff :
    e.choose c now = some other ↔ e.Picks e.offset.toNat c now other := by
  unfold choose Picks
  cases hm : e.matching with
  | youngest =>
    simp only [← usable?_eq_some_iff]
    exact lastHeard_filterMap_eq_some_iff
  | rotating =>
    simp only [List.rotate_mod, ← usable?_eq_some_iff, ← ne_eq, ← Option.eq_none_iff_forall_ne_some]
    show (turned e.offset (e.candidates c now)).findSome? _ = _ ↔ _
    rw [turned_eq_rotate (hplaces hm), List.findSome?_eq_some_iff]

/-- There is a partner as soon as there is a usable entry, wherever it stands. -/
theorem choose_isSome_iff :
    (e.choose c now).isSome ↔
      ∃ entry ∈ e.candidates c now, ∃ other, e.Usable c now entry other := by
  simp only [← usable?_eq_some_iff, ← Option.isSome_iff_exists]
  unfold choose
  cases hm : e.matching with
  | youngest =>
    show (lastHeard ((e.candidates c now).filterMap _)).isSome ↔ _
    rw [Option.isSome_iff_ne_none, ne_eq, lastHeard_eq_none, List.filterMap_eq_nil_iff]
    simp only [Option.isSome_iff_ne_none, ne_eq, not_forall, exists_prop]
  | rotating =>
    show ((turned e.offset (e.candidates c now)).findSome? _).isSome ↔ _
    rw [turned_eq_rotate (hplaces hm), List.findSome?_isSome_iff]
    simp only [List.mem_rotate]

end

/-! ### Behind the match -/

/-- A usable entry comes with all that the difference takes. -/
theorem Usable.difference_isSome {entry : Entry Heard} (h : e.Usable c now entry other)
    (hentry : entry ∈ c.heard) (hflights : ∀ flight ∈ c.flights, flight.value ≤ 65535)
    (sentAt receivedAt : Nat) :
    ∃ d, e.difference other c sentAt receivedAt now = .ok (some d) := by
  obtain ⟨flight, hflight, hage⟩ := h.flight
  have hsome : (c.heard.find entry.key).isSome :=
    List.find?_isSome.mpr ⟨entry, hentry, beq_self_eq_true entry.key⟩
  obtain ⟨heard, hheard⟩ := Option.isSome_iff_exists.mp hsome
  obtain ⟨arrival, harrival⟩ := Option.isSome_iff_exists.mp h.latest
  have hrecent : c.recentFlight entry.key now e.flightValidity = some flight.value := by
    unfold Context.recentFlight
    simp only [hflight, if_pos hage]
  have hle := hflights flight (Table.find_mem hflight).1
  have hid : other.id = entry.key := (Registry.find_mem h.tracked).2
  unfold difference
  simp only [hid, hrecent, hheard, harrival,
    addWithin_elapsed (show flight.value < 2 ^ 16 by omega)]
  exact ⟨_, rfl⟩

theorem measurement?_isSome_iff {d : Float} :
    (measurement? other c d).isSome ↔ other.position.isSome ∧ c.position.isSome := by
  unfold measurement?
  cases other.position <;> cases c.position <;> simp

/-! ### The sender's clock -/

/-- A packet gives a reliable sample of the clock of `c`: there was a packet before, the clock moved
on since, and the filter takes the ratio for reliable. -/
def Reliable (c : Context) (sentAt receivedAt : Nat) : Prop :=
  ∃ previous, c.latest = some previous ∧ elapsed anchorBits sentAt previous.sentAt ≠ 0 ∧
    (c.rate.update (Float.ofNat (elapsed tagBits receivedAt previous.receivedAt) /
      Float.ofNat (elapsed anchorBits sentAt previous.sentAt))).2 = true

variable {id : UInt8} {sentAt receivedAt : Nat}

theorem reliable_iff (hc : e.registry.find id = some c) :
    Reliable c sentAt receivedAt ↔
      ∃ sample, e.rateSample? id sentAt receivedAt = some sample ∧
        (c.rate.update sample).2 = true := by
  unfold Reliable rateSample? Clock.RateFilter.sample?
  cases hl : c.latest with
  | none => simp [hc, hl]
  | some previous =>
    by_cases hzero : elapsed anchorBits sentAt previous.sentAt = 0 <;> simp [hc, hl, hzero]

/-- A packet that says nothing reliable about its sender's clock only feeds the filter. -/
theorem updateRate_unreliable
    (h : ∀ c, e.registry.find id = some c → ¬ Reliable c sentAt receivedAt) :
    ∃ registry, e.updateRate id sentAt receivedAt = ({ e with registry := registry }, false) := by
  unfold updateRate
  cases hc : e.registry.find id with
  | none => exact ⟨e.registry, rfl⟩
  | some c =>
    cases hs : e.rateSample? id sentAt receivedAt with
    | none => exact ⟨e.registry, rfl⟩
    | some sample =>
      have hrejected : (c.rate.update sample).2 = false := by
        simpa using fun hacc => h c hc ((reliable_iff hc).mpr ⟨sample, hs, hacc⟩)
      simp only [hrejected]
      exact ⟨_, rfl⟩

/-- A reliable sample is counted, and changes the clock ratio of the sender. -/
theorem updateRate_reliable (hc : e.registry.find id = some c)
    (h : Reliable c sentAt receivedAt) :
    ∃ rate telemetry, telemetry.ranging.partnerFound = e.telemetry.ranging.partnerFound ∧
      e.updateRate id sentAt receivedAt =
        ((e.withTelemetry telemetry).modifyContext id fun c => { c with rate := rate }, true) := by
  obtain ⟨sample, hs, hacc⟩ := (reliable_iff hc).mp h
  refine ⟨(c.rate.update sample).1,
    e.telemetry.note (.rateSampled id (c.rate.update sample).1.value), ?_, ?_⟩
  · rw [Telemetry.ranging_note]
    rfl
  · unfold updateRate
    simp only [hc, hs, hacc, if_true]
    rfl

/-! ### The search -/

/-- The engine that the partner of a packet with a reliable clock is sought by: the sender's clock
ratio is new, and the rotating search begins one place on. -/
structure Rated (e : Engine) (id : UInt8) (c : Context) (rate : Clock.RateFilter)
    (e₁ : Engine) : Prop where
  before : e.registry.find id = some c
  registry : e₁.registry = e.registry.modify id fun c => { c with rate := rate }
  rules : e₁.rules = e.rules
  offset : e₁.offset = if e.matching = .rotating then e.offset + 1 else e.offset
  counted : e₁.telemetry.ranging.partnerFound = e.telemetry.ranging.partnerFound

namespace Rated

variable {e₁ : Engine} {rate : Clock.RateFilter}

theorem matching (h : e.Rated id c rate e₁) : e₁.matching = e.matching :=
  congrArg Prod.fst h.rules

theorem find (h : e.Rated id c rate e₁) :
    e₁.registry.find id = some { c with rate := rate } := by
  rw [h.registry, Registry.find_modify_self (f := fun c => { c with rate := rate }) fun _ => rfl,
    h.before]
  rfl

theorem toNat_offset (h : e.Rated id c rate e₁) (hm : e.matching = .rotating)
    (hle : e.offset.toNat ≤ 2 ^ 64 - 17) : e₁.offset.toNat = e.offset.toNat + 1 := by
  rw [h.offset, if_pos hm, UInt64.toNat_add, UInt64.toNat_one]
  omega

theorem candidates (h : e.Rated id c rate e₁) :
    e₁.candidates { c with rate := rate } now = e.candidates c now :=
  candidates_congr h.rules c now

/-- The new ratio changes nothing about what is usable: the sender is no partner of its own. -/
theorem usable (h : e.Rated id c rate e₁) {entry : Entry Heard} :
    e₁.Usable { c with rate := rate } now entry other ↔ e.Usable c now entry other := by
  have hid : c.id = id := (Registry.find_mem h.before).2
  have hfind (hne : entry.key ≠ c.id) :
      e₁.registry.find entry.key = e.registry.find entry.key := by
    rw [h.registry]
    exact Registry.find_modify_other (f := fun c => { c with rate := rate }) (fun _ => rfl) _
      (hid ▸ hne)
  have hwindow : e₁.registry.window = e.registry.window := by rw [h.registry]; rfl
  have hflight : e₁.flightValidity = e.flightValidity :=
    congrArg (fun rules => rules.2.2.2) h.rules
  constructor
  · rintro ⟨hne, htracked, hactive, hlatest, hsequence, hrecent⟩
    exact ⟨hne, hfind hne ▸ htracked, hwindow ▸ hactive, hlatest, hsequence, hflight ▸ hrecent⟩
  · rintro ⟨hne, htracked, hactive, hlatest, hsequence, hrecent⟩
    exact ⟨hne, (hfind hne).trans htracked, hwindow ▸ hactive, hlatest, hsequence,
      hflight ▸ hrecent⟩

theorem picks (h : e.Rated id c rate e₁) {start : Nat} :
    e₁.Picks start { c with rate := rate } now other ↔ e.Picks start c now other := by
  unfold Picks
  simp only [h.matching, h.candidates, h.usable]

end Rated

theorem rotate_offset (e : Engine) :
    e.rotate.offset = if e.matching = .rotating then e.offset + 1 else e.offset := by
  cases hm : e.matching <;> simp [rotate, hm]

theorem rotate_telemetry (e : Engine) : e.rotate.telemetry = e.telemetry := by
  unfold rotate
  split <;> rfl

/-- With a reliable sample of its sender's clock a packet comes to the search for a partner. -/
theorem processPacket_reliable (hc : e.registry.find id = some c)
    (h : Reliable c sentAt receivedAt) :
    ∃ e₁ rate, e.Rated id c rate e₁ ∧ ∀ now,
      e.processPacket id sentAt receivedAt now = e₁.pairUp id sentAt receivedAt now := by
  obtain ⟨rate, telemetry, hcount, hrate⟩ := updateRate_reliable hc h
  refine ⟨(((e.withTelemetry telemetry).modifyContext id fun c =>
    { c with rate := rate }).withTelemetry telemetry.timeReliable).rotate, rate, ?_, fun now => ?_⟩
  · exact {
      before := hc
      registry := rotate_registry _
      rules := rotate_rules _
      offset := rotate_offset _
      counted := (congrArg (·.ranging.partnerFound) (rotate_telemetry _)).trans hcount }
  · rw [processPacket_eq, hrate]
    rfl

/-! ### The whole work -/

/-- What the work on a packet of `c` with a reliable clock comes to: the partner that it finds, the
engine behind it and the result. -/
structure Matched (e : Engine) (c : Context) (now : Nat) (partner : Option Context)
    (e' : Engine) (result : Option Measurement) : Prop where
  picked : ∀ other, partner = some other ↔ e.Picks (e.offset.toNat + 1) c now other
  found : partner.isSome ↔ ∃ entry ∈ e.candidates c now, ∃ other, e.Usable c now entry other
  offset : e'.offset = if e.matching = .rotating then e.offset + 1 else e.offset
  counted : e'.telemetry.ranging.partnerFound =
    e.telemetry.ranging.partnerFound + if partner.isSome then 1 else 0
  measured : result.isSome ↔ ∃ other, partner = some other ∧ other.position.isSome ∧
    c.position.isSome
  anchors : ∀ other m, partner = some other → result = some m → m.anchors = (other.id, c.id)

/-- Behind a match the work never stops short of the measurement but for a position. -/
theorem pairUp_spec (hc : e.registry.find id = some c)
    (hflights : ∀ flight ∈ c.flights, flight.value ≤ 65535) (sentAt receivedAt now : Nat) :
    ∃ e' result, e.pairUp id sentAt receivedAt now = .ok (e', result) ∧ e'.offset = e.offset ∧
      e'.telemetry.ranging.partnerFound = e.telemetry.ranging.partnerFound +
        (if (e.choose c now).isSome then 1 else 0) ∧
      (result.isSome ↔ ∃ other, e.choose c now = some other ∧ other.position.isSome ∧
        c.position.isSome) ∧
      ∀ other m, e.choose c now = some other → result = some m →
        m.anchors = (other.id, c.id) := by
  unfold pairUp
  simp only [hc]
  cases hchoose : e.choose c now with
  | none => exact ⟨e, none, rfl, rfl, (UInt32.add_zero _).symm, by simp, by simp⟩
  | some other =>
    obtain ⟨entry, hentry, -, husable⟩ := choose_some hchoose
    obtain ⟨d, hd⟩ := (usable?_eq_some_iff.mp husable).difference_isSome hentry hflights sentAt
      receivedAt
    refine ⟨{ e with telemetry := e.telemetry.partnerFound }, measurement? other c d,
      bind_eq_ok_iff.mpr ⟨some d, hd, rfl⟩, rfl, rfl, ?_, ?_⟩
    · rw [measurement?_isSome_iff]
      simp
    · rintro _ m ⟨⟩ hm
      obtain ⟨_, _, -, -, rfl⟩ := measurement?_some hm
      rfl

/-- A packet without a reliable sample of its sender's clock is not matched at all. Any other is
matched with the partner that the rule of matching takes: there is one as soon as there is a usable
entry, it is counted then and only then, and what is missing for a measurement behind it can only
be a position. -/
theorem processPacket_finds (e : Engine) (id : UInt8) (sentAt receivedAt now : Nat)
    (hoffset : e.matching = .rotating → e.offset.toNat ≤ 2 ^ 64 - 17)
    (hroom : ∀ c, e.registry.find id = some c → c.heard.length ≤ Table.capacity)
    (hflights : ∀ c, e.registry.find id = some c →
      ∀ flight ∈ c.flights, flight.value ≤ 65535) :
    ((∀ c, e.registry.find id = some c → ¬ Reliable c sentAt receivedAt) →
      ∃ e', e.processPacket id sentAt receivedAt now = .ok (e', none) ∧ e'.offset = e.offset ∧
        e'.telemetry.ranging.partnerFound = e.telemetry.ranging.partnerFound) ∧
    ∀ c, e.registry.find id = some c → Reliable c sentAt receivedAt →
      ∃ partner e' result, e.processPacket id sentAt receivedAt now = .ok (e', result) ∧
        e.Matched c now partner e' result := by
  constructor
  · intro h
    obtain ⟨registry, hrate⟩ := updateRate_unreliable h
    refine ⟨{ e with registry := registry }, ?_, rfl, rfl⟩
    rw [processPacket_eq, hrate]
    rfl
  · intro c hc hreliable
    obtain ⟨e₁, rate, hrated, hprocess⟩ := processPacket_reliable hc hreliable
    have hplaces (hm : e₁.matching = .rotating) :
        e₁.offset.toNat + (e₁.candidates { c with rate := rate } now).length ≤ 2 ^ 64 := by
      have hle := hoffset (hrated.matching ▸ hm)
      have hlength : (e₁.candidates { c with rate := rate } now).length ≤ 16 :=
        Nat.le_trans (List.length_filter_le _ c.heard) (hroom c hc)
      rw [hrated.toNat_offset (hrated.matching ▸ hm) hle]
      omega
    obtain ⟨e', result, hpair, hoffset', hcount', hmeasured, hanchors⟩ :=
      pairUp_spec hrated.find (hflights c hc) sentAt receivedAt now
    refine ⟨e₁.choose { c with rate := rate } now, e', result, (hprocess now).trans hpair, ?_⟩
    exact {
      picked := by
        intro other
        rw [choose_eq_some_iff hplaces, hrated.picks]
        cases hm : e.matching with
        | rotating => rw [hrated.toNat_offset hm (hoffset hm)]
        | youngest => simp only [Picks, hm]
      found := by
        rw [choose_isSome_iff hplaces]
        simp only [hrated.candidates, hrated.usable]
      offset := hoffset'.trans hrated.offset
      counted := hrated.counted ▸ hcount'
      measured := hmeasured
      anchors := hanchors }

/-! ### Two usable entries -/

/-- An anchor whose packet 5 was heard, and of which the position is known. -/
def neighbour (id : UInt8) : Context :=
  { (Context.fresh id 0).setLatest 1400 1400 5 with placement := some ⟨⟨0, 0, 0⟩, 0⟩ }

/-- An anchor that heard packet 5 of two others. -/
def listener : Context where
  id := 2
  lastSeen := 0
  sequence := 0
  latest := some ⟨1000, 1000⟩
  heard := [⟨1, ⟨1500, 5⟩, 0⟩, ⟨3, ⟨1500, 5⟩, 0⟩]
  flights := [⟨1, 100, 0⟩, ⟨3, 100, 0⟩]
  placement := some ⟨⟨0, 0, 0⟩, 0⟩
  rate := ⟨1.0, 4⟩

def crowd : Engine where
  registry := ⟨[neighbour 1, listener, neighbour 3], 2000⟩
  telemetry := default
  matching := .rotating
  offset := 0
  tickFrequency := Ranging.tickFrequency
  heardValidity := 30
  flightValidity := 2000

/-- Both entries are usable, and the search begins at the second one. -/
theorem crowd_finds_second :
    ∃ e' result, crowd.processPacket 2 2000 2000 0 = .ok (e', result) ∧
      crowd.Matched listener 0 (some (neighbour 3)) e' result := by
  have hfind : crowd.registry.find 2 = some listener := by decide +kernel
  have hreliable : Reliable listener 2000 2000 := ⟨⟨1000, 1000⟩, rfl, by decide, by decide +kernel⟩
  obtain ⟨partner, e', result, hok, hmatched⟩ :=
    (processPacket_finds crowd 2 2000 2000 0 (fun _ => by decide)
      (fun c hc => by cases hfind.symm.trans hc; decide)
      (fun c hc => by cases hfind.symm.trans hc; decide)).2 listener hfind hreliable
  have hpartner : partner = some (neighbour 3) := (hmatched.picked _).mpr
    ⟨[], ⟨3, ⟨1500, 5⟩, 0⟩, [⟨1, ⟨1500, 5⟩, 0⟩], by decide,
      ⟨by decide, by decide +kernel, by decide, by decide, by decide, ⟨⟨3, 100, 0⟩, by decide⟩⟩,
      by simp⟩
  exact ⟨e', result, hok, hpartner ▸ hmatched⟩

end Engine
end Ranging.Pairing
