import Ranging.Proofs.Anchor.Recast
import Ranging.Pairing.Engine

/-!
# Engines with other contents

An engine matches anchors by equal ids, dates and sequence numbers, and reads times only through
clock samples and differences. So where contexts are exchanged for others that agree in all of this
(`Engine.Recasts`), it makes the same choices (`Engine.choose_recast`), and the same measurement
comes out of a packet if the same differences do (`Engine.processPacket_recast`).
-/
namespace Ranging.Pairing.Engine

open Ranging.Anchor
open Ranging.Clock (RateFilter)

/-- Contexts are exchanged for others that matching cannot tell apart under renamed ids, and the
telemetry for one that takes the same notes under renamed ids. -/
structure Recasts (π : Equiv.Perm UInt8) (f : Context → Context) (g : Telemetry → Telemetry) :
    Prop extends Context.Recasts π f where
  sequence : ∀ c, (f c).sequence = c.sequence
  latest : ∀ c, (f c).latest.isSome = c.latest.isSome
  heard : ∀ c, ∃ h : Entry Heard → Entry Heard, Entry.Recasts π h ∧
    (∀ e, (h e).value.sequence = e.value.sequence) ∧ (f c).heard = c.heard.map h
  recentFlight : ∀ c id now age, (f c).recentFlight (π id) now age = c.recentFlight id now age
  rate : ∀ c, (f c).rate = c.rate
  setRate : ∀ c rate, f { c with rate := rate } = { f c with rate := rate }
  senderLookedUp : ∀ t known, g (t.senderLookedUp known) = (g t).senderLookedUp known
  rateSampled : ∀ t id rate, g (t.rateSampled id rate) = (g t).rateSampled (π id) rate
  timeReliable : ∀ t, g t.timeReliable = (g t).timeReliable
  partnerFound : ∀ t, g t.partnerFound = (g t).partnerFound

/-- The engine with its contexts and its telemetry exchanged. -/
def recast (f : Context → Context) (g : Telemetry → Telemetry) (e : Engine) : Engine :=
  { e with registry := e.registry.map f, telemetry := g e.telemetry }

/-! ### Lists -/

theorem turned_map {α β : Type} (f : α → β) (start : UInt64) (xs : List α) :
    turned start (xs.map f) = (turned start xs).map f := by
  unfold turned
  rw [List.length_map, List.map_filterMap]
  simp only [List.getElem?_map]

theorem lastHeard_map {f : Context → Context} (hf : ∀ c, (f c).lastSeen = c.lastSeen)
    (contexts : List Context) : lastHeard (contexts.map f) = (lastHeard contexts).map f := by
  induction contexts with
  | nil => rfl
  | cons c rest ih =>
    rw [List.map_cons, lastHeard, lastHeard, ih]
    cases lastHeard rest with
    | none => rfl
    | some best =>
      simp only [Option.map_some, hf]
      split <;> rfl

variable {π : Equiv.Perm UInt8} {f : Context → Context} {g : Telemetry → Telemetry}
  (hf : Recasts π f g) (e : Engine)

include hf

/-! ### Contexts and clock ratios -/

theorem find_recast (id : UInt8) :
    (e.recast f g).registry.find (π id) = (e.registry.find id).map f :=
  Registry.find_map hf.toRecasts e.registry id

theorem modifyContext_recast {id : UInt8} {h h' : Context → Context}
    (hh : ∀ c, c.id = id → h' (f c) = f (h c)) :
    (e.recast f g).modifyContext (π id) h' = (e.modifyContext id h).recast f g := by
  unfold modifyContext recast
  dsimp only
  rw [Registry.modify_map hf.toRecasts e.registry hh]

theorem beginPacket_recast (id : UInt8) (now : Nat) :
    (e.recast f g).beginPacket (π id) now = (e.beginPacket id now).recast f g := by
  unfold beginPacket recast
  dsimp only
  rw [Registry.contains_map hf.toRecasts, Registry.track_map hf.toRecasts, hf.senderLookedUp]

/-- The same clock sample feeds the filter of the anchor in the same place. -/
theorem updateRate_recast {id : UInt8} {sentAt sentAt' receivedAt receivedAt' : Nat}
    (hsample : (e.recast f g).rateSample? (π id) sentAt' receivedAt' =
      e.rateSample? id sentAt receivedAt) :
    (e.recast f g).updateRate (π id) sentAt' receivedAt' =
      ((e.updateRate id sentAt receivedAt).1.recast f g,
        (e.updateRate id sentAt receivedAt).2) := by
  unfold updateRate
  rw [hsample, find_recast hf]
  cases e.registry.find id with
  | none => rfl
  | some c =>
    cases e.rateSample? id sentAt receivedAt with
    | none => rfl
    | some sample =>
      have hmodify : (e.recast f g).modifyContext (π id)
            (fun c' => { c' with rate := (c.rate.update sample).1 }) =
          (e.modifyContext id fun c' => { c' with rate := (c.rate.update sample).1 }).recast f g :=
        modifyContext_recast hf e fun c' _ => (hf.setRate c' _).symm
      simp only [Option.map_some, hf.rate, hmodify]
      split
      · unfold recast
        dsimp only
        rw [hf.rateSampled]
      · rfl

/-! ### Matching -/

theorem usable?_recast (current : Context) (now : Nat) {entry entry' : Entry Heard}
    (hkey : entry'.key = π entry.key) (hsequence : entry'.value.sequence = entry.value.sequence) :
    (e.recast f g).usable? (f current) now entry' = (e.usable? current now entry).map f := by
  have hactive : (e.recast f g).registry.findActive (π entry.key) now =
      (e.registry.findActive entry.key now).map f :=
    Registry.findActive_map hf.toRecasts e.registry entry.key now
  unfold usable?
  rw [hkey, hf.id, hactive, hsequence]
  simp only [π.apply_eq_iff_eq]
  split
  · rfl
  · cases e.registry.findActive entry.key now with
    | none => rfl
    | some other =>
      -- the partner in the same place passes the same three checks
      simp only [Option.map_some, hf.latest, hf.sequence, hf.recentFlight]
      show (if other.latest.isSome ∧ other.sequence = entry.value.sequence ∧
        (current.recentFlight entry.key now e.flightValidity).isSome then _ else _) = _
      split <;> rfl

theorem choose_recast (current : Context) (now : Nat) :
    (e.recast f g).choose (f current) now = (e.choose current now).map f := by
  obtain ⟨h, hh, hsequence, hheard⟩ := hf.heard current
  have hrecent : (f current).heard.recent now (e.recast f g).heardValidity =
      (current.heard.recent now e.heardValidity).map h := by
    rw [hheard]
    exact Table.recent_map hh current.heard now e.heardValidity
  have husable : (e.recast f g).usable? (f current) now ∘ h =
      fun entry => (e.usable? current now entry).map f :=
    funext fun entry => usable?_recast hf e current now (hh.key entry) (hsequence entry)
  have hmatching : (e.recast f g).matching = e.matching := rfl
  unfold choose
  rw [hrecent, hmatching]
  cases e.matching with
  | rotating =>
    show (turned e.offset _).findSome? _ = Option.map _ ((turned e.offset _).findSome? _)
    rw [turned_map, List.findSome?_map, husable, List.map_findSome?]
    rfl
  | youngest =>
    show lastHeard _ = Option.map _ (lastHeard _)
    rw [List.filterMap_map, husable, ← List.map_filterMap, lastHeard_map hf.lastSeen]

omit hf in
theorem rotate_recast : (e.recast f g).rotate = e.rotate.recast f g := by
  obtain ⟨registry, telemetry, matching, _, _, _, _⟩ := e
  cases matching <;> rfl

/-! ### Measurements -/

/-- With the same clock samples and the same differences, the same comes out of a packet. -/
theorem processPacket_recast {m : Measurement → Measurement} {id : UInt8}
    {sentAt sentAt' receivedAt receivedAt' now : Nat}
    (hsample : (e.recast f g).rateSample? (π id) sentAt' receivedAt' =
      e.rateSample? id sentAt receivedAt)
    (hdifference : ∀ (e : Engine) other current, current.id = id →
      (e.recast f g).difference (f other) (f current) sentAt' receivedAt' now =
        e.difference other current sentAt receivedAt now)
    (hmeasurement : ∀ other current difference,
      measurement? (f other) (f current) difference =
        (measurement? other current difference).map m) :
    (e.recast f g).processPacket (π id) sentAt' receivedAt' now =
      (e.processPacket id sentAt receivedAt now).map
        fun out => (out.1.recast f g, out.2.map m) := by
  unfold processPacket
  rw [updateRate_recast hf e hsample]
  generalize e.updateRate id sentAt receivedAt = u
  obtain ⟨e, reliable⟩ := u
  cases reliable with
  | false => rfl
  | true =>
    have hrotate : ({ e.recast f g with
          telemetry := (e.recast f g).telemetry.timeReliable } : Engine).rotate =
        ({ e with telemetry := e.telemetry.timeReliable } : Engine).rotate.recast f g := by
      rw [← rotate_recast]
      unfold recast
      dsimp only
      rw [hf.timeReliable]
    simp only [if_true]
    rw [hrotate]
    generalize ({ e with telemetry := e.telemetry.timeReliable } : Engine).rotate = e
    rw [find_recast hf]
    cases hc : e.registry.find id with
    | none => rfl
    | some current =>
      simp only [Option.map_some, choose_recast hf]
      cases e.choose current now with
      | none => rfl
      | some other =>
        let found : Engine := { e with telemetry := e.telemetry.partnerFound }
        have hfound : ({ e.recast f g with
            telemetry := (e.recast f g).telemetry.partnerFound } : Engine) = found.recast f g := by
          unfold recast
          dsimp only [found]
          rw [hf.partnerFound]
        simp only [Option.map_some, hfound,
          hdifference found other current (Registry.find_mem hc).2, hmeasurement]
        show (found.difference other current sentAt receivedAt now >>= fun d => _) =
          Except.map _ (found.difference other current sentAt receivedAt now >>= fun d => _)
        cases found.difference other current sentAt receivedAt now with
        | error fault => rfl
        | ok d => cases d <;> rfl

end Ranging.Pairing.Engine
