import Ranging.Proofs.Anchor.Registry

/-!
# The whole effect of a range packet on the registry

`Registry.hear` collects everything that a received range packet changes in the registry. It
depends on the registry and the packet alone. Only the sender's context takes anything over from
the packet; every other anchor is left alone, refreshed when the packet names it, or loses its slot
to the sender.
-/
namespace Ranging.Anchor

namespace Context

/-- Refreshed if a condition holds. -/
def refreshIf (c : Context) (now : Nat) (b : Bool) : Context := if b then c.refresh now else c

@[simp] theorem refreshIf_id (c : Context) (now : Nat) (b : Bool) :
    (c.refreshIf now b).id = c.id := by
  cases b <;> rfl

theorem refresh_refresh (c : Context) (now : Nat) :
    (c.refresh now).refresh now = c.refresh now := by
  simp [refresh]

/-- Refreshing changes nothing but the date. -/
theorem refreshIf_eq (c : Context) (now : Nat) (b : Bool) :
    c.refreshIf now b = { c with lastSeen := if b then max c.lastSeen now else c.lastSeen } := by
  cases b <;> rfl

@[simp] theorem concluded_id (c : Context) (x : Reception) : (c.concluded x).id = c.id := by
  unfold concluded
  cases x.position? <;> rfl

/-- A context that was just made counts as refreshed already. -/
theorem refresh_fresh (id : UInt8) (now : Nat) : (fresh id now).refresh now = fresh id now := by
  simp [refresh, fresh]

end Context

namespace Registry

open Context (refresh_id relayed_id rated_id concluded_id)
open Ranging.Wire (RangePacket RemoteRecord)

variable {r : Registry} {c c' : Context} {id k : UInt8} {now : Nat} {x : Reception}

/-! ### Anchors that the sender heard count as heard -/

/-- Refreshes the anchors that a packet names, its sender apart. -/
def refreshNamed (r : Registry) (x : Reception) : Registry :=
  x.packet.records.foldl (fun r record =>
    if record.anchor ≠ x.sender ∧ record.receivedAt ≠ 0 then (r.touch record.anchor x.now).1
    else r) r

/-- Whether a packet refreshes an anchor other than its sender. -/
def refreshes (x : Reception) (k : UInt8) : Bool := k != x.sender && x.packet.names k

theorem find_refreshNamed (r : Registry) (x : Reception) (k : UInt8) :
    (r.refreshNamed x).find k = (r.find k).map (·.refreshIf x.now (refreshes x k)) := by
  unfold refreshNamed refreshes
  rw [RangePacket.names_eq_any]
  induction x.packet.records generalizing r with
  | nil => simp [Context.refreshIf]
  | cons record rest ih =>
    rw [List.foldl_cons, ih, List.any_cons]
    by_cases hc : record.anchor ≠ x.sender ∧ record.receivedAt ≠ 0
    · have hvalid : (record.receivedAt != 0) = true := bne_iff_ne.mpr hc.2
      rw [if_pos hc, Registry.touch, find_modify (refresh_id · x.now)]
      by_cases hk : k = record.anchor
      · have hsender : (k != x.sender) = true := bne_iff_ne.mpr (hk ▸ hc.1)
        rw [if_pos hk, ← hk, hsender, hvalid, beq_self_eq_true]
        cases r.find k with
        | none => rfl
        | some c =>
          cases rest.any fun r => r.anchor == k && r.receivedAt != 0 <;>
            simp [Context.refreshIf, Context.refresh_refresh]
      · rw [if_neg hk, beq_false_of_ne (Ne.symm hk)]
        simp
    · rw [if_neg hc]
      -- a record of the sender itself, or without a valid time, refreshes nobody
      have hskip : (k != x.sender && (record.anchor == k && record.receivedAt != 0)) = false := by
        by_cases hk : record.anchor = k
        · subst hk
          by_cases hs : record.anchor = x.sender
          · simp [hs]
          · have hzero : record.receivedAt = 0 := Decidable.byContradiction fun h => hc ⟨hs, h⟩
            simp [hzero]
        · simp [beq_false_of_ne hk]
      rw [Bool.and_or_distrib_left, hskip, Bool.false_or]

theorem Distinct.refreshNamed (hd : r.Distinct) (x : Reception) : (r.refreshNamed x).Distinct := by
  unfold Registry.refreshNamed
  induction x.packet.records generalizing r with
  | nil => exact hd
  | cons record rest ih =>
    rw [List.foldl_cons]
    apply ih
    split
    · exact hd.modify (refresh_id · x.now) record.anchor
    · exact hd

theorem refreshNamed_window (r : Registry) (x : Reception) :
    (r.refreshNamed x).window = r.window := by
  unfold refreshNamed
  induction x.packet.records generalizing r with
  | nil => rfl
  | cons record rest ih =>
    rw [List.foldl_cons, ih]
    split <;> rfl

/-! ### The packet as a whole -/

/-- The registry once a packet is stored: its sender tracked with what the packet relays, the
named anchors refreshed. -/
def gathered (r : Registry) (x : Reception) : Registry :=
  ((r.track x.sender x.now).modify x.sender (·.relayed x.packet x.now)).refreshNamed x

/-- The registry as the matching finds it, behind the clock sample. -/
def prepared (r : Registry) (x : Reception) : Registry :=
  (r.gathered x).modify x.sender (·.rated x)

/-- The registry behind a range packet. -/
def hear (r : Registry) (x : Reception) : Registry :=
  (r.prepared x).modify x.sender (·.concluded x)

/-- The sender's context before its packet: a blank one if it was not tracked. -/
def known (r : Registry) (x : Reception) : Context :=
  (r.find x.sender).getD (.fresh x.sender x.now)

theorem known_id (r : Registry) (x : Reception) : (r.known x).id = x.sender := by
  unfold known
  cases hf : r.find x.sender with
  | none => rfl
  | some c => exact (find_mem hf).2

/-- A clock sample needs an earlier packet of the sender, so the sender was tracked. -/
theorem find_known {sample : Float} (h : (r.known x).sample? x = some sample) :
    r.find x.sender = some (r.known x) := by
  unfold known at *
  cases hf : r.find x.sender with
  | none => simp [hf] at h
  | some c => rfl

theorem heardNow_eq (r : Registry) (x : Reception) :
    r.heardNow x.sender x.now = (r.known x).refresh x.now := by
  unfold heardNow known
  cases r.find x.sender with
  | none => exact (Context.refresh_fresh _ _).symm
  | some c => rfl

theorem find_gathered_sender (r : Registry) (x : Reception) :
    (r.gathered x).find x.sender =
      some (((r.known x).refresh x.now).relayed x.packet x.now) := by
  unfold gathered
  rw [find_refreshNamed, find_modify_self (relayed_id · x.packet x.now), find_track_self,
    heardNow_eq]
  simp [refreshes, Context.refreshIf]

theorem find_prepared_sender (r : Registry) (x : Reception) :
    (r.prepared x).find x.sender = some ((r.known x).prepared x) := by
  unfold prepared
  rw [find_modify_self (rated_id · x), find_gathered_sender]
  rfl

theorem find_prepared_other (r : Registry) (hk : k ≠ x.sender) :
    (r.prepared x).find k =
      ((r.track x.sender x.now).find k).map (·.refreshIf x.now (x.packet.names k)) := by
  unfold prepared gathered
  rw [find_modify_other (rated_id · x) _ hk, find_refreshNamed,
    find_modify_other (relayed_id · x.packet x.now) _ hk]
  simp [refreshes, bne_iff_ne.mpr hk]

/-- The sender is tracked behind its packet, with what its context makes of the packet. -/
theorem find_hear_sender (r : Registry) (x : Reception) :
    (r.hear x).find x.sender = some ((r.known x).receive x) := by
  unfold hear
  rw [find_modify_self (concluded_id · x), find_prepared_sender]
  rfl

/-- Another anchor that is tracked when the matching runs was tracked before. -/
theorem find_prepared_of_ne (hd : r.Distinct) (hk : k ≠ x.sender)
    (h : (r.prepared x).find k = some c') :
    ∃ c, r.find k = some c ∧ c' = c.refreshIf x.now (x.packet.names k) := by
  rw [find_prepared_other r hk, Option.map_eq_some_iff] at h
  obtain ⟨c, hc, rfl⟩ := h
  rcases find_track_other hd hk x.now with heq | hnone
  · exact ⟨c, heq ▸ hc, rfl⟩
  · rw [hnone] at hc
    cases hc

/-- Behind a packet another anchor still has its context, refreshed when the packet names it. -/
theorem find_hear_other (hd : r.Distinct) (hk : k ≠ x.sender) (h : (r.hear x).find k = some c') :
    ∃ c, r.find k = some c ∧ c' = c.refreshIf x.now (x.packet.names k) := by
  unfold hear at h
  rw [find_modify_other (concluded_id · x) _ hk] at h
  exact find_prepared_of_ne hd hk h

theorem Distinct.prepared (hd : r.Distinct) (x : Reception) : (r.prepared x).Distinct :=
  (((hd.track x.sender x.now).modify (relayed_id · x.packet x.now) x.sender).refreshNamed x).modify
    (rated_id · x) x.sender

theorem Distinct.hear (hd : r.Distinct) (x : Reception) : (r.hear x).Distinct :=
  (hd.prepared x).modify (concluded_id · x) x.sender

@[simp] theorem prepared_window (r : Registry) (x : Reception) :
    (r.prepared x).window = r.window := by
  simp [prepared, gathered, refreshNamed_window]

@[simp] theorem hear_window (r : Registry) (x : Reception) : (r.hear x).window = r.window := by
  simp [hear]

/-- What holds of the sender's new context and survives a refresh holds of every context behind a
packet. -/
theorem forall_hear {P Q : Context → Prop} (hd : r.Distinct)
    (h : ∀ k c, r.find k = some c → P c) (hsender : Q ((r.known x).receive x))
    (hother : ∀ c b, P c → c.id ≠ x.sender → Q (c.refreshIf x.now b)) :
    ∀ k c, (r.hear x).find k = some c → Q c := by
  intro k c hc
  by_cases hk : k = x.sender
  · subst hk
    rw [find_hear_sender, Option.some.injEq] at hc
    exact hc ▸ hsender
  · obtain ⟨c, hf, rfl⟩ := find_hear_other hd hk hc
    exact hother c _ (h k c hf) ((find_mem hf).2 ▸ hk)

/-! ### Room for everybody -/

theorem ids_refreshNamed (r : Registry) (x : Reception) : (r.refreshNamed x).ids = r.ids := by
  unfold refreshNamed
  induction x.packet.records generalizing r with
  | nil => rfl
  | cons record rest ih =>
    rw [List.foldl_cons, ih]
    split
    · exact ids_modify (refresh_id · x.now) r record.anchor
    · rfl

/-- While there is room, no anchor loses its slot to the sender of a packet. -/
theorem ids_hear (h : r.slots.length < capacity) (x : Reception) :
    (r.hear x).ids = if x.sender ∈ r.ids then r.ids else r.ids ++ [x.sender] := by
  unfold hear prepared gathered
  rw [ids_modify (concluded_id · x), ids_modify (rated_id · x), ids_refreshNamed,
    ids_modify (relayed_id · x.packet x.now)]
  split
  · rename_i hid
    rw [track_known hid, ids_modify (refresh_id · x.now)]
  · rename_i hid
    unfold track ids
    rw [if_neg (mt contains_iff.mp hid), if_pos h, List.map_append]
    rfl

theorem mem_ids_hear (h : r.slots.length < capacity) (x : Reception) :
    id ∈ (r.hear x).ids ↔ id ∈ r.ids ∨ id = x.sender := by
  rw [ids_hear h]
  split
  · rename_i hmem
    exact ⟨.inl, fun hid => hid.elim (fun hid => hid) fun hid => hid ▸ hmem⟩
  · rw [List.mem_append, List.mem_singleton]

/-! ### Sweeping -/

theorem Distinct.sweep (hd : r.Distinct) (now : Nat) : (r.sweep now).1.Distinct :=
  hd.sublist (List.filter_sublist.map _)

/-- A context that survives a sweep is as it was. -/
theorem find_sweep (hd : r.Distinct) (h : (r.sweep now).1.find k = some c) :
    r.find k = some c := by
  obtain ⟨hm, rfl⟩ := find_mem h
  exact hd.find (List.mem_filter.mp hm).1

end Registry
end Ranging.Anchor
