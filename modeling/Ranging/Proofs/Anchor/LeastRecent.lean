import Mathlib.Data.List.Induction
import Ranging.Proofs.Anchor.Registry

/-!
# A registry keeps the anchors that were seen last

When all slots are taken, a new anchor gets the slot of the one that has been silent for longest;
`Registry.Tracking` says all that tracking an anchor does to the slots. So whatever an operation
drops was last seen no later than anything that it leaves (`since_of_drops`). With dates that never
move back this outlasts every further operation (`since_perform`), and over a whole run no tracked
anchor was last seen before one that was dropped (`performed_leastRecent`).
-/
namespace Ranging.Anchor

open Ranging.Clock (RateFilter)
open Ranging.Number (Single)

/-! ### Operations -/

/-- A change to a context in its place. -/
inductive Edit where
  | latest (receivedAt sentAt : Nat) (sequence : UInt8)
  | heard (other : UInt8) (receivedAt : Nat) (sequence : UInt8) (now : Nat)
  | flight (other : UInt8) (ticks now : Nat)
  | position (position : Vec3 Single) (now : Nat)
  | rate (rate : RateFilter)

def Context.edit (c : Context) : Edit → Context
  | .latest receivedAt sentAt sequence => c.setLatest receivedAt sentAt sequence
  | .heard other receivedAt sequence now => c.setHeard other receivedAt sequence now
  | .flight other ticks now => c.setFlight other ticks now
  | .position position now => c.setPosition position now
  | .rate rate => { c with rate := rate }

@[simp] theorem Context.edit_id (c : Context) (e : Edit) : (c.edit e).id = c.id := by
  cases e <;> rfl

@[simp] theorem Context.edit_lastSeen (c : Context) (e : Edit) :
    (c.edit e).lastSeen = c.lastSeen := by
  cases e <;> rfl

namespace Registry

/-- Something that is done with a registry; refreshing a context in its place is a touch. -/
inductive Operation where
  | track (id : UInt8) (now : Nat)
  | touch (id : UInt8) (now : Nat)
  | sweep (now : Nat)
  | edit (id : UInt8) (e : Edit)

/-- The date of an operation; a change in place has none. -/
def Operation.date? : Operation → Option Nat
  | track _ now => some now
  | touch _ now => some now
  | sweep now => some now
  | edit _ _ => none

def perform (r : Registry) : Operation → Registry
  | .track id now => r.track id now
  | .touch id now => (r.touch id now).1
  | .sweep now => (r.sweep now).1
  | .edit id e => r.modify id (·.edit e)

/-- The registry that operations leave of one without anchors. -/
def performed (window : Nat) (operations : List Operation) : Registry :=
  operations.foldl perform (.empty window)

/-- The dates of operations never move back. -/
def Timely (operations : List Operation) : Prop :=
  (operations.filterMap Operation.date?).Pairwise (· ≤ ·)

instance (operations : List Operation) : Decidable (Timely operations) :=
  inferInstanceAs (Decidable ((operations.filterMap Operation.date?).Pairwise (· ≤ ·)))

/-- An operation drops a context: its anchor is tracked before and no longer behind it. -/
def Drops (r : Registry) (o : Operation) (c : Context) : Prop :=
  c ∈ r.slots ∧ c.id ∉ (r.perform o).ids

variable {r : Registry} {id : UInt8} {now date window : Nat} {o : Operation} {c d : Context}

/-! ### Tracking an anchor -/

/-- What tracking an anchor makes of a registry. -/
inductive Tracking (r : Registry) (id : UInt8) (now : Nat) : Registry → Prop where
  /-- A tracked anchor keeps its slot and all that is known of it, up to its date. -/
  | known (before after : List Context) (c : Context) (hslots : r.slots = before ++ c :: after)
      (hid : c.id = id) :
      Tracking r id now { r with slots := before ++ c.refresh now :: after }
  /-- A new anchor takes a free slot at the end. -/
  | room (hid : id ∉ r.ids) (hroom : r.slots.length < capacity) :
      Tracking r id now { r with slots := r.slots ++ [.fresh id now] }
  /-- With all slots taken, a new anchor replaces the first of those seen least recently. -/
  | reclaimed (before after : List Context) (c : Context) (hid : id ∉ r.ids)
      (hfull : r.slots.length = capacity) (hslots : r.slots = before ++ c :: after)
      (hbefore : ∀ d ∈ before, c.lastSeen < d.lastSeen)
      (hafter : ∀ d ∈ after, c.lastSeen ≤ d.lastSeen) :
      Tracking r id now { r with slots := before ++ .fresh id now :: after }

theorem stalest_le {slots : List Context} {date : Nat} (h : stalest slots = some date) :
    ∀ d ∈ slots, date ≤ d.lastSeen := by
  induction slots generalizing date with
  | nil => cases h
  | cons head rest ih =>
    intro d hd
    cases hrest : stalest rest with
    | none =>
      -- only the empty list has no stalest date
      have hnil : rest = [] := by
        cases rest with
        | nil => rfl
        | cons c rest => simp only [stalest] at hrest; split at hrest <;> cases hrest
      simp only [stalest, hrest, Option.some.injEq] at h
      subst hnil
      rw [List.mem_singleton.mp hd]
      omega
    | some oldest =>
      simp only [stalest, hrest, Option.some.injEq] at h
      rcases List.mem_cons.mp hd with rfl | hd
      · omega
      · have hle := ih hrest d hd
        omega

/-- Within its capacity a registry tracks an anchor in one of these ways. -/
theorem tracking (hlength : r.slots.length ≤ capacity) (id : UInt8) (now : Nat) :
    r.Tracking id now (r.track id now) := by
  unfold track
  by_cases hid : id ∈ r.ids
  · rw [if_pos (contains_iff.mpr hid)]
    obtain ⟨c, hc⟩ := mem_ids_iff.mp hid
    obtain ⟨hmem, hcid⟩ := find_mem hc
    obtain ⟨before, c, after, hs, -, hp, hu⟩ :=
      updateFirst_split (p := fun c : Context => c.id == id) (f := (·.refresh now))
        ⟨c, hmem, by simp [hcid]⟩
    rw [modify, hu]
    exact .known before after c hs (by simpa using hp)
  · rw [if_neg (mt contains_iff.mp hid)]
    by_cases hroom : r.slots.length < capacity
    · rw [if_pos hroom]
      exact .room hid hroom
    · rw [if_neg hroom]
      have hne : r.slots ≠ [] := by
        intro hnil
        rw [hnil] at hroom
        exact hroom (by decide)
      obtain ⟨v, hv, hdate⟩ := exists_stalest hne
      obtain ⟨before, c, after, hs, hbefore, hc, hu⟩ :=
        updateFirst_split (p := fun c => some c.lastSeen == stalest r.slots)
          (f := fun _ => .fresh id now) ⟨v, hv, by simp [hdate]⟩
      have hstalest : stalest r.slots = some c.lastSeen := (beq_iff_eq.mp hc).symm
      have hle := stalest_le hstalest
      rw [hu]
      refine .reclaimed before after c hid (by omega) hs ?_ ?_
      · intro d hd
        have hcd := hle d (by simp [hs, hd])
        have hother : d.lastSeen ≠ c.lastSeen := by
          intro heq
          exact hbefore d hd (by simp [heq, hstalest])
        omega
      · intro d hd
        exact hle d (by simp [hs, hd])

/-! ### One operation -/

theorem Distinct.perform (hd : r.Distinct) (o : Operation) : (r.perform o).Distinct := by
  cases o with
  | track id now => exact hd.track id now
  | touch id now => exact hd.modify (Context.refresh_id · now) id
  | sweep now => exact List.Nodup.sublist (List.filter_sublist.map _) hd
  | edit id e => exact hd.modify (fun c => c.edit_id e) id

theorem length_perform_le (h : r.slots.length ≤ capacity) (o : Operation) :
    (r.perform o).slots.length ≤ capacity := by
  cases o with
  | track id now => exact length_track_le r id now h
  | touch id now => exact Nat.le_trans (Nat.le_of_eq (length_modify r id _)) h
  | sweep now => exact Nat.le_trans (List.length_filter_le _ r.slots) h
  | edit id e => exact Nat.le_trans (Nat.le_of_eq (length_modify r id _)) h

/-- An anchor left by an operation was last seen when one was before, or is seen at its date. -/
theorem lastSeen_perform (hlength : r.slots.length ≤ capacity) (h : d ∈ (r.perform o).slots) :
    (∃ c ∈ r.slots, d.lastSeen = c.lastSeen) ∨ o.date? = some d.lastSeen := by
  have hmax (m n : Nat) : max m n = m ∨ max m n = n := by omega
  cases o with
  | track id now =>
    have ht := tracking hlength id now
    change d ∈ (r.track id now).slots at h
    generalize r.track id now = tracked at ht h
    cases ht with
    | known before after c hslots hid =>
      rcases List.mem_append.mp h with h | h
      · exact .inl ⟨d, by simp [hslots, h], rfl⟩
      · rcases List.mem_cons.mp h with rfl | h
        · rcases hmax c.lastSeen now with heq | heq
          · exact .inl ⟨c, by simp [hslots], heq⟩
          · exact .inr (congrArg some heq.symm)
        · exact .inl ⟨d, by simp [hslots, h], rfl⟩
    | room hid hroom =>
      rcases List.mem_append.mp h with h | h
      · exact .inl ⟨d, h, rfl⟩
      · rw [List.mem_singleton.mp h]
        exact .inr rfl
    | reclaimed before after c hid hfull hslots hbefore hafter =>
      rcases List.mem_append.mp h with h | h
      · exact .inl ⟨d, by simp [hslots, h], rfl⟩
      · rcases List.mem_cons.mp h with rfl | h
        · exact .inr rfl
        · exact .inl ⟨d, by simp [hslots, h], rfl⟩
  | touch id now =>
    obtain ⟨c, hc, rfl | rfl⟩ := mem_updateFirst h
    · exact .inl ⟨d, hc, rfl⟩
    · rcases hmax c.lastSeen now with heq | heq
      · exact .inl ⟨c, hc, heq⟩
      · exact .inr (congrArg some heq.symm)
  | sweep now => exact .inl ⟨d, (List.mem_filter.mp h).1, rfl⟩
  | edit id e =>
    obtain ⟨c, hc, rfl | rfl⟩ := mem_updateFirst h
    · exact .inl ⟨d, hc, rfl⟩
    · exact .inl ⟨c, hc, c.edit_lastSeen e⟩

/-- What an operation drops was last seen no later than anything that it leaves. -/
theorem since_of_drops (hlength : r.slots.length ≤ capacity)
    (hdates : ∀ d ∈ r.slots, ∀ date ∈ o.date?, d.lastSeen ≤ date) (hdrop : r.Drops o c)
    (h : d ∈ (r.perform o).slots) : c.lastSeen ≤ d.lastSeen := by
  obtain ⟨hc, hgone⟩ := hdrop
  cases o with
  | track id now =>
    have ht := tracking hlength id now
    have hnow : c.lastSeen ≤ now := hdates c hc now rfl
    change d ∈ (r.track id now).slots at h
    change c.id ∉ (r.track id now).ids at hgone
    generalize r.track id now = tracked at ht h hgone
    -- a context that still has a slot is not dropped, so only the one reclaimed can be `c`
    have hleft {slots : List Context} (hgone : c.id ∉ slots.map (·.id)) : c ∉ slots :=
      fun hmem => hgone (List.mem_map_of_mem hmem)
    cases ht with
    | known before after v hslots hid =>
      have hids := id_mem_ids hc
      rw [ids, hslots] at hids
      exact absurd (by simpa [ids] using hids) hgone
    | room hid hroom => exact absurd (List.mem_append_left _ hc) (hleft hgone)
    | reclaimed before after v hid hfull hslots hbefore hafter =>
      have hnot := hleft hgone
      simp only [List.mem_append, List.mem_cons, not_or] at hnot h
      have hcv : c = v := by simpa [hslots, hnot.1, hnot.2.2] using hc
      subst hcv
      rcases h with h | rfl | h
      · exact Nat.le_of_lt (hbefore d h)
      · exact hnow
      · exact hafter d h
  | touch id now =>
    exact absurd (ids_modify (Context.refresh_id · now) r id ▸ id_mem_ids hc) hgone
  | sweep now =>
    obtain ⟨-, hkept⟩ := List.mem_filter.mp h
    have hexpired : ¬ r.isActive now c := by
      intro hactive
      exact hgone (id_mem_ids (List.mem_filter.mpr ⟨hc, hactive⟩))
    simp only [isActive, decide_eq_true_eq] at hkept hexpired
    omega
  | edit id e => exact absurd (ids_modify (·.edit_id e) r id ▸ id_mem_ids hc) hgone

/-- Operations of later dates leave no anchor that was last seen before a date. -/
theorem since_perform (hlength : r.slots.length ≤ capacity)
    (hdate : ∀ now ∈ o.date?, date ≤ now) (hsince : ∀ d ∈ r.slots, date ≤ d.lastSeen)
    (h : d ∈ (r.perform o).slots) : date ≤ d.lastSeen := by
  rcases lastSeen_perform hlength h with ⟨c, hc, heq⟩ | heq
  · exact heq ▸ hsince c hc
  · exact hdate _ heq

/-! ### Runs -/

variable {ops past later : List Operation}

theorem performed_append (window : Nat) (past later : List Operation) :
    performed window (past ++ later) = later.foldl perform (performed window past) :=
  List.foldl_append

theorem performed_concat (window : Nat) (past : List Operation) (o : Operation) :
    performed window (past ++ [o]) = (performed window past).perform o :=
  performed_append window past [o]

theorem length_performed_le (window : Nat) (ops : List Operation) :
    (performed window ops).slots.length ≤ capacity := by
  induction ops using List.reverseRecOn with
  | nil => exact Nat.zero_le _
  | append_singleton past o ih =>
    rw [performed_concat]
    exact length_perform_le ih o

theorem distinct_performed (window : Nat) (ops : List Operation) :
    (performed window ops).Distinct := by
  induction ops using List.reverseRecOn with
  | nil => exact List.nodup_nil
  | append_singleton past o ih =>
    rw [performed_concat]
    exact ih.perform o

/-- An anchor was last seen at the date of some operation. -/
theorem lastSeen_performed (h : c ∈ (performed window ops).slots) :
    c.lastSeen ∈ ops.filterMap Operation.date? := by
  induction ops using List.reverseRecOn generalizing c with
  | nil => cases h
  | append_singleton past o ih =>
    rw [performed_concat] at h
    rw [List.filterMap_append, List.mem_append]
    rcases lastSeen_perform (length_performed_le window past) h with ⟨d, hd, heq⟩ | heq
    · exact .inl (heq ▸ ih hd)
    · exact .inr (by simp [heq])

/-- The anchors tracked at some point were last seen no later than anything done from there on. -/
theorem Timely.le_later (h : Timely (past ++ later)) (hc : c ∈ (performed window past).slots)
    (ho : o ∈ later) : ∀ now ∈ o.date?, c.lastSeen ≤ now := by
  intro now hnow
  unfold Timely at h
  rw [List.filterMap_append, List.pairwise_append] at h
  exact h.2.2 _ (lastSeen_performed hc) now (List.mem_filterMap.mpr ⟨o, ho, hnow⟩)

theorem since_performed (hlength : r.slots.length ≤ capacity)
    (hdates : ∀ o ∈ later, ∀ now ∈ o.date?, date ≤ now) (hsince : ∀ d ∈ r.slots, date ≤ d.lastSeen)
    (h : d ∈ (later.foldl perform r).slots) : date ≤ d.lastSeen := by
  induction later generalizing r with
  | nil => exact hsince d h
  | cons o later ih =>
    refine ih (length_perform_le hlength o) (fun o' ho' => hdates o' (by simp [ho'])) ?_ h
    intro d hd
    exact since_perform hlength (hdates o (by simp)) hsince hd

/-- A registry keeps what was seen last. After any operations with dates in order it tracks no
anchor twice and at most 32 of them; a further anchor is tracked as `Tracking` says and starts
without data if it is new; and nothing that is tracked was last seen before a context that one of
the operations dropped. -/
theorem performed_leastRecent {window : Nat} {ops : List Operation} (h : Timely ops) :
    let r := performed window ops
    r.ids.Nodup ∧ r.slots.length ≤ capacity ∧
      (∀ id now, r.Tracking id now (r.track id now) ∧
        (r.track id now).find id = some (r.heardNow id now)) ∧
      ∀ past o later c, ops = past ++ o :: later → (performed window past).Drops o c →
        ∀ d ∈ r.slots, c.lastSeen ≤ d.lastSeen := by
  have hlength := length_performed_le window ops
  refine ⟨distinct_performed window ops, hlength, ?_, ?_⟩
  · intro id now
    exact ⟨tracking hlength id now, find_track_self _ id now⟩
  · rintro past o later c rfl hdrop d hd
    have hpast := length_performed_le window past
    rw [performed_append, List.foldl_cons] at hd
    refine since_performed (length_perform_le hpast o) ?_ ?_ hd
    · intro o' ho'
      exact h.le_later hdrop.1 (by simp [ho'])
    · intro d hd
      refine since_of_drops hpast ?_ hdrop hd
      intro c hc
      exact h.le_later hc (by simp)

/-- All slots taken, with one anchor touched and one changed since. -/
def crowd : List Operation :=
  (List.range capacity).map (fun k => .track (.ofNat k) (10 + k / 2)) ++
    [.touch 0 30, .edit 3 (.latest 5 7 1)]

theorem performed_leastRecent_crowd :
    let ops := crowd ++ .track 40 31 :: [.sweep 2012, .track 1 2020]
    Timely ops ∧ (performed 2000 crowd).Drops (.track 40 31) (.fresh 1 10) ∧
      ∀ d ∈ (performed 2000 ops).slots, 10 ≤ d.lastSeen := by
  intro ops
  have htimely : Timely ops := by decide +kernel
  have hdrop : (performed 2000 crowd).Drops (.track 40 31) (.fresh 1 10) := by
    unfold Drops
    decide +kernel
  obtain ⟨-, -, -, hsince⟩ := @performed_leastRecent 2000 _ htimely
  exact ⟨htimely, hdrop, hsince crowd (.track 40 31) _ _ rfl hdrop⟩

end Registry
end Ranging.Anchor
