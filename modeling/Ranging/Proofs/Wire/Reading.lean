import Ranging.Wire.Cursor

/-!
# Readers and the grammars that they recognise

A grammar says which bytes are a form of which value. A reader recognises it when it takes every
form wherever it stands, asks for more bytes when a form is cut short, and can meet nothing else
(`Recognises`). Reading one thing after another recognises one form after another
(`Recognises.bindForm`), so the grammar of a packet follows from those of its fields.
-/
namespace Ranging.Wire

/-- Numbers of a width correspond to the byte strings of that width. -/
theorem eq_toBytes_iff {width n : Nat} {s : Bytes} (hn : n < 256 ^ width) :
    s = toBytes width n ↔ s.length = width ∧ ofBytes s = n := by
  constructor
  · rintro rfl
    exact ⟨length_toBytes width n, by rw [ofBytes_toBytes, Nat.mod_eq_of_lt hn]⟩
  · rintro ⟨rfl, rfl⟩
    exact (toBytes_ofBytes s).symm

/-- A shortage is the same whether it is counted from the start of some bytes or from behind a part
of them. -/
theorem Cursor.shortage_append (offset : Nat) (s t : Bytes) (count : Nat) :
    shortage ⟨offset + s.length, t⟩ count = shortage ⟨offset, s ++ t⟩ (s.length + count) := by
  simp only [shortage, size, remaining, List.length_append, Nat.add_assoc]

/-- Which bytes are a form of which value. -/
abbrev Grammar (α : Type) := Bytes → α → Prop

namespace Read

variable {α β : Type} {r : Read α} {s : Bytes} {a : α} {g g' : Grammar α}

/-- A reader takes exactly `s` for `a`: it leaves alone what follows, and when `s` is cut short it
asks for more than there is, though not for more than `s`. -/
structure Takes (r : Read α) (s : Bytes) (a : α) : Prop where
  whole : ∀ offset rest, r ⟨offset, s ++ rest⟩ = .ok (a, ⟨offset + s.length, rest⟩)
  part : ∀ offset t, t <+: s → t.length < s.length →
    ∃ required, t.length < required ∧ required ≤ s.length ∧
      r ⟨offset, t⟩ = .error (Cursor.shortage ⟨offset, t⟩ required)

/-- A reader takes the forms of a grammar, and any bytes continue a form or are cut from one. -/
structure Recognises (r : Read α) (g : Grammar α) : Prop where
  takes : ∀ s a, g s a → Takes r s a
  covers : ∀ bytes, ∃ s a, g s a ∧ (s <+: bytes ∨ bytes <+: s)

/-- Where no form stands in front, bytes are missing. -/
theorem Recognises.short (h : Recognises r g) (offset : Nat) {bytes : Bytes}
    (hnone : ∀ s a, g s a → ¬ s <+: bytes) :
    ∃ required, bytes.length < required ∧
      r ⟨offset, bytes⟩ = .error (Cursor.shortage ⟨offset, bytes⟩ required) := by
  obtain ⟨s, a, hg, hfront | hcut⟩ := h.covers bytes
  · exact absurd hfront (hnone s a hg)
  · have hlt : bytes.length < s.length := by
      refine Nat.lt_of_le_of_ne hcut.length_le fun heq => ?_
      exact hnone s a hg (hcut.eq_of_length heq ▸ List.prefix_rfl)
    obtain ⟨required, hmore, -, herror⟩ := (h.takes s a hg).part offset bytes hcut hlt
    exact ⟨required, hmore, herror⟩

/-- The same reader under another description of its grammar. -/
theorem Recognises.congr (h : Recognises r g) (hg : ∀ s a, g s a ↔ g' s a) :
    Recognises r g' where
  takes s a h' := h.takes s a ((hg s a).mpr h')
  covers bytes := by
    obtain ⟨s, a, hform, hcover⟩ := h.covers bytes
    exact ⟨s, a, (hg s a).mp hform, hcover⟩

/-! ### Combining readers -/

theorem Recognises.pure (a : α) : Recognises (pure a : Read α) fun s b => s = [] ∧ b = a where
  takes := by
    rintro _ _ ⟨rfl, rfl⟩
    exact ⟨fun _ _ => rfl, fun _ _ _ hlt => absurd hlt (Nat.not_lt_zero _)⟩
  covers bytes := ⟨[], a, ⟨rfl, rfl⟩, .inl List.nil_prefix⟩

theorem Takes.bind_whole (hr : Takes r s a) (f : α → Read β) (offset : Nat) (rest : Bytes) :
    (r >>= f) ⟨offset, s ++ rest⟩ = f a ⟨offset + s.length, rest⟩ := by
  show (r ⟨offset, s ++ rest⟩ >>= fun out => f out.1 out.2) = _
  rw [hr.whole]
  rfl

theorem bind_error {c : Cursor} {e : WireError} (h : r c = .error e) (f : α → Read β) :
    (r >>= f) c = .error e := by
  show (r c >>= fun out => f out.1 out.2) = _
  rw [h]
  rfl

theorem Takes.bind {f : α → Read β} {s' : Bytes} {b : β} (hr : Takes r s a)
    (hf : Takes (f a) s' b) : Takes (r >>= f) (s ++ s') b where
  whole offset rest := by
    rw [List.append_assoc, hr.bind_whole, hf.whole, List.length_append, Nat.add_assoc]
  part offset t ht hlt := by
    rw [List.length_append] at hlt ⊢
    by_cases hs : t.length < s.length
    · -- the first form is cut already
      have hts : t <+: s :=
        List.prefix_of_prefix_length_le ht (List.prefix_append s s') (Nat.le_of_lt hs)
      obtain ⟨required, hmore, hle, herror⟩ := hr.part offset t hts hs
      exact ⟨required, hmore, by omega, bind_error herror f⟩
    · have hst : s <+: t :=
        List.prefix_of_prefix_length_le (List.prefix_append s s') ht (Nat.not_lt.mp hs)
      obtain ⟨t', rfl⟩ := hst
      rw [List.prefix_append_right_inj] at ht
      rw [List.length_append] at hlt ⊢
      obtain ⟨required, hmore, hle, herror⟩ :=
        hf.part (offset + s.length) t' ht (by omega)
      refine ⟨s.length + required, by omega, by omega, ?_⟩
      rw [hr.bind_whole, herror, Cursor.shortage_append]

/-- One form after another, where the second may depend on the value of the first. -/
theorem Recognises.bindForm {f : α → Read β} {gf : α → Grammar β} (hr : Recognises r g)
    (hf : ∀ s a, g s a → Recognises (f a) (gf a)) :
    Recognises (r >>= f) fun t b => ∃ s a s', g s a ∧ gf a s' b ∧ t = s ++ s' where
  takes := by
    rintro _ b ⟨s, a, s', hg, hgf, rfl⟩
    exact (hr.takes s a hg).bind ((hf s a hg).takes s' b hgf)
  covers bytes := by
    obtain ⟨s, a, hg, ⟨rest, rfl⟩ | hcut⟩ := hr.covers bytes
    · obtain ⟨s', b, hgf, hcover⟩ := (hf s a hg).covers rest
      refine ⟨s ++ s', b, ⟨s, a, s', hg, hgf, rfl⟩, ?_⟩
      rwa [List.prefix_append_right_inj, List.prefix_append_right_inj]
    · obtain ⟨s', b, hgf, -⟩ := (hf s a hg).covers []
      exact ⟨s ++ s', b, ⟨s, a, s', hg, hgf, rfl⟩,
        .inr (hcut.trans (List.prefix_append s s'))⟩

theorem Recognises.bind {f : α → Read β} {gf : α → Grammar β} (hr : Recognises r g)
    (hf : ∀ a, Recognises (f a) (gf a)) :
    Recognises (r >>= f) fun t b => ∃ s a s', g s a ∧ gf a s' b ∧ t = s ++ s' :=
  hr.bindForm fun _ a _ => hf a

/-- A field that is written in its own bytes, and what follows it. -/
theorem Recognises.field {enc : α → Bytes} {f : α → Read β} {gf : α → Grammar β}
    (hr : Recognises r fun s a => s = enc a) (hf : ∀ a, Recognises (f a) (gf a)) :
    Recognises (r >>= f) fun t b => ∃ a s', gf a s' b ∧ t = enc a ++ s' := by
  refine (hr.bind hf).congr fun t b => ?_
  constructor
  · rintro ⟨_, a, s', rfl, hgf, rfl⟩
    exact ⟨a, s', hgf, rfl⟩
  · rintro ⟨a, s', hgf, rfl⟩
    exact ⟨_, a, s', rfl, hgf, rfl⟩

theorem Recognises.map (f : α → β) (hr : Recognises r g) :
    Recognises (f <$> r) fun s b => ∃ a, g s a ∧ b = f a := by
  have hbind : f <$> r = r >>= fun a => Pure.pure (f a) := rfl
  rw [hbind]
  refine (hr.bind fun a => .pure (f a)).congr fun t b => ?_
  constructor
  · rintro ⟨s, a, s', hg, ⟨rfl, rfl⟩, rfl⟩
    exact ⟨a, by rwa [List.append_nil], rfl⟩
  · rintro ⟨a, hg, rfl⟩
    exact ⟨t, a, [], hg, ⟨rfl, rfl⟩, (List.append_nil t).symm⟩

theorem Recognises.ite {r' : Read α} (c : Prop) [Decidable c] (h : Recognises r g)
    (h' : Recognises r' g') :
    Recognises (if c then r else r') fun s a => if c then g s a else g' s a := by
  split
  · exact h
  · exact h'

/-- A check of the length ahead does not matter if every form has that length. -/
theorem Recognises.ensure {count : Nat} (h : Recognises r g)
    (hlong : ∀ s a, g s a → count ≤ s.length) :
    Recognises (Read.ensure count >>= fun _ => r) g where
  takes s a hg := by
    have hr := h.takes s a hg
    have hle := hlong s a hg
    constructor
    · intro offset rest
      show (((Cursor.mk offset (s ++ rest)).ensure count).map _ >>= _) = _
      have henough : count ≤ (Cursor.mk offset (s ++ rest)).remaining := by
        simp only [Cursor.remaining, List.length_append]
        omega
      rw [Cursor.ensure, if_pos henough]
      exact hr.whole offset rest
    · intro offset t ht hlt
      show ∃ required, _ ∧ _ ∧ (((Cursor.mk offset t).ensure count).map _ >>= _) = _
      rw [Cursor.ensure]
      split
      · exact hr.part offset t ht hlt
      · rename_i hfew
        exact ⟨count, Nat.not_le.mp hfew, hle, rfl⟩
  covers := h.covers

/-! ### Numbers -/

theorem recognises_word (width : Nat) :
    Recognises (word width) fun s n => s.length = width ∧ ofBytes s = n where
  takes := by
    rintro s _ ⟨rfl, rfl⟩
    constructor
    · intro offset rest
      show ((Cursor.mk offset (s ++ rest)).take s.length).map _ = _
      have henough : s.length ≤ (Cursor.mk offset (s ++ rest)).remaining := by
        simp [Cursor.remaining]
      rw [Cursor.take, if_pos henough, List.take_left, List.drop_left]
      rfl
    · intro offset t _ hlt
      refine ⟨s.length, hlt, Nat.le_refl _, ?_⟩
      show ((Cursor.mk offset t).take s.length).map _ = _
      have hfew : ¬ s.length ≤ (Cursor.mk offset t).remaining := Nat.not_le.mpr hlt
      rw [Cursor.take, if_neg hfew]
      rfl
  covers bytes := by
    by_cases hle : width ≤ bytes.length
    · have hlength : (bytes.take width).length = width := by
        rw [List.length_take, Nat.min_eq_left hle]
      exact ⟨_, _, ⟨hlength, rfl⟩, .inl (List.take_prefix width bytes)⟩
    · refine ⟨bytes ++ List.replicate (width - bytes.length) 0, _, ⟨?_, rfl⟩,
        .inr (List.prefix_append _ _)⟩
      rw [List.length_append, List.length_replicate]
      omega

/-- A word is written in the bytes of its number. -/
theorem recognises_toBytes {width : Nat} {ofNat : Nat → α} {toNat : α → Nat}
    (hlt : ∀ a, toNat a < 256 ^ width) (hofNat : ∀ a, ofNat (toNat a) = a)
    (htoNat : ∀ n < 256 ^ width, toNat (ofNat n) = n) :
    Recognises (ofNat <$> word width) fun s a => s = toBytes width (toNat a) := by
  refine ((recognises_word width).map ofNat).congr fun s a => ?_
  rw [eq_toBytes_iff (hlt a)]
  constructor
  · rintro ⟨_, ⟨rfl, rfl⟩, rfl⟩
    exact ⟨rfl, (htoNat _ (ofBytes_lt s)).symm⟩
  · rintro ⟨hlength, hvalue⟩
    exact ⟨_, ⟨hlength, rfl⟩, by rw [hvalue, hofNat]⟩

theorem recognises_byte : Recognises byte fun s b => s = [b] := by
  have hbyte : Recognises byte fun s b => s = toBytes 1 b.toNat :=
    recognises_toBytes UInt8.toNat_lt (fun _ => UInt8.ofNat_toNat)
      fun _ hn => UInt8.toNat_ofNat_of_lt hn
  refine hbyte.congr fun s b => ?_
  simp [toBytes]

theorem recognises_word16 : Recognises word16 fun s w => s = bytesOfWord16 w :=
  recognises_toBytes UInt16.toNat_lt (fun _ => UInt16.ofNat_toNat)
    fun _ hn => UInt16.toNat_ofNat_of_lt hn

theorem recognises_word32 : Recognises word32 fun s w => s = bytesOfWord32 w :=
  recognises_toBytes UInt32.toNat_lt (fun _ => UInt32.ofNat_toNat)
    fun _ hn => UInt32.toNat_ofNat_of_lt hn

theorem recognises_word64 : Recognises word64 fun s w => s = bytesOfWord64 w :=
  recognises_toBytes UInt64.toNat_lt (fun _ => UInt64.ofNat_toNat)
    fun _ hn => UInt64.toNat_ofNat_of_lt hn

end Read
end Ranging.Wire
