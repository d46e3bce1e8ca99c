import Mathlib.Data.List.TakeWhile
import Ranging.Json.Record
import Ranging.Proofs.Json.RoundTrip

/-!
# What numbers and records are written as

A whole number of 64 bits is written as a number that means it (`Value.natural?_ofNat`), and a
record as an object that has its fields again (`Value.fields?_record`). Floats are written and read
by any `FloatText` that writes no blanks. Whether a float is written as a number that means it
depends on both; where it is (`ReadsBack`), the text is a number as a whole (`Value.ofFloat_spec`).
A float that is not finite is written as `null`, which no reader of floats takes.
-/
namespace Ranging

/-! ### Finite floats -/

namespace Number

open Float.Model Float.Model.UnpackedFloat

theorem toNat_unpackExponent (b : BitVec Format.binary64.numBits) :
    (unpackExponent b).toNat = b.toNat / 2 ^ 52 % 2 ^ 11 := by
  unfold unpackExponent
  rw [BitVec.toNat_cast, BitVec.extractLsb_toNat, Nat.shiftRight_eq_div_pow]
  rfl

/-- A float is finite unless all bits of its exponent are set. -/
theorem isFinite_unpack (b : BitVec Format.binary64.numBits) :
    (UnpackedFloat.unpack .binary64 b).isFinite ↔ b.toNat / 2 ^ 52 % 2 ^ 11 ≠ 2 ^ 11 - 1 := by
  have hones : unpackExponent b = (-1#_ : BitVec Format.binary64.exponentBits) ↔
      b.toNat / 2 ^ 52 % 2 ^ 11 = 2 ^ 11 - 1 := by
    rw [BitVec.toNat_eq, toNat_unpackExponent]
    rfl
  rw [ne_eq, ← hones]
  unfold UnpackedFloat.unpack
  dsimp only
  by_cases hexponent : unpackExponent b = (-1#_ : BitVec Format.binary64.exponentBits)
  · rw [if_pos hexponent]
    refine iff_of_false ?_ (not_not_intro hexponent)
    split <;> exact Bool.false_ne_true
  · rw [if_neg hexponent]
    refine iff_of_true ?_ hexponent
    by_cases hzero : unpackExponent b = (0#_ : BitVec Format.binary64.exponentBits)
    · rw [if_pos hzero]
      by_cases hmantissa : unpackMantissa b =
          (0#_ : BitVec Format.binary64.mantissaBitsWithoutImplicit)
      · rw [dif_pos hmantissa]
        rfl
      · rw [dif_neg hmantissa]
        rfl
    · rw [if_neg hzero]
      rfl

theorem exists_finite_iff (x : Float) :
    (∃ m q, (ofFloat x).magnitude = .finite m q) ↔ x.isFinite := by
  refine Iff.trans ?_ (isFinite_unpack x.toBits.toBitVec).symm
  unfold ofFloat BinaryFormat.read
  dsimp only
  split
  · rename_i h
    refine iff_of_false ?_ (fun hne => hne h)
    rintro ⟨m, q, hfinite⟩
    dsimp only at hfinite
    split at hfinite <;> cases hfinite
  · rename_i h
    refine iff_of_true ?_ h
    split
    · exact ⟨_, _, rfl⟩
    · exact ⟨_, _, rfl⟩

end Number

namespace Json

open Ranging.Number (naturalText DecimalStyle Single)

/-! ### Whole numbers -/

theorem isDigit_naturalText {n : Nat} {c : Char} (hc : c ∈ naturalText n) : c.isDigit :=
  Nat.isDigit_of_mem_toDigits (by decide) (by decide) hc

/-- Only zero is written with a leading zero. -/
theorem naturalText_head {n : Nat} (hn : 0 < n) :
    ∃ c tail, naturalText n = c :: tail ∧ c ≠ '0' := by
  unfold naturalText
  induction n using Nat.strongRecOn with
  | ind n ih =>
    rcases Nat.lt_or_ge n 10 with hsmall | hlarge
    · rw [Nat.toDigits_of_lt_base hsmall]
      exact ⟨_, [], rfl, fun h => Nat.ne_of_gt hn (Nat.digitChar_eq_zero.mp h)⟩
    · rw [Nat.toDigits_of_base_le (by decide) hlarge]
      obtain ⟨c, tail, htext, hc⟩ := ih (n / 10) (by omega) (by omega)
      exact ⟨c, _, by rw [htext]; rfl, hc⟩

theorem spanDigits_naturalText (n : Nat) : spanDigits (naturalText n) = (naturalText n, []) :=
  Prod.ext (List.takeWhile_eq_self_iff.mpr fun _ => isDigit_naturalText)
    (List.dropWhile_eq_nil_iff.mpr fun _ => isDigit_naturalText)

theorem isNumber_naturalText (n : Nat) : IsNumber (naturalText n) := by
  rcases Nat.eq_zero_or_pos n with rfl | hn
  · rfl
  · obtain ⟨c, tail, htext, hzero⟩ := naturalText_head hn
    have hdigit : c.isDigit := isDigit_naturalText (htext ▸ List.mem_cons_self)
    have hminus : c ≠ '-' := by
      rintro rfl
      cases hdigit
    have hwhole : readWhole (c :: tail) = some (c :: tail, []) := by
      rw [readWhole_ne_zero hzero, readDigits_eq_some_iff, ← htext, spanDigits_naturalText]
      exact ⟨rfl, htext ▸ List.cons_ne_nil c tail⟩
    unfold IsNumber
    rw [htext, readNumber_ne_minus hminus, readUnsigned_eq_some_iff]
    exact ⟨_, _, _, _, _, hwhole, rfl, rfl, by simp⟩

namespace Numeral

theorem le_ofDigitChars (digits : List Char) (m : Nat) : m ≤ Nat.ofDigitChars 10 digits m := by
  induction digits generalizing m with
  | nil => exact Nat.le_refl m
  | cons c digits ih =>
    rw [Nat.ofDigitChars_cons]
    exact Nat.le_trans (by omega) (ih _)

/-- Digits that make up a number of 64 bits are taken in whole. -/
theorem accumulate_eq {digits : List Char} {m : Nat}
    (h : Nat.ofDigitChars 10 digits m < 2 ^ 64) :
    accumulate m digits = (Nat.ofDigitChars 10 digits m, []) := by
  induction digits generalizing m with
  | nil => rfl
  | cons c digits ih =>
    rw [Nat.ofDigitChars_cons] at h ⊢
    have hstep : m * 10 + (c.toNat - 48) = 10 * m + (c.toNat - '0'.toNat) := by
      rw [Nat.mul_comm]
      rfl
    rw [accumulate, hstep, if_pos (Nat.lt_of_le_of_lt (le_ofDigitChars _ _) h), ih h]

theorem ofLexeme_naturalText (n : Nat) :
    ofLexeme (naturalText n) = ⟨false, naturalText n, none, none⟩ := by
  have hsign : ∀ c tail, naturalText n = c :: tail → c ≠ '-' := by
    rintro c tail htext rfl
    have hdigit := isDigit_naturalText (c := '-') (n := n) (htext ▸ List.mem_cons_self)
    cases hdigit
  unfold ofLexeme
  split
  rename_i negative cs heq
  split at heq
  · rename_i tail htext
    exact absurd rfl (hsign _ _ htext)
  · cases heq
    rw [spanDigits_naturalText]
    rfl

theorem meaning_naturalText {n : Nat} (hn : n < 2 ^ 64) :
    (ofLexeme (naturalText n)).meaning = some (.natural n) := by
  have hvalue : Nat.ofDigitChars 10 (naturalText n) 0 = n := Nat.ofDigitChars_ten_toDigits
  have haccumulate := accumulate_eq (hvalue.symm ▸ hn)
  rw [hvalue] at haccumulate
  rw [ofLexeme_naturalText]
  unfold meaning
  rw [haccumulate]
  rfl

end Numeral

namespace Value

theorem ofNat_sound (n : Nat) : (ofNat n).Sound := isNumber_naturalText n

/-- A whole number within a limit of at most 64 bits is read back. -/
theorem natural?_ofNat {n limit : Nat} (hn : n ≤ limit) (hlimit : limit < 2 ^ 64) :
    (ofNat n).natural? limit = some n := by
  have hmeaning : (ofNat n).meaning? = some (.natural n) :=
    Numeral.meaning_naturalText (Nat.lt_of_le_of_lt hn hlimit)
  unfold natural?
  rw [hmeaning]
  exact if_pos hn

end Value

/-! ### Floats -/

/-- A text without blanks. -/
def Inked (cs : List Char) : Prop := ∀ c ∈ cs, isBlank c = false

namespace Inked

theorem nil : Inked [] := nofun

theorem append {cs ds : List Char} (hcs : Inked cs) (hds : Inked ds) : Inked (cs ++ ds) :=
  List.forall_mem_append.mpr ⟨hcs, hds⟩

theorem cons {c : Char} {cs : List Char} (hc : isBlank c = false) (hcs : Inked cs) :
    Inked (c :: cs) :=
  List.forall_mem_cons.mpr ⟨hc, hcs⟩

theorem ite {p : Prop} [Decidable p] {cs ds : List Char} (hcs : Inked cs) (hds : Inked ds) :
    Inked (if p then cs else ds) := by
  split
  · exact hcs
  · exact hds

theorem take {cs : List Char} (h : Inked cs) (n : Nat) : Inked (cs.take n) :=
  fun c hc => h c (List.mem_of_mem_take hc)

theorem drop {cs : List Char} (h : Inked cs) (n : Nat) : Inked (cs.drop n) :=
  fun c hc => h c (List.mem_of_mem_drop hc)

theorem zeros (n : Nat) : Inked (List.replicate n '0') := by
  intro c hc
  rw [List.eq_of_mem_replicate hc]
  rfl

theorem naturalText (n : Nat) : Inked (naturalText n) :=
  fun _ hc => (number_head (.inr (isDigit_naturalText hc))).1

theorem integerText (i : Int) : Inked (Number.integerText i) := by
  unfold Number.integerText
  split
  · exact (naturalText _).cons rfl
  · exact naturalText _

variable (style : DecimalStyle)

theorem positionalText {digits : List Char} (h : Inked digits) (exponent : Int) :
    Inked (style.positionalText digits exponent) :=
  .ite ((h.append (zeros _)).append (.ite (.cons rfl (.cons rfl .nil)) .nil))
    (.ite ((h.take _).append ((h.drop _).cons rfl)) (((zeros _).append h).cons rfl |>.cons rfl))

theorem exponentText {digits : List Char} (h : Inked digits) (exponent : Int) :
    Inked (style.exponentText digits exponent) :=
  ((h.take _).append (.ite .nil ((h.drop _).cons rfl))).append
    (.cons rfl (.append (.ite (.cons rfl .nil) .nil) (integerText _)))

theorem finiteText (fmt : Number.BinaryFormat) (m : Nat) (q : Int) :
    Inked (style.finiteText fmt m q) :=
  .ite (.ite (.cons rfl (.cons rfl (.cons rfl .nil))) (.cons rfl .nil))
    (.ite (positionalText style (naturalText _) _) (exponentText style (naturalText _) _))

/-- The text of a finite number has no blanks. -/
theorem text (fmt : Number.BinaryFormat) {r : Number.Reading} {m : Nat} {q : Int}
    (hr : r.magnitude = .finite m q) : Inked (style.text fmt r) := by
  unfold DecimalStyle.text
  rw [hr]
  exact .append (.ite (.cons rfl .nil) .nil) (finiteText style fmt m q)

end Inked

theorem skipBlanks_inked {cs : List Char} (h : Inked cs) : skipBlanks cs = cs := by
  cases cs with
  | nil => rfl
  | cons c cs => exact skipBlanks_cons (h c List.mem_cons_self) cs

theorem readValue_eq_number {fuel : Nat} {cs lexeme rest : List Char}
    (h : readValue fuel cs = some (.number lexeme, rest)) :
    readNumber (skipBlanks cs) = some (lexeme, rest) := by
  cases fuel with
  | zero => cases h
  | succ fuel =>
    rw [readValue] at h
    split at h
    case h_7 =>
      obtain ⟨⟨digits, behind⟩, hread, hout⟩ := Option.map_eq_some_iff.mp h
      cases hout
      exact hread
    case h_5 => split at h <;> simp at h
    case h_6 => split at h <;> simp at h
    all_goals simp at h

/-- The value is a number, whatever that means. -/
def Value.IsLexeme (v : Value) : Prop := ∃ lexeme, v = .number lexeme

/-- A text without blanks that reads as a number is a number as a whole. -/
theorem isNumber_of_read {lexeme : List Char} (hinked : Inked lexeme) {v : Value}
    (hread : Value.read lexeme = some v) (hv : v.IsLexeme) :
    IsNumber lexeme ∧ v = .number lexeme := by
  unfold Value.read at hread
  split at hread
  · rename_i value rest hvalue
    split at hread
    · rename_i hempty
      cases hread
      cases v with
      | number digits =>
        have hnumber := readValue_eq_number hvalue
        rw [skipBlanks_inked hinked] at hnumber
        obtain ⟨hsplit, -⟩ := readNumber_split hnumber
        have hrest : rest = [] := by
          have hinked' : Inked rest := fun c hc => hinked c (hsplit ▸ List.mem_append_right _ hc)
          rw [skipBlanks_inked hinked'] at hempty
          exact List.isEmpty_iff.mp hempty
        subst hrest
        rw [List.append_nil] at hsplit
        subst hsplit
        exact ⟨hnumber, rfl⟩
      | _ => exact absurd hv nofun
    · cases hread
  · cases hread

/-- A number that is read back from its text as some value is a number as a whole, and read as that
value. -/
theorem isNumber_of_readsBack {α : Type} {read? : Value → Option α}
    (hread? : ∀ v, (read? v).isSome → v.IsLexeme) {lexeme : List Char}
    (hinked : Inked lexeme) {a : α} (h : (Value.read lexeme).bind read? = some a) :
    IsNumber lexeme ∧ read? (.number lexeme) = some a := by
  obtain ⟨v, hread, hv⟩ := Option.bind_eq_some_iff.mp h
  obtain ⟨hnumber, rfl⟩ :=
    isNumber_of_read hinked hread (hread? v (Option.isSome_iff_exists.mpr ⟨a, hv⟩))
  exact ⟨hnumber, hv⟩

/-- Finite floats are written without blanks. -/
class LawfulFloatText [FloatText] : Prop where
  text : ∀ {x : Float}, x.isFinite → Inked (FloatText.text x)
  singleText : ∀ {x : Single}, x.isFinite → Inked (FloatText.singleText x)

instance : LawfulFloatText where
  text h := by
    obtain ⟨m, q, hmagnitude⟩ := (Number.exists_finite_iff _).mpr h
    exact .text floatStyle .double hmagnitude
  singleText h := by
    unfold Single.isFinite at h
    split at h
    · exact .text singleStyle .single ‹_›
    · cases h

namespace Value

section

variable [FloatText]

/-- The text of a float is read as that float. -/
def ReadsBack (x : Float) : Prop := (Value.read (ofFloat x).compact).bind float? = some x

/-- The text of a 32-bit float is read as that float. -/
def SingleReadsBack (x : Single) : Prop := (Value.read (ofSingle x).compact).bind single? = some x

instance (x : Float) : Decidable (ReadsBack x) := inferInstanceAs (Decidable (_ = _))

instance (x : Single) : Decidable (SingleReadsBack x) := inferInstanceAs (Decidable (_ = _))

theorem isLexeme_of_float? {v : Value} (h : v.float?.isSome) : v.IsLexeme := by
  cases v with
  | number lexeme => exact ⟨lexeme, rfl⟩
  | _ => cases h

theorem isLexeme_of_single? {v : Value} (h : v.single?.isSome) : v.IsLexeme := by
  cases v with
  | number lexeme => exact ⟨lexeme, rfl⟩
  | _ => cases h

theorem ofFloat_cases (x : Float) : (x.isFinite ∧ ofFloat x = .number (FloatText.text x)) ∨
    (x.isFinite = false ∧ ofFloat x = .null) := by
  unfold ofFloat
  split
  · rename_i m q hmagnitude
    exact .inl ⟨(Number.exists_finite_iff x).mp ⟨m, q, hmagnitude⟩, rfl⟩
  · rename_i hmagnitude
    refine .inr ⟨Bool.eq_false_iff.mpr fun hfinite => ?_, rfl⟩
    obtain ⟨m, q, hfound⟩ := (Number.exists_finite_iff x).mpr hfinite
    exact hmagnitude m q hfound

theorem ofSingle_finite {x : Single} (h : x.isFinite) :
    ofSingle x = .number (FloatText.singleText x) := by
  unfold Single.isFinite at h
  unfold ofSingle
  cases hmagnitude : x.reading.magnitude with
  | finite m q => rfl
  | _ =>
    rw [hmagnitude] at h
    cases h

variable [LawfulFloatText]

theorem ofFloat_spec {x : Float} (h : x.isFinite → ReadsBack x) :
    (ofFloat x).Sound ∧ (ofFloat x).float? = if x.isFinite then some x else none := by
  rcases ofFloat_cases x with ⟨hfinite, hlexeme⟩ | ⟨hfinite, hnull⟩
  · have hback := h hfinite
    unfold ReadsBack at hback
    rw [hlexeme] at hback ⊢
    rw [if_pos hfinite]
    exact isNumber_of_readsBack (fun _ => isLexeme_of_float?) (LawfulFloatText.text hfinite) hback
  · rw [hnull, hfinite]
    exact ⟨trivial, rfl⟩

theorem ofSingle_spec {x : Single} (hfinite : x.isFinite) (h : SingleReadsBack x) :
    (ofSingle x).Sound ∧ (ofSingle x).single? = some x ∧ ofSingle x ≠ .null := by
  unfold SingleReadsBack at h
  rw [ofSingle_finite hfinite] at h ⊢
  obtain ⟨hnumber, hread⟩ := isNumber_of_readsBack (fun _ => isLexeme_of_single?)
    (LawfulFloatText.singleText hfinite) h
  exact ⟨hnumber, hread, nofun⟩

end

end Value

/-! ### Records -/

namespace Value

theorem soundItems_iff {items : List Value} : SoundItems items ↔ ∀ item ∈ items, item.Sound := by
  induction items with
  | nil => exact iff_of_true trivial nofun
  | cons item items ih => rw [SoundItems, List.forall_mem_cons, ih]

theorem record_sound {fields : List (String × Value)} (h : ∀ field ∈ fields, field.2.Sound) :
    (record fields).Sound := by
  show SoundMembers _
  induction fields with
  | nil => trivial
  | cons field fields ih =>
    obtain ⟨hfield, hfields⟩ := List.forall_mem_cons.mp h
    exact ⟨rfl, hfield, ih hfields⟩

theorem membersNamed_silent {fields : List (String × Value)} {name : String}
    (h : name ∉ fields.map Prod.fst) :
    membersNamed (fields.map fun (name, value) => (some name, value)) name = [] := by
  unfold membersNamed
  refine List.filterMap_eq_nil_iff.mpr fun member hmember => ?_
  obtain ⟨field, hfield, rfl⟩ := List.mem_map.mp hmember
  refine if_neg fun hname => h ?_
  exact Option.some.inj hname ▸ List.mem_map_of_mem hfield

/-- A record has its own fields, each under its name. -/
theorem membersNamed_field {fields : List (String × Value)}
    (hdistinct : (fields.map Prod.fst).Nodup) {field : String × Value} (hfield : field ∈ fields) :
    membersNamed (fields.map fun (name, value) => (some name, value)) field.1 = [field.2] := by
  induction fields with
  | nil => cases hfield
  | cons first fields ih =>
    obtain ⟨hfirst, hrest⟩ := List.nodup_cons.mp hdistinct
    rcases List.mem_cons.mp hfield with rfl | hfield
    · have hnone := membersNamed_silent hfirst
      unfold membersNamed at hnone ⊢
      rw [List.map_cons, List.filterMap_cons, hnone]
      simp
    · have hne : first.1 ≠ field.1 := fun heq =>
        hfirst (heq ▸ List.mem_map_of_mem hfield)
      have hfound := ih hrest hfield
      unfold membersNamed at hfound ⊢
      rw [List.map_cons, List.filterMap_cons, hfound]
      simp [hne]

theorem mapM_eq_some {α β : Type} {f : α → Option β} {g : α → β} {l : List α}
    (h : ∀ a ∈ l, f a = some (g a)) : l.mapM f = some (l.map g) := by
  induction l with
  | nil => rfl
  | cons a l ih =>
    obtain ⟨ha, hl⟩ := List.forall_mem_cons.mp h
    rw [List.mapM_cons, ha, ih hl]
    rfl

/-- The fields of a record that is written are there when it is read. -/
theorem fields?_record {fields : List (String × Value)}
    (hdistinct : (fields.map Prod.fst).Nodup) : (record fields).fields? (fields.map Prod.fst) =
      some (fields.map fun field => some field.2) := by
  have hkeys : (fields.map fun (name, value) => ((some name : Option String), value)).any
      (·.1.isNone) = false := by
    simp
  unfold record fields?
  dsimp only
  rw [hkeys, if_neg Bool.false_ne_true]
  refine Eq.trans (List.mapM_map ..) (mapM_eq_some fun field hfield => ?_)
  rw [Function.comp, membersNamed_field hdistinct hfield]

end Value
end Json
end Ranging
