import Ranging.Json.Reader

/-!
# Numbers in a text

A number has no end of its own: the reader takes as much of a text as goes on with it. So what is
behind a number matters (`Ends`). In front of a text that does not go on with it, a number is read
as it is read alone (`readNumber_append`), and what is read is the front of the text
(`readNumber_split`). Both go through the parts of a number one by one.
-/
namespace Ranging.Json

/-- A text that is a number as a whole. -/
def IsNumber (lexeme : List Char) : Prop := readNumber lexeme = some (lexeme, [])

/-- A text that does not go on with a number in front of it. -/
def Ends (rest : List Char) : Prop :=
  ∀ c ∈ rest.head?, c.isDigit = false ∧ c ≠ '.' ∧ c ≠ 'e' ∧ c ≠ 'E'

theorem Ends.nil : Ends [] := nofun

theorem Ends.cons {c : Char} (hc : c.isDigit = false ∧ c ≠ '.' ∧ c ≠ 'e' ∧ c ≠ 'E')
    (rest : List Char) : Ends (c :: rest) := by
  rintro d ⟨⟩
  exact hc

section

variable {cs lexeme left rest : List Char}

theorem spanDigits_append (hrest : Ends rest) (cs : List Char) :
    spanDigits (cs ++ rest) = ((spanDigits cs).1, (spanDigits cs).2 ++ rest) := by
  induction cs with
  | nil =>
    cases rest with
    | nil => rfl
    | cons c rest => simp [spanDigits, (hrest c rfl).1]
  | cons c cs ih =>
    simp only [spanDigits, Prod.mk.injEq] at ih ⊢
    cases hc : c.isDigit <;> simp [hc, ih]

theorem readDigits_eq_some_iff : readDigits cs = some (lexeme, left) ↔
    spanDigits cs = (lexeme, left) ∧ lexeme ≠ [] := by
  unfold readDigits
  rcases spanDigits cs with ⟨_ | ⟨d, ds⟩, behind⟩
  · exact ⟨nofun, fun ⟨hspan, hne⟩ => absurd (congrArg Prod.fst hspan).symm hne⟩
  · constructor
    · rintro ⟨⟩
      exact ⟨rfl, List.cons_ne_nil d ds⟩
    · rintro ⟨⟨⟩, -⟩
      rfl

theorem readDigits_append (hrest : Ends rest) (h : readDigits cs = some (lexeme, left)) :
    readDigits (cs ++ rest) = some (lexeme, left ++ rest) := by
  rw [readDigits_eq_some_iff] at h ⊢
  obtain ⟨hspan, hne⟩ := h
  rw [spanDigits_append hrest, hspan]
  exact ⟨rfl, hne⟩

theorem readDigits_split (h : readDigits cs = some (lexeme, left)) : cs = lexeme ++ left := by
  obtain ⟨hspan, -⟩ := readDigits_eq_some_iff.mp h
  cases hspan
  exact List.takeWhile_append_dropWhile.symm

theorem readDigits_head (h : readDigits cs = some (lexeme, left)) :
    ∃ c tail, cs = c :: tail ∧ c.isDigit := by
  obtain ⟨hspan, hne⟩ := readDigits_eq_some_iff.mp h
  cases cs with
  | nil =>
    cases hspan
    exact absurd rfl hne
  | cons c tail =>
    refine ⟨c, tail, rfl, ?_⟩
    cases hc : c.isDigit with
    | true => rfl
    | false =>
      refine absurd (congrArg Prod.fst hspan).symm ?_
      simpa [spanDigits, hc] using hne

theorem readWhole_ne_zero {c : Char} (hc : c ≠ '0') (tail : List Char) :
    readWhole (c :: tail) = readDigits (c :: tail) := by
  unfold readWhole
  split
  · rename_i h
    cases h
    exact absurd rfl hc
  · rfl

theorem readWhole_append (hrest : Ends rest) (h : readWhole cs = some (lexeme, left)) :
    readWhole (cs ++ rest) = some (lexeme, left ++ rest) := by
  cases cs with
  | nil => cases h
  | cons c tail =>
    by_cases hc : c = '0'
    · subst hc
      cases h
      rfl
    · rw [readWhole_ne_zero hc] at h
      exact (readWhole_ne_zero hc _).trans (readDigits_append hrest h)

theorem readWhole_split (h : readWhole cs = some (lexeme, left)) :
    cs = lexeme ++ left ∧ ∃ c tail, cs = c :: tail ∧ c.isDigit := by
  cases cs with
  | nil => cases h
  | cons c tail =>
    by_cases hc : c = '0'
    · subst hc
      cases h
      exact ⟨rfl, _, _, rfl, rfl⟩
    · rw [readWhole_ne_zero hc] at h
      exact ⟨readDigits_split h, readDigits_head h⟩

theorem readFraction_ne_point {c : Char} (hc : c ≠ '.') (tail : List Char) :
    readFraction (c :: tail) = some ([], c :: tail) := by
  unfold readFraction
  split
  · rename_i h
    cases h
    exact absurd rfl hc
  · rfl

theorem readFraction_append (hrest : Ends rest) (h : readFraction cs = some (lexeme, left)) :
    readFraction (cs ++ rest) = some (lexeme, left ++ rest) := by
  cases cs with
  | nil =>
    cases h
    cases rest with
    | nil => rfl
    | cons c tail => exact readFraction_ne_point (hrest c rfl).2.1 tail
  | cons c tail =>
    by_cases hc : c = '.'
    · subst hc
      obtain ⟨⟨digits, behind⟩, hdigits, hout⟩ := Option.map_eq_some_iff.mp h
      cases hout
      exact congrArg (Option.map _) (readDigits_append hrest hdigits)
    · rw [readFraction_ne_point hc] at h
      cases h
      exact readFraction_ne_point hc _

theorem readFraction_split (h : readFraction cs = some (lexeme, left)) : cs = lexeme ++ left := by
  cases cs with
  | nil =>
    cases h
    rfl
  | cons c tail =>
    by_cases hc : c = '.'
    · subst hc
      obtain ⟨⟨digits, behind⟩, hdigits, hout⟩ := Option.map_eq_some_iff.mp h
      cases hout
      exact congrArg ('.' :: ·) (readDigits_split hdigits)
    · rw [readFraction_ne_point hc] at h
      cases h
      rfl

/-- A sign in front of digits does not depend on what is behind them. -/
theorem spanSign_append (hne : cs ≠ []) (rest : List Char) :
    spanSign (cs ++ rest) = ((spanSign cs).1, (spanSign cs).2 ++ rest) := by
  cases cs with
  | nil => exact absurd rfl hne
  | cons c tail =>
    simp only [List.cons_append]
    unfold spanSign
    split <;> split <;> simp_all

theorem spanSign_split (cs : List Char) : cs = (spanSign cs).1 ++ (spanSign cs).2 := by
  unfold spanSign
  split <;> rfl

theorem readExponent_mark {c : Char} (hc : c = 'e' ∨ c = 'E') (tail : List Char) :
    readExponent (c :: tail) = (readDigits (spanSign tail).2).map fun (digits, behind) =>
      (c :: ((spanSign tail).1 ++ digits), behind) :=
  if_pos hc

theorem readExponent_other {c : Char} (hc : ¬ (c = 'e' ∨ c = 'E')) (tail : List Char) :
    readExponent (c :: tail) = some ([], c :: tail) :=
  if_neg hc

theorem readExponent_append (hrest : Ends rest) (h : readExponent cs = some (lexeme, left)) :
    readExponent (cs ++ rest) = some (lexeme, left ++ rest) := by
  cases cs with
  | nil =>
    cases h
    cases rest with
    | nil => rfl
    | cons c tail =>
      obtain ⟨-, -, he, hE⟩ := hrest c rfl
      exact readExponent_other (not_or_intro he hE) tail
  | cons c tail =>
    by_cases hc : c = 'e' ∨ c = 'E'
    · rw [readExponent_mark hc] at h
      obtain ⟨⟨digits, behind⟩, hdigits, hout⟩ := Option.map_eq_some_iff.mp h
      cases hout
      have hne : tail ≠ [] := by
        rintro rfl
        cases hdigits
      rw [List.cons_append, readExponent_mark hc, spanSign_append hne]
      exact congrArg (Option.map _) (readDigits_append hrest hdigits)
    · rw [readExponent_other hc] at h
      cases h
      exact readExponent_other hc _

theorem readExponent_split (h : readExponent cs = some (lexeme, left)) : cs = lexeme ++ left := by
  cases cs with
  | nil =>
    cases h
    rfl
  | cons c tail =>
    by_cases hc : c = 'e' ∨ c = 'E'
    · rw [readExponent_mark hc] at h
      obtain ⟨⟨digits, behind⟩, hdigits, hout⟩ := Option.map_eq_some_iff.mp h
      cases hout
      rw [List.cons_append, List.append_assoc, ← readDigits_split hdigits, ← spanSign_split]
    · rw [readExponent_other hc] at h
      cases h
      rfl

theorem readUnsigned_eq_some_iff : readUnsigned cs = some (lexeme, left) ↔
    ∃ whole fraction exponent behind behind', readWhole cs = some (whole, behind) ∧
      readFraction behind = some (fraction, behind') ∧
      readExponent behind' = some (exponent, left) ∧ lexeme = whole ++ fraction ++ exponent := by
  unfold readUnsigned
  constructor
  · intro h
    obtain ⟨⟨whole, behind⟩, hwhole, h⟩ := Option.bind_eq_some_iff.mp h
    obtain ⟨⟨fraction, behind'⟩, hfraction, h⟩ := Option.bind_eq_some_iff.mp h
    obtain ⟨⟨exponent, behind''⟩, hexponent, h⟩ := Option.bind_eq_some_iff.mp h
    cases h
    exact ⟨whole, fraction, exponent, behind, behind', hwhole, hfraction, hexponent, rfl⟩
  · rintro ⟨whole, fraction, exponent, behind, behind', hwhole, hfraction, hexponent, rfl⟩
    simp [hwhole, hfraction, hexponent]

theorem readUnsigned_append (hrest : Ends rest) (h : readUnsigned cs = some (lexeme, left)) :
    readUnsigned (cs ++ rest) = some (lexeme, left ++ rest) := by
  obtain ⟨_, _, _, _, _, hwhole, hfraction, hexponent, rfl⟩ := readUnsigned_eq_some_iff.mp h
  exact readUnsigned_eq_some_iff.mpr ⟨_, _, _, _, _, readWhole_append hrest hwhole,
    readFraction_append hrest hfraction, readExponent_append hrest hexponent, rfl⟩

theorem readUnsigned_split (h : readUnsigned cs = some (lexeme, left)) :
    cs = lexeme ++ left ∧ ∃ c tail, cs = c :: tail ∧ c.isDigit := by
  obtain ⟨_, _, _, _, _, hwhole, hfraction, hexponent, rfl⟩ := readUnsigned_eq_some_iff.mp h
  obtain ⟨hsplit, hhead⟩ := readWhole_split hwhole
  refine ⟨?_, hhead⟩
  rw [hsplit, readFraction_split hfraction, readExponent_split hexponent, List.append_assoc,
    List.append_assoc]

theorem readNumber_ne_minus {c : Char} (hc : c ≠ '-') (tail : List Char) :
    readNumber (c :: tail) = readUnsigned (c :: tail) := by
  unfold readNumber
  split
  · rename_i h
    cases h
    exact absurd rfl hc
  · rfl

/-- A number reads the same in front of what does not go on with it. -/
theorem readNumber_append (hrest : Ends rest) (h : readNumber cs = some (lexeme, left)) :
    readNumber (cs ++ rest) = some (lexeme, left ++ rest) := by
  cases cs with
  | nil => cases h
  | cons c tail =>
    by_cases hc : c = '-'
    · subst hc
      obtain ⟨⟨digits, behind⟩, hdigits, hout⟩ := Option.map_eq_some_iff.mp h
      cases hout
      exact congrArg (Option.map _) (readUnsigned_append hrest hdigits)
    · rw [readNumber_ne_minus hc] at h
      exact (readNumber_ne_minus hc _).trans (readUnsigned_append hrest h)

theorem readNumber_split (h : readNumber cs = some (lexeme, left)) :
    cs = lexeme ++ left ∧ ∃ c tail, cs = c :: tail ∧ (c = '-' ∨ c.isDigit) := by
  cases cs with
  | nil => cases h
  | cons c tail =>
    refine ⟨?_, c, tail, rfl, ?_⟩
    · by_cases hc : c = '-'
      · subst hc
        obtain ⟨⟨digits, behind⟩, hdigits, hout⟩ := Option.map_eq_some_iff.mp h
        cases hout
        exact congrArg ('-' :: ·) (readUnsigned_split hdigits).1
      · rw [readNumber_ne_minus hc] at h
        exact (readUnsigned_split h).1
    · by_cases hc : c = '-'
      · exact .inl hc
      · rw [readNumber_ne_minus hc] at h
        obtain ⟨-, c', tail', heq, hdigit⟩ := readUnsigned_split h
        cases heq
        exact .inr hdigit

end
end Ranging.Json
