import Ranging.Proofs.Json.Lexeme

/-!
# What is written is read back

A value that is written with one line per item and member is read back as it is
(`Value.read_pretty`), provided that its numbers are numbers to the reader and its strings have a
content (`Value.Sound`). The induction goes over the value, and the length of its text bounds the
steps that the reader takes for it.
-/
namespace Ranging.Json

/-! ### Blanks -/

theorem skipBlanks_append {blanks : List Char} (hblanks : ∀ c ∈ blanks, isBlank c)
    (rest : List Char) : skipBlanks (blanks ++ rest) = skipBlanks rest :=
  List.dropWhile_append_of_pos hblanks

theorem skipBlanks_cons {c : Char} (hc : isBlank c = false) (rest : List Char) :
    skipBlanks (c :: rest) = c :: rest :=
  List.dropWhile_cons_of_neg (Bool.eq_false_iff.mp hc)

theorem newLine_blank (depth : Nat) : ∀ c ∈ Value.newLine depth, isBlank c := by
  intro c hc
  rcases List.mem_cons.mp hc with rfl | hc
  · rfl
  · rw [List.eq_of_mem_replicate hc]
    rfl

/-! ### Strings -/

/-- What the reader makes of a character that was written. -/
def pieceOf (c : Char) : Piece :=
  if c.toNat < 32 ∧ c ∉ ['\x08', '\x0c', '\n', '\r', '\t'] then .unit c.toNat else .char c

theorem hexUnit_control : ∀ n < 32,
    hexUnit? '0' '0' (hexDigit (n / 16)) (hexDigit (n % 16)) = some n := by
  decide

theorem readPieces_char {c : Char} (hquote : c ≠ '"') (hslash : c ≠ '\\') (hcontrol : 32 ≤ c.toNat)
    (rest : List Char) :
    readPieces (c :: rest) =
      (readPieces rest).map fun (pieces, rest) => (.char c :: pieces, rest) := by
  rw [readPieces]
  · rw [if_neg (not_or_intro (Nat.not_lt.mpr hcontrol) hslash)]
    cases readPieces rest <;> rfl
  · exact hquote
  · exact fun _ _ _ _ _ h => absurd h hslash
  · exact fun _ _ h => absurd h hslash

theorem readPieces_escapeChar (c : Char) (rest : List Char) :
    readPieces (escapeChar c ++ rest) =
      (readPieces rest).map fun (pieces, rest) => (pieceOf c :: pieces, rest) := by
  by_cases hshort : c ∈ ['"', '\\', '\x08', '\x0c', '\n', '\r', '\t']
  · simp only [List.mem_cons, List.not_mem_nil, or_false] at hshort
    rcases hshort with rfl | rfl | rfl | rfl | rfl | rfl | rfl <;>
      · cases hrest : readPieces rest <;>
          simp [escapeChar, readPieces, simpleEscape?, pieceOf, hrest]
  · simp only [List.mem_cons, List.not_mem_nil, or_false, not_or] at hshort
    obtain ⟨hquote, hslash, hb, hf, hn, hr, ht⟩ := hshort
    by_cases hcontrol : c.toNat < 32
    · have hescape : escapeChar c =
          ['\\', 'u', '0', '0', hexDigit (c.toNat / 16), hexDigit (c.toNat % 16)] := by
        simp [escapeChar, hquote, hslash, hb, hf, hn, hr, ht, hcontrol]
      have hpiece : pieceOf c = .unit c.toNat := by
        simp [pieceOf, hb, hf, hn, hr, ht, hcontrol]
      rw [hescape, hpiece]
      simp only [List.cons_append, List.nil_append, readPieces, hexUnit_control _ hcontrol]
      cases readPieces rest <;> rfl
    · have hescape : escapeChar c = [c] := by
        simp [escapeChar, hquote, hslash, hb, hf, hn, hr, ht, hcontrol]
      have hpiece : pieceOf c = .char c := by
        simp [pieceOf, hcontrol]
      rw [hescape, hpiece]
      exact readPieces_char hquote hslash (Nat.not_lt.mp hcontrol) rest

theorem joinPieces_pieceOf (c : Char) (pieces : List Piece) :
    joinPieces (pieceOf c :: pieces) = (joinPieces pieces).map (c :: ·) := by
  unfold pieceOf
  split
  · rename_i hcontrol
    have hlow : ¬ (0xd800 ≤ c.toNat ∧ c.toNat < 0xdc00) := by omega
    have hlow' : ¬ (0xdc00 ≤ c.toNat ∧ c.toNat < 0xe000) := by omega
    have hlow'' : ¬ (0xd800 ≤ c.toNat ∧ c.toNat < 0xe000) := by omega
    cases pieces with
    | nil => simp [joinPieces, hlow'']
    | cons piece pieces =>
      cases piece with
      | char d => simp [joinPieces, hlow'']
      | unit m => rw [joinPieces, if_neg hlow, if_neg hlow', Char.ofNat_toNat]
  · rfl

/-- A string that is written is read back. -/
theorem readString_quote (s : String) (rest : List Char) :
    readString (s.toList.flatMap escapeChar ++ '"' :: rest) = some (some s, rest) := by
  have hpieces (cs : List Char) :
      readPieces (cs.flatMap escapeChar ++ '"' :: rest) = some (cs.map pieceOf, rest) := by
    induction cs with
    | nil => simp [readPieces]
    | cons c cs ih =>
      rw [List.flatMap_cons, List.append_assoc, readPieces_escapeChar, ih]
      rfl
  have hjoin (cs : List Char) : joinPieces (cs.map pieceOf) = some cs := by
    induction cs with
    | nil => rfl
    | cons c cs ih =>
      rw [List.map_cons, joinPieces_pieceOf, ih]
      rfl
  unfold readString
  rw [hpieces]
  dsimp only
  rw [hjoin]
  exact congrArg (fun s => some (some s, rest)) String.ofList_toList

/-! ### Values -/

namespace Value

mutual

/-- The numbers of a value are numbers to the reader, and its strings have a content. -/
def Sound : Value → Prop
  | null | bool _ => True
  | number lexeme => IsNumber lexeme
  | text content => content.isSome
  | array items => SoundItems items
  | object members => SoundMembers members

def SoundItems : List Value → Prop
  | [] => True
  | item :: items => item.Sound ∧ SoundItems items

def SoundMembers : List (Option String × Value) → Prop
  | [] => True
  | (key, value) :: members => key.isSome ∧ value.Sound ∧ SoundMembers members

end

end Value

theorem number_head {c : Char} (hc : c = '-' ∨ c.isDigit) :
    isBlank c = false ∧ c ∉ ['n', 't', 'f', '"', '[', ']', '\x7b'] := by
  rcases hc with rfl | hc
  · decide
  · have hne {d : Char} (hd : d.isDigit = false) : c ≠ d := by
      rintro rfl
      rw [hc] at hd
      cases hd
    simp [isBlank, hne]

namespace Value

/-- A value does not begin with a blank or with the end of an array. -/
theorem pretty_head {v : Value} (hv : v.Sound) (depth : Nat) :
    ∃ c tail, v.pretty depth = c :: tail ∧ isBlank c = false ∧ c ≠ ']' := by
  cases v with
  | null => exact ⟨_, _, by rw [pretty], rfl, by decide⟩
  | bool b => cases b <;> exact ⟨_, _, by rw [pretty], rfl, by decide⟩
  | number lexeme =>
    obtain ⟨-, c, tail, rfl, hc⟩ := readNumber_split hv
    obtain ⟨hblank, hne⟩ := number_head hc
    exact ⟨c, tail, by rw [pretty], hblank, fun hend => hne (by simp [hend])⟩
  | text content => exact ⟨_, _, by rw [pretty]; rfl, rfl, by decide⟩
  | array items => cases items <;> exact ⟨_, _, by rw [pretty], rfl, by decide⟩
  | object members =>
    rcases members with _ | ⟨⟨key, value⟩, members⟩ <;> exact ⟨_, _, by rw [pretty], rfl, by decide⟩

/-- Behind a value in an array stands a comma, or the end of the array on a new line. -/
theorem prettyItems_ends (depth : Nat) (items : List Value) (rest : List Char) :
    Ends (prettyItems depth items ++ rest) := by
  cases items <;> exact .cons (by decide) _

theorem prettyMembers_ends (depth : Nat) (members : List (Option String × Value))
    (rest : List Char) : Ends (prettyMembers depth members ++ rest) := by
  rcases members with _ | ⟨⟨key, value⟩, members⟩ <;> exact .cons (by decide) _

end Value

section

variable {fuel : Nat} {text rest : List Char}

theorem readValue_blanks {blanks : List Char} (hblanks : ∀ c ∈ blanks, isBlank c) :
    readValue fuel (blanks ++ rest) = readValue fuel rest := by
  cases fuel with
  | zero => rfl
  | succ fuel => rw [readValue, readValue, skipBlanks_append hblanks]

theorem readValue_number {lexeme : List Char} (h : IsNumber lexeme) (hrest : Ends rest) :
    readValue (fuel + 1) (lexeme ++ rest) = some (.number lexeme, rest) := by
  have hread : readNumber (lexeme ++ rest) = some (lexeme, rest) := readNumber_append hrest h
  obtain ⟨-, c, tail, rfl, hc⟩ := readNumber_split h
  obtain ⟨hblank, hne⟩ := number_head hc
  rw [readValue, List.cons_append, skipBlanks_cons hblank]
  split
  case h_7 => exact congrArg (Option.map _) hread
  all_goals
    rename_i heq
    obtain ⟨rfl, -⟩ := List.cons.inj heq
    simp at hne

theorem readValue_items (htext : ∀ tail, skipBlanks text ≠ ']' :: tail) :
    readValue (fuel + 1) ('[' :: text) =
      (readItems fuel text).map fun (items, rest) => (.array items, rest) := by
  rw [readValue, skipBlanks_cons rfl]
  split
  case h_5 =>
    rename_i heq
    cases heq
    split
    · rename_i heq
      exact absurd heq (htext _)
    · rfl
  case h_7 hbracket _ => exact (hbracket text rfl).elim
  all_goals
    rename_i heq
    cases heq

theorem readValue_members (htext : ∀ tail, skipBlanks text ≠ '\x7d' :: tail) :
    readValue (fuel + 1) ('\x7b' :: text) =
      (readMembers fuel text).map fun (members, rest) => (.object members, rest) := by
  rw [readValue, skipBlanks_cons rfl]
  split
  case h_6 =>
    rename_i heq
    cases heq
    split
    · rename_i heq
      exact absurd heq (htext _)
    · rfl
  case h_7 hbrace => exact (hbrace text rfl).elim
  all_goals
    rename_i heq
    cases heq

theorem readMembers_member {cs behind : List Char} {key : Option String} {value : Value}
    (hquote : skipBlanks cs = '"' :: text) (hkey : readString text = some (key, ':' :: rest))
    (hvalue : readValue fuel rest = some (value, behind)) :
    readMembers (fuel + 1) cs = match skipBlanks behind with
      | '\x7d' :: rest => some ([(key, value)], rest)
      | ',' :: rest =>
        (readMembers fuel rest).map fun (members, rest) => ((key, value) :: members, rest)
      | _ => none := by
  rw [readMembers]
  split
  · rename_i heq
    rw [hquote] at heq
    cases heq
    rw [hkey]
    dsimp only
    rw [skipBlanks_cons rfl]
    split
    · rename_i heq
      cases heq
      generalize readValue fuel rest = result at hvalue ⊢
      subst hvalue
      rfl
    · rename_i hne
      exact absurd rfl (hne rest)
  · rename_i hne
    exact absurd hquote (hne text)

end

open Value

mutual

/-- A value is read back from its text, if what is behind it does not go on with it. -/
theorem readValue_pretty : (v : Value) → v.Sound → (depth fuel : Nat) →
    {rest : List Char} → Ends rest → 2 * (v.pretty depth).length ≤ fuel →
    readValue (fuel + 1) (v.pretty depth ++ rest) = some (v, rest)
  | .null, _, _, _, _, _, _ => by rw [pretty]; rfl
  | .bool true, _, _, _, _, _, _ => by rw [pretty]; rfl
  | .bool false, _, _, _, _, _, _ => by rw [pretty]; rfl
  | .number lexeme, hv, _, _, _, hrest, _ => by
    rw [pretty]
    exact readValue_number hv hrest
  | .text content, hv, _, _, rest, _, _ => by
    obtain ⟨s, rfl⟩ := Option.isSome_iff_exists.mp hv
    have hquote : quoteContent (some s) ++ rest =
        '"' :: (s.toList.flatMap escapeChar ++ '"' :: rest) := by
      simp [quoteContent, quote]
    rw [pretty, hquote, readValue, skipBlanks_cons rfl]
    exact congrArg (Option.map _) (readString_quote s rest)
  | .array [], _, _, _, _, _, _ => by rw [pretty]; rfl
  | .array (item :: items), hv, depth, fuel, rest, _, hfuel => by
    have htext : prettyItems depth (item :: items) = ',' :: (newLine (depth + 1) ++
        (pretty (depth + 1) item ++ prettyItems depth items)) := rfl
    have hread := readItems_pretty (item :: items) hv depth fuel rest htext
      (by rw [pretty, List.length_cons] at hfuel; omega)
    obtain ⟨c, tail, hhead, hblank, hne⟩ := pretty_head hv.1 (depth + 1)
    rw [pretty, List.cons_append, readValue_items, hread]
    · rfl
    · intro tail' heq
      rw [List.append_assoc, skipBlanks_append (newLine_blank _), hhead, List.cons_append,
        List.cons_append, skipBlanks_cons hblank] at heq
      cases heq
      exact hne rfl
  | .object [], _, _, _, _, _, _ => by rw [pretty]; rfl
  | .object ((key, value) :: members), hv, depth, fuel, rest, _, hfuel => by
    have htext : prettyMembers depth ((key, value) :: members) = ',' :: (newLine (depth + 1) ++
        (quoteContent key ++ ':' :: ' ' :: (pretty (depth + 1) value ++
          prettyMembers depth members))) := rfl
    have hread := readMembers_pretty ((key, value) :: members) hv depth fuel rest htext
      (by rw [pretty, List.length_cons] at hfuel; omega)
    rw [pretty, List.cons_append, readValue_members, hread]
    · rfl
    · intro tail heq
      rw [List.append_assoc, skipBlanks_append (newLine_blank _)] at heq
      cases heq

/-- Items are read back from what stands behind the bracket or the comma in front of them. -/
theorem readItems_pretty : (items : List Value) → SoundItems items → (depth fuel : Nat) →
    (rest : List Char) → {ahead : List Char} → prettyItems depth items = ',' :: ahead →
    2 * ahead.length ≤ fuel → readItems fuel (ahead ++ rest) = some (items, rest)
  | [], _, _, _, _, _, hahead, _ => by cases hahead
  | item :: items, ⟨hitem, hitems⟩, depth, fuel, rest, _, rfl, hfuel => by
    rw [List.length_append, List.length_append, newLine, List.length_cons] at hfuel
    obtain ⟨fuel, rfl⟩ := Nat.exists_eq_add_of_le (show 2 ≤ fuel by omega)
    have hread := readValue_pretty item hitem (depth + 1) fuel
      (prettyItems_ends depth items rest) (by omega)
    rw [Nat.add_comm, readItems, List.append_assoc, List.append_assoc,
      readValue_blanks (newLine_blank _), hread]
    dsimp only
    cases items with
    | nil =>
      have hclose : skipBlanks (prettyItems depth [] ++ rest) = ']' :: rest := by
        rw [prettyItems, List.append_assoc, skipBlanks_append (newLine_blank _)]
        rfl
      rw [hclose]
      rfl
    | cons next items =>
      have hmore := readItems_pretty (next :: items) hitems depth (fuel + 1) rest rfl
        (by rw [prettyItems, List.length_cons] at hfuel; omega)
      have hcomma : skipBlanks (prettyItems depth (next :: items) ++ rest) = ',' ::
          (newLine (depth + 1) ++ (pretty (depth + 1) next ++ prettyItems depth items) ++ rest) :=
        rfl
      rw [hcomma]
      exact congrArg (Option.map _) hmore

/-- Members are read back from what stands behind the brace or the comma in front of them. -/
theorem readMembers_pretty : (members : List (Option String × Value)) → SoundMembers members →
    (depth fuel : Nat) → (rest : List Char) → {ahead : List Char} →
    prettyMembers depth members = ',' :: ahead → 2 * ahead.length ≤ fuel →
    readMembers fuel (ahead ++ rest) = some (members, rest)
  | [], _, _, _, _, _, hahead, _ => by cases hahead
  | (key, value) :: members, ⟨hkey, hvalue, hmembers⟩, depth, fuel, rest, _, rfl, hfuel => by
    obtain ⟨s, rfl⟩ := Option.isSome_iff_exists.mp hkey
    rw [List.length_append, List.length_append, newLine, List.length_cons, List.length_cons,
      List.length_cons, List.length_append] at hfuel
    obtain ⟨fuel, rfl⟩ := Nat.exists_eq_add_of_le (show 2 ≤ fuel by omega)
    have hread : readValue (fuel + 1) (' ' :: (pretty (depth + 1) value ++
          (prettyMembers depth members ++ rest))) =
        some (value, prettyMembers depth members ++ rest) :=
      (readValue_blanks (show ∀ c ∈ [' '], isBlank c by simp [isBlank])).trans
        (readValue_pretty value hvalue (depth + 1) fuel (prettyMembers_ends depth members rest)
          (by omega))
    have hquote : skipBlanks (newLine (depth + 1) ++ (quoteContent (some s) ++ ':' :: ' ' ::
        (pretty (depth + 1) value ++ prettyMembers depth members)) ++ rest) =
        '"' :: (s.toList.flatMap escapeChar ++ '"' :: ':' :: ' ' ::
          (pretty (depth + 1) value ++ (prettyMembers depth members ++ rest))) := by
      rw [List.append_assoc, skipBlanks_append (newLine_blank _)]
      simp [quoteContent, quote, skipBlanks_cons (show isBlank '"' = false from rfl)]
    rw [Nat.add_comm, readMembers_member hquote (readString_quote s _) hread]
    rcases members with _ | ⟨⟨next, nextValue⟩, members⟩
    · have hclose : skipBlanks (prettyMembers depth [] ++ rest) = '\x7d' :: rest := by
        rw [prettyMembers, List.append_assoc, skipBlanks_append (newLine_blank _)]
        rfl
      rw [hclose]
      rfl
    · have hmore := readMembers_pretty ((next, nextValue) :: members) hmembers depth
        (fuel + 1) rest rfl
        (by rw [prettyMembers, List.length_cons] at hfuel; omega)
      have hcomma : skipBlanks (prettyMembers depth ((next, nextValue) :: members) ++ rest) = ',' ::
          (newLine (depth + 1) ++ (quoteContent next ++ ':' :: ' ' ::
            (pretty (depth + 1) nextValue ++ prettyMembers depth members)) ++ rest) :=
        rfl
      rw [hcomma]
      exact congrArg (Option.map _) hmore

end

/-- What is written is read back. -/
theorem Value.read_pretty {v : Value} (hv : v.Sound) : Value.read (v.pretty 0) = some v := by
  have hread := readValue_pretty v hv 0 _ Ends.nil (Nat.le_succ _)
  rw [List.append_nil] at hread
  unfold Value.read
  rw [hread]
  rfl

end Ranging.Json
