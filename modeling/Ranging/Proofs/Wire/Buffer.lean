import Ranging.Wire.Buffer

/-!
# Reading a buffer never leaves it and loses nothing

A `Call` is something a buffer is asked for, an `Item` what it hands out. A call is met in full or
not at all (`Buffer.Meets`), so behind any calls, met or not, a buffer has handed out the bytes
before its offset, each once and in order, and what is ahead is the rest (`Buffer.run_lossless`).
-/
namespace Ranging.Wire

open Ranging.Number (Single)

/-! ### Steps within their bounds -/

namespace Buffer

theorem slice_eq {bytes : Bytes} {first last : Nat} (hfirst : first ≤ last)
    (hlast : last ≤ bytes.length) :
    slice bytes first last = .ok ((bytes.drop first).take (last - first)) := by
  rw [slice, if_pos ⟨hfirst, hlast⟩, List.drop_take]

theorem remaining_eq {b : Buffer} (h : b.offset ≤ b.bytes.length) :
    b.remaining = .ok (b.bytes.length - b.offset) := if_pos h

theorem rest_eq {b : Buffer} (h : b.offset ≤ b.bytes.length) :
    b.rest = .ok (b.bytes.drop b.offset) := by
  rw [rest, slice_eq h (Nat.le_refl _), ← List.length_drop, List.take_length]

/-- The cursor that stands where a buffer stands. -/
def cursor (b : Buffer) : Cursor := ⟨b.offset, b.bytes.drop b.offset⟩

theorem cursor_remaining (b : Buffer) : b.cursor.remaining = b.bytes.length - b.offset :=
  List.length_drop

theorem cursor_size {b : Buffer} (h : b.offset ≤ b.bytes.length) :
    b.cursor.size = b.bytes.length := by
  rw [Cursor.size, cursor_remaining]
  exact Nat.add_sub_cancel' h

theorem cursor_overruns_iff {b : Buffer} (h : b.offset ≤ b.bytes.length) (count : Nat) :
    b.cursor.overruns count ↔
      b.bytes.length < b.offset + count ∧ wordLimit ≤ b.offset + count := by
  rw [Cursor.overruns, cursor_remaining, Bool.and_eq_true, decide_eq_true_eq, decide_eq_true_eq]
  exact and_congr_left' (Nat.sub_lt_iff_lt_add' h)

end Buffer

namespace Scan

variable {α β : Type} {s : Scan α} {b b' : Buffer} {a : α} {e : WireError}

/-! ### One step after the other -/

theorem bind_value (h : s.run.run b = .ok (.ok a, b')) (f : α → Scan β) :
    (s >>= f).run.run b = (f a).run.run b' := by
  show (s.run.run b >>= _) = _
  rw [h]
  rfl

theorem bind_stop (h : s.run.run b = .ok (.error e, b')) (f : α → Scan β) :
    (s >>= f).run.run b = .ok (.error e, b') := by
  show (s.run.run b >>= _) = _
  rw [h]
  rfl

theorem bind_fault {fault : Fault} (h : s.run.run b = .error fault) (f : α → Scan β) :
    (s >>= f).run.run b = .error fault := by
  show (s.run.run b >>= _) = _
  rw [h]
  rfl

theorem bind_get (f : Buffer → Scan β) (b : Buffer) : (get >>= f).run.run b = (f b).run.run b :=
  rfl

theorem bind_checked {x : Except Fault α} (h : x = .ok a) (f : α → Scan β) (b : Buffer) :
    (liftM x >>= f).run.run b = (f a).run.run b := by
  subst h
  rfl

theorem bind_unchecked {x : Except Fault α} {fault : Fault} (h : x = .error fault)
    (f : α → Scan β) (b : Buffer) : (liftM x >>= f).run.run b = .error fault := by
  subst h
  rfl

/-! ### What the operations want -/

/-- A scan wants `count` bytes. If they are ahead it answers with what they are worth and moves on
by `moved`; otherwise it reports what is missing and leaves the buffer alone, as long as the report
fits its words. -/
structure Wants (s : Scan α) (count moved : Nat) (value : Bytes → α) : Prop where
  enough : ∀ b : Buffer, b.offset + count ≤ b.bytes.length → b.offset + count < wordLimit →
    s.run.run b = .ok (.ok (value ((b.bytes.drop b.offset).take count)),
      { b with offset := b.offset + moved })
  short : ∀ b : Buffer, b.offset ≤ b.bytes.length → b.bytes.length < b.offset + count →
    b.offset + count < wordLimit →
    s.run.run b = .ok (.error (.insufficientData (b.offset + count) b.bytes.length), b)
  overrun : ∀ b : Buffer, b.offset ≤ b.bytes.length → b.bytes.length < b.offset + count →
    wordLimit ≤ b.offset + count → s.run.run b = .error .overflow

variable {count moved : Nat} {value : Bytes → α}

theorem Wants.map (h : Wants s count moved value) (f : α → β) :
    Wants (f <$> s) count moved fun bytes => f (value bytes) where
  enough b henough hword := by
    show (s.run.run b >>= _) = _
    rw [h.enough b henough hword]
    rfl
  short b hwithin hfew hword := by
    show (s.run.run b >>= _) = _
    rw [h.short b hwithin hfew hword]
    rfl
  overrun b hwithin hfew hover := by
    show (s.run.run b >>= _) = _
    rw [h.overrun b hwithin hfew hover]
    rfl

theorem ensure_wants (count : Nat) : Wants (ensure count) count 0 fun _ => () where
  enough b henough hword := by
    have hahead := b.remaining_eq (by omega)
    rw [ensure, bind_get, bind_checked hahead, if_neg (by omega)]
    rfl
  short b hwithin hfew hword := by
    rw [ensure, bind_get, bind_checked (b.remaining_eq hwithin), if_pos (by omega),
      bind_checked (addWithin_eq_ok_iff.mpr ⟨hword, rfl⟩)]
    rfl
  overrun b hwithin hfew hover := by
    rw [ensure, bind_get, bind_checked (b.remaining_eq hwithin), if_pos (by omega),
      bind_unchecked (addWithin_overflow hover)]

theorem bytes_wants (count : Nat) : Wants (bytes count) count count fun bytes => bytes where
  enough b henough hword := by
    have hensure : (ensure count).run.run b = .ok (.ok (), b) :=
      (ensure_wants count).enough b henough hword
    have hslice := Buffer.slice_eq (Nat.le_add_right b.offset count) henough
    rw [Nat.add_sub_cancel_left] at hslice
    rw [bytes, bind_value hensure, bind_get,
      bind_checked (addWithin_eq_ok_iff.mpr ⟨hword, rfl⟩), bind_checked hslice]
    rfl
  short b hwithin hfew hword := by
    rw [bytes, bind_stop ((ensure_wants count).short b hwithin hfew hword)]
  overrun b hwithin hfew hover := by
    rw [bytes, bind_fault ((ensure_wants count).overrun b hwithin hfew hover)]

/-- What was taken for a number has its width, so every byte of it is found. -/
theorem word_wants (width : Nat) : Wants (word width) width width ofBytes where
  enough b henough hword := by
    have hlength : ((b.bytes.drop b.offset).take width).length = width := by
      rw [List.length_take, List.length_drop]
      omega
    have hslice := Buffer.slice_eq (Nat.zero_le width) (Nat.le_of_eq hlength.symm)
    rw [Nat.sub_zero, List.drop_zero, List.take_take, Nat.min_self] at hslice
    rw [word, bind_value ((bytes_wants width).enough b henough hword), bind_checked hslice]
    rfl
  short b hwithin hfew hword := by
    rw [word, bind_stop ((bytes_wants width).short b hwithin hfew hword)]
  overrun b hwithin hfew hover := by
    rw [word, bind_fault ((bytes_wants width).overrun b hwithin hfew hover)]

end Scan

namespace Read

variable {α β : Type} {r : Read α} {count moved : Nat} {value : Bytes → α}

/-- What it is for a reader of cursors to want `count` bytes. It has no word to overrun. -/
def Wants (r : Read α) (count moved : Nat) (value : Bytes → α) : Prop :=
  ∀ c : Cursor, r c =
    if count ≤ c.remaining then
      .ok (value (c.rest.take count), ⟨c.offset + moved, c.rest.drop moved⟩)
    else .error (c.shortage count)

theorem Wants.map (h : Wants r count moved value) (f : α → β) :
    Wants (f <$> r) count moved fun bytes => f (value bytes) := by
  intro c
  show (r c >>= _) = _
  rw [h c]
  split <;> rfl

theorem ensure_wants (count : Nat) : Wants (ensure count) count 0 fun _ => () := by
  intro c
  show (c.ensure count).map _ = _
  rw [Cursor.ensure]
  split <;> rfl

theorem bytes_wants (count : Nat) : Wants (bytes count) count count fun bytes => bytes :=
  fun _ => rfl

theorem word_wants (width : Nat) : Wants (word width) width width ofBytes := by
  intro c
  show (c.take width).map _ = _
  rw [Cursor.take]
  split <;> rfl

/-- A reader of cursors on a buffer, which an error leaves alone. -/
def onBuffer (r : Read α) (b : Buffer) : Except WireError α × Buffer :=
  match r b.cursor with
  | .ok (a, c) => (.ok a, { b with offset := c.offset })
  | .error e => (.error e, b)

/-- Step by step a buffer is read as a cursor is, unless the cursor overruns. -/
theorem Wants.scan_eq {s : Scan α} (h : Wants r count moved value) (hs : s.Wants count moved value)
    {b : Buffer} (hwithin : b.offset ≤ b.bytes.length)
    (hword : b.offset + count ≤ b.bytes.length → b.offset + count < wordLimit) :
    s.run.run b = if b.cursor.overruns count then .error .overflow else .ok (r.onBuffer b) := by
  have hover := Buffer.cursor_overruns_iff hwithin count
  unfold onBuffer
  rw [h b.cursor, Buffer.cursor_remaining]
  by_cases henough : b.offset + count ≤ b.bytes.length
  · rw [hs.enough b henough (hword henough), if_neg (mt hover.mp (by omega)), if_pos (by omega)]
    rfl
  · have hfew := Nat.not_le.mp henough
    by_cases hfits : b.offset + count < wordLimit
    · rw [hs.short b hwithin hfew hfits, if_neg (mt hover.mp (by omega)), if_neg (by omega),
        Cursor.shortage, Buffer.cursor_size hwithin]
      rfl
    · have hlimit := Nat.not_lt.mp hfits
      rw [hs.overrun b hwithin hfew hlimit, if_pos (hover.mpr ⟨hfew, hlimit⟩)]

end Read

/-! ### Calls -/

namespace Buffer

/-- Something that a buffer is asked for. -/
inductive Call where
  | byte
  | word16
  | word32
  | word64
  | single
  | bytes (count : Nat)
  | ensure (count : Nat)
  deriving DecidableEq

/-- What a buffer hands out. -/
inductive Item where
  | byte (value : UInt8)
  | word16 (value : UInt16)
  | word32 (value : UInt32)
  | word64 (value : UInt64)
  | single (value : Single)
  | bytes (value : Bytes)
  /-- Nothing but the word that enough bytes are ahead. -/
  | checked
  deriving DecidableEq

/-- The bytes that an item came from, those of a number least significant byte first. -/
def Item.encode : Item → Bytes
  | byte x => [x]
  | word16 x => bytesOfWord16 x
  | word32 x => bytesOfWord32 x
  | word64 x => bytesOfWord64 x
  | single x => bytesOfSingle x
  | bytes s => s
  | checked => []

namespace Call

/-- How many bytes a call asks for. -/
def width : Call → Nat
  | byte => 1
  | word16 => 2
  | word32 => 4
  | word64 => 8
  | single => 4
  | bytes count => count
  | ensure count => count

/-- How many bytes are behind the buffer when a call is met. -/
def moved : Call → Nat
  | ensure _ => 0
  | call => call.width

theorem moved_le (call : Call) : call.moved ≤ call.width := by
  cases call with
  | ensure count => exact Nat.zero_le count
  | _ => exact Nat.le_refl _

/-- The call on a buffer, step by step. -/
def scan : Call → Scan Item
  | byte => .byte <$> Scan.byte
  | word16 => .word16 <$> Scan.word16
  | word32 => .word32 <$> Scan.word32
  | word64 => .word64 <$> Scan.word64
  | single => .single <$> Scan.single
  | bytes count => .bytes <$> Scan.bytes count
  | ensure count => (fun _ => .checked) <$> Scan.ensure count

/-- The call on a cursor. -/
def read : Call → Read Item
  | byte => .byte <$> Read.byte
  | word16 => .word16 <$> Read.word16
  | word32 => .word32 <$> Read.word32
  | word64 => .word64 <$> Read.word64
  | single => .single <$> Read.single
  | bytes count => .bytes <$> Read.bytes count
  | ensure count => (fun _ => .checked) <$> Read.ensure count

/-- What the bytes that a call asks for are worth. -/
def value : Call → Bytes → Item
  | byte, s => .byte (.ofNat (ofBytes s))
  | word16, s => .word16 (.ofNat (ofBytes s))
  | word32, s => .word32 (.ofNat (ofBytes s))
  | word64, s => .word64 (.ofNat (ofBytes s))
  | single, s => .single ⟨.ofNat (ofBytes s)⟩
  | bytes _, s => .bytes s
  | ensure _, _ => .checked

theorem scan_wants (call : Call) : Scan.Wants call.scan call.width call.moved call.value := by
  cases call with
  | byte => exact ((Scan.word_wants 1).map _).map _
  | word16 => exact ((Scan.word_wants 2).map _).map _
  | word32 => exact ((Scan.word_wants 4).map _).map _
  | word64 => exact ((Scan.word_wants 8).map _).map _
  | single => exact (((Scan.word_wants 4).map _).map _).map _
  | bytes count => exact (Scan.bytes_wants count).map _
  | ensure count => exact (Scan.ensure_wants count).map _

theorem read_wants (call : Call) : Read.Wants call.read call.width call.moved call.value := by
  cases call with
  | byte => exact ((Read.word_wants 1).map _).map _
  | word16 => exact ((Read.word_wants 2).map _).map _
  | word32 => exact ((Read.word_wants 4).map _).map _
  | word64 => exact ((Read.word_wants 8).map _).map _
  | single => exact (((Read.word_wants 4).map _).map _).map _
  | bytes count => exact (Read.bytes_wants count).map _
  | ensure count => exact (Read.ensure_wants count).map _

/-- Step by step a buffer answers a call as the cursor does, unless the cursor overruns. -/
theorem scan_eq (call : Call) {b : Buffer} (hwithin : b.offset ≤ b.bytes.length)
    (hword : b.offset + call.width ≤ b.bytes.length → b.offset + call.width < wordLimit) :
    call.scan.run.run b =
      if b.cursor.overruns call.width then .error .overflow else .ok (call.read.onBuffer b) :=
  Read.Wants.scan_eq call.read_wants call.scan_wants hwithin hword

/-- A word made of as many bytes as it has is written as these bytes. -/
theorem toBytes_word {α : Type} {width : Nat} {ofNat : Nat → α} {toNat : α → Nat} {s : Bytes}
    (hlength : s.length = width) (htoNat : ∀ n < 256 ^ width, toNat (ofNat n) = n) :
    toBytes width (toNat (ofNat (ofBytes s))) = s := by
  subst hlength
  rw [htoNat _ (ofBytes_lt s), toBytes_ofBytes]

/-- The item that bytes are worth comes from those of them that are then behind the buffer. -/
theorem encode_value (call : Call) {s : Bytes} (hlength : s.length = call.width) :
    (call.value s).encode = s.take call.moved := by
  have htake : s.take call.width = s := List.take_of_length_le (Nat.le_of_eq hlength)
  cases call with
  | byte =>
    have hword : toBytes 1 (UInt8.ofNat (ofBytes s)).toNat = s :=
      toBytes_word hlength fun _ hn => UInt8.toNat_ofNat_of_lt' hn
    rw [toBytes, UInt8.ofNat_toNat] at hword
    exact hword.trans htake.symm
  | word16 =>
    exact (toBytes_word hlength fun _ hn => UInt16.toNat_ofNat_of_lt' hn).trans htake.symm
  | word32 | single =>
    exact (toBytes_word hlength fun _ hn => UInt32.toNat_ofNat_of_lt' hn).trans htake.symm
  | word64 =>
    exact (toBytes_word hlength fun _ hn => UInt64.toNat_ofNat_of_lt' hn).trans htake.symm
  | bytes count => exact htake.symm
  | ensure count => exact List.take_zero.symm

end Call

/-- How a call on a buffer ends. -/
abbrev Answer := Except WireError Item

/-- The bytes that an answer hands out. -/
def Answer.bytes : Answer → Bytes
  | .ok item => item.encode
  | .error _ => []

variable {b : Buffer} {call : Call} {calls : List Call} {bytes : Bytes}

/-- A buffer meets a call in full or not at all, as a cursor does. -/
structure Meets (b : Buffer) (call : Call) : Prop where
  /-- With enough bytes ahead it hands out those that it moves over. -/
  enough : call.width ≤ b.bytes.length - b.offset →
    ∃ item, call.scan.run.run b = .ok (.ok item, { b with offset := b.offset + call.moved }) ∧
      item.encode = (b.bytes.drop b.offset).take call.moved
  /-- With too few it reports which bytes it wanted and stays as it is. -/
  short : b.bytes.length - b.offset < call.width →
    call.scan.run.run b =
        .ok (.error (.insufficientData (b.offset + call.width) b.bytes.length), b) ∧
      b.bytes.length < b.offset + call.width
  /-- A decoder, which moves a cursor, gets the same answer. -/
  cursor : call.scan.run.run b = .ok (call.read.onBuffer b)

theorem meets (hwithin : b.offset ≤ b.bytes.length) (hword : b.offset + call.width < wordLimit) :
    b.Meets call where
  enough henough := by
    have hlength : ((b.bytes.drop b.offset).take call.width).length = call.width := by
      rw [List.length_take, List.length_drop]
      omega
    refine ⟨_, call.scan_wants.enough b (by omega) hword, ?_⟩
    rw [call.encode_value hlength, List.take_take, Nat.min_eq_left call.moved_le]
  short hfew := by
    have hlt : b.bytes.length < b.offset + call.width := by omega
    exact ⟨call.scan_wants.short b hwithin hlt hword, hlt⟩
  cursor := by
    have hover := cursor_overruns_iff hwithin call.width
    rw [call.scan_eq hwithin fun _ => hword, if_neg (mt hover.mp (by omega))]

/-! ### Calls one after the other -/

/-- The answers to some calls, one after the other, and the buffer behind them. -/
def run (b : Buffer) : List Call → Except Fault (List Answer × Buffer)
  | [] => .ok ([], b)
  | call :: calls => do
    let (answer, b) ← call.scan.run.run b
    let (answers, b) ← b.run calls
    return (answer :: answers, b)

/-- The bytes that each call asks for end at an offset that fits a word. -/
def Fits (b : Buffer) : List Call → Prop
  | [] => True
  | call :: calls => b.offset + call.width < wordLimit ∧
    match call.scan.run.run b with
    | .ok (_, b') => b'.Fits calls
    | .error _ => True

instance decidableFits (b : Buffer) : (calls : List Call) → Decidable (b.Fits calls)
  | [] => inferInstanceAs (Decidable True)
  | call :: calls =>
    match hscan : call.scan.run.run b with
    | .ok (_, b') =>
      have := b'.decidableFits calls
      decidable_of_iff (b.offset + call.width < wordLimit ∧ b'.Fits calls) (by rw [Fits, hscan])
    | .error _ =>
      decidable_of_iff (b.offset + call.width < wordLimit) (by rw [Fits, hscan, and_true])

/-- Between two states of a buffer some of its bytes were handed out. -/
structure Passed (b : Buffer) (handed : Bytes) (b' : Buffer) : Prop where
  bytes : b'.bytes = b.bytes
  within : b'.offset ≤ b'.bytes.length
  handed : b.bytes.take b'.offset = b.bytes.take b.offset ++ handed

theorem Passed.trans {b' b'' : Buffer} {s s' : Bytes} (h : b.Passed s b') (h' : b'.Passed s' b'') :
    b.Passed (s ++ s') b'' where
  bytes := h'.bytes.trans h.bytes
  within := h'.within
  handed := by
    have hlast := h'.handed
    rw [h.bytes, h.handed, List.append_assoc] at hlast
    exact hlast

theorem Meets.passed (h : b.Meets call) (hwithin : b.offset ≤ b.bytes.length) :
    ∃ answer b', call.scan.run.run b = .ok (answer, b') ∧ b.Passed (Answer.bytes answer) b' := by
  by_cases henough : call.width ≤ b.bytes.length - b.offset
  · obtain ⟨item, hscan, hitem⟩ := h.enough henough
    have hmoved := call.moved_le
    refine ⟨_, _, hscan, rfl, ?_, ?_⟩
    · show b.offset + call.moved ≤ b.bytes.length
      omega
    · show b.bytes.take (b.offset + call.moved) = b.bytes.take b.offset ++ item.encode
      rw [hitem, List.take_add]
  · obtain ⟨hscan, -⟩ := h.short (Nat.not_le.mp henough)
    exact ⟨_, _, hscan, rfl, hwithin, (List.append_nil _).symm⟩

theorem run_passed (hwithin : b.offset ≤ b.bytes.length) (h : b.Fits calls) :
    ∃ answers b', b.run calls = .ok (answers, b') ∧
      b.Passed (answers.flatMap Answer.bytes) b' := by
  induction calls generalizing b with
  | nil => exact ⟨[], b, rfl, rfl, hwithin, (List.append_nil _).symm⟩
  | cons call calls ih =>
    obtain ⟨hword, hrest⟩ := h
    -- the first call leaves a buffer within its bytes, from which the others start
    obtain ⟨answer, b', hscan, hpassed⟩ := (meets hwithin hword).passed hwithin
    rw [hscan] at hrest
    obtain ⟨answers, b'', hrun, hpassed'⟩ := ih hpassed.within hrest
    refine ⟨answer :: answers, b'', ?_, hpassed.trans hpassed'⟩
    simp only [run, hscan, hrun, bind, Except.bind, pure, Except.pure]

/-- A buffer that is read never leaves its bytes and loses none. Behind any calls whose ends fit a
word, met or not, the bytes handed out are those before its offset and the rest is ahead; it meets
a further call in full or not at all. -/
theorem run_lossless {bytes : Bytes} {calls : List Call} (h : (start bytes).Fits calls) :
    ∃ answers b, (start bytes).run calls = .ok (answers, b) ∧
      b.bytes = bytes ∧ b.offset ≤ bytes.length ∧ b.remaining = .ok (bytes.length - b.offset) ∧
      answers.flatMap Answer.bytes = bytes.take b.offset ∧ b.rest = .ok (bytes.drop b.offset) ∧
      ∀ call, b.offset + call.width < wordLimit → b.Meets call := by
  obtain ⟨answers, b, hrun, rfl, hwithin, hhanded⟩ := run_passed (Nat.zero_le _) h
  exact ⟨answers, b, hrun, rfl, hwithin, remaining_eq hwithin, hhanded.symm, rest_eq hwithin,
    fun call hword => meets hwithin hword⟩

/-- A buffer of eleven bytes. -/
def letter : Bytes := [1, 2, 0, 0, 0x80, 0x7f, 5, 6, 7, 8, 9]

/-- Calls of every kind, some for more than there is and one for as much as a word can say. -/
def probes : List Call :=
  [.word16, .ensure 10, .single, .word64, .bytes (2 ^ 64 - 7), .ensure 5, .byte, .word32, .word64,
    .bytes 0, .word16]

theorem run_lossless_letter :
    (start letter).Fits probes ∧
      ∃ answers b, (start letter).run probes = .ok (answers, b) ∧ b.offset = 11 ∧
        answers.flatMap Answer.bytes = letter ∧ b.Meets (.bytes 1) := by
  have hfits : (start letter).Fits probes := by decide +kernel
  obtain ⟨answers, b, hrun, -, -, -, hbytes, -, hmeets⟩ := run_lossless hfits
  have hend : ((start letter).run probes).toOption.map (·.2.offset) = some 11 := by decide +kernel
  rw [hrun] at hend
  have hoffset : b.offset = 11 := Option.some.inj hend
  refine ⟨hfits, answers, b, hrun, hoffset, ?_, hmeets _ (by rw [hoffset]; decide)⟩
  rw [hbytes, hoffset]
  rfl

end Buffer
end Ranging.Wire
