import Ranging.Random.Source

/-!
A seeded generator of uniform numbers: the ChaCha stream cipher with six double rounds.

Draws take the words of the key stream in order, two words per number. A seed of 64 bits is spread
over the key by a congruential generator with permuted output.
-/
namespace Ranging.Random

/-- Four words, one row of a cipher state. -/
structure Row where
  w0 : UInt32
  w1 : UInt32
  w2 : UInt32
  w3 : UInt32
  deriving Repr, DecidableEq, Inhabited

namespace Row

/-- Applies a function to the words at the same places. -/
def zip (f : UInt32 → UInt32 → UInt32) (r s : Row) : Row :=
  ⟨f r.w0 s.w0, f r.w1 s.w1, f r.w2 s.w2, f r.w3 s.w3⟩

/-- Turns the row one place to the left. -/
def turn (r : Row) : Row := ⟨r.w1, r.w2, r.w3, r.w0⟩

/-- Rotates the bits of each word to the left. -/
def rotateBits (r : Row) (k : UInt32) : Row :=
  let rotate (x : UInt32) : UInt32 := (x <<< k) ||| (x >>> (32 - k))
  ⟨rotate r.w0, rotate r.w1, rotate r.w2, rotate r.w3⟩

def toList (r : Row) : List UInt32 := [r.w0, r.w1, r.w2, r.w3]

end Row

/-- A cipher state of four rows. -/
structure Block where
  a : Row
  b : Row
  c : Row
  d : Row
  deriving Repr, DecidableEq, Inhabited

namespace Block

/-- One step of a quarter round on all four columns: add, combine, rotate. -/
def mix (target source other : Row) (k : UInt32) : Row × Row :=
  let target := target.zip (· + ·) source
  (target, (other.zip (· ^^^ ·) target).rotateBits k)

/-- A quarter round on all four columns. -/
def columnRound (x : Block) : Block :=
  let (a, d) := mix x.a x.b x.d 16
  let (c, b) := mix x.c d x.b 12
  let (a, d) := mix a b d 8
  let (c, b) := mix c d b 7
  ⟨a, b, c, d⟩

/-- A quarter round on all four diagonals. -/
def diagonalRound (x : Block) : Block :=
  let y := columnRound ⟨x.a, x.b.turn, x.c.turn.turn, x.d.turn.turn.turn⟩
  ⟨y.a, y.b.turn.turn.turn, y.c.turn.turn, y.d.turn⟩

def rounds : Nat → Block → Block
  | 0, x => x
  | n + 1, x => rounds n x.columnRound.diagonalRound

/-- The words of the key stream that a state stands for. -/
def words (x : Block) : List UInt32 :=
  let y := rounds 6 x
  (y.a.zip (· + ·) x.a).toList ++ (y.b.zip (· + ·) x.b).toList ++
    (y.c.zip (· + ·) x.c).toList ++ (y.d.zip (· + ·) x.d).toList

end Block

structure Key where
  low : Row
  high : Row
  deriving Repr, DecidableEq, Inhabited

namespace Key

/-- The state of the block with a number, on stream zero. -/
def block (key : Key) (number : UInt64) : Block where
  a := ⟨0x61707865, 0x3320646e, 0x79622d32, 0x6b206574⟩
  b := key.low
  c := key.high
  d := ⟨number.toUInt32, (number >>> 32).toUInt32, 0, 0⟩

/-- The next state of the seed expansion. -/
def stepSeed (s : UInt64) : UInt64 := s * 6364136223846793005 + 11634580027462260723

/-- The word that a state of the seed expansion gives. -/
def seedWord (s : UInt64) : UInt32 :=
  let x := (((s >>> 18) ^^^ s) >>> 27).toUInt32
  let k := (s >>> 59).toUInt32
  (x >>> k) ||| (x <<< ((32 - k) % 32))

def ofSeed (seed : UInt64) : Key :=
  let s1 := stepSeed seed
  let s2 := stepSeed s1
  let s3 := stepSeed s2
  let s4 := stepSeed s3
  let s5 := stepSeed s4
  let s6 := stepSeed s5
  let s7 := stepSeed s6
  let s8 := stepSeed s7
  ⟨⟨seedWord s1, seedWord s2, seedWord s3, seedWord s4⟩,
    ⟨seedWord s5, seedWord s6, seedWord s7, seedWord s8⟩⟩

end Key

/-- A generator: its key, the number of the next block, and the words left of the current one. -/
structure Generator where
  key : Key
  block : UInt64
  pending : List UInt32
  deriving Repr, DecidableEq, Inhabited

namespace Generator

def ofSeed (seed : UInt64) : Generator := ⟨.ofSeed seed, 0, []⟩

/-- The next 64 bits of the key stream, low word first. -/
def next (g : Generator) : UInt64 × Generator :=
  let word (low high : UInt32) : UInt64 := low.toUInt64 ||| (high.toUInt64 <<< 32)
  match g.pending with
  | low :: high :: rest => (word low high, { g with pending := rest })
  | _ =>
    let g := { g with pending := (g.key.block g.block).words, block := g.block + 1 }
    match g.pending with
    | low :: high :: rest => (word low high, { g with pending := rest })
    | _ => (0, g)

/-- The number in `[0, 1)` whose 53 binary places are the upper bits of a word. -/
def unitOf (x : UInt64) : Float := Float.ofNat (x >>> 11).toNat / 9007199254740992.0

/-- A uniform number in `[0, 1)`. -/
def nextUnit (g : Generator) : Float × Generator :=
  let (x, g) := g.next
  (unitOf x, g)

end Generator

instance : Source Generator where
  ofSeed := .ofSeed
  nextUnit := Generator.nextUnit

end Ranging.Random
