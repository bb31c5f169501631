import Tabletop.Source.Words

/-!
# Seeded random words

The words of a seed: a 64-bit seed is drawn out to a key of eight words, and the key gives the
ChaCha stream with twelve rounds, whose blocks are numbered with 64 bits. The stream ends with its
last block, before it would begin anew.
-/

namespace Tabletop

namespace ChaCha

/-- Turns a word to the left. -/
def rotateLeft (x : UInt32) (n : UInt32) : UInt32 := (x <<< n) ||| (x >>> (32 - n))

/-- Turns a word to the right; a turn by nothing leaves it as it is. -/
def rotateRight (x : UInt32) (n : UInt32) : UInt32 := (x >>> n) ||| (x <<< (32 - n))

/-- The quarter round on four words. -/
def quarter (a b c d : UInt32) : UInt32 × UInt32 × UInt32 × UInt32 :=
  let a := a + b; let d := rotateLeft (d ^^^ a) 16
  let c := c + d; let b := rotateLeft (b ^^^ c) 12
  let a := a + b; let d := rotateLeft (d ^^^ a) 8
  let c := c + d; let b := rotateLeft (b ^^^ c) 7
  (a, b, c, d)

/-- The sixteen words of a block, row by row. -/
structure Block where
  /-- Row 0, column 0. -/
  x00 : UInt32
  /-- Row 0, column 1. -/
  x01 : UInt32
  /-- Row 0, column 2. -/
  x02 : UInt32
  /-- Row 0, column 3. -/
  x03 : UInt32
  /-- Row 1, column 0. -/
  x10 : UInt32
  /-- Row 1, column 1. -/
  x11 : UInt32
  /-- Row 1, column 2. -/
  x12 : UInt32
  /-- Row 1, column 3. -/
  x13 : UInt32
  /-- Row 2, column 0. -/
  x20 : UInt32
  /-- Row 2, column 1. -/
  x21 : UInt32
  /-- Row 2, column 2. -/
  x22 : UInt32
  /-- Row 2, column 3. -/
  x23 : UInt32
  /-- Row 3, column 0. -/
  x30 : UInt32
  /-- Row 3, column 1. -/
  x31 : UInt32
  /-- Row 3, column 2. -/
  x32 : UInt32
  /-- Row 3, column 3. -/
  x33 : UInt32
  deriving DecidableEq, Repr

namespace Block

/-- The words in order. -/
def toList (b : Block) : List UInt32 :=
  [b.x00, b.x01, b.x02, b.x03, b.x10, b.x11, b.x12, b.x13,
   b.x20, b.x21, b.x22, b.x23, b.x30, b.x31, b.x32, b.x33]

/-- A round on the columns and a round on the diagonals. -/
def doubleRound (b : Block) : Block :=
  let (x00, x10, x20, x30) := quarter b.x00 b.x10 b.x20 b.x30
  let (x01, x11, x21, x31) := quarter b.x01 b.x11 b.x21 b.x31
  let (x02, x12, x22, x32) := quarter b.x02 b.x12 b.x22 b.x32
  let (x03, x13, x23, x33) := quarter b.x03 b.x13 b.x23 b.x33
  let (x00, x11, x22, x33) := quarter x00 x11 x22 x33
  let (x01, x12, x23, x30) := quarter x01 x12 x23 x30
  let (x02, x13, x20, x31) := quarter x02 x13 x20 x31
  let (x03, x10, x21, x32) := quarter x03 x10 x21 x32
  ⟨x00, x01, x02, x03, x10, x11, x12, x13, x20, x21, x22, x23, x30, x31, x32, x33⟩

/-- The block after so many double rounds. -/
def rounds : Nat → Block → Block
  | 0, b => b
  | n + 1, b => rounds n b.doubleRound

/-- The words of a block of the stream: the state mixed by twelve rounds and added to itself. -/
def mixed (b : Block) : List UInt32 :=
  List.zipWith (· + ·) (rounds 6 b).toList b.toList

end Block

/-- The eight words of a key. -/
structure Key where
  /-- Word 0. -/
  k0 : UInt32
  /-- Word 1. -/
  k1 : UInt32
  /-- Word 2. -/
  k2 : UInt32
  /-- Word 3. -/
  k3 : UInt32
  /-- Word 4. -/
  k4 : UInt32
  /-- Word 5. -/
  k5 : UInt32
  /-- Word 6. -/
  k6 : UInt32
  /-- Word 7. -/
  k7 : UInt32
  deriving DecidableEq, Repr

/-- One step from a seed towards its key. -/
def seedStep (s : UInt64) : UInt64 := s * 6364136223846793005 + 11634580027462260723

/-- The key word that a step yields. -/
def keyWord (s : UInt64) : UInt32 :=
  rotateRight (((s >>> 18) ^^^ s) >>> 27).toUInt32 (s >>> 59).toUInt32

/-- The key of a seed. -/
def Key.ofSeed (seed : UInt64) : Key :=
  let s0 := seedStep seed
  let s1 := seedStep s0
  let s2 := seedStep s1
  let s3 := seedStep s2
  let s4 := seedStep s3
  let s5 := seedStep s4
  let s6 := seedStep s5
  let s7 := seedStep s6
  ⟨keyWord s0, keyWord s1, keyWord s2, keyWord s3, keyWord s4, keyWord s5, keyWord s6, keyWord s7⟩

/-- The state from which block number `n` of a key's stream is mixed. -/
def Key.state (k : Key) (n : Nat) : Block :=
  ⟨0x61707865, 0x3320646e, 0x79622d32, 0x6b206574, k.k0, k.k1, k.k2, k.k3,
   k.k4, k.k5, k.k6, k.k7, UInt32.ofNat n, UInt32.ofNat (n / UInt32.size), 0, 0⟩

/-- The number of blocks of a stream. -/
def blocks : Nat := UInt64.size

/-- A place in the stream of a key. -/
structure Stream where
  /-- The key. -/
  key : Key
  /-- The number of the next block to mix. -/
  block : Nat
  /-- The words of earlier blocks that are still to come. -/
  pending : List UInt32
  deriving DecidableEq, Repr

/-- The beginning of the stream of a seed. -/
def Stream.ofSeed (seed : UInt64) : Stream := ⟨Key.ofSeed seed, 0, []⟩

/-- The next word of a stream. -/
def Stream.next (s : Stream) : Option UInt32 × Stream :=
  match s.pending with
  | word :: words => (some word, { s with pending := words })
  | [] =>
    if s.block < blocks then
      match (s.key.state s.block).mixed with
      | word :: words => (some word, ⟨s.key, s.block + 1, words⟩)
      | [] => (none, s)
    else (none, s)

/-- A mixed block has sixteen words. -/
theorem Block.length_mixed (b : Block) : b.mixed.length = 16 := rfl

instance : WordSource Stream where
  next := Stream.next
  budget s := 16 * (blocks - s.block) + s.pending.length
  budget_lt {s t word} h := by
    unfold Stream.next at h
    split at h
    · next hp => obtain ⟨-, rfl⟩ := Prod.mk.inj h; simp [hp]
    · next hp =>
      split at h
      · next hlt =>
        split at h
        · next w ws hm =>
          obtain ⟨-, rfl⟩ := Prod.mk.inj h
          have hlen := Block.length_mixed (s.key.state s.block)
          rw [hm, List.length_cons] at hlen
          simp only [hp, List.length_nil]
          omega
        · simp at h
      · simp at h

end ChaCha

/-- Faces made of the words of a seed. -/
abbrev Seeded : Type := Uniform ChaCha.Stream

/-- The source that a seed gives. -/
def Seeded.ofSeed (seed : UInt64) : Seeded := ⟨.ofSeed seed⟩

end Tabletop
