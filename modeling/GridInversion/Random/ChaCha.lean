import GridInversion.Random.Dominant

namespace GridInversion.Random

abbrev Block := Vector UInt32 16

abbrev Key := Vector UInt32 8

def rotateLeft (x : UInt32) (n : UInt32) : UInt32 := (x <<< n) ||| (x >>> (32 - n))

def rotateRight (x : UInt32) (n : UInt32) : UInt32 := rotateLeft x (32 - n)

def nextSeed (seed : UInt64) : UInt64 := seed * 6364136223846793005 + 11634580027462260723

/-- The word that a state of the congruential generator yields: its upper half folded, cut to
32 bits, and turned by its top five bits. -/
def seedWord (state : UInt64) : UInt32 :=
  rotateRight (((state >>> 18) ^^^ state) >>> 27).toUInt32 (state >>> 59).toUInt32

def seedWords : (n : Nat) → UInt64 → List UInt32
  | 0, _ => []
  | n + 1, seed => seedWord (nextSeed seed) :: seedWords n (nextSeed seed)

theorem length_seedWords (n : Nat) (seed : UInt64) : (seedWords n seed).length = n := by
  induction n generalizing seed with
  | zero => rfl
  | succ n ih => simp [seedWords, ih]

def keyOfSeed (seed : UInt64) : Key :=
  ⟨(seedWords 8 seed).toArray, by simp [length_seedWords]⟩

def quarter (a b c d : UInt32) : UInt32 × UInt32 × UInt32 × UInt32 :=
  let a := a + b
  let d := rotateLeft (d ^^^ a) 16
  let c := c + d
  let b := rotateLeft (b ^^^ c) 12
  let a := a + b
  let d := rotateLeft (d ^^^ a) 8
  let c := c + d
  let b := rotateLeft (b ^^^ c) 7
  (a, b, c, d)

def quarterAt (s : Block) (i j k l : Fin 16) : Block :=
  let (a, b, c, d) := quarter s[i] s[j] s[k] s[l]
  (((s.set i a).set j b).set k c).set l d

def doubleRound (s : Block) : Block :=
  let s := quarterAt s 0 4 8 12
  let s := quarterAt s 1 5 9 13
  let s := quarterAt s 2 6 10 14
  let s := quarterAt s 3 7 11 15
  let s := quarterAt s 0 5 10 15
  let s := quarterAt s 1 6 11 12
  let s := quarterAt s 2 7 8 13
  quarterAt s 3 4 9 14

def startBlock (key : Key) (counter : UInt64) : Block :=
  #v[0x61707865, 0x3320646e, 0x79622d32, 0x6b206574,
    key[0], key[1], key[2], key[3], key[4], key[5], key[6], key[7],
    counter.toUInt32, (counter >>> 32).toUInt32, 0, 0]

def block (key : Key) (counter : UInt64) : Block :=
  let start := startBlock key counter
  Vector.zipWith (· + ·) ((List.range 6).foldl (fun s _ => doubleRound s) start) start

structure Stream where
  key : Key
  counter : UInt64
  left : List UInt32

namespace Stream

def ofSeed (seed : UInt64) : Stream := ⟨keyOfSeed seed, 0, []⟩

def word (s : Stream) : UInt32 × Stream :=
  match s.left with
  | w :: rest => (w, { s with left := rest })
  | [] =>
      match (block s.key s.counter).toList with
      | w :: rest => (w, { s with counter := s.counter + 1, left := rest })
      | [] => (0, s)

def draw (s : Stream) : UInt64 × Stream :=
  let (low, s) := s.word
  let (high, s) := s.word
  (low.toUInt64 ||| (high.toUInt64 <<< 32), s)

end Stream

/-- A number from 0 up to, but not including, 1: the upper 52 bits of a draw as its fraction. -/
def unitDouble (bits : UInt64) : Float :=
  Float.ofBits ((0x3ff0000000000000 : UInt64) ||| (bits >>> 12)) - 1.0

/-- A draw that rounds to the upper end is discarded, up to `attempts` times. -/
def uniform (low high : Float) : (attempts : Nat) → Stream → Float × Stream
  | 0, s => (low, s)
  | attempts + 1, s =>
      let (bits, s) := s.draw
      let x := unitDouble bits * (high - low) + low
      if x < high then (x, s) else uniform low high attempts s

/-- For the ranges of a random matrix no draw rounds to the upper end. -/
def attempts : Nat := 64

/-- The cipher with twelve rounds, keyed by a seed that a congruential generator stretches. -/
def chaCha : Generator := ⟨Stream, .ofSeed, fun low high => uniform low high attempts⟩

def dominantRows (n : Nat) (seed : UInt64) : List (List Float) := chaCha.dominantRows n seed

end GridInversion.Random
