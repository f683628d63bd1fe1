/-! The ChaCha stream cipher with eight rounds, as a source of pseudo-random words. A key of 256
bits and a stream number of 64 bits select a sequence of blocks, each of sixteen 32-bit words. A
key can be expanded from a 64-bit seed with a permuted congruential generator. -/

namespace VertexSweep.ChaCha

abbrev Block := Vector UInt32 16

abbrev Key := Vector UInt32 8

/-- Rotates the bits of a word to the left. -/
def rotateLeft (x : UInt32) (n : UInt32) : UInt32 := (x <<< n) ||| (x >>> (32 - n))

/-- Rotates the bits of a word to the right by less than 32 places. -/
def rotateRight (x : UInt32) (n : UInt32) : UInt32 :=
  if n = 0 then x else (x >>> n) ||| (x <<< (32 - n))

/-- The quarter round on four words of a block. -/
def quarterRound (s : Block) (a b c d : Fin 16) : Block :=
  let s := s.set a (s[a] + s[b])
  let s := s.set d (rotateLeft (s[d] ^^^ s[a]) 16)
  let s := s.set c (s[c] + s[d])
  let s := s.set b (rotateLeft (s[b] ^^^ s[c]) 12)
  let s := s.set a (s[a] + s[b])
  let s := s.set d (rotateLeft (s[d] ^^^ s[a]) 8)
  let s := s.set c (s[c] + s[d])
  s.set b (rotateLeft (s[b] ^^^ s[c]) 7)

/-- Two rounds, one on the columns of a block and one on its diagonals. -/
def doubleRound (s : Block) : Block :=
  let s := quarterRound s 0 4 8 12
  let s := quarterRound s 1 5 9 13
  let s := quarterRound s 2 6 10 14
  let s := quarterRound s 3 7 11 15
  let s := quarterRound s 0 5 10 15
  let s := quarterRound s 1 6 11 12
  let s := quarterRound s 2 7 8 13
  quarterRound s 3 4 9 14

/-- The lower half of a 64-bit number. -/
def lowWord (x : UInt64) : UInt32 := x.toUInt32

/-- The upper half of a 64-bit number. -/
def highWord (x : UInt64) : UInt32 := (x >>> 32).toUInt32

/-- The block from which the rounds start. -/
def initial (key : Key) (stream counter : UInt64) : Block :=
  #v[0x61707865, 0x3320646e, 0x79622d32, 0x6b206574,
    key[0], key[1], key[2], key[3], key[4], key[5], key[6], key[7],
    lowWord counter, highWord counter, lowWord stream, highWord stream]

def block (key : Key) (stream counter : UInt64) : Block :=
  let start := initial key stream counter
  let mixed := doubleRound (doubleRound (doubleRound (doubleRound start)))
  Vector.zipWith (· + ·) start mixed

/-- The word with the given number, counted through all blocks of a stream. -/
def word (key : Key) (stream : UInt64) (i : Nat) : UInt32 :=
  (block key stream (UInt64.ofNat (i / 16))).get ⟨i % 16, Nat.mod_lt i (by decide)⟩

/-- The number of words after which a stream repeats itself: sixteen in each of its `2 ^ 64`
blocks. -/
def period : Nat := 295147905179352825856

/-- The next state of the generator that expands seeds. -/
def nextState (state : UInt64) : UInt64 := state * 6364136223846793005 + 11634580027462260723

/-- The word that the generator puts out in a state. -/
def output (state : UInt64) : UInt32 :=
  rotateRight ((((state >>> 18) ^^^ state) >>> 27).toUInt32) (state >>> 59).toUInt32

/-- The state of the generator after the given number of steps. -/
def stateAfter (seed : UInt64) : Nat → UInt64
  | 0 => seed
  | steps + 1 => nextState (stateAfter seed steps)

/-- The key that a seed expands to. -/
def Key.ofSeed (seed : UInt64) : Key := Vector.ofFn fun i => output (stateAfter seed (i + 1))

end VertexSweep.ChaCha
