/-
  This file defines the keystream from which all random
  draws are taken: the ChaCha stream cipher with eight
  rounds, keyed by a seed of 64 bits.

  The stream is a sequence of blocks of sixteen words.  A
  block depends on the key and on its number alone.

  Key definitions include:
    * `Keystream.key`
    * `Keystream.quarterRound`
    * `Keystream.doubleRound`
    * `Keystream.block`
-/

namespace HiddenRule

namespace Keystream

------------------------------------------------------------
-- Keys
------------------------------------------------------------

/- The next state of the generator that widens a seed. -/
def widenState
    (state : UInt64) : UInt64 :=
  state * 6364136223846793005 + 11634580027462260723

/- Rotate a word to the right. -/
def rotateRight
    (word count : UInt32) : UInt32 :=
  (word >>> count) ||| (word <<< (32 - count))

/- Rotate a word to the left. -/
def rotateLeft
    (word count : UInt32) : UInt32 :=
  (word <<< count) ||| (word >>> (32 - count))

/-
  The word that a state puts out: its upper bits, folded and
  rotated by the uppermost five.
-/
def widenOutput
    (state : UInt64) : UInt32 :=
  let folded := ((state >>> 18) ^^^ state) >>> 27
  rotateRight folded.toUInt32 (state >>> 59).toUInt32

/- The words put out after a state. -/
def widen : Nat → UInt64 → List UInt32
| 0, _ => []
| count + 1, state =>
    let next := widenState state
    widenOutput next :: widen count next

/- The key of a seed, eight words long. -/
def key
    (seed : UInt64) : List UInt32 :=
  widen 8 seed

------------------------------------------------------------
-- Rounds
------------------------------------------------------------

/- The sixteen words of a block. -/
abbrev Words := Vector UInt32 16

/- Mix four words of a state. -/
def quarterRound
    (words : Words)
    (i j k l : Fin 16) : Words :=
  let a := words[i]
  let b := words[j]
  let c := words[k]
  let d := words[l]
  let a := a + b
  let d := rotateLeft (d ^^^ a) 16
  let c := c + d
  let b := rotateLeft (b ^^^ c) 12
  let a := a + b
  let d := rotateLeft (d ^^^ a) 8
  let c := c + d
  let b := rotateLeft (b ^^^ c) 7
  (((words.set i a).set j b).set k c).set l d

/- Mix the columns of a state, then its diagonals. -/
def doubleRound
    (words : Words) : Words :=
  let words := quarterRound words 0 4 8 12
  let words := quarterRound words 1 5 9 13
  let words := quarterRound words 2 6 10 14
  let words := quarterRound words 3 7 11 15
  let words := quarterRound words 0 5 10 15
  let words := quarterRound words 1 6 11 12
  let words := quarterRound words 2 7 8 13
  quarterRound words 3 4 9 14

------------------------------------------------------------
-- Blocks
------------------------------------------------------------

/- The four words that every state begins with. -/
def constants : List UInt32 :=
  [0x61707865, 0x3320646e, 0x79622d32, 0x6b206574]

/-
  The state of a block before mixing: the constants, the
  key, the number of the block, and zeros.
-/
def initial
    (seed number : UInt64) : Words :=
  let listed :=
    constants ++ key seed ++
      [number.toUInt32, (number >>> 32).toUInt32]
  Vector.ofFn fun i => listed.getD i 0

/-
  A block of the stream: the state after four double rounds,
  added word by word to the state before.
-/
def block
    (seed number : UInt64) : Words :=
  let start := initial seed number
  let mixed :=
    doubleRound (doubleRound (doubleRound
      (doubleRound start)))
  Vector.zipWith (· + ·) mixed start

end Keystream

end HiddenRule
