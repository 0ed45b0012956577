import HiddenRule.Draw.Context
import HiddenRule.Draw.Keystream

/-
  This file defines streams of random words.

  A stream is a place in the keystream of a seed: a block
  and a word of it.  There are 2^64 blocks, after which the
  keystream begins again.

  Key definitions include:
    * `Stream`
    * `Stream.next32` and `Stream.next64`
    * `Stream.forContext`
    * `Snapshot`
    * `Stream.snapshot` and `Stream.ofSnapshot`
-/

namespace HiddenRule

------------------------------------------------------------
-- Streams
------------------------------------------------------------

/-
  A place in a keystream.  The words of the block are kept,
  so that they are computed once.
-/
structure Stream where
  seed : UInt64
  block : UInt64
  offset : Fin 16
  words : Keystream.Words
  words_eq : words = Keystream.block seed block

namespace Stream

/- The stream at a place of the keystream of a seed. -/
def atPlace
    (seed block : UInt64)
    (offset : Fin 16) : Stream where
  seed := seed
  block := block
  offset := offset
  words := Keystream.block seed block
  words_eq := rfl

/- The first word of a block. -/
def firstOffset : Fin 16 :=
  ⟨0, by decide⟩

/- The stream at the beginning of a keystream. -/
def ofSeed
    (seed : UInt64) : Stream :=
  atPlace seed 0 firstOffset

/- A stream is known by its seed and its place. -/
theorem eq_of_place
    {left right : Stream}
    (hSeed : left.seed = right.seed)
    (hBlock : left.block = right.block)
    (hOffset : left.offset = right.offset) :
    left = right := by
  obtain ⟨seed, block, offset, words, hWords⟩ := left
  obtain ⟨seed', block', offset', words', hWords'⟩ := right
  simp only at hSeed hBlock hOffset
  subst hSeed hBlock hOffset hWords hWords'
  rfl

/- The place after one word. -/
def advance
    (stream : Stream) : Stream :=
  if h : stream.offset.val + 1 < 16 then
    { stream with offset := ⟨stream.offset.val + 1, h⟩ }
  else
    atPlace stream.seed (stream.block + 1) firstOffset

/- Draw one word. -/
def next32
    (stream : Stream) : UInt32 × Stream :=
  (stream.words[stream.offset], stream.advance)

/- Draw two words as one number, the lower half first. -/
def next64
    (stream : Stream) : UInt64 × Stream :=
  let (low, stream) := stream.next32
  let (high, stream) := stream.next32
  (low.toUInt64 ||| (high.toUInt64 <<< 32), stream)

/- The stream with a name, from its beginning. -/
def forContext
    (stream : Stream)
    (name : String) : Stream :=
  ofSeed (Context.seed stream.seed name)

/- The number of words before a place. -/
def wordPosition
    (stream : Stream) : Nat :=
  stream.block.toNat * 16 + stream.offset.val

end Stream

------------------------------------------------------------
-- Snapshots
------------------------------------------------------------

/- A stored place in a keystream. -/
structure Snapshot where
  seed : UInt64
  wordPosition : BitVec 128
deriving DecidableEq, Repr

namespace Stream

/- Store the place of a stream. -/
def snapshot
    (stream : Stream) : Snapshot where
  seed := stream.seed
  wordPosition := BitVec.ofNat 128 stream.wordPosition

/-
  The stream at a stored place.  Positions beyond the end of
  the keystream wrap around.
-/
def ofSnapshot
    (snapshot : Snapshot) : Stream :=
  let position := snapshot.wordPosition.toNat
  atPlace snapshot.seed
    (UInt64.ofNat (position / 16))
    ⟨position % 16, Nat.mod_lt position (by decide)⟩

end Stream

end HiddenRule
