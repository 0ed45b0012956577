/-
  This file defines how a named stream gets its seed.

  The seed of the stream with a name is a hash of the seed
  it derives from and the bytes of the name, so it does not
  depend on what was drawn before.

  Key definitions include:
    * `Context.mix`
    * `Context.chunks`
    * `Context.seed`
-/

namespace HiddenRule

namespace Context

------------------------------------------------------------
-- Hashing
------------------------------------------------------------

/- Add one value to a hash. -/
def mix
    (hash value : UInt64) : UInt64 :=
  let rotated := (hash <<< 5) ||| (hash >>> 59)
  (rotated ^^^ value) * 0x517cc1b727220a95

/- The number written by bytes, the lowest byte first. -/
def littleEndian : List UInt8 → UInt64
| [] => 0
| byte :: rest =>
    byte.toUInt64 ||| (littleEndian rest <<< 8)

/- The values of fewer than eight bytes: four, two, one. -/
def lastChunks
    (bytes : List UInt8) : List UInt64 :=
  let fours := if bytes.length ≥ 4 then 4 else 0
  let later := bytes.drop fours
  let twos := if later.length ≥ 2 then 2 else 0
  let last := later.drop twos
  [bytes.take fours, later.take twos, last].filterMap
    fun chunk =>
      if chunk.isEmpty then none else some (littleEndian chunk)

/- The values of bytes: eight at a time, then the rest. -/
def chunks : List UInt8 → List UInt64
| a :: b :: c :: d :: e :: f :: g :: h :: rest =>
    littleEndian [a, b, c, d, e, f, g, h] :: chunks rest
| bytes => lastChunks bytes

/-
  The seed of a named stream.  A byte that occurs in no text
  ends the name.
-/
def seed
    (base : UInt64)
    (name : String) : UInt64 :=
  let bytes := name.toUTF8.toList
  ((base :: chunks bytes) ++ [255]).foldl mix 0

end Context

end HiddenRule
