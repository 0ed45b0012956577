import HiddenRule.Power

/-
  This file defines the faults of a computation on boards
  and random streams.

  A fault is not an answer of the game: it says that a
  precondition of an operation was not met.  Operations with
  such a precondition return it, so that a statement "this
  never faults" speaks about the operation itself.

  How much memory there is and how deep calls may nest is
  settled by the machine, not by the computation, so both are
  left open.

  Key definitions include:
    * `Fault`
    * `Fault.message`
    * `Machine`
    * `Checked.add`
    * `Checked.sub`
    * `Checked.index` and `Checked.lookup`
    * `Checked.reserve`
-/

namespace HiddenRule

------------------------------------------------------------
-- Faults
------------------------------------------------------------

/- The preconditions that can fail. -/
inductive Fault where
| indexOutOfBounds : (length index : Nat) → Fault
| emptyRange : Fault
| addOverflow : Fault
| subtractOverflow : Fault
| capacityOverflow : Fault
| outOfMemory : Fault
deriving DecidableEq, Repr

namespace Fault

/- The words in which a fault is reported. -/
def message : Fault → String
| .indexOutOfBounds length index =>
    s!"index out of bounds: the len is {length} " ++
      s!"but the index is {index}"
| .emptyRange => "cannot sample empty range"
| .addOverflow => "attempt to add with overflow"
| .subtractOverflow => "attempt to subtract with overflow"
| .capacityOverflow => "capacity overflow"
| .outOfMemory => "memory allocation failed"

end Fault

------------------------------------------------------------
-- Machines
------------------------------------------------------------

/-
  What a machine gives to a computation: so many bytes for
  one block of memory, and calls so deep inside each other.
-/
structure Machine where
  memory : Nat
  depth : Nat
deriving DecidableEq, Repr

/- The machine that a program runs on if none is named. -/
def Machine.usual : Machine where
  memory := twoPow 35
  depth := 10000

------------------------------------------------------------
-- Checked Arithmetic
------------------------------------------------------------

namespace Checked

/- Addition of numbers of a given bit width. -/
def add
    (width a b : Nat) : Except Fault Nat :=
  if a + b < twoPow width then
    .ok (a + b)
  else
    .error .addOverflow

/- Subtraction of natural numbers. -/
def sub
    (a b : Nat) : Except Fault Nat :=
  if b ≤ a then
    .ok (a - b)
  else
    .error .subtractOverflow

/- An index below a length. -/
def index
    (length i : Nat) : Except Fault Nat :=
  if i < length then
    .ok i
  else
    .error (.indexOutOfBounds length i)

/- The item of a list at an index. -/
def lookup
    {α : Type}
    (items : List α)
    (i : Nat) : Except Fault α :=
  match items[i]? with
  | some item => .ok item
  | none => .error (.indexOutOfBounds items.length i)

/-
  Room for so many items of so many bytes each.  A block
  that takes half of the 64-bit addresses or more cannot be
  asked for, and one that takes more than the memory is not
  given.
-/
def reserve
    (count bytes : Nat)
    (memory : Nat := Machine.usual.memory) :
    Except Fault Unit :=
  if twoPow 63 ≤ count * bytes then
    .error .capacityOverflow
  else if memory < count * bytes then
    .error .outOfMemory
  else
    .ok ()

/- Room that can be asked for and that is given. -/
def Grants
    (memory count bytes : Nat) : Prop :=
  count * bytes < twoPow 63 ∧ count * bytes ≤ memory

instance
    (memory count bytes : Nat) :
    Decidable (Grants memory count bytes) :=
  inferInstanceAs (Decidable (_ ∧ _))

/- The fault in which a request for room ends. -/
def Refuses
    (memory count bytes : Nat) : Fault → Prop
| .capacityOverflow => twoPow 63 ≤ count * bytes
| .outOfMemory =>
    count * bytes < twoPow 63 ∧ memory < count * bytes
| _ => False

/- Sums that fit their width are sums. -/
theorem add_of_lt
    {width a b : Nat}
    (hFits : a + b < twoPow width) :
    add width a b = .ok (a + b) := by
  simp [add, hFits]

/- A smaller number can be subtracted. -/
theorem sub_of_le
    {a b : Nat}
    (hLe : b ≤ a) :
    sub a b = .ok (a - b) := by
  simp [sub, hLe]

/- An index in range is kept. -/
theorem index_of_lt
    {length i : Nat}
    (hLt : i < length) :
    index length i = .ok i := by
  simp [index, hLt]

/- An index in range has an item. -/
theorem lookup_of_lt
    {α : Type}
    {items : List α}
    {i : Nat}
    (hLt : i < items.length) :
    lookup items i = .ok items[i] := by
  simp [lookup, hLt]

/- Room is there exactly if it is granted. -/
theorem reserve_eq_ok_iff
    {memory count bytes : Nat} :
    reserve count bytes memory = .ok () ↔
      Grants memory count bytes := by
  unfold reserve
  split
  · rename_i hHuge
    refine ⟨nofun, fun hGrants => ?_⟩
    exact absurd hHuge (Nat.not_le.mpr hGrants.1)
  · rename_i hAsked
    split
    · rename_i hFull
      refine ⟨nofun, fun hGrants => ?_⟩
      exact absurd hFull (Nat.not_lt.mpr hGrants.2)
    · rename_i hGiven
      refine ⟨fun _ => ?_, fun _ => rfl⟩
      exact ⟨Nat.lt_of_not_le hAsked,
        Nat.le_of_not_lt hGiven⟩

/- It is not there exactly if it is refused. -/
theorem reserve_eq_error_iff
    {memory count bytes : Nat}
    {fault : Fault} :
    reserve count bytes memory = .error fault ↔
      Refuses memory count bytes fault := by
  unfold reserve
  cases fault <;> grind [Refuses]

end Checked

end HiddenRule
