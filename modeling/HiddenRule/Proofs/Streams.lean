import Mathlib.Logic.Function.Iterate
import HiddenRule.Challenge.Deck
import HiddenRule.Grammar.Expansion
import HiddenRule.Proofs.Outcome

/-
  This file proves where a stream stands and how it moves.

  A stream stands at a position of the keystream of its
  seed.  A draw of one word reads the word at the position
  and a draw of two words reads two, in one block or in
  neighboring ones.  Whatever else is drawn is drawn by
  these, so a stream moves on by some number of words.

  Main declarations:
    * `Keystream.word` and `Stream.atPosition`
    * `Stream.atPosition_wordPosition`
    * `Stream.next32_atPosition`, `Stream.next64_atPosition`
    * `Stream.ofSnapshot_snapshot`
    * `Stream.snapshot_ofSnapshot`
    * `Stream.Moves` and `Stream.Moves.exists_atPosition`
    * `Grammar.moves_expand`
    * `Sampler.moves_examples` and `Sampler.moves_deal`
-/

------------------------------------------------------------
-- Positions
------------------------------------------------------------

namespace HiddenRule

namespace Keystream

/- The word at a position of the keystream of a seed. -/
def word
    (seed : UInt64)
    (position : Nat) : UInt32 :=
  let offset : Fin 16 :=
    ⟨position % 16, Nat.mod_lt position (by decide)⟩
  (block seed (UInt64.ofNat (position / 16)))[offset]

end Keystream

namespace Stream

/- The stream at a position; beyond the end it wraps. -/
def atPosition
    (seed : UInt64)
    (position : Nat) : Stream :=
  atPlace seed (UInt64.ofNat (position / 16))
    ⟨position % 16, Nat.mod_lt position (by decide)⟩

variable (seed : UInt64)
variable (position : Nat)
variable (stream : Stream)

theorem ofSnapshot_eq
    (snapshot : Snapshot) :
    ofSnapshot snapshot =
      atPosition snapshot.seed
        snapshot.wordPosition.toNat :=
  rfl

/- A stream stands at its position. -/
theorem atPosition_wordPosition :
    atPosition stream.seed stream.wordPosition = stream := by
  have hOffset := stream.offset.isLt
  have hBlock : stream.wordPosition / 16 =
      stream.block.toNat := by
    unfold wordPosition
    omega
  have hRest : stream.wordPosition % 16 =
      stream.offset.val := by
    unfold wordPosition
    omega
  refine eq_of_place rfl ?_ (Fin.ext hRest)
  rw [atPosition, atPlace, hBlock]
  exact UInt64.ofNat_toNat

/- There are 2^68 positions. -/
theorem wordPosition_lt :
    stream.wordPosition < twoPow 68 := by
  have hBlock : stream.block.toNat < twoPow 64 :=
    stream.block.toNat_lt
  have hOffset := stream.offset.isLt
  have hPeriod : twoPow 68 = twoPow 64 * 16 := rfl
  unfold wordPosition
  omega

/- Positions that fit are kept, and others wrap around. -/
theorem wordPosition_atPosition :
    (atPosition seed position).wordPosition =
      position % twoPow 68 := by
  have hPeriod : twoPow 68 = 16 * twoPow 64 := rfl
  have hBlock :
      (UInt64.ofNat (position / 16)).toNat =
        position / 16 % twoPow 64 :=
    UInt64.toNat_ofNat
  simp only [wordPosition, atPosition, atPlace, hBlock]
  rw [hPeriod, Nat.mod_mul, Nat.mul_comm, Nat.add_comm]

/- After one word a stream stands at the next position. -/
theorem advance_atPosition :
    (atPosition seed position).advance =
      atPosition seed (position + 1) := by
  unfold advance
  split
  · rename_i hWithin
    change position % 16 + 1 < 16 at hWithin
    have hBlock : (position + 1) / 16 = position / 16 := by
      omega
    refine eq_of_place rfl ?_ (Fin.ext ?_)
    · change _ = UInt64.ofNat ((position + 1) / 16)
      rw [hBlock]
      rfl
    · change position % 16 + 1 = (position + 1) % 16
      omega
  · rename_i hEnd
    change ¬ position % 16 + 1 < 16 at hEnd
    have hBlock :
        (position + 1) / 16 = position / 16 + 1 := by
      omega
    refine eq_of_place rfl ?_ (Fin.ext ?_)
    · change UInt64.ofNat (position / 16) + 1 =
        UInt64.ofNat ((position + 1) / 16)
      rw [hBlock, UInt64.ofNat_add]
      rfl
    · change 0 = (position + 1) % 16
      omega

/- One word is read at the position. -/
theorem next32_atPosition :
    (atPosition seed position).next32 =
      (Keystream.word seed position,
        atPosition seed (position + 1)) := by
  rw [next32, advance_atPosition]
  rfl

/-
  Two words are read from the position on, the first one as
  the lower half.  They may lie in different blocks.
-/
theorem next64_atPosition :
    (atPosition seed position).next64 =
      ((Keystream.word seed position).toUInt64 |||
          ((Keystream.word seed (position + 1)).toUInt64
            <<< 32),
        atPosition seed (position + 2)) := by
  simp only [next64, next32_atPosition]

end Stream

end HiddenRule

------------------------------------------------------------
-- Stored Places
------------------------------------------------------------

namespace HiddenRule

namespace Stream

/- The stream at the stored place is the stream itself. -/
theorem ofSnapshot_snapshot
    (stream : Stream) :
    ofSnapshot stream.snapshot = stream := by
  have hFits : stream.wordPosition < 2 ^ 128 := by
    apply Nat.lt_trans stream.wordPosition_lt
    decide
  rw [ofSnapshot_eq, snapshot, BitVec.toNat_ofNat,
    Nat.mod_eq_of_lt hFits]
  exact stream.atPosition_wordPosition

/- The place of the stream at a stored place. -/
theorem snapshot_ofSnapshot
    {snapshot : Snapshot}
    (hFits : snapshot.wordPosition.toNat < twoPow 68) :
    (ofSnapshot snapshot).snapshot = snapshot := by
  rw [ofSnapshot_eq, Stream.snapshot,
    wordPosition_atPosition, Nat.mod_eq_of_lt hFits,
    BitVec.ofNat_toNat, BitVec.setWidth_eq]
  rfl

end Stream

end HiddenRule

------------------------------------------------------------
-- Moving On
------------------------------------------------------------

namespace HiddenRule

namespace Stream

/- A stream moves on by some number of words. -/
def Moves
    (stream next : Stream) : Prop :=
  ∃ count, next = advance^[count] stream

namespace Moves

theorem refl
    (stream : Stream) :
    stream.Moves stream :=
  ⟨0, rfl⟩

theorem trans
    {first second third : Stream}
    (hFirst : first.Moves second)
    (hSecond : second.Moves third) :
    first.Moves third := by
  rcases hFirst with ⟨count, hFirst⟩
  rcases hSecond with ⟨more, hSecond⟩
  refine ⟨more + count, ?_⟩
  rw [Function.iterate_add_apply, ← hFirst]
  exact hSecond

/- So it stands at a later position of that keystream. -/
theorem exists_atPosition
    {stream next : Stream}
    (hMoves : stream.Moves next) :
    ∃ count,
      next =
        atPosition stream.seed
          (stream.wordPosition + count) := by
  rcases hMoves with ⟨count, hNext⟩
  refine ⟨count, ?_⟩
  rw [hNext]
  clear hNext next
  induction count with
  | zero => exact stream.atPosition_wordPosition.symm
  | succ count ih =>
      rw [Function.iterate_succ_apply', ih,
        advance_atPosition]
      rfl

theorem seed_eq
    {stream next : Stream}
    (hMoves : stream.Moves next) :
    next.seed = stream.seed := by
  rcases hMoves.exists_atPosition with ⟨count, hNext⟩
  rw [hNext]
  rfl

end Moves

variable {α : Type}

theorem moves_next32
    (stream : Stream) :
    stream.Moves stream.next32.2 :=
  ⟨1, rfl⟩

theorem moves_next64
    (stream : Stream) :
    stream.Moves stream.next64.2 :=
  ⟨2, rfl⟩

theorem moves_draw
    (width : DrawWidth)
    (stream : Stream) :
    stream.Moves (width.draw stream).2 := by
  cases width with
  | single => exact stream.moves_next32
  | double => exact stream.moves_next64

/- Draws that are thrown away move the stream too. -/
theorem moves_belowWithin
    (width : DrawWidth)
    (length attempts : Nat)
    (stream : Stream) :
    stream.Moves
      (belowWithin width length attempts stream).2 := by
  induction attempts generalizing stream with
  | zero => exact .refl stream
  | succ attempts ih =>
      rw [belowWithin]
      dsimp only
      split
      · exact stream.moves_draw width
      · exact (stream.moves_draw width).trans (ih _)

theorem moves_below
    (width : DrawWidth)
    (length : Nat)
    (stream : Stream) :
    stream.Moves (below width length stream).2 :=
  stream.moves_belowWithin width length period

theorem moves_range
    {low high n : Nat}
    {stream next : Stream}
    (hRange : stream.range low high = .ok (n, next)) :
    stream.Moves next := by
  have hBelow := stream.moves_below .double (high - low)
  unfold range at hRange
  split at hRange
  · generalize below .double (high - low) stream = drawn
      at hBelow hRange
    cases hRange
    exact hBelow
  · exact nomatch hRange

theorem moves_unit
    (stream : Stream) :
    stream.Moves stream.unit.2 :=
  stream.moves_next64

theorem moves_scan
    (index total : Nat)
    (pick : Option Nat)
    (weights : List UInt32)
    (stream : Stream) :
    stream.Moves
      (Choice.scan index total pick weights stream).2 := by
  induction weights generalizing index total pick stream with
  | nil => exact .refl stream
  | cons weight weights ih =>
      exact stream.moves_unit.trans (ih _ _ _ _)

theorem moves_choose
    (weights : List UInt32)
    (stream : Stream) :
    stream.Moves (stream.choose weights).2 :=
  stream.moves_scan _ _ _ _

theorem moves_shuffleUpTo
    (last : Nat)
    (items : Array α)
    (stream : Stream) :
    stream.Moves (shuffleUpTo last items stream).2 := by
  induction last generalizing items stream with
  | zero => exact .refl stream
  | succ last ih =>
      have hBelow :=
        stream.moves_below (indexWidth (last + 2)) (last + 2)
      rw [shuffleUpTo]
      dsimp only
      generalize below (indexWidth (last + 2)) (last + 2)
        stream = drawn at hBelow ⊢
      exact hBelow.trans (ih _ _)

theorem moves_shuffle
    (items : List α)
    (stream : Stream) :
    stream.Moves (stream.shuffle items).2 :=
  stream.moves_shuffleUpTo _ _

end Stream

end HiddenRule

------------------------------------------------------------
-- Rules
------------------------------------------------------------

namespace HiddenRule

namespace Grammar

variable (grammar : Grammar)

theorem moves_pick
    (kind : Kind)
    (used : TagSet)
    (stream : Stream) :
    stream.Moves (grammar.pick kind used stream).2 := by
  have hChoose :=
    stream.moves_choose
      ((grammar.candidates kind used).map Entry.weight)
  unfold pick
  dsimp only
  split <;> exact hChoose

theorem moves_finishNode
    (entry : Entry)
    (fragments : List Fragment)
    (stream : Stream) :
    stream.Moves (finishNode entry fragments stream).2 := by
  unfold finishNode
  split
  · exact .refl stream
  · rename_i hRange
    exact Stream.moves_range hRange

/- Children move the stream if each of them does. -/
theorem moves_expandChildren
    {expandOne :
      Kind → TagSet → Stream → Expansion Fragment}
    (hOne :
      ∀ kind used (stream : Stream),
        stream.Moves (expandOne kind used stream).stream)
    (entry : Entry)
    (kinds : List Kind)
    (used : TagSet)
    (stream : Stream) :
    stream.Moves
      (expandChildren expandOne entry kinds used
        stream).stream := by
  induction kinds generalizing used stream with
  | nil => exact .refl stream
  | cons kind kinds ih =>
      rw [expandChildren]
      dsimp only
      split
      · exact hOne _ _ _
      · exact (hOne _ _ _).trans (ih _ _)

/-
  An expansion moves the stream, also one that ends without
  a result.  By induction on the depth.
-/
theorem moves_expand
    (depth : Nat)
    (kind : Kind)
    (used : TagSet)
    (stream : Stream) :
    stream.Moves
      (grammar.expand depth kind used stream).stream := by
  induction depth generalizing kind used stream with
  | zero => exact .refl stream
  | succ depth ih =>
      have hPick := grammar.moves_pick kind used stream
      rw [expand]
      dsimp only
      split
      · exact hPick
      · rename_i entry _
        have hChildren :=
          moves_expandChildren ih entry entry.children
            (used.union entry.tags)
            (grammar.pick kind used stream).2
        split
        · exact hPick.trans hChildren
        · exact (hPick.trans hChildren).trans
            (moves_finishNode _ _ _)

theorem moves_newRule
    (depth : Nat)
    (stream : Stream) :
    stream.Moves (grammar.newRule depth stream).stream :=
  grammar.moves_expand depth _ _ stream

end Grammar

end HiddenRule

------------------------------------------------------------
-- Boards
------------------------------------------------------------

namespace HiddenRule

namespace Sampler

variable {sampler : Sampler}
variable {stream next : Stream}

theorem moves_randomSymbol
    {symbol : Symbol}
    (hSymbol : randomSymbol stream = .ok (symbol, next)) :
    stream.Moves next := by
  rcases bind_eq_ok_iff.mp hSymbol with
    ⟨⟨_, middle⟩, hColor, hSymbol⟩
  rcases bind_eq_ok_iff.mp hSymbol with ⟨_, _, hSymbol⟩
  rcases bind_eq_ok_iff.mp hSymbol with
    ⟨⟨_, last⟩, hShape, hSymbol⟩
  rcases bind_eq_ok_iff.mp hSymbol with ⟨_, _, hSymbol⟩
  cases hSymbol
  exact (Stream.moves_range hColor).trans
    (Stream.moves_range hShape)

theorem moves_fillCells
    {cells : List Cell}
    {remaining : Nat}
    {board filled : Board}
    (hFill :
      fillCells cells remaining board stream =
        .ok (filled, next)) :
    stream.Moves next := by
  induction cells generalizing remaining board stream with
  | nil =>
      cases hFill
      exact .refl _
  | cons cell cells ih =>
      rw [fillCells] at hFill
      dsimp only at hFill
      split at hFill
      · rcases bind_eq_ok_iff.mp hFill with
          ⟨⟨_, middle⟩, hSymbol, hFill⟩
        rcases bind_eq_ok_iff.mp hFill with ⟨_, _, hFill⟩
        rcases bind_eq_ok_iff.mp hFill with ⟨_, _, hFill⟩
        exact (stream.moves_unit.trans
          (moves_randomSymbol hSymbol)).trans (ih hFill)
      · exact stream.moves_unit.trans (ih hFill)

theorem moves_randomBoard
    {board : Board}
    (hBoard :
      sampler.randomBoard stream = .ok (board, next)) :
    stream.Moves next := by
  rcases bind_eq_ok_iff.mp hBoard with ⟨_, _, hBoard⟩
  rcases bind_eq_ok_iff.mp hBoard with
    ⟨⟨_, middle⟩, hTarget, hBoard⟩
  exact (Stream.moves_range hTarget).trans
    (moves_fillCells hBoard)

theorem moves_collect
    {rule : Rule}
    {left : Nat}
    {examples found : Examples}
    (hCollect :
      sampler.collect rule left examples stream =
        .ok (found, next)) :
    stream.Moves next := by
  induction left generalizing examples stream with
  | zero =>
      cases hCollect
      exact .refl _
  | succ left ih =>
      rw [collect] at hCollect
      split at hCollect
      · cases hCollect
        exact .refl _
      · rcases bind_eq_ok_iff.mp hCollect with
          ⟨_, _, hCollect⟩
        rcases bind_eq_ok_iff.mp hCollect with
          ⟨⟨_, middle⟩, hBoard, hCollect⟩
        rcases bind_eq_ok_iff.mp hCollect with
          ⟨_, _, hCollect⟩
        exact (moves_randomBoard hBoard).trans (ih hCollect)

theorem moves_examples
    {rule : Rule}
    {wantedPositive wantedNegative : UInt64}
    {memory : Nat}
    {examples : Examples}
    (hExamples :
      sampler.examples rule wantedPositive wantedNegative
        stream memory = .ok (examples, next)) :
    stream.Moves next := by
  rcases bind_eq_ok_iff.mp hExamples with ⟨_, _, hSearch⟩
  exact moves_collect hSearch

theorem moves_deal
    {rule : Rule}
    {count : UInt64}
    {memory : Nat}
    {deck : Deck}
    (hDeal :
      Deck.deal sampler rule count stream memory =
        .ok (deck, next)) :
    stream.Moves next := by
  rcases bind_eq_ok_iff.mp hDeal with
    ⟨⟨_, middle⟩, hExamples, hDeal⟩
  cases hDeal
  exact (moves_examples hExamples).trans
    (middle.moves_shuffle _)

end Sampler

end HiddenRule
