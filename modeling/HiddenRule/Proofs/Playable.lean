import HiddenRule.Proofs.StockRules

/-
  This file proves that every rule of the stock grammar can
  be played: some board with as many symbols as the game
  puts on a board follows it, and some breaks it.

  For a noun and a question two boards are enough.  On one
  all such nouns pass, on the other none does, and both hold
  such a noun.  The two boards serve the rules about every,
  some and no noun alike.

  Main declarations:
    * `Board.Fair` and `Rule.Playable`
    * `Board.agreeing` and `Board.opposing`
    * `Board.uniting` and `Board.dividing`
    * `Rule.Stock.playable`
    * `Grammar.newRule_playable`
-/

------------------------------------------------------------
-- Fair Boards
------------------------------------------------------------

namespace HiddenRule

/- As many symbols as the game puts on a board. -/
def Board.Fair
    (board : Board) : Prop :=
  3 ≤ board.filledCount ∧ board.filledCount ≤ 9

instance
    (board : Board) :
    Decidable board.Fair :=
  inferInstanceAs (Decidable (_ ∧ _))

/- Some fair board follows the rule, and some breaks it. -/
def Rule.Playable
    (rule : Rule) : Prop :=
  (∃ board : Board,
    board.Fair ∧ rule.evaluate board = .ok true) ∧
  (∃ board : Board,
    board.Fair ∧ rule.evaluate board = .ok false)

------------------------------------------------------------
-- Other Values
------------------------------------------------------------

/- Some other color. -/
def Color.other : Color → Color
| .red => .yellow
| .yellow => .blue
| .blue => .red

/- Some other shape. -/
def Shape.other : Shape → Shape
| .circle => .triangle
| .triangle => .square
| .square => .circle

/- Some other row. -/
def Row.other : Row → Row
| .top => .middle
| .middle => .bottom
| .bottom => .top

/- Some other column. -/
def Column.other : Column → Column
| .left => .middle
| .middle => .right
| .right => .left

------------------------------------------------------------
-- Painted Boards
------------------------------------------------------------

namespace Symbol

/- A symbol of a color. -/
def ofColor
    (color : Color) : Symbol :=
  .filled color .circle

/- A symbol of a shape. -/
def ofShape
    (shape : Shape) : Symbol :=
  .filled .red shape

/- Some symbol. -/
def plain : Symbol :=
  .filled .red .circle

end Symbol

namespace Board

/- One content in some cells and another in the rest. -/
def painted
    (inside : Cell → Bool)
    (content rest : Symbol) : Board where
  cells := Vector.ofFn fun cell =>
    if inside cell then content else rest

/- The same content in all cells. -/
def full
    (content : Symbol) : Board :=
  painted (fun _ => true) content content

/- One content in the corners and the center. -/
def checkered
    (even odd : Symbol) : Board :=
  painted (fun cell => cell % 2 == 0) even odd

/-
  A board with such a noun, on which every such noun passes
  the question.
-/
def agreeing : (noun question : Predicate) → Board
| .colorNoun c, .shape s
| .colorNoun c, .adjacentTo (.shapeNoun s)
| .shapeNoun s, .color c
| .shapeNoun s, .adjacentTo (.colorNoun c) =>
    full (.filled c s)
| .rowNoun _, .color c
| .columnNoun _, .color c => full (.ofColor c)
| .rowNoun _, .shape s
| .columnNoun _, .shape s => full (.ofShape s)
| .colorNoun c, .row r =>
    painted r.contains (.ofColor c) .empty
| .colorNoun c, .column k =>
    painted k.contains (.ofColor c) .empty
| .shapeNoun s, .row r =>
    painted r.contains (.ofShape s) .empty
| .shapeNoun s, .column k =>
    painted k.contains (.ofShape s) .empty
| .emptyCellNoun, .row r => painted r.contains .empty .plain
| .emptyCellNoun, .column k =>
    painted k.contains .empty .plain
| .colorNoun c, .adjacentTo (.colorNoun d) =>
    checkered (.ofColor c) (.ofColor d)
| .shapeNoun s, .adjacentTo (.shapeNoun t) =>
    checkered (.ofShape s) (.ofShape t)
| .colorNoun c, .adjacentTo .emptyCellNoun =>
    checkered (.ofColor c) .empty
| .shapeNoun s, .adjacentTo .emptyCellNoun =>
    checkered (.ofShape s) .empty
| .emptyCellNoun, .adjacentTo (.colorNoun c) =>
    checkered .empty (.ofColor c)
| .emptyCellNoun, .adjacentTo (.shapeNoun s) =>
    checkered .empty (.ofShape s)
| .emptyCellNoun, .adjacentTo .emptyCellNoun =>
    painted Row.top.contains .plain .empty
| _, _ => empty

/-
  A board with such a noun, on which no such noun passes the
  question.
-/
def opposing : (noun question : Predicate) → Board
| .colorNoun c, .shape s => full (.filled c s.other)
| .shapeNoun s, .color c => full (.filled c.other s)
| .rowNoun _, .color c
| .columnNoun _, .color c => full (.ofColor c.other)
| .rowNoun _, .shape s
| .columnNoun _, .shape s => full (.ofShape s.other)
| .colorNoun c, .row r =>
    painted r.other.contains (.ofColor c) .empty
| .colorNoun c, .column k =>
    painted k.other.contains (.ofColor c) .empty
| .shapeNoun s, .row r =>
    painted r.other.contains (.ofShape s) .empty
| .shapeNoun s, .column k =>
    painted k.other.contains (.ofShape s) .empty
| .emptyCellNoun, .row r =>
    painted r.other.contains .empty .plain
| .emptyCellNoun, .column k =>
    painted k.other.contains .empty .plain
| .colorNoun c, .adjacentTo .emptyCellNoun =>
    full (.ofColor c)
| .shapeNoun s, .adjacentTo .emptyCellNoun =>
    full (.ofShape s)
| .colorNoun c, .adjacentTo _ =>
    checkered (.ofColor c) .empty
| .shapeNoun s, .adjacentTo _ =>
    checkered (.ofShape s) .empty
| .emptyCellNoun, .adjacentTo (.colorNoun c) =>
    checkered .empty (.ofColor c.other)
| .emptyCellNoun, .adjacentTo (.shapeNoun s) =>
    checkered .empty (.ofShape s.other)
| .emptyCellNoun, .adjacentTo .emptyCellNoun =>
    checkered .empty .plain
| _, _ => empty

end Board

end HiddenRule

------------------------------------------------------------
-- Nouns And Questions
------------------------------------------------------------

namespace HiddenRule

open Grammar

namespace Board

/- All such nouns pass the question, and there is one. -/
def Agrees
    (noun question : Predicate)
    (board : Board) : Prop :=
  board.Fair ∧
    (Rule.universal noun question).evaluate board =
      .ok true ∧
    (Rule.existential noun question).evaluate board =
      .ok true

/- No such noun passes the question, and there is one. -/
def Opposes
    (noun question : Predicate)
    (board : Board) : Prop :=
  board.Fair ∧
    (Rule.universal noun question).evaluate board =
      .ok false ∧
    (Rule.existential noun question).evaluate board =
      .ok false

instance
    (noun question : Predicate)
    (board : Board) :
    Decidable (board.Agrees noun question) :=
  inferInstanceAs (Decidable (_ ∧ _))

instance
    (noun question : Predicate)
    (board : Board) :
    Decidable (board.Opposes noun question) :=
  inferInstanceAs (Decidable (_ ∧ _))

set_option maxRecDepth 4000 in
/- On the board of a stock rule all such nouns pass. -/
theorem agreeing_agrees :
    ∀ noun ∈ Predicate.sortNouns ++ Predicate.placeNouns,
      ∀ question ∈ Predicate.questions,
        StockApart (.predicate noun) (.predicate question) →
          (agreeing noun question).Agrees noun question := by
  decide +kernel

set_option maxRecDepth 4000 in
/- On the other board of a stock rule no such noun passes. -/
theorem opposing_opposes :
    ∀ noun ∈ Predicate.sortNouns ++ Predicate.placeNouns,
      ∀ question ∈ Predicate.questions,
        StockApart (.predicate noun) (.predicate question) →
          (opposing noun question).Opposes noun question := by
  decide +kernel

end Board

namespace Rule

/- No symbol passes exactly if not some symbol passes. -/
theorem evaluate_negativeUniversal
    {noun question : Predicate}
    {board : Board}
    {found : Bool}
    (hSome :
      (existential noun question).evaluate board =
        .ok found) :
    (negativeUniversal noun question).evaluate board =
      .ok (!found) := by
  simp only [evaluate] at hSome ⊢
  rw [hSome]
  rfl

/-
  Two boards, one that agrees and one that opposes, serve
  the rules about every, some and no noun.
-/
theorem playable_of_apart
    {noun question : Predicate}
    (hNoun :
      noun ∈ Predicate.sortNouns ++ Predicate.placeNouns)
    (hQuestion : question ∈ Predicate.questions)
    (hApart :
      StockApart (.predicate noun) (.predicate question)) :
    (universal noun question).Playable ∧
      (existential noun question).Playable ∧
      (negativeUniversal noun question).Playable := by
  have hAgrees :=
    Board.agreeing_agrees noun hNoun question hQuestion
      hApart
  have hOpposes :=
    Board.opposing_opposes noun hNoun question hQuestion
      hApart
  rcases hAgrees with ⟨hFair, hEvery, hSome⟩
  rcases hOpposes with ⟨hFairOther, hNotEvery, hNone⟩
  have hYes := evaluate_negativeUniversal hNone
  have hNo := evaluate_negativeUniversal hSome
  refine ⟨⟨?_, ?_⟩, ⟨?_, ?_⟩, ⟨?_, ?_⟩⟩
  · exact ⟨_, hFair, hEvery⟩
  · exact ⟨_, hFairOther, hNotEvery⟩
  · exact ⟨_, hFair, hSome⟩
  · exact ⟨_, hFairOther, hNone⟩
  · exact ⟨_, hFairOther, hYes⟩
  · exact ⟨_, hFair, hNo⟩

end Rule

end HiddenRule

------------------------------------------------------------
-- Groupings And Lines
------------------------------------------------------------

namespace HiddenRule

open Grammar

namespace Board

/- A red circle, a yellow triangle and a blue square. -/
def motley : Board :=
  ofList [.filled .red .circle, .filled .yellow .triangle,
    .filled .blue .square]

/- A board on which all groups pass the test. -/
def uniting : GroupPredicate → Board
| .distinctColors
| .distinctShapes => motley
| _ => full .plain

/- A board on which some group does not pass the test. -/
def dividing : Group → GroupPredicate → Board
| _, .distinctColors
| _, .distinctShapes => full .plain
| _, .contiguous => checkered .plain .empty
| .color, _ =>
    checkered (.ofShape .circle) (.ofShape .triangle)
| .shape, _ => checkered (.ofColor .red) (.ofColor .yellow)
| _, _ =>
    checkered (.filled .red .circle)
      (.filled .yellow .triangle)

/- A board on which a line is filled with the noun. -/
def lined
    (axis : Axis) : Predicate → Board
| .colorNoun c => full (.ofColor c)
| .shapeNoun s => full (.ofShape s)
| _ => painted (axis.cells 0).contains .empty .plain

/- A board without such a noun. -/
def unlined : Predicate → Board
| .colorNoun c => full (.ofColor c.other)
| .shapeNoun s => full (.ofShape s.other)
| _ => full .plain

set_option maxRecDepth 4000 in
/- The boards for a grouping and its test. -/
theorem uniting_and_dividing :
    ∀ group ∈ Group.all, ∀ test ∈ GroupPredicate.all,
      StockApart (.group group) (.groupPredicate test) →
        ((uniting test).Fair ∧
          (Rule.grouped group test).evaluate (uniting test) =
            .ok true) ∧
        ((dividing group test).Fair ∧
          (Rule.grouped group test).evaluate
            (dividing group test) = .ok false) := by
  decide +kernel

set_option maxRecDepth 4000 in
/- The boards for a line. -/
theorem lined_and_unlined :
    ∀ axis ∈ Axis.all, ∀ noun ∈ Predicate.sortNouns,
      ((lined axis noun).Fair ∧
        (Rule.line axis noun).evaluate (lined axis noun) =
          .ok true) ∧
      ((unlined noun).Fair ∧
        (Rule.line axis noun).evaluate (unlined noun) =
          .ok false) := by
  decide +kernel

end Board

------------------------------------------------------------
-- Stock Rules
------------------------------------------------------------

/- Every stock rule can be followed and broken. -/
theorem Rule.Stock.playable
    {rule : Rule}
    (hStock : rule.Stock) :
    rule.Playable := by
  cases rule with
  | universal noun question =>
      rcases hStock with ⟨hNoun, hQuestion, hApart⟩
      exact (playable_of_apart hNoun hQuestion hApart).1
  | existential noun question =>
      rcases hStock with ⟨hNoun, hQuestion, hApart⟩
      exact (playable_of_apart hNoun hQuestion hApart).2.1
  | negativeUniversal noun question =>
      rcases hStock with ⟨hNoun, hQuestion, hApart⟩
      exact (playable_of_apart hNoun hQuestion hApart).2.2
  | grouped group test =>
      rcases hStock with ⟨hGroup, hTest, hApart⟩
      rcases Board.uniting_and_dividing group hGroup test
          hTest hApart with
        ⟨hFollowed, hBroken⟩
      exact ⟨⟨_, hFollowed⟩, ⟨_, hBroken⟩⟩
  | line axis noun =>
      rcases hStock with ⟨hAxis, hNoun⟩
      rcases Board.lined_and_unlined axis hAxis noun hNoun
        with ⟨hFollowed, hBroken⟩
      exact ⟨⟨_, hFollowed⟩, ⟨_, hBroken⟩⟩

namespace Grammar

/-
  Every rule that the stock grammar gives can be followed
  and broken by a board with three to nine symbols.
-/
theorem newRule_playable
    {depth : Nat}
    {stream : Stream}
    {rule : Rule}
    (hRule :
      (standard.newRule depth stream).result = .ok rule) :
    rule.Playable := by
  have hStock := stock_of_newRule hRule
  exact hStock.playable

set_option maxRecDepth 4000 in
/- The third seed: "Every blue symbol is next to ...". -/
theorem newRule_standard_playable :
    let rule : Rule :=
      .universal (.colorNoun .blue)
        (.adjacentTo (.colorNoun .blue))
    (standard.newRule 3 (Stream.ofSeed 3)).result =
        .ok rule ∧
      rule.Playable := by
  have hRule :
      (standard.newRule 3 (Stream.ofSeed 3)).result =
        .ok (.universal (.colorNoun .blue)
          (.adjacentTo (.colorNoun .blue))) := by
    decide +kernel
  exact ⟨hRule, newRule_playable hRule⟩

end Grammar

end HiddenRule
