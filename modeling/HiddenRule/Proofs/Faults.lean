import HiddenRule.Proofs.Calls
import HiddenRule.Proofs.Decks
import HiddenRule.Proofs.Validation

/-
  This file proves that a game that has begun never faults,
  unless there is no room for the boards that are asked for.

  Every operation with a precondition returns a fault when
  the precondition is not met.  So no range is empty, no
  index lies beyond its list or off the board, and no sum or
  difference leaves its width, in any call of any row of
  calls: the settings and the grammar were looked at when
  the game began, and neither changes.

  Main declarations:
    * `GroupPredicate.scan_eq_distinctFrom` and
      `GroupPredicate.scan_trait`
    * `Fault.IsMemory` and `LacksOnlyMemory`
    * `Call.Fits`
    * `Play.reply_lacksOnlyMemory`
    * `Play.run_lacksOnlyMemory`
    * `Game.calls_lack_only_memory`
-/

------------------------------------------------------------
-- Values In A Table
------------------------------------------------------------

namespace HiddenRule

namespace Trait

/- The number of what a symbol is in a trait. -/
def number :
    {trait : Trait} → trait.Variant → Nat
| .color => Color.index
| .shape => Shape.index

theorem number_injective
    {trait : Trait} :
    Function.Injective (@number trait) := by
  intro left right hSame
  cases trait with
  | color =>
      cases left <;> cases right <;>
        first | rfl | exact nomatch hSame
  | shape =>
      cases left <;> cases right <;>
        first | rfl | exact nomatch hSame

end Trait

namespace GroupPredicate

/-
  Whether no number occurs twice among the cells, found by a
  table that marks the numbers seen so far.  A number beyond
  the table is a fault.
-/
def scan
    (board : Board)
    (number? : Symbol → Option Nat) :
    (table : List Bool) → List Cell → Except Fault Bool
| _, [] => .ok true
| table, cell :: rest => do
    let symbol ← board.get cell
    match number? symbol with
    | none => scan board number? table rest
    | some number => do
        let seen ← Checked.lookup table number
        if seen then
          return false
        else
          scan board number? (table.set number true) rest

/- A table with no number marked, for three of them. -/
def unmarked : List Bool :=
  [false, false, false]

variable {α : Type}
variable [DecidableEq α]

/- A table marks the numbers of the values that were seen. -/
def Marked
    (number : α → Nat)
    (seen : List α)
    (table : List Bool) : Prop :=
  ∀ value,
    table[number value]? = some (decide (value ∈ seen))

/- One more value is seen, one more number is marked. -/
theorem Marked.set
    {number : α → Nat}
    {seen : List α}
    {table : List Bool}
    (hNumber : Function.Injective number)
    (hMarked : Marked number seen table)
    (value : α) :
    Marked number (value :: seen)
      (table.set (number value) true) := by
  intro other
  rw [List.getElem?_set]
  by_cases hSame : number value = number other
  · have hRoom : number value < table.length :=
      (List.getElem?_eq_some_iff.mp (hMarked value)).1
    rw [if_pos hSame, if_pos hRoom,
      hNumber hSame]
    simp
  · have hOther : other ≠ value :=
      fun hEq => hSame (congrArg number hEq.symm)
    rw [if_neg hSame, hMarked other]
    simp [hOther]

/-
  The table answers like the list of values that were seen,
  off the board too.  By induction on the cells: the table
  marks the numbers of exactly the values of the list.
-/
theorem scan_eq_distinctFrom
    {number : α → Nat}
    (hNumber : Function.Injective number)
    (board : Board)
    (trait : Symbol → Option α)
    {seen : List α}
    {table : List Bool}
    (hMarked : Marked number seen table)
    (cells : List Cell) :
    scan board (fun symbol => (trait symbol).map number)
        table cells =
      distinctFrom board trait seen cells := by
  induction cells generalizing seen table with
  | nil => rfl
  | cons cell rest ih =>
      rw [scan, distinctFrom]
      cases board.get cell with
      | error fault => rfl
      | ok symbol =>
          rw [ok_bind, ok_bind]
          cases trait symbol with
          | none => exact ih hMarked
          | some value =>
              have hLookup :
                  Checked.lookup table (number value) =
                    .ok (decide (value ∈ seen)) := by
                rw [Checked.lookup, hMarked value]
              simp only [Option.map_some]
              rw [hLookup, ok_bind]
              by_cases hSeen : value ∈ seen
              · rw [if_pos (decide_eq_true hSeen),
                  if_pos hSeen]
              · rw [if_neg (by simp [hSeen]), if_neg hSeen]
                exact ih (hMarked.set hNumber value)

/- An unmarked table marks nothing. -/
theorem marked_unmarked
    (trait : Trait) :
    Marked (@Trait.number trait) [] unmarked := by
  intro variant
  cases trait with
  | color => cases variant <;> rfl
  | shape => cases variant <;> rfl

/- That a trait is always another is found by a table. -/
theorem scan_trait
    (board : Board)
    (cells : List Cell)
    (trait : Trait) :
    scan board
        (fun symbol =>
          (trait.variant? symbol).map Trait.number)
        unmarked cells =
      trait.distinct.holdsOn board cells := by
  rw [holdsOn_distinct]
  exact scan_eq_distinctFrom Trait.number_injective board
    trait.variant? (marked_unmarked trait) cells

end GroupPredicate

end HiddenRule

------------------------------------------------------------
-- Lack Of Memory
------------------------------------------------------------

namespace HiddenRule

/- The faults that tell of a lack of memory. -/
def Fault.IsMemory
    (fault : Fault) : Prop :=
  fault = .capacityOverflow ∨ fault = .outOfMemory

/- A refusal of room tells of a lack of memory. -/
theorem Checked.Refuses.isMemory
    {memory count bytes : Nat}
    {fault : Fault}
    (hRefuses : Refuses memory count bytes fault) :
    fault.IsMemory := by
  cases fault with
  | capacityOverflow => exact Or.inl rfl
  | outOfMemory => exact Or.inr rfl
  | indexOutOfBounds => exact hRefuses.elim
  | emptyRange => exact hRefuses.elim
  | addOverflow => exact hRefuses.elim
  | subtractOverflow => exact hRefuses.elim

/- So does one of room for examples. -/
theorem Examples.Refuses.isMemory
    {memory : Nat}
    {wantedPositive wantedNegative : UInt64}
    {fault : Fault}
    (hRefuses :
      Refuses memory wantedPositive wantedNegative fault) :
    fault.IsMemory := by
  rcases hRefuses with hPositive | ⟨_, hNegative⟩
  · exact hPositive.isMemory
  · exact hNegative.isMemory

/-
  There is no fault if there is enough room, and otherwise
  none but a lack of memory.
-/
structure LacksOnlyMemory
    (room : Prop)
    (fault? : Option Fault) : Prop where
  none_of_room : room → fault? = none
  isMemory :
    ∀ fault, fault? = some fault → fault.IsMemory

namespace LacksOnlyMemory

variable {room : Prop}

theorem none :
    LacksOnlyMemory room none :=
  ⟨fun _ => rfl, nofun⟩

theorem of_room
    {fault? : Option Fault}
    {other : Prop}
    (hLacks : LacksOnlyMemory room fault?)
    (hRoom : other → room) :
    LacksOnlyMemory other fault? :=
  ⟨fun hOther => hLacks.none_of_room (hRoom hOther),
    hLacks.isMemory⟩

end LacksOnlyMemory

/-
  Whether a memory has room for the boards that a call asks
  for.
-/
def Call.Fits
    (memory : Nat)
    (settings : Settings) : Call → Prop
| .examples _ wantedPositive wantedNegative =>
    Examples.Fits memory wantedPositive wantedNegative
| .oneExample _ _ => Examples.boardBytes ≤ memory
| .deal _ =>
    Examples.Fits memory
      (Deck.perSide settings.challengeCount)
      (Deck.perSide settings.challengeCount)
| .newRule => True
| .evaluate _ _ => True
| .describe _ => True
| .submit _ _ => True

@[simp] theorem faultOf?_map
    {α β : Type}
    (outcome : Except Fault α)
    (change : α → β) :
    faultOf? (outcome.map change) = faultOf? outcome := by
  cases outcome <;> rfl

end HiddenRule

------------------------------------------------------------
-- One Call
------------------------------------------------------------

namespace HiddenRule

/- Examples are drawn if there is room for them. -/
theorem Sampler.examples_lacksOnlyMemory
    (sampler : Sampler)
    (rule : Rule)
    (wantedPositive wantedNegative : UInt64)
    (stream : Stream)
    (memory : Nat) :
    LacksOnlyMemory
      (Examples.Fits memory wantedPositive wantedNegative)
      (faultOf?
        (sampler.examples rule wantedPositive wantedNegative
          stream memory)) := by
  by_cases hFits :
      Examples.Fits memory wantedPositive wantedNegative
  · rcases sampler.examples_of_fits rule stream hFits with
      ⟨examples, hExamples, _⟩
    rw [hExamples]
    exact .none
  · refine ⟨fun hRoom => absurd hRoom hFits, ?_⟩
    intro fault hFault
    rcases sampler.examples_of_not_fits rule stream hFits
      with ⟨refusal, hRefuses, hError⟩
    rw [hError] at hFault
    rw [← Option.some.inj hFault]
    exact hRefuses.isMemory

/- A deck faults if the examples for it do. -/
theorem Deck.faultOf?_deal
    (sampler : Sampler)
    (rule : Rule)
    (count : UInt64)
    (stream : Stream)
    (memory : Nat) :
    faultOf? (deal sampler rule count stream memory) =
      faultOf?
        (sampler.examples rule (perSide count)
          (perSide count) stream memory) := by
  cases hExamples :
      sampler.examples rule (perSide count) (perSide count)
        stream memory with
  | ok drawn =>
      rw [deal_of_examples hExamples]
      rfl
  | error fault =>
      rw [deal, ← perSide, hExamples]
      rfl

/- A guess is judged, in any round. -/
theorem Round.faultOf?_submit
    (round : Round)
    (guess : Bool) :
    faultOf? (round.submit guess) = none := by
  by_cases hStruck : round.struck = true
  · rw [submit_of_finished guess
      (isFinished_of_struck hStruck)]
    rfl
  · have hOpen : round.struck = false :=
      Bool.eq_false_iff.mpr hStruck
    cases hBoard : round.deck.boards[round.answered]? with
    | none =>
        have hFinished : round.isFinished = true := by
          simp [isFinished, current?, hBoard]
        rw [submit_of_finished guess hFinished]
        rfl
    | some board =>
        by_cases hRight : guess = round.rule.follows board
        · rw [hRight, submit_of_right hOpen hBoard]
          rfl
        · rw [submit_of_wrong hOpen hBoard hRight]
          rfl

/- An expansion over a valid grammar never faults. -/
theorem Grammar.WellFormed.newRule_ne_fault
    {grammar : Grammar}
    (hWellFormed : grammar.WellFormed)
    (depth : Nat)
    (stream : Stream)
    (fault : Fault) :
    (grammar.newRule depth stream).result ≠
      .error (.fault fault) := by
  intro hFault
  rcases newRule_cases grammar depth stream with
    ⟨rule, _, hNew⟩ | ⟨stop, hExpand, hNew⟩
  · rw [hNew] at hFault
    exact nomatch hFault
  · rw [hNew] at hFault
    rw [Except.error.inj hFault] at hExpand
    rcases hWellFormed.tolerates (fun _ => rfl) hExpand with
      hDeep | hTolerates
    · exact nomatch hDeep
    · exact nomatch hTolerates

namespace Play

/- No reply tells of a fault but a lack of memory. -/
theorem reply_lacksOnlyMemory
    (play : Play)
    (hWellFormed : play.game.grammar.WellFormed)
    (call : Call) :
    LacksOnlyMemory
      (call.Fits play.game.machine.memory
        play.game.settings)
      (play.reply call).1.fault? := by
  have hExamples :=
    play.game.sampler.examples_lacksOnlyMemory
  cases call with
  | newRule =>
      have hNever :=
        hWellFormed.newRule_ne_fault play.game.machine.depth
          play.game.ruleStream
      simp only [reply, Game.newRule]
      generalize (play.game.grammar.newRule
        play.game.machine.depth
        play.game.ruleStream).result = result at hNever
      cases result with
      | ok rule => exact .none
      | error stop =>
          cases stop with
          | failed error => exact .none
          | fault fault => exact absurd rfl (hNever fault)
          | tooDeep => exact .none
  | evaluate rule board =>
      rw [reply, rule.evaluate_eq]
      exact .none
  | describe rule => exact .none
  | examples rule wantedPositive wantedNegative =>
      simp only [reply, Game.examples_eq_map, Reply.fault?,
        faultOf?_map]
      exact hExamples rule _ _ _ _
  | oneExample rule follows =>
      simp only [reply, Game.example?_eq_map, Reply.fault?,
        faultOf?_map]
      apply (hExamples rule _ _ _ _).of_room
      intro hRoom
      exact Examples.fits_one hRoom follows
  | deal rule =>
      simp only [reply, Game.dealChallenge_eq_map,
        Reply.fault?, faultOf?_map, Deck.faultOf?_deal]
      exact hExamples rule _ _ _ _
  | submit index guess =>
      rw [reply, submit]
      split
      · exact .none
      · rename_i round hRound
        split
        · rename_i fault hFault
          have hNever := round.faultOf?_submit guess
          rw [hFault] at hNever
          cases hNever
        · exact .none

/-
  Nor does one in a row of calls.  By induction on the
  calls: the grammar, the settings and the machine stay as
  they are.
-/
theorem run_lacksOnlyMemory
    (play : Play)
    (hWellFormed : play.game.grammar.WellFormed)
    (calls : List Call) :
    ∀ entry ∈ (play.run calls).1,
      LacksOnlyMemory
        (entry.1.Fits play.game.machine.memory
          play.game.settings)
        entry.2.fault? := by
  induction calls generalizing play with
  | nil =>
      intro entry hEntry
      exact absurd hEntry List.not_mem_nil
  | cons call calls ih =>
      have hNext := play.reply_continues call
      have hRest := ih (play.reply call).2
      rw [hNext.grammar_eq, hNext.settings_eq,
        hNext.machine_eq] at hRest
      rw [run_cons, List.forall_mem_cons]
      exact ⟨play.reply_lacksOnlyMemory hWellFormed call,
        hRest hWellFormed⟩

end Play

end HiddenRule

------------------------------------------------------------
-- Games That Have Begun
------------------------------------------------------------

namespace HiddenRule

namespace Game

/-
  On any machine a game that has begun replies to every call
  of every row of calls.  A call with room for what it asks
  for never faults, and another one lacks memory at most.
  The expansion of a rule does not fault at any depth.
  Distinct colors and shapes can be found by tables of three.
-/
theorem calls_lack_only_memory
    {grammar : Grammar}
    {settings : Settings}
    {otherwise : UInt64}
    {machine : Machine}
    {order : KindOrder}
    {game : Game}
    (hStart :
      start grammar settings otherwise machine order =
        .ok game) :
    (∀ calls,
      ((Play.begin game).run calls).1.map Prod.fst = calls ∧
        ∀ entry ∈ ((Play.begin game).run calls).1,
          (entry.1.Fits machine.memory settings →
              entry.2.fault? = none) ∧
            ∀ fault,
              entry.2.fault? = some fault →
                fault.IsMemory) ∧
    (∀ depth stream fault,
      (grammar.newRule depth stream).result ≠
        .error (.fault fault)) ∧
    ∀ board cells,
      GroupPredicate.scan board
            (fun symbol => symbol.color?.map Color.index)
            GroupPredicate.unmarked cells =
          GroupPredicate.holdsOn board cells
            .distinctColors ∧
        GroupPredicate.scan board
            (fun symbol => symbol.shape?.map Shape.index)
            GroupPredicate.unmarked cells =
          GroupPredicate.holdsOn board cells
            .distinctShapes := by
  rcases start_eq_ok_iff.mp hStart with
    ⟨_, hValid, _, _, hGame⟩
  have hWellFormed := Grammar.validate_eq_ok_iff.mp hValid
  have hGrammar : (Play.begin game).game.grammar = grammar :=
    congrArg Game.grammar hGame
  have hSettings :
      (Play.begin game).game.settings = settings :=
    congrArg Game.settings hGame
  have hMachine : (Play.begin game).game.machine = machine :=
    congrArg Game.machine hGame
  refine ⟨fun calls => ⟨Play.calls_of_run _ _, ?_⟩, ?_, ?_⟩
  · intro entry hEntry
    have hLacks :=
      (Play.begin game).run_lacksOnlyMemory
        (hGrammar ▸ hWellFormed) calls entry hEntry
    rw [hSettings, hMachine] at hLacks
    exact ⟨hLacks.none_of_room, hLacks.isMemory⟩
  · exact hWellFormed.newRule_ne_fault
  · intro board cells
    exact ⟨GroupPredicate.scan_trait board cells .color,
      GroupPredicate.scan_trait board cells .shape⟩

/-
  A game of the stock grammar with decks of two boards, on a
  machine that gives no block for more than one board and
  nests calls three deep.  A rule and a round are asked for,
  and the round is answered until nothing happens any more.
-/
theorem short_game_without_fault :
    let settings : Settings :=
      { seed := some 9, challengeCount := 2 }
    let machine : Machine :=
      { memory := Examples.boardBytes, depth := 3 }
    let rule : Rule :=
      .grouped .color .distinctShapes
    let calls : List Call :=
      [.newRule, .deal rule, .submit 0 true,
        .submit 0 true, .submit 0 true]
    ∃ game,
      start .standard settings 0 machine = .ok game ∧
        ∀ entry ∈ ((Play.begin game).run calls).1,
          entry.2.fault? = none := by
  intro settings machine rule calls
  have hSettings : settings.validate = .ok () := rfl
  rcases exists_start hSettings Grammar.validate_standard 0
      machine with
    ⟨game, hStart⟩
  have hDeal :
      (Call.deal rule).Fits machine.memory settings := by
    change Examples.Fits Examples.boardBytes
      (Deck.perSide 2) (Deck.perSide 2)
    decide
  have hFits :
      ∀ call ∈ calls, call.Fits machine.memory settings := by
    simp only [calls, List.forall_mem_cons]
    exact ⟨trivial, hDeal, trivial, trivial, trivial, nofun⟩
  refine ⟨game, hStart, ?_⟩
  intro entry hEntry
  rcases (calls_lack_only_memory hStart).1 calls with
    ⟨hCalls, hReplies⟩
  apply (hReplies entry hEntry).1
  apply hFits
  rw [← hCalls]
  exact List.mem_map_of_mem hEntry

end Game

end HiddenRule
