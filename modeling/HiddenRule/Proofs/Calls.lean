import HiddenRule.Game
import HiddenRule.Proofs.Outcome

/-
  This file defines rows of calls to a game that has begun,
  and proves what no call changes.

  A game can be asked for rules, boards and rounds, and the
  rounds that were dealt can be answered, in any order.  A
  call that ends in a fault leaves everything as it was.

  Main declarations:
    * `Game.start_eq_ok_iff` and `Game.exists_start`
    * `Call`, `Reply` and `Reply.fault?`
    * `Source` and `Call.source?`
    * `Play`, `Play.reply` and `Play.run`
    * `Play.calls_of_run` and `Play.run_append`
    * `Game.Moved` and `Play.reply_moved`
    * `Game.Continues` and `Play.run_continues`
-/

------------------------------------------------------------
-- Games That Begin
------------------------------------------------------------

namespace HiddenRule

namespace Game

/- A game begins with valid settings and a valid grammar. -/
theorem start_eq_ok_iff
    {grammar : Grammar}
    {settings : Settings}
    {otherwise : UInt64}
    {machine : Machine}
    {order : KindOrder}
    {game : Game} :
    start grammar settings otherwise machine order =
        .ok game ↔
      settings.validate = .ok () ∧
        grammar.validate order = .ok () ∧
        ∃ sampler,
          Sampler.ofSettings settings.sampling =
              .ok sampler ∧
            let seed := settings.seed.getD otherwise
            let base := Stream.ofSeed seed
            game =
              { grammar, settings, sampler, machine, seed,
                ruleStream := base.forContext "rules",
                exampleStream :=
                  base.forContext "examples" } := by
  simp only [start, bind_eq_ok_iff, mapError_eq_ok_iff]
  refine ⟨fun hStart => ?_, fun hStart => ?_⟩
  · rcases hStart with
      ⟨_, hSettings, _, hGrammar, sampler, hSampler, hGame⟩
    exact ⟨hSettings, hGrammar, sampler, hSampler,
      (Except.ok.inj hGame).symm⟩
  · rcases hStart with
      ⟨hSettings, hGrammar, sampler, hSampler, hGame⟩
    exact ⟨_, hSettings, _, hGrammar, sampler, hSampler,
      congrArg Except.ok hGame.symm⟩

/- Valid settings and a valid grammar are enough. -/
theorem exists_start
    {grammar : Grammar}
    {settings : Settings}
    {order : KindOrder}
    (hSettings : settings.validate = .ok ())
    (hGrammar : grammar.validate order = .ok ())
    (otherwise : UInt64)
    (machine : Machine) :
    ∃ game,
      start grammar settings otherwise machine order =
        .ok game := by
  rcases bind_eq_ok_iff.mp hSettings with ⟨_, hSampling, _⟩
  have hSampler :
      ∃ sampler,
        Sampler.ofSettings settings.sampling =
          .ok sampler := by
    unfold Sampler.ofSettings
    split
    · exact ⟨_, rfl⟩
    · rename_i hError
      rw [hSampling] at hError
      exact nomatch hError
  rcases hSampler with ⟨sampler, hSampler⟩
  refine ⟨_, start_eq_ok_iff.mpr ⟨hSettings, hGrammar,
    sampler, hSampler, rfl⟩⟩

/- A fixed seed makes the given one irrelevant. -/
theorem start_eq_of_seed
    {settings : Settings}
    {seed : UInt64}
    (hSeed : settings.seed = some seed)
    (grammar : Grammar)
    (left right : UInt64)
    (machine : Machine)
    (order : KindOrder) :
    start grammar settings left machine order =
      start grammar settings right machine order := by
  simp only [start, hSeed, Option.getD_some]

end Game

end HiddenRule

------------------------------------------------------------
-- Calls
------------------------------------------------------------

namespace HiddenRule

/-
  What can be asked of a game and of the rounds it dealt.  A
  round is called by its place among them.
-/
inductive Call where
| newRule : Call
| evaluate : Rule → Board → Call
| describe : Rule → Call
| examples :
    Rule → (wantedPositive wantedNegative : UInt64) → Call
| oneExample : Rule → (follows : Bool) → Call
| deal : Rule → Call
| submit : (index : Nat) → (guess : Bool) → Call
deriving DecidableEq

/- What a game draws. -/
inductive Source where
| rules
| examples
deriving DecidableEq

/- The source that a call draws from. -/
def Call.source? : Call → Option Source
| .newRule => some .rules
| .examples _ _ _ => some .examples
| .oneExample _ _ => some .examples
| .deal _ => some .examples
| .evaluate _ _ => none
| .describe _ => none
| .submit _ _ => none

/- What is answered; a round may not have been dealt yet. -/
inductive Reply where
| rule : Except Stop Rule → Reply
| verdict : Except Fault Bool → Reply
| words : String → Reply
| examples : Except Fault Examples → Reply
| board : Except Fault (Option Board) → Reply
| round : Except Fault Round → Reply
| judged : Except Fault (Option Outcome) → Reply
| noRound : Reply

/- The fault that an outcome ends in. -/
def faultOf?
    {α : Type} : Except Fault α → Option Fault
| .ok _ => none
| .error fault => some fault

/- The fault that a reply tells of. -/
def Reply.fault? : Reply → Option Fault
| .rule (.error (.fault fault)) => some fault
| .rule _ => none
| .verdict answer => faultOf? answer
| .words _ => none
| .examples answer => faultOf? answer
| .board answer => faultOf? answer
| .round answer => faultOf? answer
| .judged answer => faultOf? answer
| .noRound => none

------------------------------------------------------------
-- Rows Of Calls
------------------------------------------------------------

/- A game and the rounds that it has dealt, in order. -/
structure Play where
  game : Game
  rounds : List Round

namespace Play

/- A game of which nothing has been asked yet. -/
def begin
    (game : Game) : Play where
  game := game
  rounds := []

/- The game after an answer; a fault leaves it as it was. -/
def gameAfter
    {α : Type}
    (play : Play)
    (answer : Except Fault (Answer α)) : Game :=
  match answer with
  | .ok answer => answer.game
  | .error _ => play.game

/- The rounds after a deal. -/
def roundsAfter
    (play : Play)
    (answer : Except Fault (Answer Round)) : List Round :=
  match answer with
  | .ok answer => play.rounds ++ [answer.value]
  | .error _ => play.rounds

/- Submit a guess to the round at an index. -/
def submit
    (play : Play)
    (index : Nat)
    (guess : Bool) : Reply × Play :=
  match play.rounds[index]? with
  | none => (.noRound, play)
  | some round =>
      match round.submit guess with
      | .error fault => (.judged (.error fault), play)
      | .ok (outcome, next) =>
          (.judged (.ok outcome),
            { play with rounds := play.rounds.set index next })

/- The reply to a call, and what is in play after it. -/
def reply
    (play : Play) : Call → Reply × Play
| .newRule =>
    let answer := play.game.newRule
    (.rule answer.value, { play with game := answer.game })
| .evaluate rule board =>
    (.verdict (rule.evaluate board), play)
| .describe rule => (.words rule.describe, play)
| .examples rule wantedPositive wantedNegative =>
    let answer :=
      play.game.examples rule wantedPositive wantedNegative
    (.examples (answer.map Answer.value),
      { play with game := play.gameAfter answer })
| .oneExample rule follows =>
    let answer := play.game.example? rule follows
    (.board (answer.map Answer.value),
      { play with game := play.gameAfter answer })
| .deal rule =>
    let answer := play.game.dealChallenge rule
    (.round (answer.map Answer.value),
      { game := play.gameAfter answer
        rounds := play.roundsAfter answer })
| .submit index guess => play.submit index guess

/-
  Calls one after another, each with its reply, and what is
  in play after the last one.
-/
def run
    (play : Play) :
    List Call → List (Call × Reply) × Play
| [] => ([], play)
| call :: calls =>
    let (reply, next) := play.reply call
    let (later, last) := next.run calls
    ((call, reply) :: later, last)

theorem run_cons
    (play : Play)
    (call : Call)
    (calls : List Call) :
    play.run (call :: calls) =
      ((call, (play.reply call).1) ::
          ((play.reply call).2.run calls).1,
        ((play.reply call).2.run calls).2) :=
  rfl

/- Each call has its reply. -/
theorem calls_of_run
    (play : Play)
    (calls : List Call) :
    (play.run calls).1.map Prod.fst = calls := by
  induction calls generalizing play with
  | nil => rfl
  | cons call calls ih =>
      rw [run_cons, List.map_cons, ih]

/- A run of two rows is a run of the one, then the other. -/
theorem run_append
    (play : Play)
    (calls more : List Call) :
    (play.run (calls ++ more)).1 =
      (play.run calls).1 ++
        ((play.run calls).2.run more).1 := by
  induction calls generalizing play with
  | nil => rfl
  | cons call calls ih =>
      rw [List.cons_append, run_cons, run_cons, ih]
      rfl

end Play

end HiddenRule

------------------------------------------------------------
-- What A Game Draws
------------------------------------------------------------

namespace HiddenRule

namespace Game

variable {α β : Type}
variable (game : Game)
variable (rule : Rule)

/-
  The answer that tells what was drawn, given by a game that
  keeps where the drawing ended.
-/
def answerOf
    (value : β → α)
    (records : β → List Record)
    (drawn : β × Stream) : Answer α where
  value := value drawn.1
  game := { game with exampleStream := drawn.2 }
  records := records drawn.1

/- Examples are drawn from the stream of examples. -/
theorem examples_eq_map
    (wantedPositive wantedNegative : UInt64) :
    game.examples rule wantedPositive wantedNegative =
      (game.sampler.examples rule wantedPositive
          wantedNegative game.exampleStream
          game.machine.memory).map
        (game.answerOf id fun examples =>
          examples.records rule) := by
  unfold examples
  cases game.sampler.examples rule wantedPositive
    wantedNegative game.exampleStream
      game.machine.memory <;> rfl

/- One example is the first of those of its side. -/
theorem example?_eq_map
    (follows : Bool) :
    game.example? rule follows =
      (game.sampler.examples rule (if follows then 1 else 0)
          (if follows then 0 else 1) game.exampleStream
          game.machine.memory).map
        (game.answerOf
          (fun examples => examples.toList.head?)
          fun examples => examples.records rule) := by
  unfold example?
  simp only [examples_eq_map]
  cases follows with
  | true =>
      simp only [if_true]
      cases game.sampler.examples rule 1 0
        game.exampleStream game.machine.memory <;> rfl
  | false =>
      simp only [Bool.false_eq_true, if_false]
      cases game.sampler.examples rule 0 1
        game.exampleStream game.machine.memory <;> rfl

/- A round begins with a deck of the stream of examples. -/
theorem dealChallenge_eq_map :
    game.dealChallenge rule =
      (Deck.deal game.sampler rule
          game.settings.challengeCount
          game.exampleStream game.machine.memory).map
        (game.answerOf (Round.start rule) fun deck =>
          deck.records rule game.settings.challengeCount) := by
  unfold dealChallenge
  dsimp only
  cases Deck.deal game.sampler rule
    game.settings.challengeCount game.exampleStream
      game.machine.memory <;> rfl

/-
  A game whose stream of a source has moved, or that is as
  it was.
-/
def Moved :
    Option Source → (game next : Game) → Prop
| none, game, next => next = game
| some .rules, game, next =>
    ∃ stream, next = { game with ruleStream := stream }
| some .examples, game, next =>
    ∃ stream, next = { game with exampleStream := stream }

/-
  A game after calls: at most its two streams have moved.
-/
structure Continues
    (game next : Game) : Prop where
  grammar_eq : next.grammar = game.grammar
  settings_eq : next.settings = game.settings
  sampler_eq : next.sampler = game.sampler
  machine_eq : next.machine = game.machine
  seed_eq : next.seed = game.seed

theorem Continues.refl :
    game.Continues game :=
  ⟨rfl, rfl, rfl, rfl, rfl⟩

theorem Continues.trans
    {game middle last : Game}
    (hFirst : game.Continues middle)
    (hSecond : middle.Continues last) :
    game.Continues last :=
  ⟨hSecond.grammar_eq.trans hFirst.grammar_eq,
    hSecond.settings_eq.trans hFirst.settings_eq,
    hSecond.sampler_eq.trans hFirst.sampler_eq,
    hSecond.machine_eq.trans hFirst.machine_eq,
    hSecond.seed_eq.trans hFirst.seed_eq⟩

theorem Moved.continues
    {source? : Option Source}
    {game next : Game}
    (hMoved : Moved source? game next) :
    game.Continues next := by
  match source?, hMoved with
  | none, hSame =>
      rw [hSame]
      exact .refl _
  | some .rules, ⟨_, hNext⟩ =>
      rw [hNext]
      exact ⟨rfl, rfl, rfl, rfl, rfl⟩
  | some .examples, ⟨_, hNext⟩ =>
      rw [hNext]
      exact ⟨rfl, rfl, rfl, rfl, rfl⟩

end Game

namespace Play

/-
  After an answer the stream of examples has moved; after a
  fault it stands where it was.
-/
theorem gameAfter_moved
    {α β : Type}
    (play : Play)
    (outcome : Except Fault (β × Stream))
    (value : β → α)
    (records : β → List Record) :
    Game.Moved (some .examples) play.game
      (play.gameAfter
        (outcome.map (play.game.answerOf value records))) := by
  cases outcome with
  | ok drawn => exact ⟨drawn.2, rfl⟩
  | error fault => exact ⟨play.game.exampleStream, rfl⟩

/- A call moves the stream that it draws from at most. -/
theorem reply_moved
    (play : Play)
    (call : Call) :
    Game.Moved call.source? play.game
      (play.reply call).2.game := by
  cases call with
  | newRule => exact ⟨_, rfl⟩
  | evaluate rule board => rfl
  | describe rule => rfl
  | examples rule wantedPositive wantedNegative =>
      rw [reply, Game.examples_eq_map]
      exact play.gameAfter_moved _ _ _
  | oneExample rule follows =>
      rw [reply, Game.example?_eq_map]
      exact play.gameAfter_moved _ _ _
  | deal rule =>
      rw [reply, Game.dealChallenge_eq_map]
      exact play.gameAfter_moved _ _ _
  | submit index guess =>
      rw [reply, submit]
      split
      · rfl
      · split <;> rfl

theorem reply_continues
    (play : Play)
    (call : Call) :
    play.game.Continues (play.reply call).2.game :=
  (play.reply_moved call).continues

/- Whatever is called, no more than the streams moves. -/
theorem run_continues
    (play : Play)
    (calls : List Call) :
    play.game.Continues (play.run calls).2.game := by
  induction calls generalizing play with
  | nil => exact .refl _
  | cons call calls ih =>
      exact (play.reply_continues call).trans (ih _)

end Play

end HiddenRule
