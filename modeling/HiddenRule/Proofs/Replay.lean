import HiddenRule.Proofs.Streams

/-
  This file proves that a stored place is all there is to
  know of a stream: what is drawn from the stream at the
  place is what is drawn from the stream itself.

  What can be drawn is a row of tasks.  A task moves the
  stream in the keystream of its seed, or gives it a name
  and with it another seed.

  Main declarations:
    * `Task`, `Drawn` and `Task.perform`
    * `Task.moves_perform` and `Task.seed_perform`
    * `Stream.after` and `Stream.seed_after`
    * `Stream.record`
    * `Stream.replay_is_exact`
-/

------------------------------------------------------------
-- Tasks
------------------------------------------------------------

namespace HiddenRule

/-
  What can be drawn from a stream: samples, numbers,
  shuffled items and choices; the stream with a name; parts
  of rules and rules, with the depth that is left; boards;
  and examples and decks, with the memory that there is.
-/
inductive Task
    (α : Type) where
| unit : Task α
| range : (low high : UInt64) → Task α
| shuffle : List α → Task α
| choose : List UInt32 → Task α
| context : String → Task α
| expand :
    Grammar → (depth : Nat) → Kind → TagSet → Task α
| newRule : Grammar → (depth : Nat) → Task α
| board : Sampler → Task α
| examples :
    Sampler → Rule →
      (wantedPositive wantedNegative : UInt64) →
        (memory : Nat) → Task α
| deal :
    Sampler → Rule → (count : UInt64) → (memory : Nat) →
      Task α

/- What is drawn, or how the drawing ends without it. -/
inductive Drawn
    (α : Type) where
| sample : UnitSample → Drawn α
| number : Except Fault Nat → Drawn α
| items : List α → Drawn α
| index : Option Nat → Drawn α
| named : Drawn α
| fragment :
    Except Stop Fragment → (used : TagSet) → Drawn α
| rule : Except Stop Rule → Drawn α
| board : Except Fault Board → Drawn α
| examples : Except Fault Examples → Drawn α
| deck : Except Fault Deck → Drawn α

namespace Task

variable {α β : Type}

/- After a fault the stream stands where it was. -/
def streamAfter
    (stream : Stream) :
    Except Fault (β × Stream) → Stream
| .ok drawn => drawn.2
| .error _ => stream

/- Perform a task: what is drawn, and the stream after. -/
def perform
    (stream : Stream) : Task α → Drawn α × Stream
| .unit => (.sample stream.unit.1, stream.unit.2)
| .range low high =>
    let outcome := stream.range low.toNat high.toNat
    (.number (outcome.map Prod.fst),
      streamAfter stream outcome)
| .shuffle items =>
    let (shuffled, next) := stream.shuffle items
    (.items shuffled, next)
| .choose weights =>
    let (index, next) := stream.choose weights
    (.index index, next)
| .context name => (.named, stream.forContext name)
| .expand grammar depth kind used =>
    let expansion := grammar.expand depth kind used stream
    (.fragment expansion.result expansion.used,
      expansion.stream)
| .newRule grammar depth =>
    let expansion := grammar.newRule depth stream
    (.rule expansion.result, expansion.stream)
| .board sampler =>
    let outcome := sampler.randomBoard stream
    (.board (outcome.map Prod.fst),
      streamAfter stream outcome)
| .examples sampler rule wantedPositive wantedNegative
    memory =>
    let outcome :=
      sampler.examples rule wantedPositive wantedNegative
        stream memory
    (.examples (outcome.map Prod.fst),
      streamAfter stream outcome)
| .deal sampler rule count memory =>
    let outcome :=
      Deck.deal sampler rule count stream memory
    (.deck (outcome.map Prod.fst),
      streamAfter stream outcome)

/- The name that a task gives to the stream. -/
def name? : Task α → Option String
| .context name => some name
| _ => none

theorem moves_streamAfter
    {stream : Stream}
    {outcome : Except Fault (β × Stream)}
    (hMoves :
      ∀ drawn next,
        outcome = .ok (drawn, next) → stream.Moves next) :
    stream.Moves (streamAfter stream outcome) := by
  cases outcome with
  | ok drawn => exact hMoves _ _ rfl
  | error fault => exact .refl stream

/- A task without a name moves the stream. -/
theorem moves_perform
    (stream : Stream)
    {task : Task α}
    (hName : task.name? = none) :
    stream.Moves (task.perform stream).2 := by
  cases task with
  | unit => exact stream.moves_unit
  | range low high =>
      exact moves_streamAfter fun _ _ => Stream.moves_range
  | shuffle items => exact stream.moves_shuffle items
  | choose weights => exact stream.moves_choose weights
  | context name => exact nomatch hName
  | expand grammar depth kind used =>
      exact grammar.moves_expand depth kind used stream
  | newRule grammar depth =>
      exact grammar.moves_newRule depth stream
  | board sampler =>
      exact moves_streamAfter fun _ _ =>
        Sampler.moves_randomBoard
  | examples sampler rule wantedPositive wantedNegative
      memory =>
      exact moves_streamAfter fun _ _ =>
        Sampler.moves_examples
  | deal sampler rule count memory =>
      exact moves_streamAfter fun _ _ => Sampler.moves_deal

/- The seed of a stream changes with its name only. -/
theorem seed_perform
    (stream : Stream)
    (task : Task α) :
    (task.perform stream).2.seed =
      task.name?.toList.foldl Context.seed stream.seed := by
  cases hName : task.name? with
  | none => exact (task.moves_perform stream hName).seed_eq
  | some name =>
      cases task with
      | context other =>
          cases hName
          rfl
      | _ => exact nomatch hName

end Task

------------------------------------------------------------
-- Replays
------------------------------------------------------------

namespace Stream

variable {α : Type}

/- The stream after tasks, one after another. -/
def after
    (stream : Stream) : List (Task α) → Stream
| [] => stream
| task :: tasks => (task.perform stream).2.after tasks

/-
  What tasks draw, one after another, each with the place
  that can be stored after it.
-/
def record
    (stream : Stream) :
    List (Task α) → List (Drawn α × Snapshot)
| [] => []
| task :: tasks =>
    let (drawn, next) := task.perform stream
    (drawn, next.snapshot) :: next.record tasks

/- The seed after tasks is known from the names given. -/
theorem seed_after
    (stream : Stream)
    (tasks : List (Task α)) :
    (stream.after tasks).seed =
      (tasks.filterMap Task.name?).foldl Context.seed
        stream.seed := by
  induction tasks generalizing stream with
  | nil => rfl
  | cons task tasks ih =>
      rw [after, ih, task.seed_perform stream]
      cases hName : task.name? with
      | none => rw [List.filterMap_cons_none hName]; rfl
      | some name =>
          rw [List.filterMap_cons_some hName]; rfl

/-
  A stream that tasks have led to and the stream at its
  stored place draw the same, answers and faults, and stand
  at the same places after each task.  The stored seed is
  that of the last name given.  A stored place of the
  keystream is the place of the stream at it.  A task that
  gives no name leads to a later position of the keystream.
  A draw of a word reads the word at the position, and a
  draw of two words reads the next one too.
-/
theorem replay_is_exact :
    (∀ (α : Type) (seed : UInt64)
        (history tasks : List (Task α)),
      let stream := (ofSeed seed).after history
      let resumed := ofSnapshot stream.snapshot
      resumed.record tasks = stream.record tasks ∧
        resumed.snapshot = stream.snapshot ∧
          stream.seed =
            (history.filterMap Task.name?).foldl
              Context.seed seed) ∧
    (∀ snapshot : Snapshot,
      snapshot.wordPosition.toNat < twoPow 68 →
        (ofSnapshot snapshot).snapshot = snapshot) ∧
    (∀ (α : Type) (stream : Stream) (task : Task α),
      task.name? = none →
        ∃ count,
          (task.perform stream).2 =
            atPosition stream.seed
              (stream.wordPosition + count)) ∧
    ∀ stream : Stream,
      let position := stream.wordPosition
      let first := Keystream.word stream.seed position
      let second :=
        Keystream.word stream.seed (position + 1)
      stream.next32 =
          (first, atPosition stream.seed (position + 1)) ∧
        stream.next64 =
          (first.toUInt64 ||| (second.toUInt64 <<< 32),
            atPosition stream.seed (position + 2)) := by
  refine ⟨?_, fun _ => snapshot_ofSnapshot, ?_, ?_⟩
  · intro α seed history tasks stream resumed
    have hResumed : resumed = stream :=
      stream.ofSnapshot_snapshot
    rw [hResumed]
    exact ⟨rfl, rfl, seed_after _ history⟩
  · intro α stream task hName
    exact (task.moves_perform stream hName).exists_atPosition
  · intro stream position first second
    have hOne := next32_atPosition stream.seed position
    have hTwo := next64_atPosition stream.seed position
    rw [stream.atPosition_wordPosition] at hOne hTwo
    exact ⟨hOne, hTwo⟩

/-
  A shuffle of two items takes one word and seven samples
  take two each, so the next sample reads the last word of
  the first block and the first word of the second.
-/
theorem replay_across_blocks :
    let history : List (Task Nat) :=
      .shuffle [1, 2] :: List.replicate 7 .unit
    let tasks : List (Task Nat) :=
      [.unit, .context "rules", .choose [1, 2]]
    let stream := (ofSeed 9).after history
    let resumed := ofSnapshot stream.snapshot
    stream.snapshot = { seed := 9, wordPosition := 15 } ∧
      stream.snapshot.wordPosition.toNat < twoPow 68 ∧
        resumed.snapshot = stream.snapshot ∧
        resumed.record tasks = stream.record tasks ∧
        (Task.unit : Task Nat).name? = none ∧
        ∃ count,
          ((Task.unit : Task Nat).perform stream).2 =
            atPosition stream.seed
              (stream.wordPosition + count) := by
  intro history tasks stream resumed
  have hPlace :
      stream.snapshot = { seed := 9, wordPosition := 15 } := by
    decide +kernel
  have hFits :
      stream.snapshot.wordPosition.toNat < twoPow 68 := by
    rw [hPlace]
    decide
  have hUnit : (Task.unit : Task Nat).name? = none := rfl
  rcases replay_is_exact with ⟨hReplay, hStored, hMoves, _⟩
  exact ⟨hPlace, hFits, hStored _ hFits,
    (hReplay Nat 9 history tasks).1, hUnit,
    hMoves Nat stream .unit hUnit⟩

end Stream

end HiddenRule
