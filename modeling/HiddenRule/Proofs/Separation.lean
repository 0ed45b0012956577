import HiddenRule.Proofs.Calls

/-
  This file proves that the rules and the boards of a game
  do not depend on each other.

  Every call that draws does so from one of two sources.
  What it replies is known from what the game keeps for that
  source, and calls that do not draw from a source leave
  that as it is.  So the calls that draw from a source are
  answered as if no others had been made.

  Main declarations:
    * `Call.draws`
    * `Game.Agree` and `Game.Moved.agree`
    * `Play.reply_of_agree`
    * `Play.drawn_eq_run` and `Play.drawn_isPrefix`
    * `Game.sources_do_not_interfere`
-/

------------------------------------------------------------
-- Sources
------------------------------------------------------------

namespace HiddenRule

namespace Call

/- Whether a call draws from a source. -/
def draws
    (source : Source)
    (call : Call) : Bool :=
  call.source? = some source

theorem draws_iff
    {source : Source}
    {call : Call} :
    call.draws source = true ↔
      call.source? = some source :=
  decide_eq_true_iff

/- Only one call draws from the rules. -/
theorem eq_newRule_of_draws
    {call : Call}
    (hDraws : call.draws .rules = true) :
    call = .newRule := by
  cases call with
  | newRule => rfl
  | _ => exact nomatch hDraws

end Call

/- Games that keep the same for a source. -/
def Game.Agree :
    Source → (left right : Game) → Prop
| .rules, left, right =>
    left.grammar = right.grammar ∧
      left.machine = right.machine ∧
        left.ruleStream = right.ruleStream
| .examples, left, right =>
    left.sampler = right.sampler ∧
      left.settings = right.settings ∧
        left.machine = right.machine ∧
          left.exampleStream = right.exampleStream

namespace Game.Agree

variable {source : Source}
variable {left middle right : Game}

theorem refl
    (source : Source)
    (game : Game) :
    Agree source game game := by
  cases source with
  | rules => exact ⟨rfl, rfl, rfl⟩
  | examples => exact ⟨rfl, rfl, rfl, rfl⟩

theorem symm
    (hAgree : Agree source left right) :
    Agree source right left := by
  cases source with
  | rules =>
      rcases hAgree with ⟨hGrammar, hMachine, hStream⟩
      exact ⟨hGrammar.symm, hMachine.symm, hStream.symm⟩
  | examples =>
      rcases hAgree with
        ⟨hSampler, hSettings, hMachine, hStream⟩
      exact ⟨hSampler.symm, hSettings.symm, hMachine.symm,
        hStream.symm⟩

theorem trans
    (hFirst : Agree source left middle)
    (hSecond : Agree source middle right) :
    Agree source left right := by
  cases source with
  | rules =>
      exact ⟨hFirst.1.trans hSecond.1,
        hFirst.2.1.trans hSecond.2.1,
        hFirst.2.2.trans hSecond.2.2⟩
  | examples =>
      rcases hFirst with
        ⟨hSampler, hSettings, hMachine, hStream⟩
      exact ⟨hSampler.trans hSecond.1,
        hSettings.trans hSecond.2.1,
        hMachine.trans hSecond.2.2.1,
        hStream.trans hSecond.2.2.2⟩

end Game.Agree

/-
  When the stream of one source has moved, nothing has
  changed for the other.
-/
theorem Game.Moved.agree
    {source : Source}
    {source? : Option Source}
    {game next : Game}
    (hMoved : Moved source? game next)
    (hOther : source? ≠ some source) :
    Agree source next game := by
  match source?, hMoved with
  | none, hSame =>
      rw [hSame]
      exact .refl _ _
  | some .rules, ⟨_, hNext⟩ =>
      cases source with
      | rules => exact absurd rfl hOther
      | examples =>
          rw [hNext]
          exact ⟨rfl, rfl, rfl, rfl⟩
  | some .examples, ⟨_, hNext⟩ =>
      cases source with
      | rules =>
          rw [hNext]
          exact ⟨rfl, rfl, rfl⟩
      | examples => exact absurd rfl hOther

end HiddenRule

------------------------------------------------------------
-- One Call
------------------------------------------------------------

namespace HiddenRule

namespace Play

variable {α β : Type}
variable {left right : Play}

/- The same drawing leads to games that agree again. -/
theorem gameAfter_agree
    (hAgree : Game.Agree .examples left.game right.game)
    (outcome : Except Fault (β × Stream))
    (value : β → α)
    (records : β → List Record) :
    Game.Agree .examples
      (left.gameAfter
        (outcome.map (left.game.answerOf value records)))
      (right.gameAfter
        (outcome.map
          (right.game.answerOf value records))) := by
  cases outcome with
  | ok drawn =>
      exact ⟨hAgree.1, hAgree.2.1, hAgree.2.2.1, rfl⟩
  | error fault => exact hAgree

/- What is told does not depend on the game that tells it. -/
theorem value_answerOf
    (first second : Game)
    (outcome : Except Fault (β × Stream))
    (value : β → α)
    (records : β → List Record) :
    (outcome.map (first.answerOf value records)).map
        Answer.value =
      (outcome.map (second.answerOf value records)).map
        Answer.value := by
  cases outcome <;> rfl

/-
  A call that draws from a source is replied to from what
  the game keeps for that source.
-/
theorem reply_of_agree
    {source : Source}
    {call : Call}
    (hAgree : Game.Agree source left.game right.game)
    (hSource : call.source? = some source) :
    (left.reply call).1 = (right.reply call).1 ∧
      Game.Agree source (left.reply call).2.game
        (right.reply call).2.game := by
  cases call with
  | newRule =>
      cases hSource
      rcases hAgree with ⟨hGrammar, hMachine, hStream⟩
      simp only [reply, Game.newRule, Game.Agree, hGrammar,
        hMachine, hStream, and_self]
  | examples rule wantedPositive wantedNegative =>
      cases hSource
      have hKept := hAgree
      rcases hKept with
        ⟨hSampler, hSettings, hMachine, hStream⟩
      rw [reply, reply, Game.examples_eq_map,
        Game.examples_eq_map, hSampler, hMachine, hStream]
      refine ⟨congrArg Reply.examples ?_, ?_⟩
      · exact value_answerOf _ _ _ _ _
      · exact gameAfter_agree hAgree _ _ _
  | oneExample rule follows =>
      cases hSource
      have hKept := hAgree
      rcases hKept with
        ⟨hSampler, hSettings, hMachine, hStream⟩
      rw [reply, reply, Game.example?_eq_map,
        Game.example?_eq_map, hSampler, hMachine, hStream]
      refine ⟨congrArg Reply.board ?_, ?_⟩
      · exact value_answerOf _ _ _ _ _
      · exact gameAfter_agree hAgree _ _ _
  | deal rule =>
      cases hSource
      have hKept := hAgree
      rcases hKept with
        ⟨hSampler, hSettings, hMachine, hStream⟩
      rw [reply, reply, Game.dealChallenge_eq_map,
        Game.dealChallenge_eq_map, hSampler, hSettings,
        hMachine, hStream]
      refine ⟨congrArg Reply.round ?_, ?_⟩
      · exact value_answerOf _ _ _ _ _
      · exact gameAfter_agree hAgree _ _ _
  | evaluate rule board => cases hSource
  | describe rule => cases hSource
  | submit index guess => cases hSource

end Play

end HiddenRule

------------------------------------------------------------
-- Rows Of Calls
------------------------------------------------------------

namespace HiddenRule

namespace Play

variable {left right : Play}

/- The entries of a run whose calls draw from a source. -/
def drawn
    (source : Source)
    (play : Play)
    (calls : List Call) : List (Call × Reply) :=
  (play.run calls).1.filter fun entry =>
    entry.1.draws source

/-
  The calls that draw from a source are answered as if they
  were the only ones.  By induction on the calls: those that
  draw are answered alike, the others leave the games in
  agreement.
-/
theorem drawn_eq_run
    {source : Source}
    (hAgree : Game.Agree source left.game right.game)
    (calls : List Call) :
    left.drawn source calls =
      (right.run (calls.filter (Call.draws source))).1 := by
  induction calls generalizing left right with
  | nil => rfl
  | cons call calls ih =>
      unfold drawn at ih
      rw [drawn, run_cons, List.filter_cons]
      by_cases hDraws : call.draws source = true
      · have hSource := Call.draws_iff.mp hDraws
        rcases reply_of_agree hAgree hSource with
          ⟨hReply, hAfter⟩
        rw [if_pos hDraws, ih hAfter,
          List.filter_cons_of_pos hDraws, run_cons, hReply]
      · have hSource : call.source? ≠ some source :=
          fun hSame => hDraws (Call.draws_iff.mpr hSame)
        have hSame := (left.reply_moved call).agree hSource
        rw [if_neg hDraws, ih (hSame.trans hAgree),
          List.filter_cons_of_neg hDraws]

/-
  If the calls that draw from a source begin like those of
  another row, the replies to them do too.
-/
theorem drawn_isPrefix
    {source : Source}
    (hAgree : Game.Agree source left.game right.game)
    {calls others : List Call}
    (hCalls :
      calls.filter (Call.draws source) <+:
        others.filter (Call.draws source)) :
    left.drawn source calls <+:
      right.drawn source others := by
  rcases hCalls with ⟨more, hMore⟩
  rw [drawn_eq_run hAgree, drawn_eq_run (.refl _ _),
    ← hMore, run_append]
  exact List.prefix_append _ _

/- Of two rows of calls one asks for no fewer rules. -/
theorem filter_rules_isPrefix
    {calls others : List Call}
    (hLe :
      calls.countP (Call.draws .rules) ≤
        others.countP (Call.draws .rules)) :
    calls.filter (Call.draws .rules) <+:
      others.filter (Call.draws .rules) := by
  have hRules :
      ∀ calls : List Call,
        calls.filter (Call.draws .rules) =
          List.replicate
            (calls.countP (Call.draws .rules)) .newRule := by
    intro calls
    rw [List.eq_replicate_iff]
    refine ⟨List.countP_eq_length_filter.symm, ?_⟩
    intro call hCall
    exact Call.eq_newRule_of_draws
      (List.mem_filter.mp hCall).2
  refine ⟨.replicate (others.countP (Call.draws .rules) -
    calls.countP (Call.draws .rules)) .newRule, ?_⟩
  rw [hRules, hRules, List.replicate_append_replicate,
    Nat.add_sub_cancel' hLe]

/- An item of a prefix is an item of the whole. -/
private theorem getElem?_of_isPrefix
    {α : Type}
    {first whole : List α}
    {index : Nat}
    {item : α}
    (hPrefix : first <+: whole)
    (hItem : first[index]? = some item) :
    whole[index]? = some item := by
  rcases List.getElem?_eq_some_iff.mp hItem with
    ⟨hIndex, hItem⟩
  rw [← hItem]
  exact List.prefix_iff_getElem?.mp hPrefix index hIndex

/- The new rules of a number are the same in both rows. -/
theorem drawn_rules_unique
    (hAgree : Game.Agree .rules left.game right.game)
    {calls others : List Call}
    {index : Nat}
    {entry other : Call × Reply}
    (hEntry :
      (left.drawn .rules calls)[index]? = some entry)
    (hOther :
      (right.drawn .rules others)[index]? = some other) :
    entry = other := by
  rcases Nat.le_total
      (calls.countP (Call.draws .rules))
      (others.countP (Call.draws .rules)) with hLe | hLe
  · have hPrefix :=
      drawn_isPrefix hAgree (filter_rules_isPrefix hLe)
    have hSame := getElem?_of_isPrefix hPrefix hEntry
    exact Option.some.inj (hSame.symm.trans hOther)
  · have hPrefix :=
      drawn_isPrefix hAgree.symm (filter_rules_isPrefix hLe)
    have hSame := getElem?_of_isPrefix hPrefix hOther
    exact Option.some.inj (hEntry.symm.trans hSame)

end Play

end HiddenRule

------------------------------------------------------------
-- Games Of One Seed
------------------------------------------------------------

namespace HiddenRule

namespace Game

/-
  Two games of one grammar, with the same settings and a
  fixed seed, are asked two rows of calls, on any machine and
  with any order of the kinds.  Both reply to
  every call.  The rules of a number are the same in both,
  whatever else is asked.  If the calls for boards are the
  same in both, so are the replies to them, however many
  rules are asked for in between.  Neither the grammar nor
  the settings ever change.
-/
theorem sources_do_not_interfere
    {grammar : Grammar}
    {settings : Settings}
    {seed left right : UInt64}
    {machine : Machine}
    {order : KindOrder}
    {first second : Game}
    (hSeed : settings.seed = some seed)
    (hFirst :
      start grammar settings left machine order = .ok first)
    (hSecond :
      start grammar settings right machine order =
        .ok second) :
    (∀ calls,
      ((Play.begin first).run calls).1.map Prod.fst =
        calls) ∧
    (∀ (calls others : List Call) (index : Nat)
        (entry other : Call × Reply),
      ((Play.begin first).drawn .rules calls)[index]? =
          some entry →
        ((Play.begin second).drawn .rules others)[index]? =
            some other →
          entry = other) ∧
    (∀ calls others : List Call,
      calls.filter (Call.draws .examples) =
          others.filter (Call.draws .examples) →
        (Play.begin first).drawn .examples calls =
          (Play.begin second).drawn .examples others) ∧
    ∀ calls,
      ((Play.begin first).run calls).2.game.grammar =
          grammar ∧
        ((Play.begin first).run calls).2.game.settings =
          settings := by
  have hSame : first = second := by
    rw [start_eq_of_seed hSeed grammar left right] at hFirst
    exact Except.ok.inj (hFirst.symm.trans hSecond)
  subst hSame
  refine ⟨Play.calls_of_run _, ?_, ?_, ?_⟩
  · intro calls others index entry other hEntry hOther
    exact Play.drawn_rules_unique (.refl _ _) hEntry hOther
  · intro calls others hCalls
    rw [Play.drawn_eq_run (.refl _ _), hCalls,
      ← Play.drawn_eq_run (.refl _ _)]
  · intro calls
    have hAfter := (Play.begin first).run_continues calls
    rcases start_eq_ok_iff.mp hFirst with
      ⟨_, _, sampler, _, hGame⟩
    rw [hAfter.grammar_eq, hAfter.settings_eq, Play.begin,
      hGame]
    exact ⟨rfl, rfl⟩

/-
  Two games of the stock grammar with the seed 9, on a small
  machine.  One is asked for a rule before and after an
  example, the other for an example first and then for a
  rule.
-/
theorem same_first_rule_and_example :
    let settings : Settings := { seed := some 9 }
    let machine : Machine := { memory := 36, depth := 3 }
    let rule : Rule :=
      .existential (.shapeNoun .circle) (.color .red)
    let calls : List Call :=
      [.newRule, .examples rule 1 0, .newRule]
    let others : List Call :=
      [.examples rule 1 0, .evaluate rule .empty, .newRule]
    settings.seed = some 9 ∧
      calls.filter (Call.draws .examples) =
        others.filter (Call.draws .examples) ∧
      ∃ first second entry,
        start .standard settings 1 machine = .ok first ∧
          start .standard settings 2 machine = .ok second ∧
          (Play.begin first).drawn .examples calls =
            (Play.begin second).drawn .examples others ∧
          ((Play.begin first).drawn .rules calls)[0]? =
            some entry ∧
          ((Play.begin second).drawn .rules others)[0]? =
            some entry ∧
          ((Play.begin first).run calls).2.game.grammar =
            .standard := by
  intro settings machine rule calls others
  have hSame :
      calls.filter (Call.draws .examples) =
        others.filter (Call.draws .examples) := by
    decide
  have hSettings : settings.validate = .ok () := rfl
  rcases exists_start hSettings Grammar.validate_standard 1
    machine with ⟨first, hFirst⟩
  rcases exists_start hSettings Grammar.validate_standard 2
    machine with ⟨second, hSecond⟩
  rcases sources_do_not_interfere rfl hFirst hSecond with
    ⟨_, hRules, hExamples, hKept⟩
  have hEntry :
      ∃ entry,
        ((Play.begin first).drawn .rules calls)[0]? =
          some entry :=
    ⟨_, rfl⟩
  have hOther :
      ∃ other,
        ((Play.begin second).drawn .rules others)[0]? =
          some other :=
    ⟨_, rfl⟩
  rcases hEntry with ⟨entry, hEntry⟩
  rcases hOther with ⟨other, hOther⟩
  have hEq := hRules calls others 0 entry other hEntry hOther
  exact ⟨rfl, hSame, first, second, entry, hFirst, hSecond,
    hExamples calls others hSame, hEntry, hEq ▸ hOther,
    (hKept calls).1⟩

end Game

end HiddenRule
