import HiddenRule.Proofs.Runs
import HiddenRule.Proofs.StockRules
import Mathlib.Data.List.Basic

/-
  This file proves that the wording of a rule determines its
  meaning.

  A sentence can be taken apart again: no word has a blank,
  the words that join the parts of a sentence do not occur
  in a part, and a part is read from its first word on.  The
  one thing that is lost is whether a line of circles was
  meant to be filled with circles, the noun, or with cells
  that are circles; both say the same.

  Main declarations:
    * `Predicate.alike_of_words_eq`
    * `Rule.words_eq_iff`
    * `phrase_injective`
    * `Rule.describe_eq_iff`
-/

------------------------------------------------------------
-- Tests Alike
------------------------------------------------------------

namespace HiddenRule

namespace Predicate

/-
  Tests that are equal up to exchanging the noun of a shape
  with the question for that shape.
-/
inductive ShapesExchanged : Predicate → Predicate → Prop
| same (test : Predicate) : ShapesExchanged test test
| toNoun (s : Shape) :
    ShapesExchanged (.shape s) (.shapeNoun s)
| ofNoun (s : Shape) :
    ShapesExchanged (.shapeNoun s) (.shape s)
| adjacentTo {noun other : Predicate} :
    ShapesExchanged noun other →
      ShapesExchanged (.adjacentTo noun) (.adjacentTo other)

/- The tests that cannot be told apart in a number. -/
def Alike : Number → Predicate → Predicate → Prop
| .singular, left, right => left = right
| .plural, left, right => ShapesExchanged left right

theorem Alike.adjacentTo
    {number : Number}
    {noun other : Predicate}
    (hAlike : Alike number noun other) :
    Alike number (.adjacentTo noun) (.adjacentTo other) := by
  cases number with
  | singular => exact congrArg Predicate.adjacentTo hAlike
  | plural => exact ShapesExchanged.adjacentTo hAlike

/- The tests that do not ask for a neighbor. -/
def plainTests : List Predicate :=
  sortNouns ++ placeNouns ++ Color.all.map .color ++
    Shape.all.map .shape ++ Row.all.map .row ++
    Column.all.map .column

/- Every test is a plain one below so many adjacencies. -/
theorem induction_on_plain
    {motive : Predicate → Prop}
    (plain : ∀ test ∈ plainTests, motive test)
    (adjacentTo :
      ∀ noun, motive noun → motive (.adjacentTo noun))
    (test : Predicate) :
    motive test := by
  induction test with
  | colorNoun c => exact plain _ (by cases c <;> decide)
  | shapeNoun s => exact plain _ (by cases s <;> decide)
  | rowNoun r => exact plain _ (by cases r <;> decide)
  | columnNoun c => exact plain _ (by cases c <;> decide)
  | emptyCellNoun => exact plain _ (by decide)
  | color c => exact plain _ (by cases c <;> decide)
  | shape s => exact plain _ (by cases s <;> decide)
  | row r => exact plain _ (by cases r <;> decide)
  | column c => exact plain _ (by cases c <;> decide)
  | adjacentTo noun ih => exact adjacentTo noun ih

------------------------------------------------------------
-- Words Of Tests
------------------------------------------------------------

/- The words with which an adjacency begins. -/
def nextTo : Number → List String
| .singular => ["next", "to", "a"]
| .plural => ["next", "to"]

theorem words_adjacentTo
    (noun : Predicate)
    (number : Number) :
    (Predicate.adjacentTo noun).words number =
      nextTo number ++ noun.words number := by
  cases number <;> rfl

/- The words that a test is made of. -/
def vocabulary
    (number : Number) : List String :=
  nextTo number ++
    plainTests.flatMap fun test => test.words number

/- A test has no other words. -/
theorem mem_vocabulary
    {test : Predicate}
    {number : Number}
    {word : String}
    (hWord : word ∈ test.words number) :
    word ∈ vocabulary number := by
  induction test using induction_on_plain with
  | plain test hPlain =>
      exact List.mem_append_right _
        (List.mem_flatMap_of_mem hPlain hWord)
  | adjacentTo noun ih =>
      rw [words_adjacentTo, List.mem_append] at hWord
      rcases hWord with hFirst | hNoun
      · exact List.mem_append_left _ hFirst
      · exact ih hNoun

/- The words that join the parts of a sentence. -/
def joints : List String :=
  ["Every", "No", "is", "that", "filled"]

/- No joint is a word of a test. -/
theorem not_mem_words
    {joint : String}
    (hJoint : joint ∈ joints)
    (test : Predicate)
    (number : Number) :
    joint ∉ test.words number := by
  have hAll :
      ∀ joint ∈ joints, joint ∉ vocabulary number := by
    cases number <;> decide +kernel
  intro hWord
  exact hAll joint hJoint (mem_vocabulary hWord)

/- Plain tests of the same words cannot be told apart. -/
private theorem alike_of_plain
    {number : Number}
    {left right : Predicate}
    (hLeft : left ∈ plainTests)
    (hRight : right ∈ plainTests)
    (hWords : left.words number = right.words number) :
    Alike number left right := by
  cases number with
  | singular =>
      have hAll :
          ∀ left ∈ plainTests, ∀ right ∈ plainTests,
            left.words .singular = right.words .singular →
              left = right := by
        decide +kernel
      exact hAll left hLeft right hRight hWords
  | plural =>
      have hAll :
          ∀ left ∈ plainTests, ∀ right ∈ plainTests,
            left.words .plural = right.words .plural →
              left = right ∨
                ∃ s ∈ Shape.all,
                  (left = .shape s ∧ right = .shapeNoun s) ∨
                  (left = .shapeNoun s ∧
                    right = .shape s) := by
        decide +kernel
      rcases hAll left hLeft right hRight hWords with
        hSame | ⟨s, _, ⟨hShape, hNoun⟩ | ⟨hNoun, hShape⟩⟩
      · rw [hSame]
        exact .same right
      · rw [hShape, hNoun]
        exact .toNoun s
      · rw [hShape, hNoun]
        exact .ofNoun s

/- No plain test begins like an adjacency. -/
private theorem words_ne_adjacentTo
    {number : Number}
    {test : Predicate}
    (hPlain : test ∈ plainTests)
    (noun : Predicate) :
    test.words number ≠
      (Predicate.adjacentTo noun).words number := by
  have hAll :
      ∀ test ∈ plainTests,
        (test.words number).head? ≠ some "next" := by
    cases number <;> decide +kernel
  intro hWords
  apply hAll test hPlain
  rw [hWords]
  cases number <;> rfl

/- Tests of the same words cannot be told apart. -/
theorem alike_of_words_eq
    {number : Number}
    {left right : Predicate}
    (hWords : left.words number = right.words number) :
    Alike number left right := by
  -- An adjacency is told by its first word; below it both
  -- tests go on with the same words.
  induction left using induction_on_plain
    generalizing right with
  | plain left hLeft =>
      cases right using induction_on_plain with
      | plain right hRight =>
          exact alike_of_plain hLeft hRight hWords
      | adjacentTo other =>
          exact absurd hWords
            (words_ne_adjacentTo hLeft other)
  | adjacentTo noun ih =>
      cases right using induction_on_plain with
      | plain right hRight =>
          exact absurd hWords.symm
            (words_ne_adjacentTo hRight noun)
      | adjacentTo other =>
          rw [words_adjacentTo, words_adjacentTo,
            List.append_cancel_left_eq] at hWords
          exact (ih hWords).adjacentTo

/- In the plural a shape and its noun have the same words. -/
theorem ShapesExchanged.words_eq
    {left right : Predicate}
    (hExchanged : ShapesExchanged left right) :
    left.words .plural = right.words .plural := by
  induction hExchanged with
  | same test => rfl
  | toNoun s => rfl
  | ofNoun s => rfl
  | adjacentTo _ ih =>
      rw [words_adjacentTo, words_adjacentTo, ih]

/- In the plural a shape and its noun mean the same. -/
theorem ShapesExchanged.holdsAt_eq
    {left right : Predicate}
    (hExchanged : ShapesExchanged left right)
    (board : Board)
    (cell : Cell) :
    left.holdsAt board cell = right.holdsAt board cell := by
  induction hExchanged generalizing cell with
  | same test => rfl
  | toNoun s => simp only [holdsAt]
  | ofNoun s => simp only [holdsAt]
  | adjacentTo _ ih =>
      rw [holdsAt, holdsAt, funext ih]

end Predicate

end HiddenRule

------------------------------------------------------------
-- Words Of Rules
------------------------------------------------------------

namespace HiddenRule

theorem Group.mem_all
    (group : Group) :
    group ∈ Group.all := by
  cases group with
  | line axis => cases axis <;> decide
  | _ => decide

theorem GroupPredicate.mem_all
    (test : GroupPredicate) :
    test ∈ GroupPredicate.all := by
  cases test <;> decide

namespace Rule

/-
  Rules that are equal up to exchanging shapes with their
  nouns in what a line is filled with.
-/
inductive Reworded : Rule → Rule → Prop
| same (rule : Rule) : Reworded rule rule
| line (axis : Axis) {noun other : Predicate} :
    Predicate.ShapesExchanged noun other →
      Reworded (.line axis noun) (.line axis other)

/- The constructor of a rule, read off its joints. -/
def constructorOf
    (words : List String) : Constructor :=
  if "Every" ∈ words then
    .universal
  else if "No" ∈ words then
    .negativeUniversal
  else if "that" ∈ words then
    .existential
  else if "filled" ∈ words then
    .lineRule
  else
    .groupRule

/- No joint is a word of a grouping or of its test. -/
private theorem not_mem_grouped
    {joint : String}
    (hJoint : joint ∈ Predicate.joints)
    (group : Group)
    (test : GroupPredicate) :
    joint ∉ (Rule.grouped group test).words := by
  have hAll :
      ∀ group ∈ Group.all, ∀ test ∈ GroupPredicate.all,
        ∀ joint ∈ Predicate.joints,
          joint ∉ (Rule.grouped group test).words := by
    decide +kernel
  exact hAll group group.mem_all test test.mem_all joint
    hJoint

/- The words of a rule tell its constructor. -/
theorem constructorOf_words
    (rule : Rule) :
    constructorOf rule.words = rule.constructor := by
  have hEvery : "Every" ∈ Predicate.joints := by decide
  have hNo : "No" ∈ Predicate.joints := by decide
  have hThat : "that" ∈ Predicate.joints := by decide
  have hFilled : "filled" ∈ Predicate.joints := by decide
  cases rule with
  | universal noun question =>
      simp [constructorOf, words, constructor]
  | existential noun question =>
      simp [constructorOf, words, constructor,
        Predicate.not_mem_words hEvery,
        Predicate.not_mem_words hNo]
  | negativeUniversal noun question =>
      simp [constructorOf, words, constructor,
        Predicate.not_mem_words hEvery]
  | grouped group test =>
      rw [constructorOf, if_neg (not_mem_grouped hEvery _ _),
        if_neg (not_mem_grouped hNo _ _),
        if_neg (not_mem_grouped hThat _ _),
        if_neg (not_mem_grouped hFilled _ _)]
      rfl
  | line axis noun =>
      cases axis <;>
        simp [constructorOf, words, constructor, Axis.name,
          Predicate.not_mem_words hEvery,
          Predicate.not_mem_words hNo,
          Predicate.not_mem_words hThat]

/- The parts on both sides of a joint can be told. -/
private theorem eq_of_joined
    {joint : String}
    (hJoint : joint ∈ Predicate.joints)
    (link : List String)
    (hLink : joint ∉ link)
    {noun noun' question question' : Predicate}
    (hWords :
      noun.words .singular ++
          joint :: (link ++ question.words .singular) =
        noun'.words .singular ++
          joint :: (link ++ question'.words .singular)) :
    noun = noun' ∧ question = question' := by
  have hApart (test : Predicate) :
      joint ∉ test.words .singular :=
    Predicate.not_mem_words hJoint test .singular
  have hAfter :
      joint ∉ link ++ question.words .singular := by
    rw [List.mem_append]
    exact not_or.mpr ⟨hLink, hApart question⟩
  rcases (List.append_cons_inj_of_notMem (hApart noun)
      hAfter).mp hWords with
    ⟨hNoun, _, hQuestion⟩
  exact ⟨Predicate.alike_of_words_eq hNoun,
    Predicate.alike_of_words_eq
      (List.append_cancel_left hQuestion)⟩

/- The words of a grouped rule tell both of its parts. -/
private theorem eq_of_grouped
    {group group' : Group}
    {test test' : GroupPredicate}
    (hWords :
      group.words ++ test.words =
        group'.words ++ test'.words) :
    group = group' ∧ test = test' := by
  have hAll :
      ∀ group ∈ Group.all, ∀ group' ∈ Group.all,
        ∀ test ∈ GroupPredicate.all,
          ∀ test' ∈ GroupPredicate.all,
            group.words ++ test.words =
                group'.words ++ test'.words →
              group = group' ∧ test = test' := by
    decide +kernel
  exact hAll group group.mem_all group' group'.mem_all test
    test.mem_all test' test'.mem_all hWords

/- Rules of the same words are alike. -/
theorem reworded_of_words_eq
    {left right : Rule}
    (hWords : left.words = right.words) :
    left.Reworded right := by
  have hConstructor : left.constructor = right.constructor := by
    rw [← constructorOf_words, hWords, constructorOf_words]
  cases left with
  | universal noun question =>
      cases right with
      | universal noun' question' =>
          simp only [words, List.append_assoc,
            List.append_cancel_left_eq] at hWords
          rcases eq_of_joined (by decide) []
              List.not_mem_nil hWords with
            ⟨hNoun, hQuestion⟩
          rw [hNoun, hQuestion]
          exact .same _
      | _ => exact nomatch hConstructor
  | existential noun question =>
      cases right with
      | existential noun' question' =>
          simp only [words, List.append_assoc,
            List.append_cancel_left_eq] at hWords
          rcases eq_of_joined (by decide) ["is"]
              (by decide) hWords with
            ⟨hNoun, hQuestion⟩
          rw [hNoun, hQuestion]
          exact .same _
      | _ => exact nomatch hConstructor
  | negativeUniversal noun question =>
      cases right with
      | negativeUniversal noun' question' =>
          simp only [words, List.append_assoc,
            List.append_cancel_left_eq] at hWords
          rcases eq_of_joined (by decide) []
              List.not_mem_nil hWords with
            ⟨hNoun, hQuestion⟩
          rw [hNoun, hQuestion]
          exact .same _
      | _ => exact nomatch hConstructor
  | grouped group test =>
      cases right with
      | grouped group' test' =>
          rcases eq_of_grouped hWords with ⟨hGroup, hTest⟩
          rw [hGroup, hTest]
          exact .same _
      | _ => exact nomatch hConstructor
  | line axis noun =>
      cases right with
      | line axis' noun' =>
          simp only [words, List.cons_append,
            List.nil_append, List.cons.injEq, true_and]
            at hWords
          rcases hWords with ⟨hAxis, hNoun⟩
          have hSame : axis = axis' := by
            revert hAxis
            cases axis <;> cases axis' <;> decide
          rw [hSame]
          exact .line axis'
            (Predicate.alike_of_words_eq hNoun)
      | _ => exact nomatch hConstructor

/- Just the rules that are alike have the same words. -/
theorem words_eq_iff
    (left right : Rule) :
    left.words = right.words ↔ left.Reworded right := by
  constructor
  · exact reworded_of_words_eq
  · intro hReworded
    cases hReworded with
    | same => rfl
    | line axis hExchanged =>
        rw [words, words, hExchanged.words_eq]

/- Rules that are alike mean the same on every board. -/
theorem Reworded.evaluate_eq
    {left right : Rule}
    (hReworded : left.Reworded right)
    (board : Board) :
    left.evaluate board = right.evaluate board := by
  cases hReworded with
  | same => rfl
  | line axis hExchanged =>
      rw [evaluate, evaluate,
        funext (hExchanged.holdsAt_eq board)]

end Rule

end HiddenRule

------------------------------------------------------------
-- Sentences
------------------------------------------------------------

namespace HiddenRule

/- Whether a word has no blank in it. -/
def Unbroken
    (word : String) : Prop :=
  ' ' ∉ word.toList

instance
    (word : String) :
    Decidable (Unbroken word) :=
  inferInstanceAs (Decidable (¬ _))

/- A phrase can be taken apart into its words. -/
theorem phrase_injective
    {left right : List String}
    (hLeft : ∀ word ∈ left, Unbroken word)
    (hRight : ∀ word ∈ right, Unbroken word)
    (hLeftWords : left ≠ [])
    (hRightWords : right ≠ [])
    (hPhrase : phrase left = phrase right) :
    left = right :=
  Text.intercalate_injective rfl hLeft hRight hLeftWords
    hRightWords hPhrase

/- The words of a test are unbroken. -/
theorem Predicate.unbroken_words
    (test : Predicate)
    (number : Number) :
    ∀ word ∈ test.words number, Unbroken word := by
  have hAll : ∀ word ∈ vocabulary number, Unbroken word := by
    cases number <;> decide +kernel
  intro word hWord
  exact hAll word (mem_vocabulary hWord)

namespace Rule

theorem words_ne_nil
    (rule : Rule) :
    rule.words ≠ [] := by
  cases rule with
  | grouped group _ => cases group <;> exact nofun
  | _ => exact nofun

/- The words of a rule are unbroken. -/
theorem unbroken_words
    (rule : Rule) :
    ∀ word ∈ rule.words, Unbroken word := by
  cases rule with
  | universal noun question
  | existential noun question
  | negativeUniversal noun question =>
      simp only [words, List.forall_mem_append]
      have hNoun := noun.unbroken_words .singular
      have hQuestion := question.unbroken_words .singular
      exact ⟨⟨⟨by decide, hNoun⟩, by decide⟩, hQuestion⟩
  | grouped group test =>
      have hAll :
          ∀ group ∈ Group.all, ∀ test ∈ GroupPredicate.all,
            ∀ word ∈ (Rule.grouped group test).words,
              Unbroken word := by
        decide +kernel
      exact hAll group group.mem_all test test.mem_all
  | line axis noun =>
      rw [words, List.forall_mem_append]
      have hNoun := noun.unbroken_words .plural
      exact ⟨by cases axis <;> decide, hNoun⟩

/-
  Two rules have the same wording exactly if they are equal
  up to exchanging shapes with their nouns in what a line is
  filled with; and then they mean the same on every board.
-/
theorem describe_eq_iff
    (left right : Rule) :
    (left.describe = right.describe ↔
      left.Reworded right) ∧
    (left.describe = right.describe →
      ∀ board,
        left.evaluate board = right.evaluate board) := by
  have hIff :
      left.describe = right.describe ↔
        left.Reworded right := by
    rw [← words_eq_iff]
    constructor
    · exact phrase_injective left.unbroken_words
        right.unbroken_words left.words_ne_nil
        right.words_ne_nil
    · exact congrArg phrase
  refine ⟨hIff, ?_⟩
  intro hDescribe
  exact (hIff.mp hDescribe).evaluate_eq

/-
  "There is a row filled with next to circles": two rules
  have this wording.
-/
theorem describe_line_next_to_circles :
    let left : Rule :=
      .line .row (.adjacentTo (.shape .circle))
    let right : Rule :=
      .line .row (.adjacentTo (.shapeNoun .circle))
    left ≠ right ∧
      left.describe = right.describe ∧
      left.Reworded right ∧
      ∀ board,
        left.evaluate board = right.evaluate board := by
  have hDescribe :
      describe (.line .row (.adjacentTo (.shape .circle))) =
        describe
          (.line .row (.adjacentTo (.shapeNoun .circle))) :=
    rfl
  rcases describe_eq_iff
      (.line .row (.adjacentTo (.shape .circle)))
      (.line .row (.adjacentTo (.shapeNoun .circle))) with
    ⟨hIff, hSame⟩
  exact ⟨by decide, hDescribe, hIff.mp hDescribe,
    hSame hDescribe⟩

end Rule

end HiddenRule
