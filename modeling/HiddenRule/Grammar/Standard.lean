import HiddenRule.Grammar.Basic

/-
  This file defines the grammar of the stock game.

  Key definitions include:
    * `Grammar.standard`
-/

namespace HiddenRule

namespace Grammar

------------------------------------------------------------
-- Entries By Kind
------------------------------------------------------------

/- The rules of the stock game. -/
def standardRules : List Entry :=
  [{ constructor := .universal, weight := 10,
     children := [.noun, .predicate] },
   { constructor := .existential, weight := 10,
     children := [.noun, .predicate] },
   { constructor := .negativeUniversal, weight := 10,
     children := [.noun, .predicate] },
   { constructor := .groupRule, weight := 20,
     children := [.group, .groupPredicate] },
   { constructor := .lineRule, weight := 10,
     tags := .ofList [.position], variantCount := 2,
     children := [.noun] }]

/- The nouns of the stock game. -/
def standardNouns : List Entry :=
  [{ constructor := .colorNoun, weight := 20,
     tags := .ofList [.color], variantCount := 3 },
   { constructor := .shapeNoun, weight := 20,
     tags := .ofList [.shape], variantCount := 3 },
   { constructor := .rowNoun, weight := 20,
     tags := .ofList [.position], variantCount := 3 },
   { constructor := .columnNoun, weight := 20,
     tags := .ofList [.position], variantCount := 3 },
   { constructor := .emptyCellNoun, weight := 10,
     tags := .ofList [.color, .shape] }]

/- The predicates of the stock game. -/
def standardPredicates : List Entry :=
  [{ constructor := .colorPredicate, weight := 20,
     tags := .ofList [.color], variantCount := 3 },
   { constructor := .shapePredicate, weight := 20,
     tags := .ofList [.shape], variantCount := 3 },
   { constructor := .rowPredicate, weight := 20,
     tags := .ofList [.position], variantCount := 3 },
   { constructor := .columnPredicate, weight := 20,
     tags := .ofList [.position], variantCount := 3 },
   { constructor := .adjacencyPredicate, weight := 20,
     tags := .ofList [.position], children := [.noun],
     separateTags := true }]

/- The groupings of the stock game. -/
def standardGroups : List Entry :=
  [{ constructor := .colorGroup, weight := 10,
     tags := .ofList [.color] },
   { constructor := .shapeGroup, weight := 10,
     tags := .ofList [.shape] },
   { constructor := .identicalGroup, weight := 10,
     tags := .ofList [.color, .shape] },
   { constructor := .lineGroup, weight := 20,
     tags := .ofList [.position], variantCount := 2 },
   { constructor := .adjacentGroup, weight := 10,
     tags := .ofList [.position] }]

/- The tests of groups of the stock game. -/
def standardGroupPredicates : List Entry :=
  [{ constructor := .colorGroupPredicate, weight := 20,
     tags := .ofList [.color] },
   { constructor := .shapeGroupPredicate, weight := 20,
     tags := .ofList [.shape] },
   { constructor := .colorDistinctGroupPredicate,
     weight := 20, tags := .ofList [.color] },
   { constructor := .shapeDistinctGroupPredicate,
     weight := 20, tags := .ofList [.shape] },
   { constructor := .colorShapeGroupPredicate,
     weight := 20, tags := .ofList [.color, .shape] },
   { constructor := .contiguousGroupPredicate,
     weight := 20, tags := .ofList [.position] }]

------------------------------------------------------------
-- The Stock Grammar
------------------------------------------------------------

/- The grammar of the stock game. -/
def standard : Grammar where
  entries :=
    standardRules ++ standardNouns ++ standardPredicates ++
      standardGroups ++ standardGroupPredicates
  distinct := by decide

/- The stock grammar is valid. -/
theorem validate_standard :
    standard.validate = .ok () := by
  rfl

end Grammar

end HiddenRule
