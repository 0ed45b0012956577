import HiddenRule.Grammar.BuildError
import HiddenRule.Grammar.Entry

/-
  This file defines grammars: the entries that may expand
  each kind, with one entry at most for each constructor.

  The entries of a kind are looked up in a table, and the
  table has its own order of the kinds.  A grammar is valid
  or not in every order, but which entry is named as the
  culprit depends on it, so the order is left open.

  Key definitions include:
    * `Grammar`
    * `Grammar.register`
    * `Grammar.entriesFor` and `Grammar.entryFor?`
    * `KindOrder`
    * `Grammar.validate`
-/

namespace HiddenRule

------------------------------------------------------------
-- Grammars
------------------------------------------------------------

/- Entries in the order in which they were accepted. -/
structure Grammar where
  entries : List Entry
  distinct : (entries.map Entry.constructor).Nodup

namespace Grammar

/- The grammar without entries. -/
def empty : Grammar where
  entries := []
  distinct := by simp

/- Accept an entry for a new constructor. -/
def register
    (grammar : Grammar)
    (entry : Entry) : Except EntryError Grammar :=
  if hOld :
      entry.constructor ∈
        grammar.entries.map Entry.constructor then
    .error (.alreadyRegistered entry.constructor)
  else
    .ok {
      entries := grammar.entries ++ [entry]
      distinct := by
        have hNew :
            ∀ old ∈ grammar.entries,
              ¬ old.constructor = entry.constructor :=
          fun old hMem hEq =>
            hOld (List.mem_map.mpr ⟨old, hMem, hEq⟩)
        simpa [List.nodup_append, grammar.distinct]
          using hNew }

/- The entries of a kind, in order. -/
def entriesFor
    (grammar : Grammar)
    (kind : Kind) : List Entry :=
  grammar.entries.filter fun entry => entry.kind == kind

/- The entry of a constructor. -/
def entryFor?
    (grammar : Grammar)
    (constructor : Constructor) : Option Entry :=
  grammar.entries.find? fun entry =>
    entry.constructor == constructor

/- The number of entries. -/
def size
    (grammar : Grammar) : Nat :=
  grammar.entries.length

/- Whether there are no entries. -/
def isEmpty
    (grammar : Grammar) : Bool :=
  grammar.size == 0

/- Whether an entry of a kind can be taken. -/
def offers
    (grammar : Grammar)
    (kind : Kind) : Bool :=
  (grammar.entriesFor kind).any Entry.available

end Grammar

------------------------------------------------------------
-- Orders Of Kinds
------------------------------------------------------------

/- An order in which each kind comes once. -/
structure KindOrder where
  kinds : List Kind
  perm : kinds.Perm Kind.all

/- The order of the kinds if none is named. -/
def KindOrder.usual : KindOrder where
  kinds := Kind.all
  perm := .refl _

------------------------------------------------------------
-- Validation
------------------------------------------------------------

namespace Grammar

/-
  Compare the kinds that fill the slots of a node with the
  roles the slots ask for, from a slot onwards.
-/
def checkSlots
    (constructor : Constructor) :
    Nat → List Kind → List Role → Except BuildError Unit
| slot, kind :: kinds, expected :: roles =>
    if kind.role = expected then
      checkSlots constructor (slot + 1) kinds roles
    else
      .error (.childMismatch constructor slot expected
        (some kind.role))
| _, _, _ => .ok ()

/- Every kind that fills a slot must be on offer. -/
def checkOffers
    (grammar : Grammar)
    (constructor : Constructor) :
    List Kind → Except BuildError Unit
| [] => .ok ()
| kind :: kinds =>
    if grammar.offers kind then
      checkOffers grammar constructor kinds
    else
      .error (.unreachableKind constructor kind)

/-
  Check one entry: it has a flavor, its children fit the
  slots of its constructor, and they are on offer.
-/
def checkEntry
    (grammar : Grammar)
    (entry : Entry) : Except BuildError Unit :=
  let constructor := entry.constructor
  let roles := constructor.childRoles
  if entry.variantCount = 0 then
    .error (.noVariants constructor)
  else if entry.children.length ≠ roles.length then
    .error (.childCount constructor roles.length
      entry.children.length)
  else do
    checkSlots constructor 0 entry.children roles
    checkOffers grammar constructor entry.children

/- Check entries up to the first that fails. -/
def checkEntries
    (grammar : Grammar) :
    List Entry → Except BuildError Unit
| [] => .ok ()
| entry :: rest => do
    checkEntry grammar entry
    checkEntries grammar rest

/- Whether a rule can always be begun. -/
def hasFreeRoot
    (grammar : Grammar) : Bool :=
  (grammar.entriesFor .rule).any fun entry =>
    entry.available && entry.tags.isEmpty

/-
  A grammar is valid if each entry passes and some rule
  claims no tags and can be taken.  The kinds are gone
  through in an order, and the entries of a kind in theirs.
-/
def validate
    (grammar : Grammar)
    (order : KindOrder := .usual) :
    Except BuildError Unit := do
  checkEntries grammar
    (order.kinds.flatMap grammar.entriesFor)
  if grammar.hasFreeRoot then
    return ()
  else
    throw .noTagFreeRoot

end Grammar

end HiddenRule
