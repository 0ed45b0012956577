import HiddenRule.Proofs.Derivation
import Mathlib.Data.List.Nodup

/-
  This file proves what a grammar holds after any row of
  calls to register entries.

  A refused call leaves the grammar as it was, and the calls
  go on.  An entry need only be compared with those of its
  own kind: since a constructor has one kind, entries that
  are kept on one shelf for each kind are answered for and
  found as those of the whole grammar.

  Main declarations:
    * `Grammar.register_eq_ok_iff` and
      `Grammar.register_eq_error_iff`
    * `Registration` and `Grammar.registerAll`
    * `Registration.accepted`
    * `Grammar.entries_registerAll`
    * `Grammar.Holds`
    * `Shelves` and `Shelves.registerAll_entriesFor`
    * `Registration.Judges`
    * `Registration.KeepsAccepted`
    * `Grammar.registerAll_keeps_accepted`
-/

------------------------------------------------------------
-- One Entry
------------------------------------------------------------

namespace HiddenRule

namespace Grammar

variable {grammar next : Grammar}
variable {entry : Entry}
variable {error : EntryError}

/- A grammar is known by its entries. -/
theorem eq_of_entries
    {left right : Grammar}
    (hEntries : left.entries = right.entries) :
    left = right := by
  cases left
  cases right
  congr

/- An entry is found among those of its kind. -/
theorem mem_entriesFor_iff
    {kind : Kind} :
    entry ∈ grammar.entriesFor kind ↔
      entry ∈ grammar.entries ∧ entry.kind = kind := by
  rw [entriesFor, List.mem_filter, beq_iff_eq]

/-
  A constructor is taken if an entry of its own kind has it;
  no other kind needs to be looked at.
-/
theorem constructor_taken_iff
    {constructor : Constructor} :
    constructor ∈ grammar.entries.map Entry.constructor ↔
      ∃ old ∈ grammar.entriesFor constructor.kind,
        old.constructor = constructor := by
  simp only [List.mem_map, mem_entriesFor_iff]
  constructor
  · rintro ⟨old, hMem, rfl⟩
    exact ⟨old, ⟨hMem, rfl⟩, rfl⟩
  · rintro ⟨old, ⟨hMem, _⟩, hConstructor⟩
    exact ⟨old, hMem, hConstructor⟩

/- An entry of a constructor is found if it is taken. -/
theorem isSome_entryFor?_iff
    {constructor : Constructor} :
    (grammar.entryFor? constructor).isSome = true ↔
      constructor ∈ grammar.entries.map Entry.constructor := by
  rw [entryFor?, List.find?_isSome, List.mem_map]
  simp only [beq_iff_eq]

/- An entry is refused if its constructor is taken. -/
theorem register_eq_error_iff :
    grammar.register entry = .error error ↔
      error = .alreadyRegistered entry.constructor ∧
        ∃ old ∈ grammar.entriesFor entry.kind,
          old.constructor = entry.constructor := by
  rw [Entry.kind, ← constructor_taken_iff, register]
  split
  · rename_i hOld
    simp [hOld, eq_comm]
  · rename_i hNew
    simp [hNew]

/- An entry is accepted behind the others if it is not. -/
theorem register_eq_ok_iff :
    grammar.register entry = .ok next ↔
      entry.constructor ∉
          grammar.entries.map Entry.constructor ∧
        next.entries = grammar.entries ++ [entry] := by
  rw [register]
  split
  · rename_i hOld
    simp [hOld]
  · rename_i hNew
    constructor
    · intro hNext
      rw [← Except.ok.inj hNext]
      exact ⟨hNew, rfl⟩
    · intro ⟨_, hEntries⟩
      exact congrArg Except.ok (eq_of_entries hEntries.symm)

end Grammar

end HiddenRule

------------------------------------------------------------
-- Rows Of Calls
------------------------------------------------------------

namespace HiddenRule

/-
  What comes of a row of calls to register an entry: why
  each of them was refused, if it was, and the grammar that
  is left.
-/
structure Registration where
  refusals : List (Option EntryError)
  grammar : Grammar

namespace Registration

/- The entries of the calls that were not refused. -/
def accepted
    (registration : Registration)
    (calls : List Entry) : List Entry :=
  ((calls.zip registration.refusals).filter
    fun call => call.2.isNone).map Prod.fst

end Registration

namespace Grammar

/- Why an entry is refused, if it is. -/
def refusal?
    (grammar : Grammar)
    (entry : Entry) : Option EntryError :=
  match grammar.register entry with
  | .ok _ => none
  | .error error => some error

/-
  Register entries one after the other.  After a refusal the
  calls go on with the grammar as it was.
-/
def registerAll :
    Grammar → (calls : List Entry) → Registration
| grammar, [] => { refusals := [], grammar }
| grammar, entry :: rest =>
    match grammar.register entry with
    | .ok next =>
        let later := registerAll next rest
        { later with refusals := none :: later.refusals }
    | .error error =>
        let later := registerAll grammar rest
        { later with
          refusals := some error :: later.refusals }

variable {grammar next : Grammar}
variable {entry : Entry}
variable {error : EntryError}
variable {rest calls : List Entry}

/- After an accepted call the next grammar is used. -/
theorem registerAll_of_ok
    (hNext : grammar.register entry = .ok next) :
    grammar.registerAll (entry :: rest) =
      { next.registerAll rest with
        refusals :=
          none :: (next.registerAll rest).refusals } := by
  rw [registerAll, hNext]

/- After a refused call the grammar is used again. -/
theorem registerAll_of_error
    (hError : grammar.register entry = .error error) :
    grammar.registerAll (entry :: rest) =
      { grammar.registerAll rest with
        refusals :=
          some error ::
            (grammar.registerAll rest).refusals } := by
  rw [registerAll, hError]

/- Calls in two rows are made one row after the other. -/
theorem registerAll_append
    (grammar : Grammar)
    (calls more : List Entry) :
    let first := grammar.registerAll calls
    let later := first.grammar.registerAll more
    grammar.registerAll (calls ++ more) =
      { refusals := first.refusals ++ later.refusals
        grammar := later.grammar } := by
  induction calls generalizing grammar with
  | nil => rfl
  | cons entry rest ih =>
      rw [List.cons_append]
      cases hRegister : grammar.register entry with
      | ok next =>
          simp only [registerAll_of_ok hRegister, ih,
            List.cons_append]
      | error error =>
          simp only [registerAll_of_error hRegister, ih,
            List.cons_append]

/- Every call is answered. -/
theorem length_refusals
    (grammar : Grammar)
    (calls : List Entry) :
    (grammar.registerAll calls).refusals.length =
      calls.length := by
  induction calls generalizing grammar with
  | nil => rfl
  | cons entry rest ih =>
      cases hRegister : grammar.register entry with
      | ok next =>
          rw [registerAll_of_ok hRegister]
          simp only [List.length_cons, ih]
      | error error =>
          rw [registerAll_of_error hRegister]
          simp only [List.length_cons, ih]

/-
  The entries that were accepted stand behind those that
  were there, in the order of the calls.
-/
theorem entries_registerAll
    (grammar : Grammar)
    (calls : List Entry) :
    let registration := grammar.registerAll calls
    registration.grammar.entries =
      grammar.entries ++ registration.accepted calls := by
  induction calls generalizing grammar with
  | nil => simp [registerAll, Registration.accepted]
  | cons entry rest ih =>
      cases hRegister : grammar.register entry with
      | ok next =>
          rcases register_eq_ok_iff.mp hRegister with
            ⟨_, hNext⟩
          simp only [registerAll_of_ok hRegister, ih, hNext]
          simp [Registration.accepted]
      | error error =>
          simp only [registerAll_of_error hRegister, ih]
          simp [Registration.accepted]

/- Beginning without entries, they are those accepted. -/
theorem entries_eq_accepted
    (calls : List Entry) :
    (empty.registerAll calls).grammar.entries =
      (empty.registerAll calls).accepted calls := by
  rw [entries_registerAll]
  rfl

/- The accepted calls are in the order of all of them. -/
theorem accepted_sublist
    (grammar : Grammar)
    (calls : List Entry) :
    ((grammar.registerAll calls).accepted calls).Sublist
      calls := by
  have hLength := length_refusals grammar calls
  have hCalls :
      (calls.zip (grammar.registerAll calls).refusals).map
        Prod.fst = calls :=
    List.map_fst_zip (Nat.le_of_eq hLength.symm)
  conv =>
    rhs
    rw [← hCalls]
  exact List.filter_sublist.map Prod.fst

/- A call is judged by the grammar that it finds. -/
theorem refusals_split
    (grammar : Grammar)
    (before : List Entry)
    (entry : Entry)
    (later : List Entry) :
    let found := (grammar.registerAll before).grammar
    (grammar.registerAll
        (before ++ entry :: later)).refusals[
          before.length]? =
      some (found.refusal? entry) := by
  have hLength := length_refusals grammar before
  rw [registerAll_append]
  simp only [List.getElem?_append_right
    (Nat.le_of_eq hLength), hLength, Nat.sub_self]
  rw [refusal?]
  split
  · rename_i next hRegister
    rw [registerAll_of_ok hRegister]
    rfl
  · rename_i error hRegister
    rw [registerAll_of_error hRegister]
    rfl

/- A refused call leaves the grammar that it finds. -/
theorem grammar_of_refused
    (grammar : Grammar)
    (before : List Entry)
    {entry : Entry}
    (hRefused :
      (grammar.registerAll before).grammar.refusal? entry ≠
        none) :
    (grammar.registerAll (before ++ [entry])).grammar =
      (grammar.registerAll before).grammar := by
  rw [registerAll_append]
  rw [refusal?] at hRefused
  split at hRefused
  · exact absurd rfl hRefused
  · rename_i error hRegister
    simp only [registerAll_of_error hRegister]
    rfl

end Grammar

end HiddenRule

------------------------------------------------------------
-- What Is Held
------------------------------------------------------------

namespace HiddenRule

/-
  A grammar holds the listed entries and no others: by kind
  in the order of the list, by constructor one at most, and
  all of them kind by kind, whichever kind comes first.
-/
structure Grammar.Holds
    (grammar : Grammar)
    (listed : List Entry) : Prop where
  by_kind :
    ∀ kind,
      grammar.entriesFor kind =
        listed.filter fun entry =>
          entry.constructor.kind == kind
  unique : (listed.map Entry.constructor).Nodup
  found_iff :
    ∀ constructor entry,
      grammar.entryFor? constructor = some entry ↔
        entry ∈ listed ∧ entry.constructor = constructor
  missing_iff :
    ∀ constructor,
      grammar.entryFor? constructor = none ↔
        ∀ entry ∈ listed, entry.constructor ≠ constructor
  size_eq : grammar.size = listed.length
  kind_by_kind :
    ∀ kinds : List Kind,
      kinds.Nodup →
        (∀ entry ∈ listed, entry.kind ∈ kinds) →
          (kinds.flatMap grammar.entriesFor).Perm listed
  isEmpty_iff : grammar.isEmpty = true ↔ listed = []

namespace Grammar

/- Entries of distinct kinds come together in any order. -/
theorem flatMap_entriesFor_perm
    (grammar : Grammar)
    {kinds : List Kind}
    (hDistinct : kinds.Nodup)
    (hCovers : ∀ entry ∈ grammar.entries, entry.kind ∈ kinds) :
    (kinds.flatMap grammar.entriesFor).Perm
      grammar.entries := by
  have hEntries := List.Nodup.of_map _ grammar.distinct
  rw [List.perm_ext_iff_of_nodup _ hEntries]
  · intro entry
    simp only [List.mem_flatMap, mem_entriesFor_iff]
    constructor
    · rintro ⟨_, _, hMem, _⟩
      exact hMem
    · intro hMem
      exact ⟨entry.kind, hCovers entry hMem, hMem, rfl⟩
  · rw [List.nodup_flatMap]
    constructor
    · intro kind _
      exact hEntries.filter _
    · apply hDistinct.imp
      intro left right hNe entry hLeft hRight
      rw [mem_entriesFor_iff] at hLeft hRight
      exact hNe (hLeft.2.symm.trans hRight.2)

/- A grammar holds its own entries. -/
theorem holds_entries
    (grammar : Grammar) :
    grammar.Holds grammar.entries where
  by_kind := fun _ => rfl
  unique := grammar.distinct
  found_iff := by
    intro constructor entry
    constructor
    · intro hFound
      rw [entryFor?] at hFound
      have hSame := List.find?_some hFound
      exact ⟨List.mem_of_find?_eq_some hFound,
        beq_iff_eq.mp hSame⟩
    · rintro ⟨hMem, rfl⟩
      exact entryFor?_of_mem hMem
  missing_iff := by
    intro constructor
    rw [entryFor?, List.find?_eq_none]
    simp
  size_eq := rfl
  kind_by_kind := fun _ hDistinct hCovers =>
    grammar.flatMap_entriesFor_perm hDistinct hCovers
  isEmpty_iff := by
    rw [isEmpty, size, beq_iff_eq, List.length_eq_zero_iff]

end Grammar

end HiddenRule

------------------------------------------------------------
-- Shelves
------------------------------------------------------------

namespace HiddenRule

/-
  Entries that are kept apart by their kinds; nothing is on
  the shelf of a kind without entries.
-/
abbrev Shelves : Type :=
  Kind → List Entry

namespace Shelves

/- Shelves without entries. -/
def empty : Shelves :=
  fun _ => []

/- The entry of a constructor, on the shelf of its kind. -/
def entryFor?
    (shelves : Shelves)
    (constructor : Constructor) : Option Entry :=
  (shelves constructor.kind).find? fun entry =>
    entry.constructor == constructor

/- The number of entries on the shelves of some kinds. -/
def size
    (shelves : Shelves) : (kinds : List Kind) → Nat
| [] => 0
| kind :: rest => (shelves kind).length + size shelves rest

/- Accept an entry onto the shelf of its kind. -/
def register
    (shelves : Shelves)
    (entry : Entry) : Except EntryError Shelves :=
  if (shelves.entryFor? entry.constructor).isSome then
    .error (.alreadyRegistered entry.constructor)
  else
    .ok fun kind =>
      if kind = entry.kind then
        shelves kind ++ [entry]
      else
        shelves kind

/-
  Register entries one after the other: why each of them was
  refused, if it was, and the shelves that are left.
-/
def registerAll :
    Shelves → (calls : List Entry) →
      List (Option EntryError) × Shelves
| shelves, [] => ([], shelves)
| shelves, entry :: rest =>
    match shelves.register entry with
    | .ok next =>
        let (refusals, left) := registerAll next rest
        (none :: refusals, left)
    | .error error =>
        let (refusals, left) := registerAll shelves rest
        (some error :: refusals, left)

/- The shelf of its kind shows the entry of a constructor. -/
theorem entryFor?_entriesFor
    (grammar : Grammar)
    (constructor : Constructor) :
    entryFor? grammar.entriesFor constructor =
      grammar.entryFor? constructor := by
  rw [entryFor?, Grammar.entriesFor, List.find?_filter,
    Grammar.entryFor?]
  congr
  funext entry
  by_cases hSame : entry.constructor = constructor
  · simp [Entry.kind, hSame]
  · simp [hSame]

/- The entries are counted shelf by shelf. -/
theorem size_eq_length
    (shelves : Shelves)
    (kinds : List Kind) :
    shelves.size kinds = (kinds.flatMap shelves).length := by
  induction kinds with
  | nil => rfl
  | cons kind rest ih =>
      rw [size, ih, List.flatMap_cons, List.length_append]

/- All entries are counted, whichever kind comes first. -/
theorem size_entriesFor
    (grammar : Grammar)
    {kinds : List Kind}
    (hDistinct : kinds.Nodup)
    (hCovers : ∀ entry ∈ grammar.entries, entry.kind ∈ kinds) :
    size grammar.entriesFor kinds = grammar.size := by
  rw [size_eq_length]
  exact (grammar.flatMap_entriesFor_perm hDistinct
    hCovers).length_eq

/- An entry is put onto one shelf, behind the others. -/
theorem entriesFor_of_register
    {grammar next : Grammar}
    {entry : Entry}
    (hNext : grammar.register entry = .ok next)
    (kind : Kind) :
    next.entriesFor kind =
      if kind = entry.kind then
        grammar.entriesFor kind ++ [entry]
      else
        grammar.entriesFor kind := by
  rw [Grammar.entriesFor,
    (Grammar.register_eq_ok_iff.mp hNext).2,
    List.filter_append]
  by_cases hKind : kind = entry.kind
  · simp [Grammar.entriesFor, hKind]
  · simp [Grammar.entriesFor, hKind, Ne.symm hKind]

/- The shelves of a grammar take in what it accepts. -/
theorem register_entriesFor
    (grammar : Grammar)
    (entry : Entry) :
    register grammar.entriesFor entry =
      (grammar.register entry).map Grammar.entriesFor := by
  rw [register, entryFor?_entriesFor]
  cases hRegister : grammar.register entry with
  | ok next =>
      have hNew := (Grammar.register_eq_ok_iff.mp hRegister).1
      rw [if_neg (mt Grammar.isSome_entryFor?_iff.mp hNew)]
      have hNext :=
        funext (entriesFor_of_register hRegister)
      exact congrArg Except.ok hNext.symm
  | error error =>
      rcases Grammar.register_eq_error_iff.mp hRegister with
        ⟨rfl, hOld⟩
      have hTaken := Grammar.constructor_taken_iff.mpr hOld
      rw [if_pos (Grammar.isSome_entryFor?_iff.mpr hTaken)]
      rfl

/- So they do call by call. -/
theorem registerAll_entriesFor
    (grammar : Grammar)
    (calls : List Entry) :
    registerAll grammar.entriesFor calls =
      ((grammar.registerAll calls).refusals,
        (grammar.registerAll calls).grammar.entriesFor) := by
  induction calls generalizing grammar with
  | nil => rfl
  | cons entry rest ih =>
      rw [registerAll, register_entriesFor]
      cases hRegister : grammar.register entry with
      | ok next =>
          rw [Grammar.registerAll_of_ok hRegister]
          simp only [Except.map, ih]
      | error error =>
          rw [Grammar.registerAll_of_error hRegister]
          simp only [Except.map, ih]

end Shelves

end HiddenRule

------------------------------------------------------------
-- How Calls Are Judged
------------------------------------------------------------

namespace HiddenRule

/-
  How a call is judged after others, beginning without
  entries: it is refused if and only if one of the others
  was accepted for its constructor, which is so as soon as
  one of them asked for it.  A refusal changes nothing.
-/
structure Registration.Judges
    (before : List Entry)
    (entry : Entry)
    (refusal : Option EntryError) : Prop where
  refused_iff :
    refusal ≠ none ↔
      ∃ old ∈
          (Grammar.empty.registerAll before).accepted before,
        old.constructor = entry.constructor
  accepted_iff :
    refusal = none ↔
      ∀ old ∈ before, old.constructor ≠ entry.constructor
  reason :
    ∀ error,
      refusal = some error →
        error = .alreadyRegistered entry.constructor
  unchanged :
    refusal ≠ none →
      (Grammar.empty.registerAll
          (before ++ [entry])).grammar =
        (Grammar.empty.registerAll before).grammar

namespace Grammar

/- A constructor is taken as soon as it is asked for. -/
theorem taken_registerAll_iff
    (grammar : Grammar)
    (calls : List Entry)
    {constructor : Constructor} :
    constructor ∈
        (grammar.registerAll calls).grammar.entries.map
          Entry.constructor ↔
      constructor ∈ grammar.entries.map Entry.constructor ∨
        constructor ∈ calls.map Entry.constructor := by
  induction calls generalizing grammar with
  | nil => simp [registerAll]
  | cons entry rest ih =>
      rw [List.map_cons, List.mem_cons]
      cases hRegister : grammar.register entry with
      | ok next =>
          rcases register_eq_ok_iff.mp hRegister with
            ⟨_, hNext⟩
          rw [registerAll_of_ok hRegister]
          rw [ih, hNext, List.map_append, List.mem_append,
            List.map_singleton, List.mem_singleton,
            or_assoc]
      | error error =>
          have hTaken :=
            constructor_taken_iff.mpr
              (register_eq_error_iff.mp hRegister).2
          rw [registerAll_of_error hRegister]
          rw [ih]
          constructor
          · rintro (hOld | hLater)
            · exact Or.inl hOld
            · exact Or.inr (Or.inr hLater)
          · rintro (hOld | rfl | hLater)
            · exact Or.inl hOld
            · exact Or.inl hTaken
            · exact Or.inr hLater

/- Why an entry is refused is that its constructor is taken. -/
theorem refusal?_eq
    (grammar : Grammar)
    (entry : Entry) :
    grammar.refusal? entry =
      if entry.constructor ∈
          grammar.entries.map Entry.constructor then
        some (.alreadyRegistered entry.constructor)
      else
        none := by
  rw [refusal?, register]
  split <;> rename_i hRegister <;> split at hRegister
  · exact nomatch hRegister
  · rename_i hNew
    rw [if_neg hNew]
  · rename_i hOld
    rw [if_pos hOld, Except.error.inj hRegister]
  · exact nomatch hRegister

/- Calls are judged by those that were accepted before. -/
theorem judges_refusal?
    (before : List Entry)
    (entry : Entry) :
    Registration.Judges before entry
      ((empty.registerAll before).grammar.refusal? entry) where
  refused_iff := by
    rw [refusal?_eq, ← entries_eq_accepted]
    simp
  accepted_iff := by
    rw [refusal?_eq]
    simp [taken_registerAll_iff, empty]
  reason := by
    intro error hRefusal
    rw [refusal?_eq] at hRefusal
    split at hRefusal
    · exact (Option.some.inj hRefusal).symm
    · exact nomatch hRefusal
  unchanged := empty.grammar_of_refused before

end Grammar

/-
  A row of calls is answered call by call, and what is left
  is a grammar that holds the entries that were accepted, in
  the order of the calls.  Shelves, which compare an entry
  with those of its own kind only, answer the same and end
  up with the same entries.
-/
structure Registration.KeepsAccepted
    (registration : Registration)
    (calls : List Entry) : Prop where
  answered : registration.refusals.length = calls.length
  judged :
    ∀ before entry later,
      calls = before ++ entry :: later →
        ∃ refusal,
          registration.refusals[before.length]? =
              some refusal ∧
            Judges before entry refusal
  in_order : (registration.accepted calls).Sublist calls
  holds :
    registration.grammar.Holds (registration.accepted calls)
  shelved :
    Shelves.empty.registerAll calls =
      (registration.refusals, registration.grammar.entriesFor)
  found_on_shelf :
    ∀ constructor,
      Shelves.entryFor? registration.grammar.entriesFor
          constructor =
        registration.grammar.entryFor? constructor
  counted_on_shelves :
    ∀ kinds : List Kind,
      kinds.Nodup →
        (∀ entry ∈ registration.accepted calls,
          entry.kind ∈ kinds) →
          Shelves.size registration.grammar.entriesFor kinds =
            registration.grammar.size

/-
  Whatever is registered, beginning without entries: a call
  is refused if and only if its constructor was accepted
  before, and changes nothing then; and the entries accepted
  are found by their kind in order, by their constructor, and
  in number.
-/
theorem Grammar.registerAll_keeps_accepted
    (calls : List Entry) :
    (empty.registerAll calls).KeepsAccepted calls where
  answered := empty.length_refusals calls
  judged := by
    rintro before entry later rfl
    exact ⟨_, empty.refusals_split before entry later,
      judges_refusal? before entry⟩
  in_order := empty.accepted_sublist calls
  holds := by
    rw [← entries_eq_accepted]
    exact holds_entries _
  shelved := Shelves.registerAll_entriesFor empty calls
  found_on_shelf := Shelves.entryFor?_entriesFor _
  counted_on_shelves := by
    rw [← entries_eq_accepted]
    exact fun _ => Shelves.size_entriesFor _

/- The second entry for a constructor is refused. -/
example :
    (Grammar.empty.registerAll
      [{ constructor := .colorNoun, weight := 1 },
       { constructor := .colorNoun, weight := 5 },
       { constructor := .colorGroup, weight := 5 }]).refusals =
      [none, some (.alreadyRegistered .colorNoun), none] := by
  decide

end HiddenRule
