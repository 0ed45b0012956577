import HiddenRule.Json.Game
import HiddenRule.Json.Grammar
import HiddenRule.Json.Rule
import HiddenRule.Proofs.Parsing
import HiddenRule.Proofs.Storage
import Mathlib.Logic.Function.Iterate

/-
  This file proves that what a game stores is read back.

  Fragments, entries of a grammar, sets of examples and
  places in a stream are lawful stored types, and so are
  their parts.  Of these, only fragments can be nested too
  deeply to be read: a test that is some steps away from a
  noun takes as many levels.

  Main declarations:
    * `LawfulStored` for the parts of a game
    * `Predicate.nesting_iterate_adjacentTo`
    * `Examples.nesting_encode_le`
    * `Stored.RoundTrips`
    * `Stored.roundTrips_iterate_adjacentTo_iff`
    * `Stored.KeepsValues` and `Stored.game_keepsValues`
-/

------------------------------------------------------------
-- Closed Lists
------------------------------------------------------------

namespace HiddenRule

instance : LawfulLabels Color where
  ofLabel?_label c := by cases c <;> rfl

instance : LawfulLabels Shape where
  ofLabel?_label s := by cases s <;> rfl

instance : LawfulLabels Row where
  ofLabel?_label r := by cases r <;> rfl

instance : LawfulLabels Column where
  ofLabel?_label c := by cases c <;> rfl

instance : LawfulLabels Axis where
  ofLabel?_label axis := by cases axis <;> rfl

instance : LawfulLabels GroupPredicate where
  ofLabel?_label q := by cases q <;> rfl

instance : LawfulLabels Kind where
  ofLabel?_label kind := by cases kind <;> rfl

instance : LawfulLabels Constructor where
  ofLabel?_label constructor := by
    cases constructor <;> rfl

end HiddenRule

------------------------------------------------------------
-- Predicates
------------------------------------------------------------

namespace HiddenRule

namespace Predicate

/- A stored test is plain. -/
theorem encode_plain
    (p : Predicate) :
    p.encode.Plain := by
  induction p with
  | emptyCellNoun => exact .string _
  | adjacentTo noun ih => exact Json.plain_ofVariant _ ih
  | _ =>
      exact Json.plain_ofVariant _
        (LawfulStored.encode_plain _)

/-
  A test was read as one that is next to another test, which
  is one level deeper, or as one without a test inside it.
-/
theorem exists_of_decode
    {depth : Nat}
    {value : Json}
    {p : Predicate}
    (hDecode : decode depth value = some p) :
    (∃ inner content noun,
      depth = inner + 1 ∧
        decode inner content = some noun ∧
        p = .adjacentTo noun) ∨
    ∃ name content,
      value.variant? depth = some (name, content) ∧
        decodeFlat (depth - 1) name content = some p := by
  cases depth with
  | zero =>
      rw [decode] at hDecode
      rcases Option.bind_eq_some_iff.mp hDecode with
        ⟨⟨name, content⟩, hVariant, hFlat⟩
      exact .inr ⟨name, content, hVariant, hFlat⟩
  | succ inner =>
      rw [decode] at hDecode
      rcases Option.bind_eq_some_iff.mp hDecode with
        ⟨⟨name, content⟩, hVariant, hContent⟩
      split at hContent
      case h_1 inside _ =>
        rcases Option.map_eq_some_iff.mp hContent with
          ⟨noun, hNoun, rfl⟩
        exact .inl ⟨inner, inside, noun, rfl, hNoun, rfl⟩
      case h_2 hPair =>
        obtain ⟨rfl, rfl⟩ := Prod.mk.inj hPair
        exact .inr ⟨name, content, hVariant, hContent⟩

/- A test without a test inside it is not too deep. -/
theorem nesting_le_of_decodeFlat
    {depth : Nat}
    {value content : Json}
    {name : String}
    {p : Predicate}
    (hVariant : value.variant? depth = some (name, content))
    (hFlat : decodeFlat (depth - 1) name content = some p) :
    p.encode.nesting ≤ depth := by
  unfold decodeFlat at hFlat
  split at hFlat
  -- The fifth name has no content, the last is none.
  case h_5 =>
    split at hFlat
    · cases hFlat
      exact Nat.zero_le _
    · cases hFlat
  case h_10 => cases hFlat
  all_goals
    rcases Option.map_eq_some_iff.mp hFlat with
      ⟨value, hValue, rfl⟩
    exact LawfulStored.variant_nesting_le hVariant hValue

instance : LawfulStored Predicate where
  encode_plain := encode_plain
  decode_spelled {depth json} p hSpelled hDepth := by
    change p.encode.SpelledAs json at hSpelled
    change decode depth json = some p
    induction p generalizing depth json with
    | emptyCellNoun =>
        have hVariant := hSpelled.variant?_of_name hDepth
        cases depth <;>
          rw [decode, hVariant] <;>
          rfl
    | adjacentTo noun ih =>
        rcases hSpelled.exists_variant hDepth with
          ⟨inner, spelled, rfl, rfl, hNoun, hInner⟩
        exact congrArg (Option.map adjacentTo)
          (ih hInner hNoun)
    | _ =>
        exact LawfulStored.decode_variant _
          (fun _ _ => rfl) hSpelled hDepth
  nesting_le {depth json p} hDecode := by
    change decode depth json = some p at hDecode
    change p.encode.nesting ≤ depth
    induction depth generalizing json p with
    | zero =>
        rcases exists_of_decode hDecode with
          ⟨inner, _, _, hSucc, _⟩ |
          ⟨name, content, hVariant, hFlat⟩
        · cases hSucc
        · exact nesting_le_of_decodeFlat hVariant hFlat
    | succ depth ih =>
        rcases exists_of_decode hDecode with
          ⟨inner, content, noun, hSucc, hNoun, rfl⟩ |
          ⟨name, content, hVariant, hFlat⟩
        · cases hSucc
          exact Json.nesting_ofVariant_le_iff.mpr
            ⟨depth, rfl, ih hNoun⟩
        · exact nesting_le_of_decodeFlat hVariant hFlat
  decode_null depth := by cases depth <;> rfl

/- Every step away from a noun takes one level. -/
theorem nesting_iterate_adjacentTo
    (steps : Nat)
    (core : Predicate) :
    (Stored.encode (adjacentTo^[steps] core)).nesting =
      (Stored.encode core).nesting + steps := by
  induction steps with
  | zero => rfl
  | succ steps ih =>
      rw [Function.iterate_succ_apply', Nat.add_succ, ← ih]
      exact Json.nesting_ofVariant _ _

end Predicate

end HiddenRule

------------------------------------------------------------
-- Groups
------------------------------------------------------------

namespace HiddenRule

instance : LawfulStored Group where
  encode_plain
  | .line axis =>
      Json.plain_ofVariant _ (LawfulStored.encode_plain axis)
  | .color | .shape | .identical | .adjacent => .string _
  decode_spelled {depth json} g hSpelled hDepth := by
    change g.encode.SpelledAs json at hSpelled
    change Group.decode depth json = some g
    cases g with
    | line axis =>
        exact LawfulStored.decode_variant axis
          (fun _ _ => rfl) hSpelled hDepth
    | _ =>
        rw [Group.decode, hSpelled.variant?_of_name hDepth]
        rfl
  nesting_le {depth json g} hDecode := by
    rcases Option.bind_eq_some_iff.mp hDecode with
      ⟨variant, hVariant, hContent⟩
    cases g with
    | line axis =>
        split at hContent <;> try cases hContent
        rcases Option.map_eq_some_iff.mp hContent with
          ⟨axis', hAxis, hLine⟩
        cases hLine
        exact LawfulStored.variant_nesting_le hVariant hAxis
    | _ => exact Nat.zero_le _
  decode_null depth := by cases depth <;> rfl

end HiddenRule

------------------------------------------------------------
-- Rules
------------------------------------------------------------

namespace HiddenRule

namespace Rule

/- A stored rule is plain. -/
theorem encode_plain : (rule : Rule) → rule.encode.Plain
| .universal noun p
| .existential noun p
| .negativeUniversal noun p =>
    Json.plain_ofVariant _
      (Json.plain_pair (by decide) noun p)
| .grouped g q =>
    Json.plain_ofVariant _ (Json.plain_pair (by decide) g q)
| .line axis noun =>
    Json.plain_ofVariant _
      (Json.plain_pair (by decide) axis noun)

instance : LawfulStored Rule where
  encode_plain := encode_plain
  decode_spelled {depth json} rule hSpelled hDepth := by
    change rule.encode.SpelledAs json at hSpelled
    change decode depth json = some rule
    cases rule <;>
      rcases hSpelled.exists_variant hDepth with
        ⟨inner, spelled, rfl, rfl, hPair, hInner⟩
    case universal noun p =>
      exact Json.pair?_spelled (by decide) universal noun p
        hPair hInner
    case existential noun p =>
      exact Json.pair?_spelled (by decide) existential noun p
        hPair hInner
    case negativeUniversal noun p =>
      exact Json.pair?_spelled (by decide) negativeUniversal
        noun p hPair hInner
    case grouped g q =>
      exact Json.pair?_spelled (by decide) grouped g q
        hPair hInner
    case line axis noun =>
      exact Json.pair?_spelled (by decide) line axis noun
        hPair hInner
  nesting_le {depth json rule} hDecode := by
    change rule.encode.nesting ≤ depth
    rcases Option.bind_eq_some_iff.mp hDecode with
      ⟨variant, -, hContent⟩
    split at hContent
    case h_6 => cases hContent
    all_goals
      rcases Json.exists_of_pair? hContent with
        ⟨_, _, rfl, hPair⟩
      exact Json.nesting_ofVariant_ofMembers_le hPair
  decode_null depth := by cases depth <;> rfl

end Rule

end HiddenRule

------------------------------------------------------------
-- Fragments
------------------------------------------------------------

namespace HiddenRule

namespace Fragment

/- A stored fragment is plain. -/
theorem encode_plain :
    (fragment : Fragment) → fragment.encode.Plain
| .rule r =>
    Json.plain_ofVariant _ (LawfulStored.encode_plain r)
| .predicate p =>
    Json.plain_ofVariant _ (LawfulStored.encode_plain p)
| .group g =>
    Json.plain_ofVariant _ (LawfulStored.encode_plain g)
| .groupPredicate q =>
    Json.plain_ofVariant _ (LawfulStored.encode_plain q)

instance : LawfulStored Fragment where
  encode_plain := encode_plain
  decode_spelled {depth json} fragment hSpelled hDepth := by
    change fragment.encode.SpelledAs json at hSpelled
    change decode depth json = some fragment
    cases fragment with
    | rule r =>
        exact LawfulStored.decode_variant r
          (fun _ _ => rfl) hSpelled hDepth
    | predicate p =>
        exact LawfulStored.decode_variant p
          (fun _ _ => rfl) hSpelled hDepth
    | group g =>
        exact LawfulStored.decode_variant g
          (fun _ _ => rfl) hSpelled hDepth
    | groupPredicate q =>
        exact LawfulStored.decode_variant q
          (fun _ _ => rfl) hSpelled hDepth
  nesting_le {depth json fragment} hDecode := by
    change fragment.encode.nesting ≤ depth
    rcases Option.bind_eq_some_iff.mp hDecode with
      ⟨variant, hVariant, hContent⟩
    split at hContent
    case h_5 => cases hContent
    all_goals
      rcases Option.map_eq_some_iff.mp hContent with
        ⟨_, hPart, rfl⟩
      exact LawfulStored.variant_nesting_le hVariant hPart
  decode_null depth := by cases depth <;> rfl

end Fragment

end HiddenRule

------------------------------------------------------------
-- Boards
------------------------------------------------------------

namespace HiddenRule

instance : LawfulStored Symbol where
  encode_plain
  | .empty => .string _
  | .filled color shape =>
      Json.plain_ofVariant _
        (Json.plain_pair (by decide) color shape)
  decode_spelled {depth json} symbol hSpelled hDepth := by
    change symbol.encode.SpelledAs json at hSpelled
    change Symbol.decode depth json = some symbol
    cases symbol with
    | empty =>
        rw [Symbol.decode, hSpelled.variant?_of_name hDepth]
        rfl
    | filled color shape =>
        rcases hSpelled.exists_variant hDepth with
          ⟨inner, spelled, rfl, rfl, hPair, hInner⟩
        exact Json.pair?_spelled (by decide) Symbol.filled
          color shape hPair hInner
  nesting_le {depth json symbol} hDecode := by
    change symbol.encode.nesting ≤ depth
    rcases Option.bind_eq_some_iff.mp hDecode with
      ⟨variant, -, hContent⟩
    cases symbol with
    | empty => exact Nat.zero_le _
    | filled color shape =>
        split at hContent <;> try cases hContent
        rcases Json.exists_of_pair? hContent with
          ⟨_, _, hFilled, hPair⟩
        cases hFilled
        exact Json.nesting_ofVariant_ofMembers_le hPair
  decode_null depth := by cases depth <;> rfl

instance : LawfulStored Board where
  encode_plain board :=
    LawfulStored.encode_plain board.toList
  decode_spelled {depth json} board hSpelled hDepth := by
    have hList :=
      LawfulStored.decode_spelled board.toList hSpelled hDepth
    change (Stored.decode depth json).bind _ = _
    rw [hList, Option.bind_some, if_pos board.length_toList]
    congr 1
    exact Board.toList_injective
      (Board.toList_ofList board.length_toList)
  nesting_le {depth json board} hDecode := by
    rcases Option.bind_eq_some_iff.mp hDecode with
      ⟨symbols, hSymbols, hBoard⟩
    split at hBoard
    case isTrue hNine =>
      cases hBoard
      change (Stored.encode
        (Board.ofList symbols).toList).nesting ≤ depth
      rw [Board.toList_ofList hNine]
      exact LawfulStored.nesting_le hSymbols
    case isFalse => cases hBoard
  decode_null depth := by cases depth <;> rfl

end HiddenRule

------------------------------------------------------------
-- Entries
------------------------------------------------------------

namespace HiddenRule

instance : LawfulStored TagSet where
  encode_plain set := LawfulStored.encode_plain set.bits
  decode_spelled {depth json} set hSpelled hDepth := by
    have hBits :=
      LawfulStored.decode_spelled set.bits hSpelled hDepth
    change (Stored.decode depth json).bind _ = _
    rw [hBits]
    rfl
  nesting_le _ := Nat.zero_le _
  decode_null _ := rfl

instance : LawfulStored Entry where
  encode_plain entry := by
    apply Json.plain_ofMembers
    · simp
    · simp [LawfulStored.encode_plain]
  decode_spelled {depth json} entry hSpelled hDepth := by
    rcases hSpelled.exists_fields? Entry.fieldNames (by simp)
        rfl (by decide) hDepth with
      ⟨inner, fields, rfl, hFields, hMembers⟩
    simp only [List.forall_mem_cons] at hMembers
    rcases hMembers with
      ⟨hConstructor, hWeight, hTags, hChildren, hCount,
        hSeparate, -⟩
    change Entry.decode _ json = _
    rw [Entry.decode, hFields]
    simp only [Option.bind_eq_bind, Option.bind_some,
      Nat.add_sub_cancel]
    rw [Fields.required_of_spell hConstructor,
      Fields.required_of_spell hWeight,
      Fields.required_of_spell hTags,
      Fields.required_of_spell hChildren,
      Fields.required_of_spell hCount,
      Fields.required_of_spell hSeparate]
    rfl
  nesting_le {depth json entry} hDecode := by
    change Entry.decode depth json = some entry at hDecode
    simp only [Entry.decode, Option.bind_eq_bind,
      Option.pure_def, Option.bind_eq_some_iff,
      Option.some.injEq] at hDecode
    rcases hDecode with
      ⟨fields, hFields, constructor, hConstructor, weight,
        hWeight, tags, hTags, children, hChildren, count,
        hCount, separate, hSeparate, rfl⟩
    refine Json.nesting_ofMembers_le hFields ?_
    simp only [List.forall_mem_cons]
    exact ⟨Fields.required_nesting_le hConstructor,
      Fields.required_nesting_le hWeight,
      Fields.required_nesting_le hTags,
      Fields.required_nesting_le hChildren,
      Fields.required_nesting_le hCount,
      Fields.required_nesting_le hSeparate,
      List.forall_mem_nil _⟩
  decode_null depth := by cases depth <;> rfl

end HiddenRule

------------------------------------------------------------
-- Places In A Stream
------------------------------------------------------------

namespace HiddenRule

instance : LawfulStored Snapshot where
  encode_plain snapshot :=
    Json.plain_pair (by decide) snapshot.seed
      snapshot.wordPosition
  decode_spelled snapshot hSpelled hDepth :=
    Json.pair?_spelled (by decide) Snapshot.mk snapshot.seed
      snapshot.wordPosition hSpelled hDepth
  nesting_le hDecode := by
    rcases Json.exists_of_pair? hDecode with
      ⟨_, _, rfl, hPair⟩
    exact hPair
  decode_null depth := by cases depth <;> rfl

end HiddenRule

------------------------------------------------------------
-- Examples
------------------------------------------------------------

namespace HiddenRule

instance : LawfulStored Examples where
  encode_plain examples := by
    apply Json.plain_ofMembers
    · simp
    · simp [LawfulStored.encode_plain]
  decode_spelled {depth json} examples hSpelled hDepth := by
    rcases hSpelled.exists_fields? Examples.fieldNames
        (by simp) rfl (by decide) hDepth with
      ⟨inner, fields, rfl, hFields, hMembers⟩
    simp only [List.forall_mem_cons] at hMembers
    rcases hMembers with
      ⟨hPositives, hNegatives, hAttempts, hWantedPositive,
        hWantedNegative, -⟩
    change Examples.decode _ json = _
    rw [Examples.decode, hFields]
    simp only [Option.bind_eq_bind, Option.bind_some,
      Nat.add_sub_cancel]
    rw [Fields.required_of_spell hPositives,
      Fields.required_of_spell hNegatives,
      Fields.required_of_spell hAttempts,
      Fields.required_of_spell hWantedPositive,
      Fields.required_of_spell hWantedNegative]
    rfl
  nesting_le {depth json examples} hDecode := by
    change Examples.decode depth json = some examples
      at hDecode
    simp only [Examples.decode, Option.bind_eq_bind,
      Option.pure_def, Option.bind_eq_some_iff,
      Option.some.injEq] at hDecode
    rcases hDecode with
      ⟨fields, hFields, positives, hPositives, negatives,
        hNegatives, attempts, hAttempts, wantedPositive,
        hWantedPositive, wantedNegative, hWantedNegative,
        rfl⟩
    refine Json.nesting_ofMembers_le hFields ?_
    simp only [List.forall_mem_cons]
    exact ⟨Fields.required_nesting_le hPositives,
      Fields.required_nesting_le hNegatives,
      Fields.required_nesting_le hAttempts,
      Fields.required_nesting_le hWantedPositive,
      Fields.required_nesting_le hWantedNegative,
      List.forall_mem_nil _⟩
  decode_null depth := by cases depth <;> rfl

end HiddenRule

------------------------------------------------------------
-- Forms Of Bounded Depth
------------------------------------------------------------

namespace HiddenRule

/- A content of a cell is at most a record in a variant. -/
theorem Symbol.nesting_encode_le
    (symbol : Symbol) :
    (Stored.encode symbol).nesting ≤ 2 := by
  cases symbol with
  | empty => exact Nat.zero_le 2
  | filled color shape =>
      exact Json.nesting_ofVariant_le_iff.mpr
        ⟨1, rfl, Nat.le_refl 1⟩

/- A board is a list of such contents. -/
theorem Board.nesting_encode_le
    (board : Board) :
    (Stored.encode board).nesting ≤ 3 :=
  Stored.nesting_encode_list_le Symbol.nesting_encode_le
    board.toList

/- A set of examples holds lists of boards. -/
theorem Examples.nesting_encode_le
    (examples : Examples) :
    (Stored.encode examples).nesting ≤ 5 := by
  have hBoards (boards : Array Board) :
      (Stored.encode boards).nesting ≤ 4 :=
    Stored.nesting_encode_list_le Board.nesting_encode_le
      boards.toList
  refine Json.nesting_ofMembers_le_iff.mpr ⟨4, rfl, ?_⟩
  simp only [List.forall_mem_cons]
  exact ⟨hBoards _, hBoards _, Nat.zero_le _, Nat.zero_le _,
    Nat.zero_le _, List.forall_mem_nil _⟩

/- An entry holds a list of names. -/
theorem Entry.nesting_encode_le
    (entry : Entry) :
    (Stored.encode entry).nesting ≤ 2 := by
  have hChildren :
      (Stored.encode entry.children).nesting ≤ 1 :=
    Stored.nesting_encode_list_le (fun _ => Nat.zero_le _) _
  refine Json.nesting_ofMembers_le_iff.mpr ⟨1, rfl, ?_⟩
  simp only [List.forall_mem_cons]
  exact ⟨Nat.zero_le _, Nat.zero_le _, Nat.zero_le _,
    hChildren, Nat.zero_le _, Nat.zero_le _,
    List.forall_mem_nil _⟩

/- A place in a stream holds two numbers. -/
theorem Snapshot.nesting_encode_le
    (snapshot : Snapshot) :
    (Stored.encode snapshot).nesting ≤ 1 :=
  Nat.le_refl 1

end HiddenRule

------------------------------------------------------------
-- Main Theorem
------------------------------------------------------------

namespace HiddenRule

namespace Stored

/- A value is read back from the text written for it. -/
def RoundTrips
    {α : Type}
    [Stored α]
    (value : α) : Prop :=
  read (write value) = some value

/-
  A test some steps away from another is read back if and
  only if the steps fit beside the test.
-/
theorem roundTrips_iterate_adjacentTo_iff
    (core : Predicate)
    (steps : Nat) :
    RoundTrips
        (Fragment.predicate
          (Predicate.adjacentTo^[steps] core)) ↔
      (encode core).nesting + steps < 127 := by
  have hLevel (p : Predicate) :
      (encode (Fragment.predicate p)).nesting =
        (encode p).nesting + 1 :=
    Json.nesting_ofVariant _ _
  rw [RoundTrips, LawfulStored.read_write_iff, hLevel,
    Predicate.nesting_iterate_adjacentTo]
  exact Nat.add_one_le_iff

/-
  The stored texts of a type keep its values: those that fit
  are read back, and no others; every text that spells the
  form of a value is read as that value, if it nests fewer
  than 128 arrays and objects; and what was read from any
  text is read back.
-/
structure KeepsValues
    (α : Type)
    [Stored α]
    (fits : α → Prop) : Prop where
  roundTrips_iff : ∀ value : α, RoundTrips value ↔ fits value
  reads_spellings :
    ∀ (value : α) (text : String) (json : Json),
      Json.parse? text.toList = some json →
        (encode value).SpelledAs json →
          json.nesting < 128 →
            read text = some value
  reads_again :
    ∀ (text : String) (value : α),
      read text = some value → RoundTrips value

/- The values of a lawful type are kept within the limit. -/
theorem keepsValues_of_lawful
    {α : Type}
    [Stored α] [LawfulStored α]
    {fits : α → Prop}
    (hFits :
      ∀ value : α,
        (encode value).nesting ≤ depthLimit ↔ fits value) :
    KeepsValues α fits where
  roundTrips_iff := fun value =>
    LawfulStored.read_write_iff.trans (hFits value)
  reads_spellings := fun _ _ _ hText hSpelled hNesting =>
    LawfulStored.read_of_spelledAs hText hSpelled
      (Nat.le_of_lt_succ hNesting)
  reads_again := fun _ _ => LawfulStored.read_write_of_read

/-
  Fragments are kept if their texts nest fewer than 128
  arrays and objects; entries, sets of examples and places in
  a stream are all kept.
-/
theorem game_keepsValues :
    KeepsValues Fragment
        (fun fragment => (encode fragment).nesting < 128) ∧
      KeepsValues Entry (fun _ => True) ∧
      KeepsValues Examples (fun _ => True) ∧
      KeepsValues Snapshot (fun _ => True) := by
  refine ⟨keepsValues_of_lawful ?_, keepsValues_of_lawful ?_,
    keepsValues_of_lawful ?_, keepsValues_of_lawful ?_⟩
  · exact fun fragment => Nat.lt_succ_iff.symm
  · exact fun entry => iff_true_intro
      (Nat.le_trans entry.nesting_encode_le (by decide))
  · exact fun examples => iff_true_intro
      (Nat.le_trans examples.nesting_encode_le (by decide))
  · exact fun snapshot => iff_true_intro
      (Nat.le_trans snapshot.nesting_encode_le (by decide))

/-
  A record as an array, and a name as an object: the rule
  "some row is all blank cells" is read from them, and so
  from its own text.
-/
theorem game_keepsValues_odd_rule :
    let rule : Fragment := .rule (.line .row .emptyCellNoun)
    let odd : Json :=
      .ofVariant "Rule" (.ofVariant "Line" (.array
        [.ofString "Row",
         .ofVariant "EmptyCellNoun" .null]))
    let text :=
      "\x7b\"Rule\":\x7b\"Line\":[\"Row\"," ++
        "\x7b\"EmptyCellNoun\":null\x7d]\x7d\x7d"
    Json.parse? text.toList = some odd ∧
      (encode rule).SpelledAs odd ∧
      odd.nesting < 128 ∧
      read text = some rule ∧
      RoundTrips rule := by
  intro rule odd text
  have hPlain : odd.Plain := by
    refine Json.plain_ofVariant _ (Json.plain_ofVariant _ ?_)
    refine .array (List.forall_mem_cons.mpr ⟨?_, ?_⟩)
    · exact .string "Row"
    · exact List.forall_mem_singleton.mpr
        (Json.plain_ofVariant _ .null)
  have hText : Json.parse? text.toList = some odd := by
    have hWritten : text.toList = odd.render := by
      decide +kernel
    rw [hWritten]
    exact hPlain.parse?_render
  have hSpelled : (encode rule).SpelledAs odd := by
    refine .variant (.variant (.row (by decide) rfl ?_))
    rintro (_ | _ | i) member item ⟨⟩ ⟨⟩
    · exact .text "Row"
    · exact .name "EmptyCellNoun"
  have hNesting : odd.nesting < 128 := by decide
  have hKept := game_keepsValues.1
  have hRead :=
    hKept.reads_spellings rule text odd hText hSpelled hNesting
  exact ⟨hText, hSpelled, hNesting, hRead,
    hKept.reads_again text rule hRead⟩

/- Fields in another order, and one that no place has. -/
example :
    read
        ("\x7b\"word_pos\": 1267650600228229401496703205376," ++
          "\"comment\": [-1.5], \"seed\": 7\x7d") =
      some
        { seed := 7
          wordPosition := BitVec.ofNat 128 (twoPow 100)
          : Snapshot } := by
  decide +kernel

end Stored

end HiddenRule
