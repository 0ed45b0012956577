import HiddenRule.Board.Reading
import HiddenRule.Proofs.Outcome
import HiddenRule.Proofs.Runs
import Mathlib.Data.List.Forall2

/-
  This file proves which texts are boards, what is said about
  the others, and that no two boards look the same.

  A text is looked at as the list of its runs of characters
  that are no blanks.  How many there are comes first, then
  the first of them that is no token.  A board written out
  with blanks between its tokens is read again, and the table
  of a board shows every cell.

  Main declarations:
    * `Symbol.Token` and `Symbol.ofToken?_eq_some_iff`
    * `FirstStrange` and `Board.ofTokens_eq_error_iff`
    * `Board.ReadsAs` and `Board.ofText_eq_iff`
    * `Symbol.Spelled`
    * `Board.text_determines_board`
-/

------------------------------------------------------------
-- Tokens
------------------------------------------------------------

namespace HiddenRule

namespace Color

/- The colors and their letters. -/
def letters : List (Color × Char) :=
  [(.red, 'r'), (.yellow, 'y'), (.blue, 'b')]

theorem mem_letters_iff
    {color : Color}
    {c : Char} :
    (color, c) ∈ letters ↔ color.letter = c := by
  cases color <;> simp [letters, letter, eq_comm]

/- A letter is that of the color that it is read as. -/
theorem ofLetter?_eq_some_iff
    {c : Char}
    {color : Color} :
    ofLetter? c = some color ↔ (color, c) ∈ letters := by
  rw [mem_letters_iff]
  constructor
  · intro hFound
    simpa using List.find?_some hFound
  · rintro rfl
    cases color <;> rfl

end Color

namespace Shape

/- The shapes and their letters. -/
def letters : List (Shape × Char) :=
  [(.circle, 'C'), (.triangle, 'T'), (.square, 'S')]

theorem mem_letters_iff
    {shape : Shape}
    {c : Char} :
    (shape, c) ∈ letters ↔ shape.letter = c := by
  cases shape <;> simp [letters, letter, eq_comm]

/- A letter is that of the shape that it is read as. -/
theorem ofLetter?_eq_some_iff
    {c : Char}
    {shape : Shape} :
    ofLetter? c = some shape ↔ (shape, c) ∈ letters := by
  rw [mem_letters_iff]
  constructor
  · intro hFound
    simpa using List.find?_some hFound
  · rintro rfl
    cases shape <;> rfl

end Shape

namespace Symbol

/-
  The words that stand for a content: two underscores or two
  dots for nothing, else the letter of a color and then that
  of a shape.
-/
inductive Token : Symbol → List Char → Prop
| underscores : Token .empty ['_', '_']
| dots : Token .empty ['.', '.']
| letters
    {color : Color}
    {shape : Shape}
    {first second : Char} :
    (color, first) ∈ Color.letters →
      (shape, second) ∈ Shape.letters →
        Token (.filled color shape) [first, second]

/- A symbol is shown by its token. -/
theorem token_text
    (color : Color)
    (shape : Shape) :
    Token (.filled color shape)
      (filled color shape).text.toList := by
  rw [text, String.toList_ofList]
  exact .letters (Color.mem_letters_iff.mpr rfl)
    (Shape.mem_letters_iff.mpr rfl)

/- The words that are read are the tokens. -/
theorem ofToken?_eq_some_iff
    {word : List Char}
    {symbol : Symbol} :
    ofToken? word = some symbol ↔ Token symbol word := by
  constructor
  · intro hRead
    unfold ofToken? at hRead
    split at hRead
    · cases hRead
      exact .underscores
    · cases hRead
      exact .dots
    · rename_i first second _ _
      rcases Option.bind_eq_some_iff.mp hRead with
        ⟨color, hColor, hRead⟩
      rcases Option.bind_eq_some_iff.mp hRead with
        ⟨shape, hShape, hRead⟩
      cases hRead
      exact .letters (Color.ofLetter?_eq_some_iff.mp hColor)
        (Shape.ofLetter?_eq_some_iff.mp hShape)
    · exact nomatch hRead
  · intro hToken
    cases hToken with
    | underscores => rfl
    | dots => rfl
    | @letters color shape first second hColor hShape =>
        rw [Color.mem_letters_iff] at hColor
        rw [Shape.mem_letters_iff] at hShape
        subst hColor hShape
        cases color <;> cases shape <;> rfl

/- No word stands for two contents. -/
theorem Token.unique
    {symbol other : Symbol}
    {word : List Char}
    (hToken : Token symbol word)
    (hOther : Token other word) :
    symbol = other := by
  rw [← ofToken?_eq_some_iff] at hToken hOther
  exact Option.some.inj (hToken.symm.trans hOther)

/- Two letters are a word. -/
theorem isWord_pair
    {first second : Char}
    (hFirst : Text.isBlank first = false)
    (hSecond : Text.isBlank second = false) :
    Text.IsWord [first, second] where
  ne_nil := List.cons_ne_nil _ _
  letters := by
    simp [hFirst, hSecond]

theorem Token.isWord
    {symbol : Symbol}
    {word : List Char}
    (hToken : Token symbol word) :
    Text.IsWord word := by
  cases hToken with
  | underscores => exact isWord_pair rfl rfl
  | dots => exact isWord_pair rfl rfl
  | @letters color shape first second hColor hShape =>
      rw [Color.mem_letters_iff] at hColor
      rw [Shape.mem_letters_iff] at hShape
      subst hColor hShape
      cases color <;> cases shape <;>
        exact isWord_pair rfl rfl

end Symbol

end HiddenRule

------------------------------------------------------------
-- Words In Order
------------------------------------------------------------

namespace HiddenRule

/- A word that is no token, behind words that are tokens. -/
structure FirstStrange
    (words : List (List Char))
    (i : Nat)
    (word : List Char) : Prop where
  here : words[i]? = some word
  strange : ∀ symbol, ¬ Symbol.Token symbol word
  tokens :
    ∀ j < i, ∃ earlier symbol,
      words[j]? = some earlier ∧ Symbol.Token symbol earlier

/- The first word is one or stands before it. -/
theorem firstStrange_cons_iff
    {word strange : List Char}
    {rest : List (List Char)}
    {i : Nat} :
    FirstStrange (word :: rest) i strange ↔
      (i = 0 ∧ strange = word ∧
          ∀ symbol, ¬ Symbol.Token symbol word) ∨
        ∃ j symbol,
          i = j + 1 ∧ Symbol.Token symbol word ∧
            FirstStrange rest j strange := by
  constructor
  · intro hFirst
    cases i with
    | zero =>
        cases hFirst.here
        exact Or.inl ⟨rfl, rfl, hFirst.strange⟩
    | succ j =>
        rcases hFirst.tokens 0 (Nat.succ_pos j) with
          ⟨earlier, symbol, hEarlier, hToken⟩
        cases hEarlier
        refine Or.inr ⟨j, symbol, rfl, hToken, ?_⟩
        exact
          { here := hFirst.here
            strange := hFirst.strange
            tokens := fun k hLt =>
              hFirst.tokens (k + 1) (Nat.succ_lt_succ hLt) }
  · rintro (⟨rfl, rfl, hStrange⟩ |
      ⟨j, symbol, rfl, hToken, hFirst⟩)
    · exact
        { here := rfl
          strange := hStrange
          tokens := fun k hLt => absurd hLt (Nat.not_lt_zero k) }
    · refine
        { here := hFirst.here
          strange := hFirst.strange
          tokens := ?_ }
      intro k hLt
      cases k with
      | zero => exact ⟨word, symbol, rfl, hToken⟩
      | succ k =>
          exact hFirst.tokens k (Nat.lt_of_succ_lt_succ hLt)

namespace Board

/- Words are read if all of them are tokens. -/
theorem ofTokens_eq_ok_iff
    {cell : Cell}
    {words : List (List Char)}
    {symbols : List Symbol} :
    ofTokens cell words = .ok symbols ↔
      List.Forall₂ Symbol.Token symbols words := by
  induction words generalizing cell symbols with
  | nil =>
      rw [ofTokens, List.forall₂_nil_right_iff,
        Except.ok.injEq, eq_comm]
  | cons word rest ih =>
      rw [ofTokens]
      split
      · rename_i hNone
        constructor
        · intro hRead
          exact nomatch hRead
        · rintro (_ | ⟨hToken, _⟩)
          rw [← Symbol.ofToken?_eq_some_iff, hNone] at hToken
          exact nomatch hToken
      · rename_i symbol hSome
        rw [Symbol.ofToken?_eq_some_iff] at hSome
        rw [bind_eq_ok_iff]
        constructor
        · rintro ⟨later, hLater, hRead⟩
          cases hRead
          exact .cons hSome (ih.mp hLater)
        · rintro (_ | ⟨hToken, hLater⟩)
          cases hToken.unique hSome
          exact ⟨_, ih.mpr hLater, rfl⟩

/- The first word that is no token is refused. -/
theorem ofTokens_eq_error_iff
    {cell : Cell}
    {words : List (List Char)}
    {error : ReadError} :
    ofTokens cell words = .error error ↔
      ∃ i word,
        FirstStrange words i word ∧
          error = .token (cell + i) (String.ofList word) := by
  induction words generalizing cell with
  | nil =>
      constructor
      · intro hRead
        exact nomatch hRead
      · rintro ⟨i, word, hFirst, _⟩
        exact nomatch hFirst.here
  | cons word rest ih =>
      simp only [firstStrange_cons_iff]
      rw [ofTokens]
      split
      · rename_i hNone
        have hStrange :
            ∀ symbol, ¬ Symbol.Token symbol word := by
          intro symbol hToken
          rw [← Symbol.ofToken?_eq_some_iff, hNone] at hToken
          exact nomatch hToken
        rw [Except.error.injEq]
        constructor
        · rintro rfl
          exact ⟨0, word, Or.inl ⟨rfl, rfl, hStrange⟩, rfl⟩
        · rintro ⟨i, strange,
            ⟨rfl, rfl, _⟩ | ⟨_, symbol, _, hToken, _⟩, rfl⟩
          · rfl
          · exact absurd hToken (hStrange symbol)
      · rename_i symbol hSome
        rw [Symbol.ofToken?_eq_some_iff] at hSome
        rw [bind_eq_error_iff, ih]
        constructor
        · rintro (⟨j, strange, hFirst, rfl⟩ |
            ⟨later, _, hRead⟩)
          · refine ⟨j + 1, strange,
              Or.inr ⟨j, symbol, rfl, hSome, hFirst⟩, ?_⟩
            rw [Nat.add_assoc, Nat.add_comm 1 j]
          · exact nomatch hRead
        · rintro ⟨i, strange,
            ⟨_, _, hStrange⟩ | ⟨j, _, rfl, _, hFirst⟩, rfl⟩
          · exact absurd hSome (hStrange symbol)
          · left
            refine ⟨j, strange, hFirst, ?_⟩
            rw [Nat.add_assoc, Nat.add_comm 1 j]

------------------------------------------------------------
-- Boards Read
------------------------------------------------------------

theorem length_toList
    (board : Board) :
    board.toList.length = 9 :=
  Vector.length_toList

/- The list shows what the cells hold. -/
theorem get_toList
    (board : Board)
    {i : Nat}
    (hLt : i < 9)
    (hPlace : i < board.toList.length) :
    board.toList.get ⟨i, hPlace⟩ = board.symbolAt ⟨i, hLt⟩ := by
  simp [toList, symbolAt]

theorem toList_injective
    {left right : Board}
    (hSame : left.toList = right.toList) :
    left = right := by
  cases left
  cases right
  congr 1
  exact Vector.toList_inj.mp hSame

/- The board of nine contents shows them. -/
theorem toList_ofList
    {symbols : List Symbol}
    (hNine : symbols.length = 9) :
    (ofList symbols).toList = symbols := by
  apply List.ext_getElem
  · rw [length_toList, hNine]
  · intro i _ hLt
    simp [toList, ofList, hLt]

/-
  The outcome that a text of these words has: first their
  number is looked at, then the words are, and nine tokens
  are a board.
-/
inductive ReadsAs
    (words : List (List Char)) :
    Except ReadError Board → Prop
| cellCount :
    words.length ≠ 9 →
      ReadsAs words (.error (.cellCount words.length))
| token
    {i : Nat}
    {word : List Char} :
    words.length = 9 →
      FirstStrange words i word →
        ReadsAs words (.error (.token i (String.ofList word)))
| board
    {board : Board} :
    words.length = 9 →
      (∀ i : Fin 9, ∃ word,
        words[i.val]? = some word ∧
          Symbol.Token (board.symbolAt i) word) →
        ReadsAs words (.ok board)

/- Nine tokens, one by one or cell by cell. -/
theorem forall₂_token_iff
    {board : Board}
    {words : List (List Char)}
    (hNine : words.length = 9) :
    List.Forall₂ Symbol.Token board.toList words ↔
      ∀ i : Fin 9, ∃ word,
        words[i.val]? = some word ∧
          Symbol.Token (board.symbolAt i) word := by
  rw [List.forall₂_iff_get]
  constructor
  · rintro ⟨_, hTokens⟩ ⟨i, hLt⟩
    have hPlace : i < board.toList.length := by
      rwa [length_toList]
    have hWord : i < words.length := by
      rwa [hNine]
    have hToken := hTokens i hPlace hWord
    rw [get_toList board hLt] at hToken
    exact ⟨words[i], List.getElem?_eq_getElem hWord, hToken⟩
  · intro hTokens
    refine ⟨board.length_toList.trans hNine.symm, ?_⟩
    intro i hPlace hWord
    have hLt : i < 9 := by
      rwa [hNine] at hWord
    rcases hTokens ⟨i, hLt⟩ with ⟨word, hHere, hToken⟩
    have hSame : words[i] = word :=
      (List.getElem?_eq_some_iff.mp hHere).2
    rw [get_toList board hLt, List.get_eq_getElem, hSame]
    exact hToken

/- A text has the outcome that its words have. -/
theorem ofText_eq_iff
    {text : String}
    {outcome : Except ReadError Board} :
    ofText text = outcome ↔
      ReadsAs (Text.words text.toList) outcome := by
  simp only [ofText]
  generalize Text.words text.toList = words
  constructor
  · rintro rfl
    split
    · rename_i hNine
      cases hRead : ofTokens 0 words with
      | ok symbols =>
          rw [ofTokens_eq_ok_iff] at hRead
          refine .board hNine
            ((forall₂_token_iff hNine).mp ?_)
          rwa [toList_ofList (hRead.length_eq.trans hNine)]
      | error error =>
          rcases ofTokens_eq_error_iff.mp hRead with
            ⟨i, word, hFirst, rfl⟩
          rw [Nat.zero_add]
          exact .token hNine hFirst
    · rename_i hCount
      exact .cellCount hCount
  · intro hReads
    cases hReads with
    | cellCount hCount => exact if_neg hCount
    | @token i word hNine hFirst =>
        have hRead :
            ofTokens 0 words =
              .error (.token i (String.ofList word)) := by
          rw [ofTokens_eq_error_iff]
          refine ⟨i, word, hFirst, ?_⟩
          rw [Nat.zero_add]
        rw [if_pos hNine, hRead]
        rfl
    | @board board hNine hTokens =>
        have hRead :
            ofTokens 0 words = .ok board.toList := by
          rw [ofTokens_eq_ok_iff]
          exact (forall₂_token_iff hNine).mpr hTokens
        rw [if_pos hNine, hRead, ok_bind]
        refine congrArg Except.ok (toList_injective ?_)
        exact toList_ofList board.length_toList

end Board

end HiddenRule

------------------------------------------------------------
-- Boards Written
------------------------------------------------------------

namespace HiddenRule

namespace Symbol

/-
  The ways to write a content: a symbol as it is shown in a
  table, and nothing by two underscores or two dots.
-/
inductive Spelled : Symbol → List Char → Prop
| underscores : Spelled .empty ['_', '_']
| dots : Spelled .empty ['.', '.']
| shown
    (color : Color)
    (shape : Shape) :
    Spelled (.filled color shape)
      (filled color shape).text.toList

theorem Spelled.token
    {symbol : Symbol}
    {word : List Char}
    (hSpelled : Spelled symbol word) :
    Token symbol word := by
  cases hSpelled with
  | underscores => exact .underscores
  | dots => exact .dots
  | shown color shape => exact token_text color shape

end Symbol

namespace Board

/- A board written out with gaps is read again. -/
theorem ofText_spaced
    {board : Board}
    {gap word : Fin 9 → List Char}
    {trail : List Char}
    (hSpelled :
      ∀ i, Symbol.Spelled (board.symbolAt i) (word i))
    (hGaps :
      Text.Gaps (List.ofFn fun i => (gap i, word i)) trail) :
    ofText (String.ofList
        (Text.spaced (List.ofFn fun i => (gap i, word i))
          trail)) =
      .ok board := by
  have hWords :
      ∀ piece ∈ List.ofFn fun i => (gap i, word i),
        Text.IsWord piece.2 := by
    intro piece hPiece
    rcases List.mem_ofFn.mp hPiece with ⟨i, rfl⟩
    exact (hSpelled i).token.isWord
  rw [ofText_eq_iff, String.toList_ofList,
    Text.words_spaced hGaps hWords]
  rw [List.map_ofFn]
  refine .board List.length_ofFn ?_
  intro i
  refine ⟨word i, ?_, (hSpelled i).token⟩
  rw [List.getElem?_ofFn, dif_pos i.isLt]
  rfl

end Board

------------------------------------------------------------
-- Tables
------------------------------------------------------------

namespace Symbol

/- Contents look different. -/
theorem text_injective
    {left right : Symbol}
    (hText : left.text = right.text) :
    left = right := by
  have hBlank
      (color : Color)
      (shape : Shape) :
      empty.text ≠ (filled color shape).text := by
    cases color <;> cases shape <;> decide
  cases left with
  | empty =>
      cases right with
      | empty => rfl
      | filled color shape =>
          exact absurd hText (hBlank color shape)
  | filled color shape =>
      cases right with
      | empty => exact absurd hText.symm (hBlank color shape)
      | filled other further =>
          apply (token_text color shape).unique
          rw [hText]
          exact token_text other further

/- No content is shown by a line of a table. -/
theorem not_mem_text
    (symbol : Symbol) :
    '|' ∉ symbol.text.toList ∧ '\n' ∉ symbol.text.toList := by
  cases symbol with
  | empty => decide
  | filled color shape =>
      cases color <;> cases shape <;> decide

end Symbol

namespace Board

/- A row shows its contents. -/
theorem tableRow_injective
    {left right : List Symbol}
    (hLength : left.length = right.length)
    (hRow : tableRow left = tableRow right) :
    left = right := by
  have hApart
      (row : List Symbol) :
      ∀ part ∈ row.map Symbol.text, '|' ∉ part.toList := by
    intro part hPart
    rcases List.mem_map.mp hPart with ⟨symbol, _, rfl⟩
    exact symbol.not_mem_text.1
  cases left with
  | nil => exact (List.length_eq_zero_iff.mp hLength.symm).symm
  | cons symbol rest =>
      have hRight : right ≠ [] := by
        rintro rfl
        exact nomatch hLength
      have hTexts :
          (symbol :: rest).map Symbol.text =
            right.map Symbol.text :=
        Text.intercalate_injective rfl (hApart _) (hApart _)
          (List.cons_ne_nil _ _) (by simpa using hRight) hRow
      exact
        (List.map_inj_right fun _ _ =>
          Symbol.text_injective).mp hTexts

/- No line of a table is broken. -/
theorem unbroken_tableLines
    (cells : List Symbol) :
    ∀ line ∈ tableLines cells, '\n' ∉ line.toList := by
  have hRow
      (row : List Symbol) :
      '\n' ∉ (tableRow row).toList := by
    intro hMem
    rcases Text.mem_intercalate hMem with
      hBetween | ⟨part, hPart, hBreak⟩
    · revert hBetween
      decide
    · rcases List.mem_map.mp hPart with ⟨symbol, _, rfl⟩
      exact symbol.not_mem_text.2 hBreak
  have hRule : '\n' ∉ tableRule.toList := by
    decide
  simp [tableLines, hRow, hRule]

/- Boards of the same table are equal. -/
theorem table_injective
    {left right : Board}
    (hTable : left.table = right.table) :
    left = right := by
  have hLines :
      tableLines left.toList = tableLines right.toList := by
    rw [table, tableOf, if_pos left.length_toList, table,
      tableOf, if_pos right.length_toList] at hTable
    exact Text.intercalate_injective rfl
      (unbroken_tableLines _) (unbroken_tableLines _)
      (List.cons_ne_nil _ _) (List.cons_ne_nil _ _) hTable
  simp only [tableLines, List.cons.injEq, true_and,
    and_true] at hLines
  rcases hLines with ⟨hFirst, hMiddle, hLast⟩
  have hLength :
      left.toList.length = right.toList.length := by
    rw [length_toList, length_toList]
  have hTop := tableRow_injective (by simp [hLength]) hFirst
  have hBelow := tableRow_injective (by simp [hLength]) hMiddle
  have hBottom := tableRow_injective (by simp [hLength]) hLast
  apply toList_injective
  rw [← List.take_append_drop 3 left.toList,
    ← List.take_append_drop 3 right.toList, hTop,
    ← List.take_append_drop 3 (left.toList.drop 3),
    ← List.take_append_drop 3 (right.toList.drop 3), hBelow,
    List.drop_drop, List.drop_drop, hBottom]

------------------------------------------------------------
-- Main Theorem
------------------------------------------------------------

/-
  A text is read as its runs say; a board is read from its
  tokens, whatever blanks are between and around them; and a
  board is determined by its table.
-/
theorem text_determines_board :
    (∀ text : String, ∃ words,
      (∀ runs,
        Text.AreRuns text.toList runs ↔ runs = words) ∧
        ∀ outcome,
          ofText text = outcome ↔ ReadsAs words outcome) ∧
    (∀ (board : Board) (gap word : Fin 9 → List Char)
      (trail : List Char),
        (∀ i, Symbol.Spelled (board.symbolAt i) (word i)) →
          Text.Gaps (List.ofFn fun i => (gap i, word i))
            trail →
            ofText (String.ofList (Text.spaced
                (List.ofFn fun i => (gap i, word i)) trail)) =
              .ok board) ∧
    ∀ left right : Board,
      left.table = right.table → left = right := by
  refine ⟨?_, ?_, fun _ _ => table_injective⟩
  · intro text
    exact ⟨Text.words text.toList,
      fun _ => Text.areRuns_iff, fun _ => ofText_eq_iff⟩
  · intro board gap word trail hSpelled hGaps
    exact ofText_spaced hSpelled hGaps

/- Nine tokens with three sorts of blanks, read as a board. -/
theorem text_of_three_symbols :
    let board :=
      ofList
        [.filled .red .circle, .empty, .empty,
         .empty, .filled .yellow .triangle, .empty,
         .empty, .empty, .filled .blue .square]
    ofText "\trC __ ..\n__ yT\u3000 ..\n__ .. bS " =
      .ok board := by
  intro board
  let gap : Fin 9 → List Char
    | 0 => ['\t']
    | 3 | 6 => ['\n']
    | 5 => ['\u3000', ' ']
    | _ => [' ']
  let word : Fin 9 → List Char
    | 0 => ['r', 'C']
    | 4 => ['y', 'T']
    | 8 => ['b', 'S']
    | 1 | 3 | 6 => ['_', '_']
    | _ => ['.', '.']
  have hSpelled :
      ∀ i, Symbol.Spelled (board.symbolAt i) (word i)
    | 0 => .shown .red .circle
    | 4 => .shown .yellow .triangle
    | 8 => .shown .blue .square
    | 1 | 3 | 6 => .underscores
    | 2 | 5 | 7 => .dots
  have hBlank :
      (List.ofFn fun i => (gap i, word i)).all
        (fun piece => piece.1.all Text.isBlank) = true := by
    decide
  have hGaps :
      Text.Gaps (List.ofFn fun i => (gap i, word i)) [' '] :=
    { blank := by simpa only [List.all_eq_true] using hBlank
      apart := by decide
      trail := List.forall_mem_singleton.mpr rfl }
  exact text_determines_board.2.1 board gap word [' '] hSpelled
    hGaps

end Board

end HiddenRule
