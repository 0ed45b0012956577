import HiddenRule.Json.Reading
import Mathlib.Data.List.TakeWhile

/-
  This file proves that a JSON value is read back from the
  text that is written for it.

  A number is kept as it was written, so this holds of the
  values whose numbers are written in decimal digits, and
  whose texts have a value.

  Main declarations:
    * `Numeral.ofDigits?_toDigits`
    * `Json.isNumber_toDigits`
    * `Json.readString_quoted`
    * `Json.Plain`
    * `Json.Plain.readValue_render`
    * `Json.Plain.parse?_render`
-/

------------------------------------------------------------
-- Digits
------------------------------------------------------------

namespace HiddenRule

namespace Numeral

/- A decimal digit has the value that it stands for. -/
theorem digitValue?_of_isDigit
    {c : Char}
    (hDigit : c.isDigit = true) :
    digitValue? 10 c = some (c.toNat - '0'.toNat) := by
  have hDecimal : '0' ≤ c ∧ c ≤ '9' := by
    simpa [Char.isDigit, Char.le_def] using hDigit
  have hLt : c.toNat - '0'.toNat < 10 := by
    have hRange := Char.isDigit_iff_toNat.mp hDigit
    have hNine : '9'.toNat = '0'.toNat + 9 := rfl
    omega
  rw [digitValue?, if_pos hDecimal]
  simp only [Option.filter_some, hLt, decide_true, if_true]

/- Decimal digits write the number that they stand for. -/
theorem ofDigitsFrom?_of_isDigit
    {digits : List Char}
    (hDigits : ∀ c ∈ digits, c.isDigit = true)
    (n : Nat) :
    ofDigitsFrom? 10 n digits =
      some (Nat.ofDigitChars 10 digits n) := by
  induction digits generalizing n with
  | nil => simp [ofDigitsFrom?]
  | cons c rest ih =>
      rw [List.forall_mem_cons] at hDigits
      rw [ofDigitsFrom?, digitValue?_of_isDigit hDigits.1,
        Nat.ofDigitChars_cons, Nat.mul_comm 10 n]
      exact ih hDigits.2 _

/- The digits of a number are digits. -/
theorem isDigit_of_mem_toDigits
    (n : Nat) :
    ∀ c ∈ Nat.toDigits 10 n, c.isDigit = true :=
  fun _ => Nat.isDigit_of_mem_toDigits (by decide) (by decide)

/- A number is read back from its decimal digits. -/
theorem ofDigits?_toDigits
    (n : Nat) :
    ofDigits? 10 (Nat.toDigits 10 n) = some n := by
  rw [ofDigits?, if_neg (by simp),
    ofDigitsFrom?_of_isDigit (isDigit_of_mem_toDigits n),
    Nat.ofDigitChars_ten_toDigits]

/- A number above 0 does not begin with a zero. -/
theorem head_toDigits_ne_zero
    {n : Nat}
    (hPos : 0 < n) :
    ∃ c rest,
      Nat.toDigits 10 n = c :: rest ∧ c ≠ '0' := by
  induction n using Nat.base_induction 10 (by decide) with
  | single n hLt =>
      rw [Nat.toDigits_of_lt_base hLt]
      refine ⟨_, [], rfl, ?_⟩
      intro hZero
      have hBack := Nat.toNat_digitChar_sub_48_of_lt_ten hLt
      rw [hZero] at hBack
      exact absurd hBack (Nat.ne_of_lt hPos)
  | digit n last hLast hPosFront ih =>
      rcases ih hPosFront with ⟨c, rest, hDigits, hNe⟩
      rw [← Nat.toDigits_append_toDigits (by decide)
        hPosFront hLast, hDigits]
      exact ⟨c, _, rfl, hNe⟩

end Numeral

end HiddenRule

------------------------------------------------------------
-- Numbers
------------------------------------------------------------

namespace HiddenRule

namespace Json

/- Digits that do not begin with a zero are a number. -/
theorem isNumber_of_isDigit
    {c : Char}
    {rest : List Char}
    (hDigits : ∀ d ∈ c :: rest, d.isDigit = true)
    (hNotZero : c ≠ '0') :
    isNumber (c :: rest) = true := by
  rw [List.forall_mem_cons] at hDigits
  have hNotMinus : c ≠ '-' := by
    rintro rfl
    exact absurd hDigits.1 (by decide)
  have hAfter : afterDigits (c :: rest) = some [] := by
    rw [afterDigits, if_pos hDigits.1]
    exact congrArg some
      (List.dropWhile_eq_nil_iff.mpr hDigits.2)
  have hUnsigned : isUnsigned (c :: rest) = true := by
    rw [isUnsigned.eq_2 _ (by simpa using hNotZero), hAfter]
    rfl
  rw [isNumber.eq_2 _ (by simpa using hNotMinus)]
  exact hUnsigned

/- The decimal digits of a number are a number. -/
theorem isNumber_toDigits
    (n : Nat) :
    isNumber (Nat.toDigits 10 n) = true := by
  rcases Nat.eq_zero_or_pos n with hZero | hPos
  · rw [hZero, Nat.toDigits_zero]
    rfl
  · rcases Numeral.head_toDigits_ne_zero hPos with
      ⟨c, rest, hDigits, hNe⟩
    have hAll := Numeral.isDigit_of_mem_toDigits n
    rw [hDigits] at hAll ⊢
    exact isNumber_of_isDigit hAll hNe

------------------------------------------------------------
-- Strings
------------------------------------------------------------

/- A control character is read back from its four digits. -/
theorem ofDigits?_hexPadded
    {n : Nat}
    (hControl : n < 32) :
    Numeral.ofDigits? 16 (Numeral.hexPadded 4 n).toList =
      some n := by
  have hAll :
      ∀ n < 32,
        Numeral.ofDigits? 16
          (Numeral.hexPadded 4 n).toList = some n := by
    decide
  exact hAll n hControl

/- It has four of them. -/
theorem exists_hexPadded
    {n : Nat}
    (hControl : n < 32) :
    ∃ a b c d,
      (Numeral.hexPadded 4 n).toList = [a, b, c, d] := by
  have hAll :
      ∀ n < 32,
        (Numeral.hexPadded 4 n).toList.length = 4 := by
    decide
  have hLength := hAll n hControl
  generalize (Numeral.hexPadded 4 n).toList = digits at *
  match digits, hLength with
  | [a, b, c, d], _ => exact ⟨a, b, c, d, rfl⟩

/- The characters that are escaped by one letter. -/
def lettered : List Char :=
  ['"', '\\', '\x08', '\t', '\n', '\x0c', '\r']

/-
  A character is escaped by a letter that stands for it, or
  by its digits, or it stands for itself.
-/
theorem escaped_cases
    (c : Char) :
    (∃ letter,
      escaped c = ['\\', letter] ∧ letter ≠ 'u' ∧
        escapeChar? letter = some c) ∨
    (c.toNat < 32 ∧
      escaped c =
        ['\\', 'u'] ++
          (Numeral.hexPadded 4 c.toNat).toList) ∨
    (escaped c = [c] ∧ c ≠ '"' ∧ c ≠ '\\' ∧ ¬ c < ' ') := by
  by_cases hLettered : c ∈ lettered
  · left
    simp only [lettered, List.mem_cons, List.not_mem_nil,
      or_false] at hLettered
    rcases hLettered with
      rfl | rfl | rfl | rfl | rfl | rfl | rfl <;>
    exact ⟨_, rfl, by decide, rfl⟩
  · right
    simp only [lettered, List.mem_cons, List.not_mem_nil,
      or_false, not_or] at hLettered
    by_cases hControl : c < ' '
    · left
      exact ⟨hControl, by simp [escaped, hLettered, hControl]⟩
    · right
      exact ⟨by simp [escaped, hLettered, hControl],
        hLettered.1, hLettered.2.1, hControl⟩

section

variable {rest left : List Char}
variable {pieces : List Piece}
variable (hRest : readPieces rest = some (pieces, left))

include hRest

/- A letter after a backslash stands for a character. -/
private theorem readPieces_letter
    {letter c : Char}
    (hLetter : letter ≠ 'u')
    (hChar : escapeChar? letter = some c) :
    readPieces ('\\' :: letter :: rest) =
      some (.char c :: pieces, left) := by
  rw [readPieces.eq_4 _ _ (by simp [hLetter])]
  simp [hChar, hRest]

/- Four digits stand for a control character. -/
private theorem readPieces_digits
    {c : Char}
    (hControl : c.toNat < 32) :
    readPieces
        ('\\' :: 'u' ::
          ((Numeral.hexPadded 4 c.toNat).toList ++ rest)) =
      some (.char c :: pieces, left) := by
  have hUnit := ofDigits?_hexPadded hControl
  rcases exists_hexPadded hControl with
    ⟨p, q, r, s, hDigits⟩
  have hPiece : Piece.ofUnit c.toNat = .char c := by
    rw [Piece.ofUnit, if_neg (by omega), Char.ofNat_toNat]
  rw [hDigits] at hUnit ⊢
  simp [readPieces, hUnit, hRest, hPiece]

/- Another character stands for itself. -/
private theorem readPieces_itself
    {c : Char}
    (hNotQuote : c ≠ '"')
    (hNotBackslash : c ≠ '\\')
    (hNotControl : ¬ c < ' ') :
    readPieces (c :: rest) =
      some (.char c :: pieces, left) := by
  rw [readPieces.eq_5 _ _ (by simp [hNotQuote])
    (by simp [hNotBackslash]) (by simp [hNotBackslash]),
    if_neg hNotControl, hRest]
  rfl

/- An escaped character is read as that character. -/
theorem readPieces_escaped
    (c : Char) :
    readPieces (escaped c ++ rest) =
      some (.char c :: pieces, left) := by
  rcases escaped_cases c with
    ⟨letter, hEscaped, hLetter, hChar⟩ |
    ⟨hControl, hEscaped⟩ |
    ⟨hEscaped, hNotQuote, hNotBackslash, hNotControl⟩
  · rw [hEscaped]
    exact readPieces_letter hRest hLetter hChar
  · rw [hEscaped, List.append_assoc, List.cons_append,
      List.singleton_append]
    exact readPieces_digits hRest hControl
  · rw [hEscaped]
    exact readPieces_itself hRest hNotQuote hNotBackslash
      hNotControl

end

/- Escaped characters are read up to the closing quote. -/
theorem readPieces_flatMap_escaped
    (chars rest : List Char) :
    readPieces (chars.flatMap escaped ++ '"' :: rest) =
      some (chars.map Piece.char, rest) := by
  induction chars with
  | nil => simp [readPieces]
  | cons c chars ih =>
      rw [List.flatMap_cons, List.append_assoc]
      exact readPieces_escaped ih c

/- Characters that are no halves make up their text. -/
theorem joinPieces_map_char
    (chars : List Char) :
    joinPieces (chars.map Piece.char) = some chars := by
  induction chars with
  | nil => rfl
  | cons c chars ih =>
      rw [List.map_cons, joinPieces, ih]
      rfl

/- A text in quotes is read back. -/
theorem readString_quoted
    (text : String) :
    ∃ inside,
      quoted (some text) = '"' :: inside ∧
        ∀ rest,
          readString (inside ++ rest) =
            some (some text, rest) := by
  refine ⟨text.toList.flatMap escaped ++ ['"'], rfl, ?_⟩
  intro rest
  rw [List.append_assoc, List.singleton_append, readString,
    readPieces_flatMap_escaped]
  simp [joinPieces_map_char]

------------------------------------------------------------
-- Values
------------------------------------------------------------

/-
  A value is plain if its texts have a value, its numbers
  are written in decimal digits and no name stands twice in
  an object, all the way down.
-/
inductive Plain : Json → Prop
| null : Plain .null
| bool (b : Bool) : Plain (.bool b)
| number (n : Nat) : Plain (.ofNat n)
| string (text : String) : Plain (.ofString text)
| array {items : List Json} :
    (∀ item ∈ items, Plain item) →
    Plain (.array items)
| object {members : List (Option String × Json)} :
    (∀ member ∈ members, ∃ name, member.1 = some name) →
    (members.map Prod.fst).Nodup →
    (∀ member ∈ members, Plain member.2) →
    Plain (.object members)

/- What follows a number does not go on with it. -/
def EndsNumber
    (rest : List Char) : Prop :=
  ∀ c ∈ rest.head?, isNumberChar c = false

/- Blanks are skipped up to the first other character. -/
theorem skipBlanks_cons
    {c : Char}
    (hNotBlank : isBlank c = false)
    (rest : List Char) :
    skipBlanks (c :: rest) = c :: rest := by
  rw [skipBlanks, List.dropWhile_cons,
    if_neg (by simp [hNotBlank])]

/- A digit is no other character. -/
theorem ne_of_isDigit
    {c other : Char}
    (hDigit : c.isDigit = true)
    (hOther : other.isDigit = false) :
    c ≠ other := by
  rintro rfl
  exact absurd hDigit (by simp [hOther])

/- A digit is not blank. -/
theorem not_isBlank_of_isDigit
    {c : Char}
    (hDigit : c.isDigit = true) :
    isBlank c = false := by
  have hNe (other : Char) (hOther : other.isDigit = false) :=
    ne_of_isDigit hDigit hOther
  simp [isBlank, hNe]

/- A digit begins a number, and no other value. -/
theorem readValue_digit
    {steps : Nat}
    {c : Char}
    (hDigit : c.isDigit = true)
    (rest : List Char) :
    readValue (steps + 1) (c :: rest) =
      let token := (c :: rest).takeWhile isNumberChar
      if isNumber token then
        some (.number token,
          (c :: rest).dropWhile isNumberChar)
      else
        none := by
  rw [readValue,
    skipBlanks_cons (not_isBlank_of_isDigit hDigit)]
  split <;> simp_all

/- A number is read up to what does not go on with it. -/
theorem readValue_toDigits
    {steps : Nat}
    (n : Nat)
    {rest : List Char}
    (hEnds : EndsNumber rest) :
    readValue (steps + 1) (Nat.toDigits 10 n ++ rest) =
      some (.ofNat n, rest) := by
  have hDigits := Numeral.isDigit_of_mem_toDigits n
  have hChars :
      ∀ c ∈ Nat.toDigits 10 n, isNumberChar c = true :=
    fun c hMem => by simp [isNumberChar, hDigits c hMem]
  have hTake :
      (Nat.toDigits 10 n ++ rest).takeWhile isNumberChar =
        Nat.toDigits 10 n := by
    rw [List.takeWhile_append_of_pos hChars]
    cases rest with
    | nil => simp
    | cons c rest => simp [hEnds c rfl]
  have hDrop :
      (Nat.toDigits 10 n ++ rest).dropWhile isNumberChar =
        rest := by
    rw [List.dropWhile_append_of_pos hChars]
    cases rest with
    | nil => rfl
    | cons c rest => simp [hEnds c rfl]
  cases hSplit : Nat.toDigits 10 n with
  | nil => exact absurd hSplit Nat.toDigits_ne_nil
  | cons c later =>
      rw [hSplit] at hTake hDrop hDigits
      rw [List.cons_append,
        readValue_digit (hDigits c List.mem_cons_self)]
      rw [← List.cons_append, hTake, hDrop, ← hSplit]
      simp [isNumber_toDigits, ofNat]

/- A value begins with a character that ends no list. -/
theorem Plain.exists_head
    {value : Json}
    (hPlain : value.Plain) :
    ∃ c tail,
      value.render = c :: tail ∧
        isBlank c = false ∧ c ≠ ']' := by
  cases hPlain with
  | null => exact ⟨_, _, rfl, by decide, by decide⟩
  | bool b =>
      cases b <;> exact ⟨_, _, rfl, by decide, by decide⟩
  | number n =>
      cases hSplit : Nat.toDigits 10 n with
      | nil => exact absurd hSplit Nat.toDigits_ne_nil
      | cons c later =>
          have hDigit := Numeral.isDigit_of_mem_toDigits n c
            (by rw [hSplit]; exact List.mem_cons_self)
          refine ⟨c, later, ?_, ?_, ?_⟩
          · rw [ofNat, render, hSplit]
          · exact not_isBlank_of_isDigit hDigit
          · exact ne_of_isDigit hDigit (by decide)
  | string text =>
      exact ⟨'"', _, rfl, by decide, by decide⟩
  | array _ =>
      exact ⟨'[', _, by rw [render], by decide, by decide⟩
  | object _ _ _ =>
      exact ⟨'\x7b', _, by rw [render], by decide, by decide⟩

------------------------------------------------------------
-- Values Read Back
------------------------------------------------------------

/-
  A value is read back from its text, whatever follows it,
  if there are as many steps as the text has characters.
-/
def ReadsBack
    (value : Json) : Prop :=
  ∀ steps rest,
    value.render.length ≤ steps →
      EndsNumber rest →
        readValue steps (value.render ++ rest) =
          some (value, rest)

/- The first character of a text leaves a step to take. -/
theorem readsBack_of_cons
    {value : Json}
    {c : Char}
    {tail : List Char}
    (hText : value.render = c :: tail)
    (hRead :
      ∀ steps rest,
        tail.length ≤ steps →
          EndsNumber rest →
            readValue (steps + 1) (c :: (tail ++ rest)) =
              some (value, rest)) :
    ReadsBack value := by
  intro steps rest hSteps hEnds
  rw [hText] at hSteps ⊢
  cases steps with
  | zero => exact absurd hSteps (Nat.not_succ_le_zero _)
  | succ steps =>
      exact hRead steps rest
        (Nat.le_of_succ_le_succ hSteps) hEnds

/- Items are read back up to the bracket behind them. -/
theorem readItems_render
    {item : Json}
    {items : List Json}
    (hItems :
      ∀ other ∈ item :: items, ReadsBack other)
    {steps : Nat}
    (rest : List Char)
    (hSteps :
      (renderItems (item :: items)).length ≤ steps) :
    readItems steps (renderItems (item :: items) ++ rest) =
      some (item :: items, rest) := by
  induction items generalizing item steps with
  | nil =>
      rw [renderItems, List.length_append,
        List.length_singleton] at hSteps
      obtain ⟨steps, rfl⟩ :=
        Nat.exists_eq_add_of_le'
          (Nat.le_of_add_left_le hSteps)
      have hItem :=
        hItems item List.mem_cons_self steps (']' :: rest)
          (by omega) (by rintro c ⟨rfl⟩; decide)
      rw [renderItems, List.append_assoc,
        List.singleton_append, readItems, hItem]
      simp [skipBlanks_cons (c := ']') (by decide)]
  | cons next items ih =>
      rw [renderItems.eq_3 _ _ (by simp), List.length_append,
        List.length_cons] at hSteps
      have hPos : 1 ≤ steps := by omega
      obtain ⟨steps, rfl⟩ := Nat.exists_eq_add_of_le' hPos
      have hItem :=
        hItems item List.mem_cons_self steps
          (',' :: (renderItems (next :: items) ++ rest))
          (by omega) (by rintro c ⟨rfl⟩; decide)
      have hRest :
          (renderItems (next :: items)).length ≤ steps := by
        omega
      have hLater :=
        ih (fun other hMem =>
          hItems other (List.mem_cons_of_mem _ hMem)) hRest
      rw [renderItems.eq_3 _ _ (by simp), List.append_assoc,
        List.cons_append, readItems, hItem]
      simp [skipBlanks_cons (c := ',') (by decide), hLater]

/- A name and a colon are read in front of a value. -/
theorem readMembers_name
    {steps : Nat}
    {name : String}
    {value : Json}
    {after left : List Char}
    (hValue :
      readValue steps after = some (value, left)) :
    readMembers (steps + 1)
        (quoted (some name) ++ ':' :: after) =
      match skipBlanks left with
      | '\x7d' :: left => some ([(some name, value)], left)
      | ',' :: left => do
          let (later, left) ← readMembers steps left
          return ((some name, value) :: later, left)
      | _ => none := by
  rcases readString_quoted name with
    ⟨inside, hQuoted, hInside⟩
  rw [hQuoted, List.cons_append, readMembers,
    skipBlanks_cons (c := '"') (by decide)]
  simp only [hInside, Option.bind_eq_bind, Option.bind_some,
    skipBlanks_cons (c := ':') (by decide), hValue]
  rfl

/- Members are read back up to the brace behind them. -/
theorem readMembers_render
    {name : String}
    {value : Json}
    {members : List (Option String × Json)}
    (hNames :
      ∀ member ∈ members, ∃ name, member.1 = some name)
    (hValue : ReadsBack value)
    (hMembers : ∀ member ∈ members, ReadsBack member.2)
    {steps : Nat}
    (rest : List Char)
    (hSteps :
      (renderMembers ((some name, value) :: members)).length ≤
        steps) :
    readMembers steps
        (renderMembers ((some name, value) :: members) ++
          rest) =
      some ((some name, value) :: members, rest) := by
  induction members generalizing name value steps with
  | nil =>
      simp only [renderMembers, List.length_append,
        List.length_cons] at hSteps
      have hPos : 1 ≤ steps := by omega
      obtain ⟨steps, rfl⟩ := Nat.exists_eq_add_of_le' hPos
      have hRead :=
        hValue steps ('\x7d' :: rest) (by omega)
          (by rintro c ⟨rfl⟩; decide)
      rw [renderMembers, List.append_assoc, List.cons_append,
        List.append_assoc, List.singleton_append,
        readMembers_name hRead,
        skipBlanks_cons (c := '\x7d') (by decide)]
      rfl
  | cons next members ih =>
      rcases next with ⟨nextName, nextValue⟩
      rw [List.forall_mem_cons] at hNames hMembers
      rcases hNames with ⟨⟨text, rfl⟩, hNames⟩
      rw [renderMembers.eq_3 _ _ _ (by simp)] at hSteps ⊢
      simp only [List.length_append, List.length_cons]
        at hSteps
      have hPos : 1 ≤ steps := by omega
      obtain ⟨steps, rfl⟩ := Nat.exists_eq_add_of_le' hPos
      have hRead :=
        hValue steps
          (',' ::
            (renderMembers ((some text, nextValue) ::
              members) ++ rest))
          (by omega) (by rintro c ⟨rfl⟩; decide)
      have hNext : ReadsBack nextValue := hMembers.1
      have hRest :
          (renderMembers ((some text, nextValue) ::
            members)).length ≤ steps := by
        omega
      have hLater := ih hNames hNext hMembers.2 hRest
      rw [List.append_assoc, List.cons_append,
        List.append_assoc, List.cons_append,
        readMembers_name hRead,
        skipBlanks_cons (c := ',') (by decide)]
      simp [hLater]

/- A row of items in brackets is read back. -/
theorem readsBack_array
    {items : List Json}
    (hPlain : ∀ item ∈ items, item.Plain)
    (hItems : ∀ item ∈ items, ReadsBack item) :
    ReadsBack (.array items) := by
  refine readsBack_of_cons (by rw [render]) ?_
  intro steps rest hSteps _
  rw [readValue, skipBlanks_cons (c := '[') (by decide)]
  cases items with
  | nil => simp [renderItems, skipBlanks_cons, isBlank]
  | cons item items =>
      have hRead := readItems_render hItems rest hSteps
      rcases (hPlain item List.mem_cons_self).exists_head with
        ⟨c, tail, hHead, hNotBlank, hNotEnd⟩
      have hFirst :
          ∃ later,
            renderItems (item :: items) ++ rest =
              c :: later := by
        cases items <;>
          simp [renderItems, hHead]
      rcases hFirst with ⟨later, hFirst⟩
      rw [hFirst] at hRead ⊢
      simp [skipBlanks_cons hNotBlank, hNotEnd, hRead]

/- A row of members in braces is read back. -/
theorem readsBack_object
    {members : List (Option String × Json)}
    (hNames :
      ∀ member ∈ members, ∃ name, member.1 = some name)
    (hMembers : ∀ member ∈ members, ReadsBack member.2) :
    ReadsBack (.object members) := by
  refine readsBack_of_cons (by rw [render]) ?_
  intro steps rest hSteps _
  rw [readValue, skipBlanks_cons (c := '\x7b') (by decide)]
  cases members with
  | nil => simp [renderMembers, skipBlanks_cons, isBlank]
  | cons member members =>
      rcases member with ⟨name?, value⟩
      rw [List.forall_mem_cons] at hNames hMembers
      rcases hNames with ⟨⟨name, rfl⟩, hNames⟩
      have hValue : ReadsBack value := hMembers.1
      have hRead :=
        readMembers_render hNames hValue hMembers.2 rest
          hSteps
      have hFirst :
          ∃ later,
            renderMembers ((some name, value) :: members) ++
                rest =
              '"' :: later := by
        cases members <;>
          simp [renderMembers, quoted]
      rcases hFirst with ⟨later, hFirst⟩
      rw [hFirst] at hRead ⊢
      simp [skipBlanks_cons (c := '"') (by decide), hRead]

/- A number is read back. -/
theorem readsBack_ofNat
    (n : Nat) :
    ReadsBack (.ofNat n) := by
  rcases (Plain.number n).exists_head with
    ⟨c, tail, hText, -⟩
  refine readsBack_of_cons hText ?_
  intro steps rest _ hEnds
  rw [← List.cons_append, ← hText]
  exact readValue_toDigits n hEnds

/- A text is read back. -/
theorem readsBack_ofString
    (text : String) :
    ReadsBack (.ofString text) := by
  rcases readString_quoted text with
    ⟨inside, hQuoted, hInside⟩
  refine readsBack_of_cons hQuoted ?_
  intro steps rest _ _
  rw [readValue, skipBlanks_cons (c := '"') (by decide)]
  simp only [hInside, Option.bind_eq_bind, Option.bind_some]
  rfl

/- A plain value is read back from its text. -/
theorem Plain.readsBack
    {value : Json}
    (hPlain : value.Plain) :
    ReadsBack value := by
  induction hPlain with
  | null => exact readsBack_of_cons rfl fun _ _ _ _ => rfl
  | bool b =>
      cases b <;>
        exact readsBack_of_cons rfl fun _ _ _ _ => rfl
  | number n => exact readsBack_ofNat n
  | string text => exact readsBack_ofString text
  | array hPlain ih => exact readsBack_array hPlain ih
  | object hNames _ _ ih => exact readsBack_object hNames ih

/- A plain value is the one that its text writes. -/
theorem Plain.parse?_render
    {value : Json}
    (hPlain : value.Plain) :
    parse? value.render = some value := by
  have hRead :=
    hPlain.readsBack (2 * value.render.length + 2) []
      (by omega) (by simp [EndsNumber])
  rw [List.append_nil] at hRead
  rw [parse?, hRead]
  rfl

end Json

end HiddenRule
