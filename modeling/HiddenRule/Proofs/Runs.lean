import HiddenRule.Text.Blank
import Mathlib.Data.List.TakeWhile

/-
  This file proves that the words of a text are its longest
  runs of characters that are no blanks, one after another.

  A run is given by the positions where it starts and stops.
  Every text is made of words with gaps around them, and only
  the last gap and the first may be missing.  A gap and a
  word at the front of a text are one run, and the others are
  those of the rest, so many positions later.

  A text that was joined by one character, which is in none
  of the parts, is taken apart at that character.

  Main declarations:
    * `Text.IsRun` and `Text.AreRuns`
    * `Text.isRun_front_iff` and `Text.AreRuns.cons`
    * `Text.spaced`, `Text.Gaps` and `Text.words_spaced`
    * `Text.areRuns_spaced` and `Text.exists_spaced`
    * `Text.areRuns_iff`
    * `Text.intercalate_injective`
-/

------------------------------------------------------------
-- Runs Of Letters
------------------------------------------------------------

namespace HiddenRule

namespace Text

/- A position of a text that holds no blank. -/
def LetterAt
    (text : List Char)
    (i : Nat) : Prop :=
  ∃ c, text[i]? = some c ∧ isBlank c = false

/-
  A run of characters that are no blanks, from a position up
  to another, which cannot be made longer.
-/
structure IsRun
    (text : List Char)
    (start stop : Nat) : Prop where
  start_lt : start < stop
  letters : ∀ i, start ≤ i → i < stop → LetterAt text i
  starts : ∀ i, i + 1 = start → ¬ LetterAt text i
  stops : ¬ LetterAt text stop

/- The runs of a text, all of them and in order. -/
def AreRuns
    (text : List Char)
    (runs : List (List Char)) : Prop :=
  ∃ places : List (Nat × Nat),
    places.Pairwise (fun one next => one.1 < next.1) ∧
      (∀ start stop,
        (start, stop) ∈ places ↔ IsRun text start stop) ∧
      runs = places.map fun place =>
        text.extract place.1 place.2

/- A text has only one list of runs. -/
theorem AreRuns.unique
    {text : List Char}
    {runs others : List (List Char)}
    (hRuns : AreRuns text runs)
    (hOthers : AreRuns text others) :
    runs = others := by
  rcases hRuns with ⟨places, hOrder, hPlaces, rfl⟩
  rcases hOthers with ⟨further, hSorted, hFurther, rfl⟩
  have hNodup :
      ∀ {found : List (Nat × Nat)},
        found.Pairwise (fun one next => one.1 < next.1) →
          found.Nodup := by
    intro found hFound
    apply hFound.imp
    intro one next hLt hSame
    rw [hSame] at hLt
    exact Nat.lt_irrefl _ hLt
  have hPerm : places.Perm further := by
    rw [List.perm_ext_iff_of_nodup (hNodup hOrder)
      (hNodup hSorted)]
    intro place
    exact (hPlaces place.1 place.2).trans
      (hFurther place.1 place.2).symm
  have hSame : places = further := by
    apply hPerm.eq_of_pairwise _ hOrder hSorted
    intro one next _ _ hLt hGt
    exact absurd hGt (Nat.lt_asymm hLt)
  rw [hSame]

------------------------------------------------------------
-- A Gap And A Word In Front
------------------------------------------------------------

/- A word has characters, and none of them is a blank. -/
structure IsWord
    (word : List Char) : Prop where
  ne_nil : word ≠ []
  letters : ∀ c ∈ word, isBlank c = false

theorem not_letterAt_of_blank
    {gap : List Char}
    (hGap : ∀ c ∈ gap, isBlank c = true)
    (i : Nat) :
    ¬ LetterAt gap i := by
  intro ⟨c, hAt, hLetter⟩
  rw [hGap c (List.mem_of_getElem? hAt)] at hLetter
  exact nomatch hLetter

/- A text of blanks has no runs. -/
theorem areRuns_of_blank
    {gap : List Char}
    (hGap : ∀ c ∈ gap, isBlank c = true) :
    AreRuns gap [] := by
  refine ⟨[], List.Pairwise.nil, ?_, rfl⟩
  intro start stop
  refine ⟨nofun, fun hRun => ?_⟩
  exact absurd
    (hRun.letters start (Nat.le_refl _) hRun.start_lt)
    (not_letterAt_of_blank hGap start)

section

variable {gap word rest : List Char}
variable (hGap : ∀ c ∈ gap, isBlank c = true)
variable (hWord : IsWord word)

include hGap hWord

/- The letters are those of the word and of the rest. -/
theorem letterAt_front_iff
    (i : Nat) :
    LetterAt (gap ++ (word ++ rest)) i ↔
      (gap.length ≤ i ∧ i < gap.length + word.length) ∨
        ∃ j,
          i = gap.length + word.length + j ∧
            LetterAt rest j := by
  unfold LetterAt
  rw [List.getElem?_append]
  split
  · rename_i hBefore
    have hNone := not_letterAt_of_blank hGap i
    constructor
    · intro hLetter
      exact absurd hLetter hNone
    · rintro (hInside | ⟨j, hBehind, _⟩) <;> omega
  · rename_i hBehind
    rw [List.getElem?_append]
    split
    · rename_i hInside
      constructor
      · intro _
        left
        omega
      · intro _
        refine ⟨_, List.getElem?_eq_getElem hInside, ?_⟩
        exact hWord.letters _ (List.getElem_mem hInside)
    · rename_i hLater
      constructor
      · intro hLetter
        right
        exact ⟨i - gap.length - word.length, by omega,
          hLetter⟩
      · rintro (hInside | ⟨j, rfl, hLetter⟩)
        · omega
        · have hBack :
              gap.length + word.length + j - gap.length -
                  word.length = j := by
            omega
          rw [hBack]
          exact hLetter

/- What is behind the word is shifted by what is before. -/
theorem letterAt_behind_iff
    (j : Nat) :
    LetterAt (gap ++ (word ++ rest))
        (gap.length + word.length + j) ↔
      LetterAt rest j := by
  rw [letterAt_front_iff hGap hWord]
  constructor
  · rintro (hInside | ⟨i, hSame, hLetter⟩)
    · omega
    · rwa [Nat.add_left_cancel hSame]
  · intro hLetter
    exact Or.inr ⟨j, rfl, hLetter⟩

variable (hRest : ¬ LetterAt rest 0)

include hRest

/- The word ends where the rest begins. -/
theorem not_letterAt_behind :
    ¬ LetterAt (gap ++ (word ++ rest))
      (gap.length + word.length) :=
  fun hLetter =>
    hRest ((letterAt_behind_iff hGap hWord 0).mp hLetter)

/- The word is a run. -/
theorem isRun_word :
    IsRun (gap ++ (word ++ rest)) gap.length
      (gap.length + word.length) := by
  have hSome : 0 < word.length :=
    List.length_pos_iff.mpr hWord.ne_nil
  refine
    { start_lt := by omega
      letters := ?_
      starts := ?_
      stops := not_letterAt_behind hGap hWord hRest }
  · intro i hFrom hTo
    exact (letterAt_front_iff hGap hWord i).mpr
      (Or.inl ⟨hFrom, hTo⟩)
  · intro i hBefore hLetter
    rcases (letterAt_front_iff hGap hWord i).mp hLetter with
      hInside | ⟨j, hBehind, _⟩ <;> omega

/- A run that starts before the rest is the word. -/
theorem eq_word_of_isRun
    {start stop : Nat}
    (hRun : IsRun (gap ++ (word ++ rest)) start stop)
    (hBefore : start < gap.length + word.length) :
    start = gap.length ∧ stop = gap.length + word.length := by
  have hFront := @letterAt_front_iff gap word rest hGap hWord
  have hLt := hRun.start_lt
  have hBreak := not_letterAt_behind hGap hWord hRest
  have hIn : gap.length ≤ start := by
    have hStart := hRun.letters start (Nat.le_refl _) hLt
    rcases (hFront start).mp hStart with
      hInside | ⟨first, hBehind, _⟩ <;> omega
  have hFrom : start = gap.length := by
    by_contra hNe
    apply hRun.starts (start - 1) (by omega)
    exact (hFront _).mpr (Or.inl (by omega))
  have hTo : stop ≤ gap.length + word.length := by
    by_contra hLong
    exact hBreak (hRun.letters _ (by omega) (by omega))
  refine ⟨hFrom, Nat.le_antisymm hTo ?_⟩
  by_contra hShort
  apply hRun.stops
  exact (hFront stop).mpr (Or.inl (by omega))

/- Behind the word are the runs of the rest. -/
theorem isRun_behind_iff
    (first last : Nat) :
    IsRun (gap ++ (word ++ rest))
        (gap.length + word.length + first)
        (gap.length + word.length + last) ↔
      IsRun rest first last := by
  have hBehind := @letterAt_behind_iff gap word rest hGap hWord
  constructor
  · intro hRun
    have hLt := hRun.start_lt
    refine
      { start_lt := by omega
        letters := ?_
        starts := ?_
        stops := fun hLetter =>
          hRun.stops ((hBehind last).mpr hLetter) }
    · intro i hFrom hTo
      exact (hBehind i).mp
        (hRun.letters _ (by omega) (by omega))
    · intro i hBefore hLetter
      exact hRun.starts _ (by omega) ((hBehind i).mpr hLetter)
  · intro hRun
    have hLt := hRun.start_lt
    -- The rest begins with no letter, so its runs do not
    -- touch the word.
    have hFirst : first ≠ 0 := by
      rintro rfl
      exact hRest (hRun.letters 0 (Nat.le_refl _) hLt)
    refine
      { start_lt := by omega
        letters := ?_
        starts := ?_
        stops := fun hLetter =>
          hRun.stops ((hBehind last).mp hLetter) }
    · intro i hFrom hTo
      rcases Nat.exists_eq_add_of_le
        (Nat.le_of_add_right_le hFrom) with ⟨j, rfl⟩
      exact (hBehind j).mpr
        (hRun.letters j (by omega) (by omega))
    · intro i hBefore hLetter
      have hInside : gap.length + word.length ≤ i := by
        omega
      rcases Nat.exists_eq_add_of_le hInside with ⟨j, rfl⟩
      exact hRun.starts j (by omega) ((hBehind j).mp hLetter)

/- The word is a run, and the others are behind it. -/
theorem isRun_front_iff
    (start stop : Nat) :
    IsRun (gap ++ (word ++ rest)) start stop ↔
      (start = gap.length ∧
          stop = gap.length + word.length) ∨
        ∃ first last,
          start = gap.length + word.length + first ∧
            stop = gap.length + word.length + last ∧
            IsRun rest first last := by
  constructor
  · intro hRun
    by_cases hBefore : start < gap.length + word.length
    · left
      exact eq_word_of_isRun hGap hWord hRest hRun hBefore
    · right
      have hFrom : gap.length + word.length ≤ start := by
        omega
      have hTo : gap.length + word.length ≤ stop :=
        Nat.le_trans hFrom (Nat.le_of_lt hRun.start_lt)
      rcases Nat.exists_eq_add_of_le hFrom with ⟨first, rfl⟩
      rcases Nat.exists_eq_add_of_le hTo with ⟨last, rfl⟩
      exact ⟨first, last, rfl, rfl,
        (isRun_behind_iff hGap hWord hRest _ _).mp hRun⟩
  · rintro (⟨rfl, rfl⟩ | ⟨first, last, rfl, rfl, hRun⟩)
    · exact isRun_word hGap hWord hRest
    · exact (isRun_behind_iff hGap hWord hRest _ _).mpr hRun

omit hGap hWord hRest in
/- A part of the rest is a part of the whole text. -/
theorem extract_behind
    (first last : Nat) :
    (gap ++ (word ++ rest)).extract
        (gap.length + word.length + first)
        (gap.length + word.length + last) =
      rest.extract first last := by
  simp only [List.extract_eq_take_drop,
    Nat.add_sub_add_left]
  rw [← List.append_assoc, ← List.length_append,
    List.drop_length_add_append]

/- The word is the first run, before those of the rest. -/
theorem AreRuns.cons
    {runs : List (List Char)}
    (hRuns : AreRuns rest runs) :
    AreRuns (gap ++ (word ++ rest)) (word :: runs) := by
  rcases hRuns with ⟨places, hOrder, hPlaces, rfl⟩
  refine ⟨(gap.length, gap.length + word.length) ::
    places.map fun place =>
      (gap.length + word.length + place.1,
        gap.length + word.length + place.2), ?_, ?_, ?_⟩
  · rw [List.pairwise_cons, List.pairwise_map]
    refine ⟨?_, hOrder.imp fun hLt => ?_⟩
    · intro place hPlace
      rcases List.mem_map.mp hPlace with
        ⟨⟨first, last⟩, _, rfl⟩
      have hSome : 0 < word.length :=
        List.length_pos_iff.mpr hWord.ne_nil
      dsimp only
      omega
    · exact Nat.add_lt_add_left hLt _
  · intro start stop
    rw [isRun_front_iff hGap hWord hRest, List.mem_cons,
      Prod.mk.injEq]
    refine or_congr_right ?_
    simp only [List.mem_map, Prod.mk.injEq, Prod.exists,
      hPlaces]
    constructor
    · rintro ⟨first, last, hRun, hStart, hStop⟩
      exact ⟨first, last, hStart.symm, hStop.symm, hRun⟩
    · rintro ⟨first, last, hStart, hStop, hRun⟩
      exact ⟨first, last, hRun, hStart.symm, hStop.symm⟩
  · rw [List.map_cons, List.map_map]
    congr 1
    · simp [List.extract_eq_take_drop]
    · exact List.map_congr_left fun place _ =>
        (extract_behind place.1 place.2).symm

end

end Text

end HiddenRule

------------------------------------------------------------
-- Words And Gaps
------------------------------------------------------------

namespace HiddenRule

namespace Text

/- A text of words, each behind a gap, and what is left. -/
def spaced :
    List (List Char × List Char) → List Char → List Char
| [], trail => trail
| (gap, word) :: pieces, trail =>
    gap ++ (word ++ spaced pieces trail)

/-
  The gaps hold blanks, and there is one between two words.
-/
structure Gaps
    (pieces : List (List Char × List Char))
    (trail : List Char) : Prop where
  blank : ∀ piece ∈ pieces, ∀ c ∈ piece.1, isBlank c = true
  apart : ∀ piece ∈ pieces.tail, piece.1 ≠ []
  trail : ∀ c ∈ trail, isBlank c = true

section

variable {gap word : List Char}
variable {pieces : List (List Char × List Char)}
variable {trail : List Char}

theorem Gaps.tail
    (hGaps : Gaps ((gap, word) :: pieces) trail) :
    Gaps pieces trail where
  blank := fun piece hPiece =>
    hGaps.blank piece (List.mem_cons_of_mem _ hPiece)
  apart := fun piece hPiece =>
    hGaps.apart piece (List.mem_of_mem_tail hPiece)
  trail := hGaps.trail

/- Behind a word there is no letter. -/
theorem Gaps.not_letterAt
    (hGaps : Gaps ((gap, word) :: pieces) trail) :
    ¬ LetterAt (spaced pieces trail) 0 := by
  cases pieces with
  | nil => exact not_letterAt_of_blank hGaps.trail 0
  | cons piece pieces =>
      rcases piece with ⟨between, next⟩
      have hBetween : between ≠ [] :=
        hGaps.apart (between, next) List.mem_cons_self
      rcases List.exists_cons_of_ne_nil hBetween with
        ⟨c, others, rfl⟩
      intro ⟨d, hAt, hLetter⟩
      have hSame : c = d := Option.some.inj hAt
      have hBlank : isBlank c = true :=
        hGaps.blank (c :: others, next)
          (List.mem_cons_of_mem _ List.mem_cons_self) c
          List.mem_cons_self
      rw [← hSame, hBlank] at hLetter
      exact nomatch hLetter

/- A run is closed where no letter follows. -/
theorem wordsFrom_of_not_letterAt
    (run : List Char)
    {rest : List Char}
    (hRest : ¬ LetterAt rest 0) :
    wordsFrom run rest = closeRun run (words rest) := by
  cases rest with
  | nil => rfl
  | cons c rest =>
      have hBlank : isBlank c = true := by
        by_contra hLetter
        exact hRest ⟨c, rfl, Bool.not_eq_true _ ▸ hLetter⟩
      simp [words, wordsFrom, hBlank, closeRun]

/- The words of a text are found between its gaps. -/
theorem words_spaced
    (hGaps : Gaps pieces trail)
    (hWords : ∀ piece ∈ pieces, IsWord piece.2) :
    words (spaced pieces trail) = pieces.map Prod.snd := by
  induction pieces with
  | nil =>
      have hTrail := words_blanks_append trail [] hGaps.trail
      rw [List.append_nil] at hTrail
      exact hTrail
  | cons piece pieces ih =>
      rcases piece with ⟨gap, word⟩
      rw [List.forall_mem_cons] at hWords
      have hGap : ∀ c ∈ gap, isBlank c = true :=
        hGaps.blank (gap, word) List.mem_cons_self
      calc
        words (spaced ((gap, word) :: pieces) trail)
        _ = words (word ++ spaced pieces trail) :=
            words_blanks_append _ _ hGap
        _ = wordsFrom word (spaced pieces trail) :=
            wordsFrom_append [] _ _ hWords.1.letters
        _ = closeRun word (words (spaced pieces trail)) :=
            wordsFrom_of_not_letterAt _ hGaps.not_letterAt
        _ = word :: pieces.map Prod.snd := by
            rw [ih hGaps.tail hWords.2]
            simp [closeRun, hWords.1.ne_nil]

/- They are the runs of the text. -/
theorem areRuns_spaced
    (hGaps : Gaps pieces trail)
    (hWords : ∀ piece ∈ pieces, IsWord piece.2) :
    AreRuns (spaced pieces trail)
      (pieces.map Prod.snd) := by
  induction pieces with
  | nil => exact areRuns_of_blank hGaps.trail
  | cons piece pieces ih =>
      rcases piece with ⟨gap, word⟩
      rw [List.forall_mem_cons] at hWords
      have hGap : ∀ c ∈ gap, isBlank c = true :=
        hGaps.blank (gap, word) List.mem_cons_self
      exact (ih hGaps.tail hWords.2).cons hGap hWords.1
        hGaps.not_letterAt

end

/- A word may stand in front if no letter follows it. -/
theorem Gaps.cons
    {gap word : List Char}
    {pieces : List (List Char × List Char)}
    {trail : List Char}
    (hGap : ∀ c ∈ gap, isBlank c = true)
    (hGaps : Gaps pieces trail)
    (hWords : ∀ piece ∈ pieces, IsWord piece.2)
    (hRest : ¬ LetterAt (spaced pieces trail) 0) :
    Gaps ((gap, word) :: pieces) trail := by
  refine
    { blank := List.forall_mem_cons.mpr ⟨hGap, hGaps.blank⟩
      apart := ?_
      trail := hGaps.trail }
  cases pieces with
  | nil => simp
  | cons piece pieces =>
      rcases piece with ⟨between, next⟩
      rw [List.tail_cons, List.forall_mem_cons]
      refine ⟨?_, hGaps.apart⟩
      rintro rfl
      have hNext : IsWord next :=
        hWords ([], next) List.mem_cons_self
      rcases List.exists_cons_of_ne_nil hNext.ne_nil with
        ⟨c, others, rfl⟩
      exact hRest
        ⟨c, rfl, hNext.letters c List.mem_cons_self⟩

/- A text is blank or begins with a gap and a word. -/
theorem exists_front
    (text : List Char) :
    (∀ c ∈ text, isBlank c = true) ∨
      ∃ gap word rest,
        text = gap ++ (word ++ rest) ∧
          (∀ c ∈ gap, isBlank c = true) ∧ IsWord word ∧
          ¬ LetterAt rest 0 := by
  have hSplit :=
    List.takeWhile_append_dropWhile (p := isBlank) (l := text)
  have hFirst := List.head?_dropWhile_not isBlank text
  cases hBehind : text.dropWhile isBlank with
  | nil =>
      left
      exact List.dropWhile_eq_nil_iff.mp hBehind
  | cons c tail =>
      right
      rw [hBehind] at hSplit hFirst
      have hLetter : isBlank c = false := hFirst
      refine ⟨text.takeWhile isBlank,
        c :: tail.takeWhile (fun d => !isBlank d),
        tail.dropWhile fun d => !isBlank d, ?_, ?_, ?_, ?_⟩
      · rw [List.cons_append, List.takeWhile_append_dropWhile,
          hSplit]
      · exact fun d hMem => List.mem_takeWhile_imp hMem
      · refine ⟨List.cons_ne_nil _ _, ?_⟩
        rw [List.forall_mem_cons]
        refine ⟨hLetter, fun d hMem => ?_⟩
        simpa using List.mem_takeWhile_imp hMem
      · intro ⟨d, hAt, hNext⟩
        have hStop :=
          List.head?_dropWhile_not (fun d => !isBlank d) tail
        rw [← List.head?_eq_getElem?] at hAt
        rw [hAt] at hStop
        simp [hNext] at hStop

/- Every text is made of words with gaps around them. -/
theorem exists_spaced
    (text : List Char) :
    ∃ pieces trail,
      text = spaced pieces trail ∧ Gaps pieces trail ∧
        ∀ piece ∈ pieces, IsWord piece.2 := by
  -- Behind a word a shorter text is left.
  induction hLength : text.length using Nat.strongRecOn
    generalizing text with
  | ind length ih =>
      rcases exists_front text with
        hBlank | ⟨gap, word, rest, rfl, hGap, hWord, hRest⟩
      · refine ⟨[], text, rfl, ?_, by simp⟩
        exact
          { blank := by simp
            apart := by simp
            trail := hBlank }
      · have hSome : 0 < word.length :=
          List.length_pos_iff.mpr hWord.ne_nil
        have hShorter : rest.length < length := by
          rw [← hLength, List.length_append,
            List.length_append]
          omega
        rcases ih rest.length hShorter rest rfl with
          ⟨pieces, trail, rfl, hGaps, hWords⟩
        exact ⟨(gap, word) :: pieces, trail, rfl,
          hGaps.cons hGap hWords hRest,
          List.forall_mem_cons.mpr ⟨hWord, hWords⟩⟩

/- The words of a text are its runs. -/
theorem areRuns_iff
    {text : List Char}
    {runs : List (List Char)} :
    AreRuns text runs ↔ runs = words text := by
  have hWords : AreRuns text (words text) := by
    rcases exists_spaced text with
      ⟨pieces, trail, rfl, hGaps, hWords⟩
    rw [words_spaced hGaps hWords]
    exact areRuns_spaced hGaps hWords
  constructor
  · intro hRuns
    exact hRuns.unique hWords
  · rintro rfl
    exact hWords

end Text

end HiddenRule

------------------------------------------------------------
-- Texts Joined
------------------------------------------------------------

namespace HiddenRule

namespace Text

/- A joined text is made of its parts and of what joins. -/
theorem mem_intercalate
    {separator : String}
    {parts : List String}
    {c : Char}
    (hMem : c ∈ (separator.intercalate parts).toList) :
    c ∈ separator.toList ∨ ∃ part ∈ parts, c ∈ part.toList := by
  rw [String.toList_intercalate] at hMem
  induction parts with
  | nil => simp at hMem
  | cons part rest ih =>
      cases rest with
      | nil =>
          right
          exact ⟨part, List.mem_cons_self, by simpa using hMem⟩
      | cons next rest =>
          rw [List.map_cons, List.map_cons,
            List.intercalate_cons_cons, List.mem_append,
            List.mem_append] at hMem
          rcases hMem with (hPart | hBetween) | hLater
          · exact Or.inr ⟨part, List.mem_cons_self, hPart⟩
          · exact Or.inl hBetween
          · rcases ih hLater with
              hBetween | ⟨other, hOther, hPart⟩
            · exact Or.inl hBetween
            · exact Or.inr
                ⟨other, List.mem_cons_of_mem _ hOther, hPart⟩

/- A joined text is taken apart where it was joined. -/
theorem intercalate_injective
    {separator : String}
    {c : Char}
    {left right : List String}
    (hSeparator : separator.toList = [c])
    (hLeft : ∀ part ∈ left, c ∉ part.toList)
    (hRight : ∀ part ∈ right, c ∉ part.toList)
    (hLeftParts : left ≠ [])
    (hRightParts : right ≠ [])
    (hJoined :
      separator.intercalate left =
        separator.intercalate right) :
    left = right := by
  have hSplit
      {parts : List String}
      (hApart : ∀ part ∈ parts, c ∉ part.toList)
      (hParts : parts ≠ []) :
      (separator.intercalate parts).toList.splitOn c =
        parts.map String.toList := by
    rw [String.toList_intercalate, hSeparator]
    apply List.splitOn_intercalate
    · intro letters hLetters
      rcases List.mem_map.mp hLetters with
        ⟨part, hPart, hEq⟩
      rw [← hEq]
      exact hApart part hPart
    · simpa using hParts
  have hLetters :
      left.map String.toList = right.map String.toList := by
    rw [← hSplit hLeft hLeftParts, hJoined,
      hSplit hRight hRightParts]
  exact
    (List.map_inj_right fun _ _ => String.toList_inj.mp).mp
      hLetters

end Text

end HiddenRule
