/-
  This file defines white space and the words between it.

  A blank is a character with the Unicode property
  White_Space.  The words of a text are its longest runs of
  characters that are no blanks.

  Key definitions include:
    * `Text.isBlank`
    * `Text.words`
-/

namespace HiddenRule

namespace Text

------------------------------------------------------------
-- Blanks
------------------------------------------------------------

/- The code points with the property White_Space. -/
def blanks : List Nat :=
  [0x09, 0x0A, 0x0B, 0x0C, 0x0D, 0x20, 0x85, 0xA0, 0x1680,
   0x2000, 0x2001, 0x2002, 0x2003, 0x2004, 0x2005, 0x2006,
   0x2007, 0x2008, 0x2009, 0x200A, 0x2028, 0x2029, 0x202F,
   0x205F, 0x3000]

/- Whether a character is white space. -/
def isBlank
    (c : Char) : Bool :=
  blanks.contains c.toNat

------------------------------------------------------------
-- Words
------------------------------------------------------------

/- A finished run of characters is a word unless empty. -/
def closeRun
    (run : List Char)
    (later : List (List Char)) : List (List Char) :=
  if run.isEmpty then later else run :: later

/-
  The words of a text that follows a run of characters which
  are no blanks.
-/
def wordsFrom
    (run : List Char) : List Char → List (List Char)
| [] => closeRun run []
| c :: rest =>
    if isBlank c then
      closeRun run (wordsFrom [] rest)
    else
      wordsFrom (run ++ [c]) rest

/- The words of a text. -/
def words
    (text : List Char) : List (List Char) :=
  wordsFrom [] text

/- A text without blanks extends the run before it. -/
theorem wordsFrom_append
    (run word rest : List Char)
    (hWord : ∀ c ∈ word, isBlank c = false) :
    wordsFrom run (word ++ rest) =
      wordsFrom (run ++ word) rest := by
  induction word generalizing run with
  | nil => simp
  | cons c word ih =>
      have hHead : isBlank c = false := hWord c (by simp)
      have hTail : ∀ d ∈ word, isBlank d = false :=
        fun d hMem => hWord d (by simp [hMem])
      simp [wordsFrom, hHead, ih (run ++ [c]) hTail]

/- Blanks in front of a text carry no words. -/
theorem words_blanks_append
    (blank rest : List Char)
    (hBlank : ∀ c ∈ blank, isBlank c = true) :
    words (blank ++ rest) = words rest := by
  induction blank with
  | nil => simp
  | cons c blank ih =>
      have hHead : isBlank c = true := hBlank c (by simp)
      have hTail : ∀ d ∈ blank, isBlank d = true :=
        fun d hMem => hBlank d (by simp [hMem])
      have hRest := ih hTail
      simp only [words] at hRest
      simp [words, wordsFrom, hHead, closeRun, hRest]

end Text

end HiddenRule
