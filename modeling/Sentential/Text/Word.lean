import Sentential.Text.Blank
import Sentential.Text.Letter
import Sentential.Text.Numeral

namespace Sentential.Text

-- Whether the character can stand in a word after its first letter.
def isWordChar (c : Char) : Bool :=
  isLetter c || isNumeral c

theorem isWordChar_of_isLetter {c : Char} (h : isLetter c) : isWordChar c := by
  simp [isWordChar, h]

-- White space is never part of a word.
theorem not_isWordChar_of_isBlank {c : Char} (h : isBlank c) : ¬isWordChar c := by
  have hl : apart blankRanges letterRanges := by decide +kernel
  have hn : apart blankRanges numeralRanges := by decide +kernel
  rw [isWordChar, Bool.or_eq_true]
  exact fun hw => hw.elim (not_covers_of_apart hl h) (not_covers_of_apart hn h)

-- A word is a letter and then letters and numerals.
def isWord : List Char → Bool
  | [] => false
  | c :: cs => isLetter c && cs.all isWordChar

theorem exists_cons_of_isWord {cs : List Char} (h : isWord cs) :
    ∃ d ds, cs = d :: ds ∧ isLetter d ∧ ∀ c ∈ ds, isWordChar c := by
  cases cs
  case nil => cases h
  case cons d ds =>
    rw [isWord, Bool.and_eq_true, List.all_eq_true] at h
    exact ⟨d, ds, rfl, h⟩

theorem isWordChar_of_mem {c : Char} {cs : List Char} (h : isWord cs) (hc : c ∈ cs) : isWordChar c := by
  obtain ⟨d, ds, rfl, hd, hds⟩ := exists_cons_of_isWord h
  obtain rfl | hc := List.mem_cons.mp hc
  · exact isWordChar_of_isLetter hd
  · exact hds c hc

end Sentential.Text
