import Mathlib.Data.Set.List
import Sentential.KnowledgeBase.Reader
import Sentential.Proofs.Printing
import Sentential.Proofs.Splitting

namespace Sentential

namespace Text

variable {c : Char} {xs : List Char} {xss : List (List Char)}

-- The middle part is a line of the text that the parts make up.
structure IsLine (before line after : List Char) : Prop where
  starts : before = [] ∨ before.getLast? = some '\n'
  single : '\n' ∉ line
  ends : after = [] ∨ after.head? = some '\n'

theorem IsLine.later {before line after : List Char} (h : IsLine before line after) (xs : List Char) :
    IsLine (xs ++ '\n' :: before) line after where
  starts := by
    right
    obtain hb | hb := h.starts
    case inl => rw [hb, List.getLast?_concat]
    case inr =>
      obtain ⟨ys, rfl⟩ := List.getLast?_eq_some_iff.mp hb
      rw [← List.cons_append, ← List.append_assoc, List.getLast?_concat]
  single := h.single
  ends := h.ends

theorem lines_of_not_mem (h : '\n' ∉ xs) : lines xs = if xs = [] then [] else [xs] := by
  rw [lines, split_of_not_mem h, linesOfPieces]

theorem lines_append_cons (h : '\n' ∉ xs) (cs : List Char) :
    lines (xs ++ '\n' :: cs) = dropReturn xs :: lines cs := by
  have ⟨l, ls, hs⟩ := exists_split_eq_cons '\n' cs
  rw [lines, lines, split_append_cons h, hs, linesOfPieces]
  exact nofun

-- Induction over the lines of a text, of which the last one has no end.
@[elab_as_elim]
theorem induction_lines {P : List Char → Prop} (last : ∀ xs, '\n' ∉ xs → P xs)
    (line : ∀ xs cs, '\n' ∉ xs → P cs → P (xs ++ '\n' :: cs)) (cs : List Char) : P cs :=
  if h : '\n' ∈ cs then by
    obtain ⟨xs, rest, rfl, hx⟩ := List.eq_append_cons_of_mem h
    exact line xs rest hx (induction_lines last line rest)
  else last cs h
termination_by cs.length
decreasing_by simp_all; omega

theorem trim_concat (h : isBlank c) (xs : List Char) : trim (xs ++ [c]) = trim xs := by
  rw [trim, trim, List.dropWhile_append]
  split
  case isTrue he => simp [List.isEmpty_iff.mp he, h]
  case isFalse => simp [h]

-- A carriage return is white space, so trimming takes it away anyhow.
theorem trim_dropReturn (xs : List Char) : trim (dropReturn xs) = trim xs := by
  rw [dropReturn]
  split
  case isFalse => rfl
  case isTrue h =>
    obtain ⟨ys, rfl⟩ := List.getLast?_eq_some_iff.mp h
    rw [List.dropLast_concat, trim_concat (by decide)]

-- The text fills a line just as it is: it has no line feed, no white space at its ends, and does not look
-- like a comment.
structure FillsLine (xs : List Char) : Prop where
  notEmpty : xs ≠ []
  single : '\n' ∉ xs
  starts : ∀ x ∈ xs.head?, ¬isBlank x ∧ x ≠ '#'
  ends : ∀ x ∈ xs.getLast?, ¬isBlank x

namespace FillsLine

theorem trim_eq (h : FillsLine xs) : trim xs = xs := by
  have hr : ∀ x ∈ xs.reverse.head?, ¬isBlank x := List.head?_reverse ▸ h.ends
  rw [trim, dropWhile_of_head? fun x hx => (h.starts x hx).left, dropWhile_of_head? hr, List.reverse_reverse]

theorem dropReturn_eq (h : FillsLine xs) : dropReturn xs = xs := by
  have hr : xs.getLast? ≠ some '\r' := fun hr => h.ends '\r' hr (by decide)
  rw [dropReturn, if_neg hr]

-- No character of a word is white space or begins a comment.
theorem word (h : isWord xs) : FillsLine xs := by
  have hb : ∀ x ∈ xs, ¬isBlank x := fun x hx hb =>
    not_isWordChar_of_isBlank hb (isWordChar_of_mem h hx)
  have hc : ∀ x ∈ xs, x ≠ '#' := by
    rintro x hx rfl
    exact absurd (isWordChar_of_mem h hx) (by decide +kernel)
  refine ⟨fun he => ?_, fun hx => hb _ hx (by decide), fun x hx => ?_, fun x hx => ?_⟩
  · cases he
    cases h
  · exact ⟨hb x (List.mem_of_head? hx), hc x (List.mem_of_head? hx)⟩
  · exact hb x (List.mem_of_getLast? hx)

theorem parens (h : '\n' ∉ xs) : FillsLine ('(' :: xs ++ [')']) where
  notEmpty := nofun
  single := by simpa using h
  starts := by simpa using by decide
  ends := by
    rw [List.getLast?_concat]
    simpa using by decide

end FillsLine

theorem lines_intercalate (h : ∀ xs ∈ xss, FillsLine xs) : lines (['\n'].intercalate xss) = xss := by
  induction xss
  case nil => rfl
  case cons l ls hi =>
    have ⟨hl, hls⟩ := List.forall_mem_cons.mp h
    cases ls
    case nil => rw [List.intercalate_singleton, lines_of_not_mem hl.single, if_neg hl.notEmpty]
    case cons l' ls =>
      rw [List.intercalate_cons_cons, List.append_assoc, List.singleton_append,
        lines_append_cons hl.single, hl.dropReturn_eq, hi hls]

end Text

theorem Sentence.fillsLine_text {s : Sentence} (h : ∀ v ∈ s.vars, v.IsReadable) :
    Text.FillsLine s.text.toList := by
  induction s using induction_join
  case truth | falsity => exact .word (by decide +kernel)
  case var v => exact .word (h v (by simp [vars])).left
  case not s hi =>
    rw [toList_text_not]
    exact .parens (by simpa using (hi h).single)
  case join k l r hl hr =>
    have hl := (hl fun v hv => h v (Connective.mem_vars_join.mpr (.inl hv))).single
    have hr := (hr fun v hv => h v (Connective.mem_vars_join.mpr (.inr hv))).single
    have hk : '\n' ∉ k.token.text.toList := by cases k <;> decide
    rw [toList_text_join]
    exact .parens (by simp [hl, hr, hk])

namespace KnowledgeBase

open Text

-- The texts of the lines that hold sentences: trimmed, and without the empty ones and the comments.
def sentenceTexts (ls : List (List Char)) : List String :=
  ((ls.map trim).filter fun l => l ≠ [] ∧ l.head? ≠ some '#').map String.ofList

variable {kb kb' : KnowledgeBase} {n : Nat} {l : List Char} {ls : List (List Char)} {texts : List String}
  {e : LineError} {cs : List Char}

theorem not_isSkipped_iff : ¬isSkipped l ↔ l ≠ [] ∧ l.head? ≠ some '#' := by
  simp [isSkipped]

theorem sentenceTexts_of_skipped (h : isSkipped (trim l)) (ls : List (List Char)) :
    sentenceTexts (l :: ls) = sentenceTexts ls := by
  have hn := fun hn => not_isSkipped_iff.mpr hn h
  rw [sentenceTexts, List.map_cons, List.filter_cons_of_neg (by simpa using hn), sentenceTexts]

theorem sentenceTexts_of_not_skipped (h : ¬isSkipped (trim l)) (ls : List (List Char)) :
    sentenceTexts (l :: ls) = String.ofList (trim l) :: sentenceTexts ls := by
  have hn := not_isSkipped_iff.mp h
  rw [sentenceTexts, List.map_cons, List.filter_cons_of_pos (by simpa using hn), sentenceTexts,
    List.map_cons]

theorem tell_of_ok {text : String} {s : Sentence} (h : Sentence.parse text = .ok s) :
    kb.tell text = .ok (kb.extend [s]) := by
  rw [tell, h]
  rfl

theorem tell_of_error {text : String} {cause : ParseError} (h : Sentence.parse text = .error cause) :
    kb.tell text = .error cause := by
  rw [tell, h]
  rfl

theorem extend_extend (kb : KnowledgeBase) (s : Sentence) (ss : List Sentence) :
    (kb.extend [s]).extend ss = kb.extend (s :: ss) := by
  simp [extend]

theorem tellAll_eq_ok_iff : kb.tellAll texts = (.ok (), kb') ↔
    ∃ ss, texts.map Sentence.parse = ss.map .ok ∧ kb' = kb.extend ss := by
  induction texts generalizing kb
  case nil => simp [tellAll, extend, eq_comm]
  case cons text texts hi =>
    rw [tellAll]
    cases hp : Sentence.parse text
    case error cause =>
      rw [tell_of_error hp]
      refine iff_of_false nofun ?_
      rintro ⟨ss, hs, _⟩
      cases ss
      case nil => cases hs
      case cons s ss => cases hp.symm.trans (List.cons.inj hs).left
    case ok s =>
      rw [tell_of_ok hp]
      constructor
      case mp =>
        intro h
        obtain ⟨ss, hs, he⟩ := hi.mp h
        exact ⟨s :: ss, by rw [List.map_cons, List.map_cons, hp, hs], he.trans (extend_extend kb s ss)⟩
      case mpr =>
        rintro ⟨ss, hs, he⟩
        cases ss
        case nil => cases hs
        case cons t ss =>
          obtain ⟨ht, hts⟩ := List.cons.inj hs
          cases hp.symm.trans ht
          exact hi.mpr ⟨ss, hts, he.trans (extend_extend kb s ss).symm⟩

-- What one line does: the knowledge base goes on with the next line, or it is stuck.
theorem tellLines_step (kb : KnowledgeBase) (l : List Char) :
    (∃ kb' : KnowledgeBase, ∀ n ls, kb.tellLines n (l :: ls) = kb'.tellLines (n + 1) ls ∧
      kb.tellAll (sentenceTexts (l :: ls)) = kb'.tellAll (sentenceTexts ls)) ∨
    (trim l ≠ [] ∧ (trim l).head? ≠ some '#' ∧
      ∃ cause, Sentence.parse (String.ofList (trim l)) = .error cause ∧
        ∀ n ls, kb.tellLines n (l :: ls) = .error ⟨n, String.ofList (trim l), cause⟩ ∧
          kb.tellAll (sentenceTexts (l :: ls)) = (.error cause, kb)) := by
  by_cases hs : isSkipped (trim l)
  case pos =>
    refine .inl ⟨kb, fun n ls => ⟨?_, ?_⟩⟩
    · rw [tellLines, if_pos hs]
    · rw [sentenceTexts_of_skipped hs]
  case neg =>
    have ht := sentenceTexts_of_not_skipped hs
    cases hp : Sentence.parse (String.ofList (trim l))
    case ok s =>
      refine .inl ⟨kb.extend [s], fun n ls => ⟨?_, ?_⟩⟩
      · rw [tellLines, if_neg hs, tell_of_ok hp]
      · rw [ht, tellAll, tell_of_ok hp]
    case error cause =>
      have hn := not_isSkipped_iff.mp hs
      refine .inr ⟨hn.left, hn.right, cause, rfl, fun n ls => ⟨?_, ?_⟩⟩
      · rw [tellLines, if_neg hs, tell_of_error hp]
      · rw [ht, tellAll, tell_of_error hp]

theorem tellAll_of_tellLines (h : kb.tellLines n ls = .ok kb') :
    kb.tellAll (sentenceTexts ls) = (.ok (), kb') := by
  induction ls generalizing kb n
  case nil =>
    cases h
    rfl
  case cons l ls hi =>
    obtain ⟨kb₁, hs⟩ | ⟨_, _, cause, _, hs⟩ := tellLines_step kb l
    case inl => exact (hs n ls).right.trans <| hi <| (hs n ls).left.symm.trans h
    case inr => cases (hs n ls).left.symm.trans h

-- The error is about this line, where the lines are counted from `first` on by the line feeds before them.
structure LineError.Reports (e : LineError) (first : Nat) (before line : List Char) : Prop where
  number : e.line = first + before.count '\n'
  text : e.text = String.ofList (trim line)
  notEmpty : trim line ≠ []
  notComment : (trim line).head? ≠ some '#'
  cause : Sentence.parse e.text = .error e.cause

theorem LineError.message_eq (e : LineError) : e.message =
    "line " ++ toString e.line ++ ": Could not parse '" ++ e.text ++ "': " ++ e.cause.message := by
  simp only [message, place, String.append_assoc]
  rfl

theorem LineError.Reports.later {first : Nat} {xs before line : List Char} (hx : '\n' ∉ xs)
    (h : e.Reports (first + 1) before line) : e.Reports first (xs ++ '\n' :: before) line where
  number := by
    rw [h.number, List.count_append, List.count_eq_zero_of_not_mem hx, List.count_cons_self]
    omega
  text := h.text
  notEmpty := h.notEmpty
  notComment := h.notComment
  cause := h.cause

-- The induction is over the lines of the text: the first one is told and the others follow, or the first
-- one is the line that is reported.
theorem exists_isLine_of_tellLines (h : kb.tellLines n (lines cs) = .error e) :
    ∃ before line after kb', cs = before ++ line ++ after ∧ IsLine before line after ∧
      e.Reports n before line ∧ kb.tellLines n (lines before) = .ok kb' ∧
      kb.tellAll (sentenceTexts (lines cs)) = (.error e.cause, kb') := by
  induction cs using induction_lines generalizing kb n
  case last xs hx =>
    rw [lines_of_not_mem hx] at h ⊢
    split at h
    case isTrue => cases h
    case isFalse hn =>
      rw [if_neg hn]
      obtain ⟨kb₁, hs⟩ | ⟨hn₁, hn₂, cause, hc, hs⟩ := tellLines_step kb xs
      case inl => cases (hs n []).left.symm.trans h
      case inr =>
        cases (hs n []).left.symm.trans h
        exact ⟨[], xs, [], kb, by simp, ⟨.inl rfl, hx, .inl rfl⟩, ⟨rfl, rfl, hn₁, hn₂, hc⟩, rfl,
          (hs n []).right⟩
  case line xs cs hx hi =>
    rw [lines_append_cons hx] at h ⊢
    obtain ⟨kb₁, hs⟩ | ⟨hn₁, hn₂, cause, hc, hs⟩ := tellLines_step kb (dropReturn xs)
    case inl =>
      obtain ⟨before, line, after, kb', he, hl, hr, ho, ht⟩ := hi <| (hs n _).left.symm.trans h
      refine ⟨xs ++ '\n' :: before, line, after, kb', by simp [he], hl.later xs, hr.later hx, ?_, ?_⟩
      · rw [lines_append_cons hx]
        exact (hs n _).left.trans ho
      · exact (hs n _).right.trans ht
    case inr =>
      rw [trim_dropReturn] at hn₁ hn₂ hc hs
      cases (hs n _).left.symm.trans h
      exact ⟨[], xs, '\n' :: cs, kb, by simp, ⟨.inl rfl, hx, .inr rfl⟩, ⟨rfl, rfl, hn₁, hn₂, hc⟩, rfl,
        (hs n _).right⟩

variable {text : String} {ss : List Sentence}

theorem read_eq_ok_iff :
    read text = .ok kb ↔ tellAll ∅ (sentenceTexts (lines text.toList)) = (.ok (), kb) := by
  constructor
  case mp => exact tellAll_of_tellLines
  case mpr =>
    intro h
    cases hr : read text
    case ok kb' =>
      cases (tellAll_of_tellLines hr).symm.trans h
      rfl
    case error e =>
      obtain ⟨_, _, _, kb', _, _, _, _, ht⟩ := exists_isLine_of_tellLines hr
      cases ht.symm.trans h

theorem read_eq_ok_iff_parse : read text = .ok kb ↔
    (sentenceTexts (lines text.toList)).map Sentence.parse = kb.sentences.map .ok := by
  rw [read_eq_ok_iff, tellAll_eq_ok_iff]
  constructor
  case mp =>
    rintro ⟨ss, hs, rfl⟩
    exact hs
  case mpr => exact fun h => ⟨kb.sentences, h, rfl⟩

theorem exists_read_eq_ok_iff : (∃ kb, read text = .ok kb) ↔
    ∀ line ∈ sentenceTexts (lines text.toList), ∃ s, Sentence.parse line = .ok s := by
  let parsed := (sentenceTexts (lines text.toList)).map Sentence.parse
  have hp : parsed ∈ Set.range (List.map .ok) ↔ ∀ p ∈ parsed, p ∈ Set.range .ok := by
    rw [Set.range_list_map, Set.mem_ofPred]
  rw [List.forall_mem_map] at hp
  simp only [read_eq_ok_iff_parse]
  constructor
  case mp =>
    rintro ⟨kb, hk⟩ line hl
    exact (hp.mp ⟨kb.sentences, hk.symm⟩ line hl).imp fun _ => Eq.symm
  case mpr =>
    intro h
    obtain ⟨ss, hs⟩ := hp.mpr fun line hl => (h line hl).imp fun _ => Eq.symm
    exact ⟨⟨ss⟩, hs.symm⟩

theorem sentenceTexts_of_fillsLine (h : ∀ l ∈ ls, FillsLine l) : sentenceTexts ls = ls.map String.ofList := by
  have ht : ls.map trim = ls := (List.map_congr_left fun l hl => (h l hl).trim_eq).trans (List.map_id' ls)
  have hf : ∀ l ∈ ls, l ≠ [] ∧ l.head? ≠ some '#' := fun l hl =>
    ⟨(h l hl).notEmpty, fun hc => ((h l hl).starts _ hc).right rfl⟩
  rw [sentenceTexts, ht, List.filter_eq_self.mpr (by simpa using hf)]

theorem read_intercalate (h : ∀ s ∈ ss, ∀ v ∈ s.vars, v.IsReadable) :
    read ("\n".intercalate (ss.map Sentence.text)) = .ok ⟨ss⟩ := by
  have hf : ∀ l ∈ (ss.map Sentence.text).map String.toList, FillsLine l := by
    simpa using fun s hs => Sentence.fillsLine_text (h s hs)
  have hl : lines ("\n".intercalate (ss.map Sentence.text)).toList =
      (ss.map Sentence.text).map String.toList := by
    rw [String.toList_intercalate]
    exact lines_intercalate hf
  rw [read_eq_ok_iff_parse, hl, sentenceTexts_of_fillsLine hf]
  simpa using fun s hs => Sentence.parse_text (h s hs)

-- Reading a text is telling the lines that hold sentences, one after the other, so it succeeds if all of
-- them parse, and with just what they parse to. Otherwise the error reports the first line that does not,
-- and telling stops there too, with the sentences of the lines before it. The text of any sentences with
-- readable names, each on a line of its own, is read as these sentences.
theorem read_tells_lines (text : String) :
    let told := sentenceTexts (lines text.toList)
    (∀ kb, read text = .ok kb ↔ tellAll ∅ told = (.ok (), kb)) ∧
    (∀ kb, read text = .ok kb ↔ told.map Sentence.parse = kb.sentences.map .ok) ∧
    ((∃ kb, read text = .ok kb) ↔ ∀ line ∈ told, ∃ s, Sentence.parse line = .ok s) ∧
    (∀ e, read text = .error e → ∃ before line after kb,
      text.toList = before ++ line ++ after ∧ IsLine before line after ∧ e.Reports 1 before line ∧
      e.message = "line " ++ toString e.line ++ ": Could not parse '" ++ e.text ++ "': " ++ e.cause.message ∧
      read (String.ofList before) = .ok kb ∧ tellAll ∅ told = (.error e.cause, kb)) ∧
    ∀ ss : List Sentence, (∀ s ∈ ss, ∀ v ∈ s.vars, v.IsReadable) →
      read ("\n".intercalate (ss.map Sentence.text)) = .ok ⟨ss⟩ := by
  refine ⟨fun _ => read_eq_ok_iff, fun _ => read_eq_ok_iff_parse, exists_read_eq_ok_iff, fun e he => ?_,
    fun _ => read_intercalate⟩
  obtain ⟨before, line, after, kb, ht, hl, hr, ho, ha⟩ := exists_isLine_of_tellLines he
  refine ⟨before, line, after, kb, ht, hl, hr, e.message_eq, ?_, ha⟩
  rwa [read, String.toList_ofList]

-- The comment and the empty line count, but they are not told. A variable and its negation, on two lines,
-- are read back.
theorem read_tells_lines_incomplete :
    let e : LineError := ⟨4, "B AND", .unexpectedToken 5 .finish .sentence⟩
    let a : Sentence := .var ⟨"A"⟩
    (read "# pits\n\n A \r\nB AND\nC" = .error e ∧
      ∃ before line kb, e.Reports 1 before line ∧ read (String.ofList before) = .ok kb ∧
        tellAll ∅ ["A", "B AND", "C"] = (.error e.cause, kb)) ∧
    (∀ s ∈ [a, a.not], ∀ v ∈ s.vars, v.IsReadable) ∧ read "A\n(NOT A)" = .ok ⟨[a, a.not]⟩ := by
  intro e a
  have he : read "# pits\n\n A \r\nB AND\nC" = .error e := by decide +kernel
  have ha : ∀ s ∈ [a, a.not], ∀ v ∈ s.vars, v.IsReadable := by decide +kernel
  obtain ⟨_, _, _, hr, hs⟩ := read_tells_lines "# pits\n\n A \r\nB AND\nC"
  obtain ⟨before, line, _, kb, _, _, hl, _, hb, ht⟩ := hr e he
  exact ⟨⟨he, before, line, kb, hl, hb, ht⟩, ha, hs [a, a.not] ha⟩

end KnowledgeBase
end Sentential
