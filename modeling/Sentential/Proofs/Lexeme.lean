import Sentential.Proofs.Lexing
import Sentential.Var

namespace Sentential

open Text

theorem Text.byteSize_append (xs ys : List Char) : byteSize (xs ++ ys) = byteSize xs + byteSize ys := by
  induction xs
  case nil => simp [byteSize]
  case cons x xs hi => simp [byteSize, hi, Nat.add_assoc]

theorem Text.byteSize_ofList (xs : List Char) : (String.ofList xs).utf8ByteSize = byteSize xs := by
  induction xs
  case nil => rfl
  case cons x xs hi => simp [String.ofList_cons, byteSize, hi]

section

variable {p : Char → Bool} {xs rest : List Char}

theorem Text.takeWhile_append (hx : ∀ x ∈ xs, p x) (hr : ∀ x ∈ rest.head?, ¬p x) :
    (xs ++ rest).takeWhile p = xs := by
  have : rest.takeWhile p = [] := by cases rest <;> simp_all
  rw [List.takeWhile_append_of_pos hx, this, List.append_nil]

theorem Text.dropWhile_of_head? (h : ∀ x ∈ rest.head?, ¬p x) : rest.dropWhile p = rest := by
  cases rest <;> simp_all

theorem Text.dropWhile_append (hx : ∀ x ∈ xs, p x) (hr : ∀ x ∈ rest.head?, ¬p x) :
    (xs ++ rest).dropWhile p = rest := by
  rw [List.dropWhile_append_of_pos hx, dropWhile_of_head? hr]

end

namespace Var

-- The name can be read back: it is a word that is no keyword.
def IsReadable (v : Var) : Prop :=
  isWord v.name.toList ∧ v.name ∉ ["NOT", "AND", "OR", "TRUE", "FALSE"]

instance (v : Var) : Decidable v.IsReadable :=
  inferInstanceAs (Decidable (_ ∧ _))

theorem IsReadable.not_mem {v : Var} {x : Char} (h : v.IsReadable) (hx : ¬isWordChar x) :
    x ∉ v.name.toList :=
  mt (isWordChar_of_mem h.1) hx

end Var

namespace Token

-- The characters are the text of the token.
inductive IsLexeme : List Char → Token → Prop
  | iff : IsLexeme ['<', '=', '>'] .iff
  | implies : IsLexeme ['=', '>'] .implies
  | leftParen : IsLexeme ['('] .leftParen
  | rightParen : IsLexeme [')'] .rightParen
  | not : IsLexeme ['N', 'O', 'T'] .not
  | and : IsLexeme ['A', 'N', 'D'] .and
  | or : IsLexeme ['O', 'R'] .or
  | truth : IsLexeme ['T', 'R', 'U', 'E'] .truth
  | falsity : IsLexeme ['F', 'A', 'L', 'S', 'E'] .falsity
  | name {w : String} : Var.IsReadable ⟨w⟩ → IsLexeme w.toList (.name w)

-- The characters are not the beginning of a word that goes on in the rest.
def Separated (xs rest : List Char) : Prop :=
  isWord xs → ∀ x ∈ rest.head?, ¬isWordChar x

variable {xs rest : List Char} {t : Token}

theorem Separated.of_not_isWord (h : ¬isWord xs) : Separated xs rest :=
  fun hw => absurd hw h

theorem IsLexeme.exists_cons (h : IsLexeme xs t) : ∃ x ys, xs = x :: ys ∧ ¬isBlank x := by
  cases h
  case name w hr =>
    obtain ⟨x, ys, he, hx, _⟩ := exists_cons_of_isWord hr.left
    exact ⟨x, ys, he, fun hb => not_isWordChar_of_isBlank hb (isWordChar_of_isLetter hx)⟩
  all_goals exact ⟨_, _, rfl, by decide⟩

-- A character of a symbol never stands in a word.
theorem IsLexeme.isWord_of_mem {x : Char} (h : IsLexeme xs t) (hx : x ∈ xs) (hw : isWordChar x) :
    isWord xs := by
  have hs : ['<', '=', '>', '(', ')'].all (!isWordChar ·) := by decide +kernel
  cases h
  case name hr => exact hr.left
  case iff | implies | leftParen | rightParen =>
    have hn := List.all_eq_true.mp hs x (by grind)
    simp [hw] at hn
  all_goals decide +kernel

theorem IsLexeme.ne_finish (h : IsLexeme xs t) : t ≠ .finish := by
  cases h <;> nofun

theorem IsLexeme.toList_text (h : IsLexeme xs t) : t.text.toList = xs := by
  cases h <;> rfl

theorem ofWord_eq_name {w n : String} :
    ofWord w = .name n ↔ w = n ∧ w ∉ ["NOT", "AND", "OR", "TRUE", "FALSE"] := by
  unfold ofWord
  split
  all_goals simp_all

-- What a word is read as, is what it is the text of.
theorem isLexeme_ofWord (h : isWord xs) : IsLexeme xs (ofWord (String.ofList xs)) := by
  obtain ⟨w, rfl⟩ : ∃ w : String, w.toList = xs := ⟨String.ofList xs, String.toList_ofList⟩
  rw [String.ofList_toList]
  unfold ofWord
  split
  case h_1 => exact .not
  case h_2 => exact .and
  case h_3 => exact .or
  case h_4 => exact .truth
  case h_5 => exact .falsity
  case h_6 => exact .name ⟨h, by simp_all⟩

theorem IsLexeme.eq_ofWord (h : IsLexeme xs t) (hw : isWord xs) : t = ofWord (String.ofList xs) := by
  cases h
  case name w hr =>
    rw [String.ofList_toList]
    exact (ofWord_eq_name.mpr ⟨rfl, hr.right⟩).symm
  case iff | implies | leftParen | rightParen => exact absurd hw (by decide +kernel)
  all_goals rfl

theorem IsLexeme.isReadable {n : String} (h : IsLexeme xs (.name n)) : Var.IsReadable ⟨n⟩ := by
  cases h
  case name hr => exact hr

end Token

namespace Cursor

open Token

-- From the first place to the second one, the characters are passed.
structure Passes (c : Cursor) (xs : List Char) (c' : Cursor) : Prop where
  rest : c.rest = xs ++ c'.rest
  offset : c'.offset = c.offset + byteSize xs

variable {c c' c'' : Cursor} {p : Char → Bool} {x : Char} {xs ys rest : List Char} {t u : Token}

theorem Passes.nil (c : Cursor) : c.Passes [] c :=
  ⟨rfl, rfl⟩

theorem Passes.append (h : c.Passes xs c') (h' : c'.Passes ys c'') : c.Passes (xs ++ ys) c'' where
  rest := by rw [h.rest, h'.rest, List.append_assoc]
  offset := by rw [h'.offset, h.offset, byteSize_append, Nat.add_assoc]

theorem Passes.cons (h : c.rest = x :: rest) (h' : Passes ⟨c.offset + x.utf8Size, rest⟩ xs c') :
    c.Passes (x :: xs) c' where
  rest := h.trans (congrArg (x :: ·) h'.rest)
  offset := h'.offset.trans (Nat.add_assoc ..)

theorem Passes.split (h : c.Passes (xs ++ ys) c'') : ∃ c', c.Passes xs c' ∧ c'.Passes ys c'' := by
  refine ⟨⟨c.offset + byteSize xs, ys ++ c''.rest⟩, ⟨?_, rfl⟩, ⟨rfl, ?_⟩⟩
  · rw [h.rest, List.append_assoc]
  · rw [h.offset, byteSize_append, Nat.add_assoc]

theorem Passes.exists_eq (h : c.Passes xs c') :
    ∃ o rest, c = ⟨o, xs ++ rest⟩ ∧ c' = ⟨o + byteSize xs, rest⟩ := by
  obtain ⟨o, rest⟩ := c
  obtain ⟨o', rest'⟩ := c'
  exact ⟨o, rest', congrArg _ h.rest, congrArg (Cursor.mk · rest') h.offset⟩

theorem skipWhile_passes (p : Char → Bool) (c : Cursor) :
    c.Passes (c.rest.takeWhile p) (c.skipWhile p) :=
  ⟨List.takeWhile_append_dropWhile.symm, rfl⟩

theorem skipWhile_stops (p : Char → Bool) (c : Cursor) :
    ∀ x ∈ (c.skipWhile p).rest.head?, ¬p x := by
  intro x hx
  have hd := List.head?_dropWhile_not p c.rest
  rw [show (c.rest.dropWhile p).head? = some x from hx] at hd
  simpa using hd

theorem skipWhile_of_passes (h : c.Passes xs c') (hx : ∀ x ∈ xs, p x)
    (hr : ∀ x ∈ c'.rest.head?, ¬p x) : c.skipWhile p = c' := by
  obtain ⟨o, rest, rfl, rfl⟩ := h.exists_eq
  rw [skipWhile, Text.takeWhile_append hx hr, Text.dropWhile_append hx hr]

theorem finishSymbol_eq_ok (h : finishSymbol t xs c = (.ok u, c')) : u = t ∧ c.Passes xs c' := by
  induction xs generalizing c
  case nil =>
    cases h
    exact ⟨rfl, rfl, rfl⟩
  case cons x xs hi =>
    rw [finishSymbol] at h
    split at h
    case h_1 => cases h
    case h_2 y rest hr =>
      dsimp only at h
      split at h
      case isTrue he => exact (hi h).imp_right fun hp => he ▸ .cons hr hp
      case isFalse => cases h

theorem scan_of_isLexeme (h : c.Passes xs c') (hx : IsLexeme xs t) (hs : Separated xs c'.rest) :
    c.scan = (.ok t, c') := by
  obtain ⟨o, rest, rfl, rfl⟩ := h.exists_eq
  by_cases hw : isWord xs
  case pos =>
    cases hx.eq_ofWord hw
    obtain ⟨x, ys, rfl, hx, hys⟩ := exists_cons_of_isWord hw
    have hd : x ≠ '<' ∧ x ≠ '=' ∧ x ≠ '(' ∧ x ≠ ')' := by
      refine ⟨?_, ?_, ?_, ?_⟩
      all_goals
        rintro rfl
        exact absurd hx (by decide +kernel)
    simp [scan, hd, hx, skipWhile, Text.takeWhile_append hys (hs hw),
      Text.dropWhile_append hys (hs hw), byteSize, Nat.add_assoc]
  case neg =>
    cases hx
    case iff | implies | leftParen | rightParen => simp [scan, finishSymbol, byteSize, Nat.add_assoc]
    case name hr => exact absurd hr.left hw
    all_goals exact absurd (by decide +kernel) hw

theorem scan_cases (h : c.scan = (.ok t, c')) :
    (t = .finish ∧ c.rest = []) ∨ ∃ xs, c.Passes xs c' ∧ IsLexeme xs t ∧ Separated xs c'.rest := by
  rw [scan] at h
  split at h
  case h_1 hr =>
    cases h
    exact .inl ⟨rfl, hr⟩
  case h_2 x rest hr =>
    right
    -- One case for each way a token can start.
    dsimp only at h
    repeat' split at h
    case isTrue he =>
      subst he
      obtain ⟨rfl, hp⟩ := finishSymbol_eq_ok h
      exact ⟨_, .cons hr hp, .iff, .of_not_isWord Bool.false_ne_true⟩
    case isFalse.isTrue he =>
      subst he
      obtain ⟨rfl, hp⟩ := finishSymbol_eq_ok h
      exact ⟨_, .cons hr hp, .implies, .of_not_isWord Bool.false_ne_true⟩
    case isFalse.isFalse.isTrue he =>
      subst he
      cases h
      exact ⟨_, .cons hr (.nil _), .leftParen, .of_not_isWord Bool.false_ne_true⟩
    case isFalse.isFalse.isFalse.isTrue he =>
      subst he
      cases h
      exact ⟨_, .cons hr (.nil _), .rightParen, .of_not_isWord Bool.false_ne_true⟩
    case isFalse.isFalse.isFalse.isFalse.isTrue hx =>
      cases h
      have hw : isWord (x :: rest.takeWhile isWordChar) :=
        Bool.and_eq_true_iff.mpr ⟨hx, List.all_takeWhile⟩
      exact ⟨_, .cons hr (skipWhile_passes _ _), isLexeme_ofWord hw, fun _ => skipWhile_stops _ _⟩
    case isFalse.isFalse.isFalse.isFalse.isFalse => cases h

-- The next token is what a lexeme after some blanks stands for.
theorem next_eq_ok_iff (ht : t ≠ .finish) : c.next = (.ok t, c') ↔
    ∃ bs xs, c.Passes (bs ++ xs) c' ∧ (∀ b ∈ bs, isBlank b) ∧ IsLexeme xs t ∧
      Separated xs c'.rest := by
  constructor
  case mp =>
    intro h
    have ⟨xs, hp, hx, hs⟩ := (scan_cases h).resolve_left fun hf => ht hf.left
    have hb := List.all_eq_true.mp (List.all_takeWhile (l := c.rest) (p := isBlank))
    exact ⟨_, xs, (skipWhile_passes isBlank c).append hp, hb, hx, hs⟩
  case mpr =>
    intro ⟨bs, xs, hp, hb, hx, hs⟩
    have ⟨c₁, hp₁, hp₂⟩ := hp.split
    have hc : c.skipWhile isBlank = c₁ := by
      apply skipWhile_of_passes hp₁ hb
      have ⟨x, ys, he, hn⟩ := hx.exists_cons
      rw [hp₂.rest, he]
      simpa using hn
    rw [next, hc]
    exact scan_of_isLexeme hp₂ hx hs

theorem Reads.passes {ts : List Token} (h : c.Reads ts c') : ∃ xs, c.Passes xs c' := by
  induction h
  case nil => exact ⟨[], .nil _⟩
  case cons hn ht _ hi =>
    have ⟨ys, hp⟩ := hi
    have ⟨bs, xs, hx, _⟩ := (next_eq_ok_iff ht).mp hn
    exact ⟨bs ++ xs ++ ys, hx.append hp⟩

end Cursor

theorem Cursor.Reads.isReadable {c c' : Cursor} {ts : List Token} {n : String} (h : c.Reads ts c')
    (hn : .name n ∈ ts) : Var.IsReadable ⟨n⟩ := by
  induction h
  case nil => cases hn
  case cons t ts hs ht _ hi =>
    cases hn
    case head =>
      have ⟨_, _, _, _, hx, _⟩ := (Cursor.next_eq_ok_iff ht).mp hs
      exact hx.isReadable
    case tail hn => exact hi hn

end Sentential
