import Mathlib.Data.String.Basic
import Sentential.Proofs.Lexeme

namespace Sentential

open Text Token

namespace Text

variable {text : String} {x : Char} {xs ys zs : List Char}

-- The bytes from the one offset to the other can be cut out of the text, and are these characters.
structure IsSlice (text : String) (start stop : Nat) (part : String) : Prop where
  left : String.Pos.Raw.IsValid text ⟨start⟩
  right : String.Pos.Raw.IsValid text ⟨stop⟩
  le : start ≤ stop
  extract : String.Pos.Raw.extract text ⟨start⟩ ⟨stop⟩ = part

theorem byteSize_eq_utf8Len (xs : List Char) : byteSize xs = String.utf8Len xs := by
  rw [← byteSize_ofList, String.utf8ByteSize_ofList]

theorem byteSize_pos (h : xs ≠ []) : 0 < byteSize xs := by
  rw [byteSize_eq_utf8Len, Nat.pos_iff_ne_zero]
  exact mt String.utf8Len_eq_zero.mp h

theorem isValid_of_append (h : text.toList = xs ++ ys) : String.Pos.Raw.IsValid text ⟨byteSize xs⟩ := by
  refine String.Pos.Raw.isValid_iff_exists_append.mpr ⟨.ofList xs, .ofList ys, ?_, ?_⟩
  · rw [← String.ofList_append, ← h, String.ofList_toList]
  · rw [String.rawEndPos, byteSize_ofList]

theorem isSlice_of_append (h : text.toList = xs ++ ys ++ zs) :
    IsSlice text (byteSize xs) (byteSize xs + byteSize ys) (String.ofList ys) where
  left := isValid_of_append (h.trans (List.append_assoc ..))
  right := byteSize_append xs ys ▸ isValid_of_append h
  le := Nat.le_add_right ..
  extract := by
    have ht : text = String.ofList (xs ++ ys ++ zs) := by rw [← h, String.ofList_toList]
    rw [ht, byteSize_eq_utf8Len, byteSize_eq_utf8Len]
    exact String.extract_of_valid xs ys zs

theorem get?_of_append (h : text.toList = xs ++ x :: ys) :
    String.Pos.Raw.get? text ⟨byteSize xs⟩ = some x := by
  have ht : text = String.ofList (xs ++ x :: ys) := by rw [← h, String.ofList_toList]
  rw [ht, byteSize_eq_utf8Len]
  exact String.get?_of_valid xs (x :: ys)

end Text

namespace Cursor

variable {c c' c'' : Cursor} {text : String} {xs ys : List Char} {t : Token} {e : LexError}
  {r : Except LexError Token}

-- The place is one of the text, with what follows there.
def LiesIn (c : Cursor) (text : String) : Prop :=
  ∃ passed, Passes ⟨0, text.toList⟩ passed c

theorem LiesIn.passes (h : c.LiesIn text) (hp : c.Passes xs c') : c'.LiesIn text :=
  have ⟨_, hc⟩ := h
  ⟨_, hc.append hp⟩

theorem LiesIn.isValid (h : c.LiesIn text) : String.Pos.Raw.IsValid text ⟨c.offset⟩ := by
  obtain ⟨passed, hc⟩ := h
  rw [hc.offset, Nat.zero_add]
  exact isValid_of_append hc.rest

theorem LiesIn.isSlice (h : c.LiesIn text) (hp : c.Passes xs c') :
    IsSlice text c.offset c'.offset (String.ofList xs) := by
  obtain ⟨passed, hc⟩ := h
  rw [hp.offset, hc.offset, Nat.zero_add]
  exact isSlice_of_append (hc.append hp).rest

theorem LiesIn.get? (h : c.LiesIn text) {x : Char} (hp : c.Passes [x] c') :
    String.Pos.Raw.get? text ⟨c.offset⟩ = some x := by
  obtain ⟨passed, hc⟩ := h
  rw [hc.offset, Nat.zero_add]
  exact get?_of_append (hc.rest.trans (congrArg _ hp.rest))

theorem LiesIn.offset_of_nil (h : c.LiesIn text) (hn : c.rest = []) : c.offset = text.utf8ByteSize := by
  obtain ⟨passed, hc⟩ := h
  have ht : text.toList = passed := by simpa [hn] using hc.rest
  rw [hc.offset, Nat.zero_add, ← byteSize_ofList, ← ht, String.ofList_toList]

theorem LiesIn.isSlice_rest (h : c.LiesIn text) :
    IsSlice text c.offset text.utf8ByteSize (String.ofList c.rest) := by
  have hp : c.Passes c.rest ⟨c.offset + byteSize c.rest, []⟩ := ⟨(List.append_nil _).symm, rfl⟩
  rw [← (h.passes hp).offset_of_nil rfl]
  exact h.isSlice hp

-- What reading the token right at a place comes to, and where it leads. A character that is not expected
-- has been passed.
inductive Scans (c : Cursor) : Except LexError Token → Cursor → Prop
  | finish : c.rest = [] → Scans c (.ok .finish) c
  | token {xs : List Char} {t : Token} {c' : Cursor} :
    c.Passes xs c' → IsLexeme xs t → Scans c (.ok t) c'
  | unexpectedCharacter {xs : List Char} {x : Char} {c' c'' : Cursor} :
    c.Passes xs c'' → c''.Passes [x] c' → Scans c (.error (.unexpectedCharacter c''.offset x)) c'
  | unexpectedEnd {xs : List Char} {x : Char} {c' : Cursor} :
    c.Passes xs c' → xs ≠ [] → c'.rest = [] → Scans c (.error (.unexpectedEnd c'.offset x)) c'

theorem finishSymbol_scans (hp : c.Passes ys c'') (hy : ys ≠ [])
    (h : finishSymbol t xs c'' = (.error e, c')) : c.Scans (.error e) c' := by
  induction xs generalizing ys c''
  case nil => cases h
  case cons x xs hi =>
    rw [finishSymbol] at h
    split at h
    case h_1 hr =>
      cases h
      exact .unexpectedEnd hp hy hr
    case h_2 y rest hr =>
      have hx := Passes.cons hr (.nil _)
      dsimp only at h
      split at h
      case isTrue => exact hi (hp.append hx) (List.append_ne_nil_of_left_ne_nil hy _) h
      case isFalse =>
        cases h
        exact .unexpectedCharacter hp hx

theorem scan_scans (h : c.scan = (r, c')) : c.Scans r c' := by
  cases r
  case ok t =>
    obtain ⟨rfl, hr⟩ | ⟨xs, hp, hx, _⟩ := scan_cases h
    case inl =>
      cases (scan_eq_finish hr).symm.trans h
      exact .finish hr
    case inr => exact .token hp hx
  case error e =>
    rw [scan] at h
    split at h
    case h_1 => cases h
    case h_2 x rest hr =>
      have hp := Passes.cons hr (.nil _)
      dsimp only at h
      repeat' split at h
      case isTrue => exact finishSymbol_scans hp (List.cons_ne_nil _ _) h
      case isFalse.isTrue => exact finishSymbol_scans hp (List.cons_ne_nil _ _) h
      case isFalse.isFalse.isFalse.isFalse.isFalse =>
        cases h
        exact .unexpectedCharacter (.nil c) hp
      all_goals cases h

theorem Scans.passes (h : c.Scans r c') : ∃ xs, c.Passes xs c' ∧ (r ≠ .ok .finish → xs ≠ []) := by
  cases h
  case finish => exact ⟨[], .nil c, fun hn => absurd rfl hn⟩
  case token xs t hx hp =>
    obtain ⟨x, ys, rfl, _⟩ := hx.exists_cons
    exact ⟨_, hp, fun _ => List.cons_ne_nil x ys⟩
  case unexpectedCharacter xs x c'' hp hx =>
    exact ⟨_, hp.append hx, fun _ => List.append_ne_nil_of_right_ne_nil xs (List.cons_ne_nil x [])⟩
  case unexpectedEnd xs _ hx hp _ => exact ⟨xs, hp, fun _ => hx⟩

namespace Scans

variable {x : Char} {o : Nat}

theorem rest_of_finish (h : c.Scans (.ok .finish) c') : c'.rest = [] := by
  cases h
  case finish hr => exact hr
  case token hx _ => exact absurd rfl hx.ne_finish

theorem passes_of_ok (h : c.Scans (.ok t) c') : c.Passes t.text.toList c' := by
  cases h
  case finish => exact .nil c
  case token hx hp => exact hx.toList_text ▸ hp

theorem exists_passes (h : c.Scans (.error (.unexpectedCharacter o x)) c') :
    ∃ xs c'', c.Passes xs c'' ∧ c''.Passes [x] c' ∧ o = c''.offset := by
  cases h
  case unexpectedCharacter xs c'' hp hx => exact ⟨xs, c'', hp, hx, rfl⟩

theorem rest_of_unexpectedEnd (h : c.Scans (.error (.unexpectedEnd o x)) c') :
    c'.rest = [] ∧ o = c'.offset := by
  cases h
  case unexpectedEnd hr => exact ⟨hr, rfl⟩

end Scans
end Cursor

namespace Lexer

-- What a lexer can be asked for.
inductive Call where
  | next
  | mark
  | rollback
deriving DecidableEq, Repr

-- What it answers. A token, or an error in its place, comes with where it starts.
inductive Answer where
  | read (result : Except LexError Token) (start : Nat)
  | marked
  | wentBack (result : Except LexError Unit)
deriving DecidableEq

def call (l : Lexer) : Call → Answer × Lexer
  | .next => (.read l.next.1 l.next.2.tokenStart, l.next.2)
  | .mark => (.marked, l.mark)
  | .rollback => (.wentBack l.rollback.1, l.rollback.2)

def after (l : Lexer) (calls : List Call) : Lexer :=
  calls.foldl (fun l k => (l.call k).2) l

def answers (l : Lexer) : List Call → List Answer
  | [] => []
  | k :: calls => (l.call k).1 :: (l.call k).2.answers calls

variable {l l' : Lexer} {text : String} {calls : List Call}

-- All places that the lexer knows of are places of the text.
structure LiesIn (l : Lexer) (text : String) : Prop where
  cursor : l.cursor.LiesIn text
  tokenStart : ∃ c : Cursor, c.LiesIn text ∧ c.offset = l.tokenStart
  marked : ∀ c ∈ l.marked, c.LiesIn text

theorem next_scans (l : Lexer) : (l.cursor.skipWhile isBlank).Scans l.next.1 l.next.2.cursor :=
  Cursor.scan_scans rfl

-- Reading passes the blanks before the token, and then the token or what is there in its place.
theorem next_passes (l : Lexer) :
    ∃ xs, l.cursor.Passes xs l.next.2.cursor ∧ (l.next.1 ≠ .ok .finish → xs ≠ []) := by
  obtain ⟨xs, hp, hn⟩ := l.next_scans.passes
  have hb := l.cursor.skipWhile_passes isBlank
  exact ⟨_, hb.append hp, fun hf => List.append_ne_nil_of_right_ne_nil _ (hn hf)⟩

namespace LiesIn

theorem ofString (text : String) : (ofString text).LiesIn text where
  cursor := ⟨[], .nil _⟩
  tokenStart := ⟨⟨0, text.toList⟩, ⟨[], .nil _⟩, rfl⟩
  marked := nofun

theorem start (h : l.LiesIn text) : (l.cursor.skipWhile isBlank).LiesIn text :=
  h.cursor.passes (l.cursor.skipWhile_passes isBlank)

theorem call (h : l.LiesIn text) (k : Call) : (l.call k).2.LiesIn text := by
  cases k
  case next =>
    obtain ⟨xs, hp, _⟩ := l.next_passes
    exact ⟨h.cursor.passes hp, ⟨_, h.start, rfl⟩, h.marked⟩
  case mark => exact ⟨h.cursor, h.tokenStart, fun c hc => Option.some.inj hc ▸ h.cursor⟩
  case rollback =>
    rw [Lexer.call, rollback]
    split
    case h_1 c hc => exact ⟨h.marked c hc, h.tokenStart, h.marked⟩
    case h_2 => exact h

theorem after (h : l.LiesIn text) (calls : List Call) : (l.after calls).LiesIn text := by
  induction calls generalizing l
  case nil => exact h
  case cons k calls hi => exact hi (h.call k)

end LiesIn

theorem marked_call (l : Lexer) (k : Call) :
    (l.call k).2.marked = if k = .mark then some l.cursor else l.marked := by
  cases k
  case next | mark => rfl
  case rollback =>
    rw [call, rollback]
    split
    all_goals rfl

theorem marked_after_of_not_mem (h : .mark ∉ calls) : (l.after calls).marked = l.marked := by
  induction calls generalizing l
  case nil => rfl
  case cons k calls hi =>
    rw [List.mem_cons, not_or] at h
    exact (hi h.right).trans <| (marked_call l k).trans <| if_neg (Ne.symm h.left)

theorem marked_after_eq_none_iff :
    (l.after calls).marked = none ↔ l.marked = none ∧ .mark ∉ calls := by
  induction calls generalizing l
  case nil => simp [after]
  case cons k calls hi =>
    have ha : l.after (k :: calls) = (l.call k).2.after calls := rfl
    rw [ha, hi, marked_call, List.mem_cons, not_or]
    by_cases hk : k = .mark
    case pos => simp [hk]
    case neg => simp [hk, Ne.symm hk]

-- Where the last token started has no influence on what a call does.
theorem call_congr (hc : l.cursor = l'.cursor) (hm : l.marked = l'.marked) (k : Call) :
    (l.call k).1 = (l'.call k).1 ∧ (l.call k).2.cursor = (l'.call k).2.cursor ∧
      (l.call k).2.marked = (l'.call k).2.marked := by
  cases k
  case next => simp [call, next, hc, hm]
  case mark => simp [call, mark, hc]
  case rollback => cases h : l'.marked <;> simp [call, rollback, hc, hm, h]

theorem answers_congr (hc : l.cursor = l'.cursor) (hm : l.marked = l'.marked) (calls : List Call) :
    l.answers calls = l'.answers calls := by
  induction calls generalizing l l'
  case nil => rfl
  case cons k calls hi =>
    have ⟨ha, hc, hm⟩ := call_congr hc hm k
    rw [answers, answers, ha, hi hc hm]

-- Reading comes to the end of the text, or gets further in it, over whole characters. A token is cut out
-- of the text; a character that is not expected is where the error says it is, and is passed.
structure Advances (l : Lexer) (text : String) : Prop where
  finish : l.next.1 = .ok .finish → l.next.2.cursor.offset = text.utf8ByteSize
  forward : l.next.1 ≠ .ok .finish → l.cursor.offset < l.next.2.cursor.offset
  between : ∃ xs, IsSlice text l.cursor.offset l.next.2.cursor.offset (String.ofList xs) ∧
    ∀ ys, ys <+: xs → String.Pos.Raw.IsValid text ⟨l.cursor.offset + byteSize ys⟩
  token : ∀ t, l.next.1 = .ok t → IsSlice text l.next.2.tokenStart l.next.2.cursor.offset t.text
  unexpectedCharacter : ∀ o x, l.next.1 = .error (.unexpectedCharacter o x) →
    String.Pos.Raw.get? text ⟨o⟩ = some x ∧ l.next.2.cursor.offset = o + x.utf8Size
  unexpectedEnd : ∀ o x, l.next.1 = .error (.unexpectedEnd o x) →
    o = text.utf8ByteSize ∧ l.next.2.cursor.offset = o

theorem LiesIn.advances (h : l.LiesIn text) : l.Advances text := by
  obtain ⟨xs, hp, hn⟩ := l.next_passes
  have hs := l.next_scans
  have hc := h.cursor.passes hp
  constructor
  case finish =>
    intro he
    exact hc.offset_of_nil (he ▸ hs).rest_of_finish
  case forward =>
    intro hf
    have := byteSize_pos (hn hf)
    rw [hp.offset]
    omega
  case between =>
    refine ⟨xs, h.cursor.isSlice hp, fun ys hy => ?_⟩
    obtain ⟨zs, rfl⟩ := hy
    obtain ⟨c, hp, _⟩ := hp.split
    exact hp.offset ▸ (h.cursor.passes hp).isValid
  case token =>
    intro t he
    have hi := h.start.isSlice (he ▸ hs).passes_of_ok
    rwa [String.ofList_toList] at hi
  case unexpectedCharacter =>
    intro o x he
    obtain ⟨ys, c, hy, hx, rfl⟩ := (he ▸ hs).exists_passes
    exact ⟨(h.start.passes hy).get? hx, hx.offset⟩
  case unexpectedEnd =>
    intro o x he
    obtain ⟨hr, rfl⟩ := (he ▸ hs).rest_of_unexpectedEnd
    exact ⟨hc.offset_of_nil hr, rfl⟩

theorem rollback_eq_error_iff : l.rollback = (.error .noMark, l) ↔ l.marked = none := by
  cases h : l.marked <;> simp [rollback, h]

theorem rollback_of_marked {c : Cursor} (h : l.marked = some c) :
    l.rollback = (.ok (), { l with cursor := c }) := by
  rw [rollback, h]

-- Until the next mark, the marked place stays what it is.
theorem rollback_after_mark (h : .mark ∉ calls) :
    (l.mark.after calls).rollback = (.ok (), { l.mark.after calls with cursor := l.cursor }) :=
  rollback_of_marked (marked_after_of_not_mem h)

theorem calls_keep_boundaries (text : String) (calls : List Call) :
    let l := (ofString text).after calls
    IsSlice text l.cursor.offset text.utf8ByteSize (String.ofList l.cursor.rest) ∧
    String.Pos.Raw.IsValid text ⟨l.tokenStart⟩ ∧
    (∀ c ∈ l.marked, String.Pos.Raw.IsValid text ⟨c.offset⟩) ∧
    l.Advances text ∧
    (l.rollback = (.error .noMark, l) ↔ .mark ∉ calls) ∧
    (.mark ∈ calls → l.rollback.1 = .ok ()) ∧
    ∀ before between later, calls = before ++ .mark :: between → .mark ∉ between →
      l.rollback.2.cursor = ((ofString text).after before).cursor ∧
      l.rollback.2.answers later = ((ofString text).after before).mark.answers later := by
  intro l
  have h : l.LiesIn text := (LiesIn.ofString text).after calls
  have hm : l.marked = none ↔ .mark ∉ calls :=
    marked_after_eq_none_iff.trans (and_iff_right rfl)
  refine ⟨h.cursor.isSlice_rest, ?_, fun c hc => (h.marked c hc).isValid, h.advances,
    rollback_eq_error_iff.trans hm, fun hk => ?_, fun before between later hl hb => ?_⟩
  · obtain ⟨c, hc, ho⟩ := h.tokenStart
    exact ho ▸ hc.isValid
  · obtain ⟨c, hc⟩ := Option.ne_none_iff_exists'.mp (mt hm.mp (not_not_intro hk))
    rw [rollback_of_marked hc]
  · have hl : l = ((ofString text).after before).mark.after between := by
      rw [show l = (ofString text).after calls from rfl, hl]
      exact List.foldl_append
    rw [hl, rollback_after_mark hb]
    refine ⟨rfl, answers_congr ?_ ?_ later⟩
    · rfl
    · exact marked_after_of_not_mem hb

-- The mark is set before an error, and the lexer goes back to it from the end of the text.
theorem calls_keep_boundaries_error :
    let text := "É <? B"
    let l := (ofString text).after [.next, .mark]
    let l' := (ofString text).after [.next, .mark, .next, .next]
    let again : List Answer := [.read (.error (.unexpectedCharacter 4 '?')) 3, .read (.ok (.name "B")) 6]
    l.next.1 = .error (.unexpectedCharacter 4 '?') ∧ l.next.2.cursor.offset = 4 + '?'.utf8Size ∧
      l'.cursor.rest = [] ∧ l'.rollback.1 = .ok () ∧
      l'.rollback.2.answers [.next, .next] = again ∧
      ((ofString text).after [.next]).mark.answers [.next, .next] = again := by
  intro text l l' again
  obtain ⟨_, _, _, hn, _⟩ := calls_keep_boundaries text [.next, .mark]
  obtain ⟨_, _, _, _, _, hr, ha⟩ := calls_keep_boundaries text [.next, .mark, .next, .next]
  obtain ⟨_, ha⟩ := ha [.next] [.next, .next] [.next, .next] rfl (by decide)
  have he : l.next.1 = .error (.unexpectedCharacter 4 '?') := by decide +kernel
  have hm : ((ofString text).after [.next]).mark.answers [.next, .next] = again := by decide +kernel
  exact ⟨he, (hn.unexpectedCharacter 4 '?' he).right, by decide +kernel, hr (by decide), ha.trans hm, hm⟩

end Lexer
end Sentential
