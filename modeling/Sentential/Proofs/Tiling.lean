import Mathlib.Data.List.Chain
import Sentential.Proofs.Lexeme

namespace Sentential

open Text Token

-- A token's text and the blanks before it.
@[ext]
structure Tile where
  gap : List Char
  lexeme : List Char
  token : Token
  blank : ∀ x ∈ gap, isBlank x
  isLexeme : IsLexeme lexeme token

namespace Tile

def chars (t : Tile) : List Char :=
  t.gap ++ t.lexeme

-- Two words in a row have a blank between them.
def Precedes (t u : Tile) : Prop :=
  isWord t.lexeme → isWord u.lexeme → u.gap ≠ []

-- The last character of a row of tiles is one of the last token's text.
theorem isWord_of_getLast? (t : Tile) {ts : List Tile} {x : Char}
    (h : ((ts ++ [t]).flatMap chars).getLast? = some x) (hx : isWordChar x) : isWord t.lexeme := by
  obtain ⟨y, ys, hy, _⟩ := t.isLexeme.exists_cons
  apply t.isLexeme.isWord_of_mem (List.mem_of_getLast? _) hx
  rw [← h, List.flatMap_append, List.flatMap_singleton, chars, ← List.append_assoc]
  rw [List.getLast?_append_of_ne_nil _ (hy ▸ List.cons_ne_nil y ys)]

-- The tokens with the places where they start, if so many bytes lie before the first tile.
def placed : Nat → List Tile → List (Token × Nat)
  | _, [] => []
  | offset, t :: ts => (t.token, offset + byteSize t.gap) :: placed (offset + byteSize t.chars) ts

end Tile

-- A row of tiles and the blanks after the last one.
@[ext]
structure Tiling where
  tiles : List Tile
  last : List Char
  separated : tiles.IsChain Tile.Precedes
  blank : ∀ x ∈ last, isBlank x

namespace Tiling

-- The text that is tiled.
def chars (T : Tiling) : List Char :=
  T.tiles.flatMap Tile.chars ++ T.last

def tokens (T : Tiling) : List (Token × Nat) :=
  Tile.placed 0 T.tiles

def blanks (last : List Char) (h : ∀ x ∈ last, isBlank x) : Tiling where
  tiles := []
  last
  separated := .nil
  blank := h

def cons (t : Tile) (T : Tiling) (h : ∀ u ∈ T.tiles.head?, t.Precedes u) : Tiling where
  tiles := t :: T.tiles
  last := T.last
  separated := List.isChain_cons.mpr ⟨h, T.separated⟩
  blank := T.blank

theorem chars_cons (t : Tile) (T : Tiling) (h : ∀ u ∈ T.tiles.head?, t.Precedes u) :
    (cons t T h).chars = t.chars ++ T.chars :=
  List.append_assoc ..

@[elab_as_elim]
theorem induction {P : Tiling → Prop} (blanks : ∀ last h, P (blanks last h))
    (cons : ∀ t T h, P T → P (cons t T h)) (T : Tiling) : P T := by
  obtain ⟨tiles, last, hs, hb⟩ := T
  induction tiles
  case nil => exact blanks last hb
  case cons t ts hi =>
    have ⟨ht, hs⟩ := List.isChain_cons.mp hs
    exact cons t ⟨ts, last, hs, hb⟩ ht (hi hs)

-- A word can only go on in the tile after it, and only if there is no blank between them.
theorem separated_chars_iff (t : Tile) (T : Tiling) :
    Separated t.lexeme T.chars ↔ ∀ u ∈ T.tiles.head?, t.Precedes u := by
  induction T using induction
  case blanks last hb =>
    refine iff_of_true (fun _ x hx => ?_) (fun u hu => by cases hu)
    exact not_isWordChar_of_isBlank (hb x (List.mem_of_mem_head? hx))
  case cons u T hu _ =>
    rw [chars_cons, Tile.chars]
    cases hg : u.gap
    case cons b bs =>
      have hb : ¬isWordChar b := not_isWordChar_of_isBlank (u.blank b (hg ▸ List.mem_cons_self))
      simp [Separated, Tile.Precedes, cons, hg, hb]
    case nil =>
      obtain ⟨x, ys, hx, _⟩ := u.isLexeme.exists_cons
      have hm : x ∈ u.lexeme := hx ▸ List.mem_cons_self
      have hw : isWordChar x = isWord u.lexeme :=
        Bool.eq_iff_iff.mpr ⟨u.isLexeme.isWord_of_mem hm, fun h => isWordChar_of_mem h hm⟩
      rw [List.nil_append, hx]
      simp [Separated, Tile.Precedes, cons, hg, hw]

end Tiling

namespace Cursor

variable {c : Cursor} {t : Tile} {rest : List Char}

theorem skipWhile_tile (h : c.rest = t.chars ++ rest) :
    c.skipWhile isBlank = ⟨c.offset + byteSize t.gap, t.lexeme ++ rest⟩ := by
  have hp : c.Passes t.gap ⟨c.offset + byteSize t.gap, t.lexeme ++ rest⟩ :=
    ⟨h.trans (List.append_assoc ..), rfl⟩
  apply skipWhile_of_passes hp t.blank
  obtain ⟨x, ys, hx, hb⟩ := t.isLexeme.exists_cons
  simpa [hx] using hb

theorem next_tile (h : c.rest = t.chars ++ rest) (hs : Separated t.lexeme rest) :
    c.next = (.ok t.token, ⟨c.offset + byteSize t.chars, rest⟩) := by
  have hp : Passes ⟨c.offset + byteSize t.gap, t.lexeme ++ rest⟩ t.lexeme
      ⟨c.offset + byteSize t.chars, rest⟩ :=
    ⟨rfl, by rw [Tile.chars, byteSize_append, Nat.add_assoc]⟩
  rw [next, skipWhile_tile h]
  exact scan_of_isLexeme hp t.isLexeme hs

theorem skipWhile_blanks (h : ∀ x ∈ c.rest, isBlank x) :
    c.skipWhile isBlank = ⟨c.offset + byteSize c.rest, []⟩ := by
  have hp : c.Passes c.rest ⟨c.offset + byteSize c.rest, []⟩ := ⟨(List.append_nil _).symm, rfl⟩
  exact skipWhile_of_passes hp h nofun

theorem isBlank_of_next (h : c.next.1 = .ok .finish) : ∀ x ∈ c.rest, isBlank x := by
  have hs : (c.skipWhile isBlank).scan = (.ok .finish, c.next.2) := Prod.ext h rfl
  obtain ⟨_, hr⟩ | ⟨_, _, hx, _⟩ := scan_cases hs
  case inl =>
    have hp := (c.skipWhile_passes isBlank).rest
    rw [hr, List.append_nil] at hp
    rw [hp]
    exact List.all_eq_true.mp List.all_takeWhile
  case inr => exact absurd rfl hx.ne_finish

end Cursor

namespace Tiling

theorem exists_not_isBlank (t : Tile) (T : Tiling) (h : ∀ u ∈ T.tiles.head?, t.Precedes u) :
    ∃ x ∈ (cons t T h).chars, ¬isBlank x := by
  obtain ⟨x, ys, hx, hb⟩ := t.isLexeme.exists_cons
  refine ⟨x, ?_, hb⟩
  simp [chars_cons, Tile.chars, hx]

-- Reading the next token finds out the first tile.
theorem eq_of_chars {T T' : Tiling} (h : T.chars = T'.chars) : T = T' := by
  induction T using induction generalizing T'
  case blanks last hb =>
    induction T' using induction
    case blanks => exact Tiling.ext rfl h
    case cons t T ht _ =>
      obtain ⟨x, hx, hn⟩ := exists_not_isBlank t T ht
      rw [← h] at hx
      exact absurd (hb x hx) hn
  case cons t T ht hi =>
    induction T' using induction
    case blanks last hb =>
      obtain ⟨x, hx, hn⟩ := exists_not_isBlank t T ht
      rw [h] at hx
      exact absurd (hb x hx) hn
    case cons t' T' ht' _ =>
      rw [chars_cons, chars_cons] at h
      have hn := Cursor.next_tile (c := ⟨0, _⟩) rfl ((separated_chars_iff t T).mpr ht)
      have hn' := Cursor.next_tile (c := ⟨0, _⟩) h ((separated_chars_iff t' T').mpr ht')
      have ⟨hr, hc⟩ := Prod.mk.inj (hn.symm.trans hn')
      have hk : t.token = t'.token := Except.ok.inj hr
      cases hi (congrArg Cursor.rest hc)
      have hl : t.lexeme = t'.lexeme := by rw [← t.isLexeme.toList_text, ← t'.isLexeme.toList_text, hk]
      have hg : t.chars = t'.chars := List.append_cancel_right h
      rw [Tile.chars, Tile.chars, hl] at hg
      cases Tile.ext (List.append_cancel_right hg) hl hk
      rfl

-- Before a word stands its blank, the end of a symbol or nothing, and after it the same.
theorem not_isWordChar_beside {T : Tiling} {before after : List Tile} {t : Tile}
    (h : T.tiles = before ++ t :: after) (hw : isWord t.lexeme) :
    (∀ x ∈ (before.flatMap Tile.chars ++ t.gap).getLast?, ¬isWordChar x) ∧
      ∀ x ∈ (after.flatMap Tile.chars ++ T.last).head?, ¬isWordChar x := by
  have hs := T.separated
  rw [h, List.isChain_append, List.isChain_cons] at hs
  obtain ⟨_, ⟨ha, hs⟩, hb⟩ := hs
  constructor
  case right => exact (separated_chars_iff t ⟨after, T.last, hs, T.blank⟩).mpr ha hw
  case left =>
    intro x hx
    rw [Option.mem_def, List.getLast?_append, Option.or_eq_some_iff] at hx
    obtain hx | ⟨hg, hx⟩ := hx
    case inl => exact not_isWordChar_of_isBlank (t.blank x (List.mem_of_getLast? hx))
    case inr =>
      obtain rfl | ⟨before, u, rfl⟩ := List.eq_nil_or_concat' before
      case inl => cases hx
      case inr =>
        have hu : u.Precedes t := hb u List.getLast?_concat t rfl
        exact fun hc => hu (u.isWord_of_getLast? hx hc) hw (List.getLast?_eq_none_iff.mp hg)

end Tiling

namespace Lexer

-- Tile by tile, the next token is that of the tile, and what is left are the other tiles.
theorem tokens_of_tiling (T : Tiling) {l : Lexer} (h : l.cursor.rest = T.chars) :
    l.tokens = (Tile.placed l.cursor.offset T.tiles ++
      [(.finish, l.cursor.offset + byteSize l.cursor.rest)], none) := by
  induction T using Tiling.induction generalizing l
  case blanks last hb =>
    have hs := Cursor.skipWhile_blanks (c := l.cursor) (h ▸ hb)
    have hn : l.next.1 = .ok .finish := by
      rw [next, hs]
      rfl
    rw [tokens_of_finish hn, next, hs]
    rfl
  case cons t T ht hi =>
    rw [Tiling.chars_cons] at h
    have hn := Cursor.next_tile h ((Tiling.separated_chars_iff t T).mpr ht)
    have hc : l.next.2.cursor = _ := congrArg Prod.snd hn
    have hs : l.next.2.tokenStart = l.cursor.offset + byteSize t.gap :=
      congrArg Cursor.offset (Cursor.skipWhile_tile h)
    rw [tokens_of_ok (congrArg Prod.fst hn) t.isLexeme.ne_finish, hi (congrArg Cursor.rest hc), hs, hc, h,
      byteSize_append, ← Nat.add_assoc]
    rfl

theorem exists_tiling (l : Lexer) (h : l.tokens.2 = none) : ∃ T : Tiling, T.chars = l.cursor.rest := by
  cases hn : l.next.1
  case error e =>
    rw [tokens_of_error hn] at h
    cases h
  case ok t =>
    by_cases ht : t = .finish
    case pos => exact ⟨.blanks l.cursor.rest (Cursor.isBlank_of_next (ht ▸ hn)), rfl⟩
    case neg =>
      have := remaining_next_lt hn ht
      rw [tokens_of_ok hn ht] at h
      obtain ⟨T, hT⟩ := exists_tiling l.next.2 h
      have hc : l.cursor.next = (.ok t, l.next.2.cursor) := Prod.ext hn rfl
      obtain ⟨bs, xs, hp, hb, hx, hs⟩ := (Cursor.next_eq_ok_iff ht).mp hc
      let tile : Tile := ⟨bs, xs, t, hb, hx⟩
      refine ⟨.cons tile T ((Tiling.separated_chars_iff tile T).mp (hT ▸ hs)), ?_⟩
      rw [Tiling.chars_cons, hT, hp.rest]
      rfl
termination_by l.remaining

theorem tokens_iff_tiling (text : String) :
    (∀ ts stop, (ofString text).tokens = (ts ++ [(.finish, stop)], none) ↔
      (∃ T : Tiling, T.chars = text.toList ∧ T.tokens = ts) ∧ stop = text.utf8ByteSize) ∧
    ∀ T : Tiling, T.chars = text.toList →
      (∀ t ∈ T.tiles, t.token.text.toList = t.lexeme) ∧
      (∀ before t after, T.tiles = before ++ t :: after → isWord t.lexeme →
        (∀ x ∈ (before.flatMap Tile.chars ++ t.gap).getLast?, ¬isWordChar x) ∧
        ∀ x ∈ (after.flatMap Tile.chars ++ T.last).head?, ¬isWordChar x) ∧
      ∀ T' : Tiling, T'.chars = text.toList → T' = T := by
  have hb : byteSize text.toList = text.utf8ByteSize := by
    rw [← byteSize_ofList, String.ofList_toList]
  have ht : ∀ T : Tiling, T.chars = text.toList →
      (ofString text).tokens = (T.tokens ++ [(.finish, text.utf8ByteSize)], none) := by
    intro T hT
    have := tokens_of_tiling T (l := ofString text) hT.symm
    rwa [ofString, Nat.zero_add, hb] at this
  constructor
  case left =>
    intro ts stop
    constructor
    case mp =>
      intro h
      obtain ⟨T, hT⟩ := exists_tiling (ofString text) (congrArg Prod.snd h)
      obtain ⟨hs, he⟩ := List.append_inj' (congrArg Prod.fst ((ht T hT).symm.trans h)) rfl
      cases he
      exact ⟨⟨T, hT, hs⟩, rfl⟩
    case mpr =>
      rintro ⟨⟨T, hT, rfl⟩, rfl⟩
      exact ht T hT
  case right =>
    intro T hT
    refine ⟨fun t _ => t.isLexeme.toList_text, fun before t after => Tiling.not_isWordChar_beside, ?_⟩
    exact fun T' hT' => Tiling.eq_of_chars (hT'.trans hT.symm)

-- Symbols need no blanks around them, and a word may begin with a keyword.
theorem tokens_iff_tiling_glued :
    let text := "(É OR TRUE)=>NOTA AND FALSE<=>NOT b2 "
    let ts := [(leftParen, 0), (name "É", 1), (or, 4), (truth, 7), (rightParen, 11), (implies, 12),
      (name "NOTA", 14), (and, 19), (falsity, 23), (iff, 28), (not, 31), (name "b2", 35)]
    (ofString text).tokens = (ts ++ [(.finish, 38)], none) ∧
    ∃ T : Tiling, T.chars = text.toList ∧ T.tokens = ts ∧
      (∀ t ∈ T.tiles, t.token.text.toList = t.lexeme) ∧
      ∀ T' : Tiling, T'.chars = text.toList → T' = T := by
  intro text ts
  have h : (ofString text).tokens = (ts ++ [(.finish, 38)], none) := by decide +kernel
  obtain ⟨hi, hu⟩ := tokens_iff_tiling text
  obtain ⟨⟨T, hT, hs⟩, _⟩ := (hi ts 38).mp h
  obtain ⟨hl, _, hu⟩ := hu T hT
  exact ⟨h, T, hT, hs, hl, hu⟩

end Lexer
end Sentential
