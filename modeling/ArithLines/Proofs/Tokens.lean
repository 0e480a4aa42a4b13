import ArithLines.Token.Cursor
import Mathlib.Data.List.TakeWhile

/-! Where the tokens of a line stand: each covers exactly its lexeme, and each ends before the next
one begins. A character that no token of the language has is covered by an unrecognized token. -/

namespace ArithLines

/-- The characters of the line under the span. -/
def Span.textIn (line : List Char) (span : Span) : List Char :=
  (line.drop span.start).take (span.stop - span.start)

/-- The token covers its lexeme in the line. -/
structure Token.Stands (line : List Char) (token : Token) : Prop where
  nonempty : token.span.start < token.span.stop
  inside : token.span.stop ≤ line.length
  covers : token.span.textIn line = token.lexeme

/-- The one token ends before the other begins. -/
def Token.Before (first second : Token) : Prop := first.span.stop ≤ second.span.start

namespace Cursor

/-- The cursor is a place in the line. -/
structure In (line : List Char) (cursor : Cursor) : Prop where
  rest : cursor.rest = line.drop cursor.position
  inside : cursor.position ≤ line.length

theorem in_ofLine (line : List Char) : (ofLine line).In line := ⟨rfl, Nat.zero_le _⟩

namespace In

variable {line : List Char} {cursor : Cursor}

theorem length (h : cursor.In line) : cursor.position + cursor.rest.length = line.length := by
  have := h.inside
  rw [h.rest, List.length_drop]
  omega

theorem skip (h : cursor.In line) {count : Nat} (hc : count ≤ cursor.rest.length) :
    (cursor.skip count).In line := by
  have := h.length
  refine ⟨?_, by simp only [Cursor.skip]; omega⟩
  simp only [Cursor.skip, h.rest, List.drop_drop]

theorem skipSpace (h : cursor.In line) : cursor.skipSpace.In line :=
  h.skip (List.takeWhile_prefix _).length_le

theorem take (h : cursor.In line) : cursor.take.2.In line := by
  rw [Cursor.take]
  split
  · exact h
  · next c following hrest =>
    have hprefix := longestLexeme_prefix c following
    refine h.skip ?_
    rw [hrest]
    exact hprefix.length_le

theorem next (h : cursor.In line) : cursor.next.2.In line := h.skipSpace.take

/-- A token but the end of the line covers its lexeme, and the cursor past it is at its end. -/
theorem stands (h : cursor.In line) (hkind : cursor.next.1.kind ≠ .endOfLine) :
    cursor.next.1.Stands line ∧ cursor.position ≤ cursor.next.1.span.start ∧
      cursor.next.1.span.stop = cursor.next.2.position := by
  have hspace := h.skipSpace
  have hle : cursor.position ≤ cursor.skipSpace.position := Nat.le_add_right ..
  rw [Cursor.next, Cursor.take] at hkind ⊢
  split at hkind
  · exact absurd rfl hkind
  · next c following hrest =>
    simp only [Cursor.skip]
    have hprefix := longestLexeme_prefix c following
    have hpos := longestLexeme_length_pos c following
    have hlength := hspace.length
    rw [← hrest] at hprefix
    refine ⟨⟨?_, ?_, ?_⟩, hle, trivial⟩
    · show cursor.skipSpace.position < cursor.skipSpace.position + _
      omega
    · show cursor.skipSpace.position + _ ≤ line.length
      have := hprefix.length_le
      omega
    · show (line.drop cursor.skipSpace.position).take
        (cursor.skipSpace.position + _ - cursor.skipSpace.position) = longestLexeme c following
      rw [← hspace.rest, Nat.add_sub_cancel_left]
      exact (List.prefix_iff_eq_take.mp hprefix).symm

end In

theorem rest_of_endOfLine {cursor : Cursor} (h : cursor.next.1.kind = .endOfLine) :
    cursor.skipSpace.rest = [] := by
  rw [next, take] at h
  split at h
  · next hrest => exact hrest
  · exact absurd h (Kind.ofLexeme_ne_endOfLine _)

theorem next_of_endOfLine {cursor : Cursor} (h : cursor.next.1.kind = .endOfLine) :
    cursor.next = (.endOfLine cursor.skipSpace.position, cursor.skipSpace) := by
  rw [next, take]
  rw [rest_of_endOfLine h]

theorem tokens_of_endOfLine {cursor : Cursor} (h : cursor.next.1.kind = .endOfLine) :
    cursor.tokens = [] := by
  rw [tokens, dif_pos h]

theorem tokens_of_token {cursor : Cursor} (h : cursor.next.1.kind ≠ .endOfLine) :
    cursor.tokens = cursor.next.1 :: cursor.next.2.tokens := by
  rw [tokens, dif_neg h]

theorem tokens_of_rest {cursor : Cursor} (h : cursor.rest = []) : cursor.tokens = [] := by
  obtain ⟨position, rest⟩ := cursor
  subst h
  exact tokens_of_endOfLine rfl

theorem next_rest {cursor : Cursor} (h : cursor.rest = []) : cursor.next.2.rest = [] := by
  obtain ⟨position, rest⟩ := cursor
  subst h
  rfl

/-- The next token is the first of those that are left, or else the end of the line. -/
theorem next_fst_eq {line : List Char} {cursor : Cursor} (h : cursor.In line) :
    cursor.next.1 = cursor.tokens.headD (.endOfLine line.length) := by
  by_cases hkind : cursor.next.1.kind = .endOfLine
  · have hlength := h.skipSpace.length
    rw [rest_of_endOfLine hkind, List.length_nil, Nat.add_zero] at hlength
    rw [tokens_of_endOfLine hkind, next_of_endOfLine hkind, hlength]
    rfl
  · rw [tokens_of_token hkind]
    rfl

theorem next_tokens (cursor : Cursor) : cursor.next.2.tokens = cursor.tokens.tail := by
  by_cases hkind : cursor.next.1.kind = .endOfLine
  · rw [tokens_of_endOfLine hkind, next_of_endOfLine hkind, tokens_of_rest (rest_of_endOfLine hkind)]
    rfl
  · rw [tokens_of_token hkind]
    rfl

theorem kind_ne_endOfLine {cursor : Cursor} :
    ∀ token ∈ cursor.tokens, token.kind ≠ .endOfLine := by
  fun_induction tokens cursor with
  | case1 => simp
  | case2 cursor hkind ih =>
    intro token ht
    rcases List.mem_cons.mp ht with rfl | ht
    · exact hkind
    · exact ih token ht

theorem tokens_stand {line : List Char} {cursor : Cursor} (h : cursor.In line) :
    ∀ token ∈ cursor.tokens, token.Stands line ∧ cursor.position ≤ token.span.start := by
  fun_induction tokens cursor with
  | case1 => simp
  | case2 cursor hkind ih =>
    obtain ⟨hstands, hstart, hstop⟩ := h.stands hkind
    intro token ht
    rcases List.mem_cons.mp ht with rfl | ht
    · exact ⟨hstands, hstart⟩
    · obtain ⟨htoken, hafter⟩ := ih h.next token ht
      have := hstands.nonempty
      exact ⟨htoken, by omega⟩

theorem tokens_before {line : List Char} {cursor : Cursor} (h : cursor.In line) :
    cursor.tokens.Pairwise Token.Before := by
  fun_induction tokens cursor with
  | case1 => exact .nil
  | case2 cursor hkind ih =>
    obtain ⟨-, -, hstop⟩ := h.stands hkind
    refine .cons (fun token ht => ?_) (ih h.next)
    have := (tokens_stand h.next token ht).2
    simp only [Token.Before]
    omega

end Cursor

/-- The tokens of a line, the end of the line among them, stand one before the other. -/
theorem tokens_before (line : List Char) : (tokens line).Pairwise Token.Before := by
  refine List.pairwise_append.mpr
    ⟨Cursor.tokens_before (Cursor.in_ofLine line), List.pairwise_singleton .., ?_⟩
  intro token ht last hlast
  obtain rfl := List.mem_singleton.mp hlast
  exact (Cursor.tokens_stand (Cursor.in_ofLine line) token ht).1.inside

theorem nonempty_of_mem_tokens {line : List Char} {token : Token} (h : token ∈ tokens line) :
    token.span.start < token.span.stop := by
  rcases List.mem_append.mp h with h | h
  · exact (Cursor.tokens_stand (Cursor.in_ofLine line) token h).1.nonempty
  · obtain rfl := List.mem_singleton.mp h
    exact Nat.lt_succ_self _

/-- The kinds of the tokens of a line, without the end of the line. -/
def kinds (line : List Char) : List Kind := (Cursor.ofLine line).tokens.map Token.kind

def firstUnrecognized (line : List Char) : Option Token :=
  (Cursor.ofLine line).tokens.find? (·.kind = .invalid)

theorem find?_tokens (line : List Char) :
    (tokens line).find? (·.kind = .invalid) = firstUnrecognized line := by
  rw [tokens, firstUnrecognized]
  rw [List.find?_append]
  exact Option.or_none

/-! ### Characters that belong to no token -/

/-- The characters of which tokens and the space between them are made. -/
def isKnown (c : Char) : Bool :=
  c.isAlpha || c.isDigit ||
    ['_', '.', '+', '-', '*', '/', '=', '(', ')', ' ', '\t', '\n', '\r', '\x0b', '\x0c'].contains c

section Unknown

variable {c : Char} (hc : isKnown c = false)
include hc

theorem isLineSpace_of_unknown : isLineSpace c = false := by
  simp only [isKnown, isLineSpace, lineSpaces, List.contains_cons, Bool.or_eq_false_iff] at *
  simp [hc]

theorem isNumberChar_of_unknown : isNumberChar c = false := by
  simp only [isKnown, isNumberChar, List.contains_cons, Bool.or_eq_false_iff] at *
  simp [hc]

theorem isNameChar_of_unknown : isNameChar c = false := by
  simp only [isKnown, isNameChar, Char.isAlphanum, List.contains_cons, Bool.or_eq_false_iff] at *
  simp [hc]

theorem isNameStart_of_unknown : isNameStart c = false := by
  have := isNameChar_of_unknown hc
  simp only [isNameChar, isNameStart, Char.isAlphanum, Bool.or_eq_false_iff] at *
  exact ⟨this.1.1, this.2⟩

theorem ofPunctuation?_of_unknown : Kind.ofPunctuation? c = none := by
  unfold Kind.ofPunctuation?
  split <;> first | rfl | exact absurd hc (by decide)

theorem ofLexeme_of_unknown : Kind.ofLexeme [c] = .invalid := by
  simp [Kind.ofLexeme, ofPunctuation?_of_unknown hc, isNumberChar_of_unknown hc,
    isNameStart_of_unknown hc]

theorem longestLexeme_of_unknown {first : Char} {following : List Char}
    (h : c ∈ longestLexeme first following) : longestLexeme first following = [c] := by
  rw [longestLexeme] at h ⊢
  split at h
  · next hnumber =>
    have : isNumberChar c = true := by
      rcases List.mem_cons.mp h with rfl | h
      · exact hnumber
      · exact List.mem_takeWhile_imp h
    simp [isNumberChar_of_unknown hc] at this
  · next hnumber =>
    split at h
    · next hname =>
      rcases List.mem_cons.mp h with rfl | h
      · simp [isNameStart_of_unknown hc] at hname
      · have := List.mem_takeWhile_imp h
        simp [isNameChar_of_unknown hc] at this
    · next hname =>
      obtain rfl := List.mem_singleton.mp h
      simp [hnumber, hname]

/-- Wherever it stands, some token is unrecognized. -/
theorem Cursor.exists_invalid_of_unknown {cursor : Cursor} (h : c ∈ cursor.rest) :
    ∃ token ∈ cursor.tokens, token.kind = .invalid := by
  have hspace (cursor : Cursor) (h : c ∈ cursor.rest) : c ∈ cursor.skipSpace.rest := by
    rw [← List.take_append_drop (cursor.rest.takeWhile isLineSpace).length cursor.rest,
      ← List.prefix_iff_eq_take.mp (List.takeWhile_prefix _)] at h
    refine (List.mem_append.mp h).resolve_left fun hs => ?_
    have := List.mem_takeWhile_imp hs
    simp [isLineSpace_of_unknown hc] at this
  fun_induction tokens cursor with
  | case1 cursor hkind =>
    have h := hspace cursor h
    simp [Cursor.rest_of_endOfLine hkind] at h
  | case2 cursor hkind ih =>
    have h := hspace cursor h
    rw [next, take] at hkind ih ⊢
    split at hkind
    · exact absurd rfl hkind
    · next first following hrest =>
      have hprefix := longestLexeme_prefix first following
      rw [← List.take_append_drop (longestLexeme first following).length cursor.skipSpace.rest] at h
      simp only [hrest] at h ih ⊢
      rw [← List.prefix_iff_eq_take.mp hprefix] at h
      rcases List.mem_append.mp h with h | h
      · refine ⟨_, List.mem_cons_self .., ?_⟩
        rw [longestLexeme_of_unknown hc h]
        exact ofLexeme_of_unknown hc
      · simp only [skip, hrest] at ih
        obtain ⟨token, ht, hinvalid⟩ := ih h
        refine ⟨token, List.mem_cons_of_mem _ ?_, hinvalid⟩
        simpa only [skip, hrest] using ht

end Unknown

end ArithLines
