import ArithLines.Proofs.Tokens

/-! How tokens are laid out in a text: with nothing but line space around them, and each as long as
its first character lets it be. A text has the tokens that are laid out in it, so that a change of
the text is followed by changing the layout. -/

namespace ArithLines

/-- Whether a character goes on with a token that begins with `first`. -/
def continues (first c : Char) : Bool :=
  if isNumberChar first then isNumberChar c
  else if isNameStart first then isNameChar c
  else false

theorem longestLexeme_eq (first : Char) (following : List Char) :
    longestLexeme first following = first :: following.takeWhile (continues first) := by
  unfold longestLexeme continues
  split
  · rfl
  · split
    · rfl
    · cases following <;> rfl

/-- Where such a character stands, a word that came before has ended. -/
def endsWord (c : Char) : Bool := isLineSpace c || (Kind.ofPunctuation? c).isSome

theorem isNameChar_of_endsWord {c : Char} (h : endsWord c = true) :
    isNameChar c = false ∧ isNumberChar c = false := by
  rcases Bool.or_eq_true_iff.mp h with h | h
  · simp only [isLineSpace, lineSpaces, List.contains_cons, List.contains_nil, Bool.or_false,
      Bool.or_eq_true, beq_iff_eq] at h
    rcases h with rfl | rfl | rfl | rfl | rfl | rfl <;> decide
  · unfold Kind.ofPunctuation? at h
    split at h <;> first | decide | simp at h

theorem continues_of_endsWord {c : Char} (h : endsWord c = true) (first : Char) :
    continues first c = false := by
  obtain ⟨hname, hnumber⟩ := isNameChar_of_endsWord h
  unfold continues
  split
  · exact hnumber
  · split
    · exact hname
    · rfl

theorem not_endsWord_of_continues {first c : Char} (h : continues first c = true) :
    endsWord c = false := by
  cases hends : endsWord c with
  | false => rfl
  | true =>
    rw [continues_of_endsWord hends] at h
    exact absurd h Bool.false_ne_true

/-- The lexeme begins a token and ends where the token does when `following` comes after it. -/
def WholeLexeme (lexeme following : List Char) : Prop :=
  ∃ first rest, lexeme = first :: rest ∧ isLineSpace first = false ∧
    (∀ c ∈ rest, continues first c = true) ∧ ∀ c ∈ following.head?, continues first c = false

/-- The tokens are laid out in the text, which begins at `position`. -/
inductive Layout : Nat → List Char → List Token → Prop
  | space {position : Nat} {text : List Char} :
      (∀ c ∈ text, isLineSpace c = true) → Layout position text []
  | token {position : Nat} {gap lexeme following : List Char} {tokens : List Token} :
      (∀ c ∈ gap, isLineSpace c = true) → WholeLexeme lexeme following →
      Layout (position + gap.length + lexeme.length) following tokens →
      Layout position (gap ++ (lexeme ++ following))
        (⟨.ofLexeme lexeme, lexeme,
          ⟨position + gap.length, position + gap.length + lexeme.length⟩⟩ :: tokens)

theorem takeWhile_append_of_head? {α : Type} {p : α → Bool} {before after : List α}
    (hbefore : ∀ a ∈ before, p a = true) (hafter : ∀ a ∈ after.head?, p a = false) :
    (before ++ after).takeWhile p = before := by
  rw [List.takeWhile_append_of_pos hbefore]
  cases after with
  | nil => simp
  | cons a after => simp [hafter a rfl]

theorem drop_length_takeWhile {α : Type} (p : α → Bool) (list : List α) :
    list.drop (list.takeWhile p).length = list.dropWhile p := by
  calc list.drop (list.takeWhile p).length
      = (list.takeWhile p ++ list.dropWhile p).drop (list.takeWhile p).length := by
        rw [List.takeWhile_append_dropWhile]
    _ = list.dropWhile p := List.drop_left

namespace WholeLexeme

variable {lexeme following : List Char}

theorem longest (h : WholeLexeme lexeme following) :
    ∃ first rest, lexeme = first :: rest ∧ isLineSpace first = false ∧
      longestLexeme first (rest ++ following) = lexeme := by
  obtain ⟨first, rest, rfl, hfirst, hrest, hfollowing⟩ := h
  refine ⟨first, rest, rfl, hfirst, ?_⟩
  rw [longestLexeme_eq, takeWhile_append_of_head? hrest hfollowing]

/-- A text that begins with no line space begins with the longest lexeme there. -/
theorem of_longest {first : Char} (h : isLineSpace first = false) (following : List Char) :
    WholeLexeme (longestLexeme first following)
      ((first :: following).drop (longestLexeme first following).length) := by
  rw [longestLexeme_eq]
  refine ⟨first, _, rfl, h, fun c hc => List.mem_takeWhile_imp hc, fun c hc => ?_⟩
  rw [List.length_cons, List.drop_succ_cons, drop_length_takeWhile] at hc
  have hhead := List.head?_dropWhile_not (continues first) following
  rw [hc] at hhead
  exact hhead

theorem of_append {kept rest : List Char} (h : WholeLexeme lexeme (kept ++ rest)) :
    WholeLexeme lexeme kept := by
  obtain ⟨first, more, rfl, hfirst, hmore, hends⟩ := h
  refine ⟨first, more, rfl, hfirst, hmore, fun c hc => hends c ?_⟩
  cases kept with
  | nil => simp at hc
  | cons next kept => exact hc

theorem before_space {rest : List Char} {space : Char} (h : WholeLexeme lexeme following)
    (hspace : isLineSpace space = true) : WholeLexeme lexeme (following ++ space :: rest) := by
  obtain ⟨first, more, rfl, hfirst, hmore, hends⟩ := h
  refine ⟨first, more, rfl, hfirst, hmore, ?_⟩
  cases following with
  | nil =>
    have hword : endsWord space = true := by simp [endsWord, hspace]
    simpa using continues_of_endsWord hword first
  | cons next following => exact hends

end WholeLexeme

namespace Layout

theorem next_of_space (position : Nat) {text : List Char}
    (h : ∀ c ∈ text, isLineSpace c = true) :
    (Cursor.mk position text).next.1.kind = .endOfLine := by
  rw [Cursor.next, Cursor.skipSpace, Cursor.skip]
  have hall : text.takeWhile isLineSpace = text := by simpa using h
  simp [hall, Cursor.take, Token.endOfLine]

theorem next_of_token (position : Nat) {gap lexeme following : List Char}
    (hgap : ∀ c ∈ gap, isLineSpace c = true) (h : WholeLexeme lexeme following) :
    (Cursor.mk position (gap ++ (lexeme ++ following))).next =
      (⟨.ofLexeme lexeme, lexeme,
        ⟨position + gap.length, position + gap.length + lexeme.length⟩⟩,
      ⟨position + gap.length + lexeme.length, following⟩) := by
  obtain ⟨first, rest, rfl, hfirst, hlongest⟩ := h.longest
  have hspace : (gap ++ (first :: rest ++ following)).takeWhile isLineSpace = gap := by
    refine takeWhile_append_of_head? hgap fun c hc => ?_
    obtain rfl : first = c := by simpa using hc
    exact hfirst
  rw [Cursor.next, Cursor.skipSpace, Cursor.skip, hspace, List.drop_left, Cursor.take]
  simp only [List.cons_append, hlongest, Cursor.skip]
  rw [← List.cons_append, List.drop_left]

variable {position : Nat} {text : List Char} {tokens : List Token}

/-- A text has the tokens that are laid out in it. -/
theorem tokens_eq (h : Layout position text tokens) :
    (Cursor.mk position text).tokens = tokens := by
  induction h with
  | space h => exact Cursor.tokens_of_endOfLine (next_of_space _ h)
  | @token position gap lexeme following tokens hgap hwhole _ ih =>
    have hnext := next_of_token position hgap hwhole
    rw [Cursor.tokens_of_token (by rw [hnext]; exact Kind.ofLexeme_ne_endOfLine _), hnext, ih]

/-- A text is line space, or a token begins in it after line space. -/
theorem split_text (text : List Char) :
    (∀ c ∈ text, isLineSpace c = true) ∨
    ∃ gap lexeme following, text = gap ++ (lexeme ++ following) ∧
      (∀ c ∈ gap, isLineSpace c = true) ∧ WholeLexeme lexeme following := by
  have hsplit : text.takeWhile isLineSpace ++ text.dropWhile isLineSpace = text :=
    List.takeWhile_append_dropWhile
  have hgap : ∀ c ∈ text.takeWhile isLineSpace, isLineSpace c = true :=
    fun c hc => List.mem_takeWhile_imp hc
  have hhead := List.head?_dropWhile_not isLineSpace text
  cases hrest : text.dropWhile isLineSpace with
  | nil =>
    rw [hrest, List.append_nil] at hsplit
    exact .inl (hsplit ▸ hgap)
  | cons first following =>
    rw [hrest] at hsplit hhead
    have hprefix := longestLexeme_prefix first following
    have hlongest := List.prefix_iff_eq_append.mp hprefix
    refine .inr ⟨_, _, _, ?_, hgap, WholeLexeme.of_longest hhead following⟩
    rw [hlongest, hsplit]

theorem of_cursor (cursor : Cursor) : Layout cursor.position cursor.rest cursor.tokens := by
  fun_induction Cursor.tokens cursor with
  | case1 cursor hend =>
    rcases split_text cursor.rest with hspace | ⟨gap, lexeme, following, hrest, hgap, hwhole⟩
    · exact .space hspace
    · obtain ⟨position, rest⟩ := cursor
      subst hrest
      rw [next_of_token _ hgap hwhole] at hend
      exact absurd hend (Kind.ofLexeme_ne_endOfLine _)
  | case2 cursor hkind ih =>
    rcases split_text cursor.rest with hspace | ⟨gap, lexeme, following, hrest, hgap, hwhole⟩
    · exact absurd (next_of_space _ hspace) hkind
    · obtain ⟨position, rest⟩ := cursor
      subst hrest
      rw [next_of_token _ hgap hwhole] at ih ⊢
      exact .token hgap hwhole ih

theorem of_line (line : List Char) : Layout 0 line (Cursor.ofLine line).tokens :=
  of_cursor (.ofLine line)

/-! ### Changing a text -/

/-- More line space before a text only moves its tokens. -/
theorem after_space {gap : List Char} (hgap : ∀ c ∈ gap, isLineSpace c = true)
    (h : Layout (position + gap.length) text tokens) : Layout position (gap ++ text) tokens := by
  generalize hplace : position + gap.length = place at h
  cases h with
  | space htext =>
    refine .space fun c hc => ?_
    rcases List.mem_append.mp hc with hc | hc
    · exact hgap c hc
    · exact htext c hc
  | @token _ inner lexeme following tokens hinner hwhole hrest =>
    subst hplace
    have hspace : ∀ c ∈ gap ++ inner, isLineSpace c = true := by
      intro c hc
      rcases List.mem_append.mp hc with hc | hc
      · exact hgap c hc
      · exact hinner c hc
    have hlength : position + gap.length + inner.length = position + (gap ++ inner).length := by
      rw [List.length_append, Nat.add_assoc]
    rw [hlength] at hrest ⊢
    rw [← List.append_assoc]
    exact .token hspace hwhole hrest

/-- A text has tokens of the same kinds wherever it begins. -/
theorem moved (h : Layout position text tokens) (place : Nat) :
    ∃ moved, Layout place text moved ∧ moved.map Token.kind = tokens.map Token.kind := by
  induction h generalizing place with
  | space h => exact ⟨[], .space h, rfl⟩
  | @token position gap lexeme following tokens hgap hwhole _ ih =>
    obtain ⟨moved, hmoved, hsame⟩ := ih (place + gap.length + lexeme.length)
    exact ⟨_, .token hgap hwhole hmoved, by simp [hsame]⟩

/-- A text can be cut where a token begins. Before the cut it keeps its tokens, when what comes after
the cut now begins with line space. -/
theorem cut {before after : List Token} {token : Token}
    (h : Layout position text (before ++ token :: after)) :
    ∃ head tail, text = head ++ (token.lexeme ++ tail) ∧
      token.span.start = position + head.length ∧
      token.span.stop = position + head.length + token.lexeme.length ∧
      Layout token.span.stop tail after ∧
      ∀ {space : Char} {other : List Char} {others : List Token}, isLineSpace space = true →
        Layout (position + head.length) (space :: other) others →
        Layout position (head ++ space :: other) (before ++ others) := by
  induction before generalizing position text with
  | nil =>
    cases h with
    | @token _ gap lexeme following tokens hgap hwhole hrest =>
      exact ⟨gap, following, rfl, rfl, rfl, hrest, fun _ hother => after_space hgap hother⟩
  | cons first before ih =>
    cases h with
    | @token _ gap lexeme following tokens hgap hwhole hrest =>
      obtain ⟨head, tail, rfl, hstart, hstop, htail, hkeeps⟩ := ih hrest
      have hlength : position + (gap ++ (lexeme ++ head)).length =
          position + gap.length + lexeme.length + head.length := by
        simp [Nat.add_assoc]
      refine ⟨gap ++ (lexeme ++ head), tail, by simp, by rw [hlength, hstart],
        by rw [hlength, hstop], htail, fun {space other others} hspace hother => ?_⟩
      rw [hlength] at hother
      have hkept := Layout.token hgap (hwhole.of_append.before_space hspace) (hkeeps hspace hother)
      simpa using hkept

end Layout

namespace Kind

/-- The character that alone is a token of this kind. -/
def mark? : Kind → Option Char
  | leftParen => some '('
  | rightParen => some ')'
  | minus => some '-'
  | plus => some '+'
  | star => some '*'
  | slash => some '/'
  | equal => some '='
  | _ => none

theorem mark?_of_punctuation {c : Char} {kind : Kind} (h : ofPunctuation? c = some kind) :
    kind.mark? = some c := by
  unfold ofPunctuation? at h
  split at h <;> simp at h <;> subst h <;> rfl

theorem mark?_ofLexeme {lexeme : List Char} {c : Char} (h : (ofLexeme lexeme).mark? = some c) :
    ∃ rest, lexeme = c :: rest ∧ (ofPunctuation? c).isSome = true := by
  unfold ofLexeme at h
  cases lexeme with
  | nil => simp [mark?] at h
  | cons first rest =>
    simp only [List.head?_cons] at h
    split at h
    · next kind hkind =>
      obtain rfl := Option.some.inj ((mark?_of_punctuation hkind).symm.trans h)
      exact ⟨rest, rfl, by simp [hkind]⟩
    · repeat' split at h
      all_goals simp [mark?] at h

end Kind

theorem continues_of_punctuation {first : Char} (h : (Kind.ofPunctuation? first).isSome = true)
    (c : Char) : continues first c = false := by
  have hclass : isNumberChar first = false ∧ isNameStart first = false := by
    unfold Kind.ofPunctuation? at h
    split at h <;> first | exact ⟨rfl, rfl⟩ | simp at h
  simp [continues, hclass]

/-- A token that is known by a single character is no longer than that. -/
theorem Layout.lexeme_of_mark {position : Nat} {text : List Char} {tokens : List Token}
    (h : Layout position text tokens) :
    ∀ token ∈ tokens, ∀ c, token.kind.mark? = some c → token.lexeme = [c] := by
  induction h with
  | space => simp
  | @token position gap lexeme following tokens hgap hwhole _ ih =>
    intro token htoken c hmark
    rcases List.mem_cons.mp htoken with rfl | htoken
    · obtain ⟨rest, hlexeme, hpunctuation⟩ := Kind.mark?_ofLexeme hmark
      obtain ⟨first, more, rfl, -, hmore, -⟩ := hwhole
      obtain ⟨rfl, rfl⟩ := List.cons.inj hlexeme
      cases more with
      | nil => rfl
      | cons second more =>
        have hsecond := hmore second (by simp)
        rw [continues_of_punctuation hpunctuation] at hsecond
        exact nomatch hsecond
    · exact ih token htoken c hmark

end ArithLines
