import ArithLines.Proofs.Acceptance
import ArithLines.Proofs.Spacing

/-! The tokens of a line told without the scan: how they stand in the line, which of its characters
they cover, and what each of them is. Main statement: one list of tokens only is so, and reading the
line gives it, with the end of the line after it however often one reads on. -/

namespace ArithLines

/-! ### What a token is -/

/-- The lexeme is a token of this kind, with `next` as the character after it, if there is one. -/
inductive Classified : Kind → List Char → Option Char → Prop
  | mark {kind : Kind} {c : Char} {next : Option Char} :
      kind.mark? = some c → Classified kind [c] next
  | name {text : List Char} {next : Option Char} :
      IsName text → (∀ c ∈ next, isNameChar c = false) → Classified .identifier text next
  | number {text : List Char} {next : Option Char} :
      IsNumber text → (∀ c ∈ next, isNumberChar c = false) → Classified .number text next
  | run {text : List Char} {next : Option Char} :
      text ≠ [] → (∀ c ∈ text, isNumberChar c = true) → ¬IsNumber text →
      (∀ c ∈ next, isNumberChar c = false) → Classified .invalid text next
  | other {c : Char} {next : Option Char} : isKnown c = false → Classified .invalid [c] next

theorem Kind.ofPunctuation?_of_mark? {kind : Kind} {c : Char} (h : kind.mark? = some c) :
    ofPunctuation? c = some kind := by
  cases kind <;> simp [mark?] at h
  all_goals
    subst h
    rfl

/-- A character that is known is space, or a token can begin with it. -/
theorem isKnown_cases {c : Char} (h : isKnown c = true) :
    isLineSpace c = true ∨ (Kind.ofPunctuation? c).isSome = true ∨ isNumberChar c = true ∨
      isNameStart c = true := by
  rcases Bool.or_eq_true_iff.mp h with hword | hmark
  · rcases Bool.or_eq_true_iff.mp hword with halpha | hdigit
    · simp [isNameStart, halpha]
    · simp [isNumberChar, hdigit]
  · simp only [List.contains_cons, List.contains_nil, Bool.or_false, Bool.or_eq_true,
      beq_iff_eq] at hmark
    rcases hmark with rfl | rfl | rfl | rfl | rfl | rfl | rfl | rfl | rfl | rfl | rfl | rfl | rfl |
      rfl | rfl <;> decide

theorem continues_of_unknown {first : Char} (h : isKnown first = false) (c : Char) :
    continues first c = false := by
  simp [continues, isNumberChar_of_unknown h, isNameStart_of_unknown h]

namespace Classified

variable {kind : Kind} {lexeme following : List Char} {next : Option Char}

theorem kind_eq (h : Classified kind lexeme next) : kind = .ofLexeme lexeme := by
  cases h with
  | mark hmark => exact (Item.Proper.mark (Kind.ofPunctuation?_of_mark? hmark)).ofLexeme.symm
  | name hname => exact (Item.Proper.name hname).ofLexeme.symm
  | number hnumber => exact (Item.Proper.number hnumber).ofLexeme.symm
  | run hne hrun hnumber =>
    rw [Kind.ofLexeme_of_run hne hrun, if_neg]
    intro hnumeral
    exact hnumber (isNumber_of_isNumeral hnumeral)
  | other hother => exact (ofLexeme_of_unknown hother).symm

theorem whole (h : Classified kind lexeme following.head?) : WholeLexeme lexeme following := by
  generalize hnext : following.head? = next at h
  cases h with
  | @mark _ c _ hmark =>
    have hsome : (Kind.ofPunctuation? c).isSome = true := by
      simp [Kind.ofPunctuation?_of_mark? hmark]
    exact ⟨c, [], rfl, isLineSpace_of_punctuation hsome, by simp,
      fun after _ => continues_of_punctuation hsome after⟩
  | name hname hends => exact .of_name hname (hnext ▸ hends)
  | number hnumber hends => exact .of_run hnumber.ne_nil hnumber.isNumberChar (hnext ▸ hends)
  | run hne hrun _ hends => exact .of_run hne hrun (hnext ▸ hends)
  | @other c _ hother =>
    exact ⟨c, [], rfl, isLineSpace_of_unknown hother, by simp,
      fun after _ => continues_of_unknown hother after⟩

/-- Which class the first character is in tells what the lexeme is. -/
theorem of_whole (h : WholeLexeme lexeme following) :
    Classified (.ofLexeme lexeme) lexeme following.head? := by
  obtain ⟨first, rest, rfl, hspace, hrest, hends⟩ := h
  have hsingle (halone : ∀ c, continues first c = false) : rest = [] := by
    apply List.eq_nil_iff_forall_not_mem.mpr
    intro c hc
    simp [halone] at hrest
    exact hrest c hc
  cases hknown : isKnown first with
  | false =>
    obtain rfl := hsingle (continues_of_unknown hknown)
    rw [ofLexeme_of_unknown hknown]
    exact .other hknown
  | true =>
    rcases isKnown_cases hknown with hline | hmark | hnumber | hname
    · rw [hspace] at hline
      exact absurd hline Bool.false_ne_true
    · obtain ⟨kind, hkind⟩ := Option.isSome_iff_exists.mp hmark
      obtain rfl := hsingle (continues_of_punctuation hmark)
      have hofLexeme : Kind.ofLexeme [first] = kind := (Item.Proper.mark hkind).ofLexeme
      rw [hofLexeme]
      exact .mark (Kind.mark?_of_punctuation hkind)
    · simp only [continues_of_isNumberChar hnumber] at hrest hends
      have hne : first :: rest ≠ [] := by simp
      have hrun : ∀ c ∈ first :: rest, isNumberChar c = true :=
        List.forall_mem_cons.mpr ⟨hnumber, hrest⟩
      rw [Kind.ofLexeme_of_run hne hrun]
      by_cases hnumeral : isNumeral (first :: rest) = true
      · rw [if_pos hnumeral]
        exact .number (isNumber_of_isNumeral hnumeral) hends
      · rw [if_neg hnumeral]
        exact .run hne hrun (fun hnumber => hnumeral hnumber.isNumeral) hends
    · simp only [continues_of_isNameStart hname] at hrest hends
      have hisName : IsName (first :: rest) := ⟨first, rest, rfl, hname, hrest⟩
      have hofLexeme : Kind.ofLexeme (first :: rest) = .identifier :=
        (Item.Proper.name hisName).ofLexeme
      rw [hofLexeme]
      exact .name hisName hends

end Classified

theorem WholeLexeme.not_space {lexeme following : List Char} (h : WholeLexeme lexeme following) :
    ∀ c ∈ lexeme, isLineSpace c = false := by
  obtain ⟨first, rest, rfl, hfirst, hrest, -⟩ := h
  refine List.forall_mem_cons.mpr ⟨hfirst, fun c hc => ?_⟩
  exact (endsWord_eq_false_iff.mp (not_endsWord_of_continues (hrest c hc))).1

/-! ### How tokens stand in a line -/

namespace Span

def Covers (span : Span) (index : Nat) : Prop := span.start ≤ index ∧ index < span.stop

variable (text : List Char) (span : Span)

theorem textIn_append_drop (h : span.start ≤ span.stop) :
    span.textIn text ++ text.drop span.stop = text.drop span.start := by
  have hstop : text.drop span.stop = (text.drop span.start).drop (span.stop - span.start) := by
    rw [List.drop_drop, Nat.add_sub_cancel' h]
  rw [hstop, textIn, List.take_append_drop]

variable {text span}

theorem length_textIn (h : span.stop ≤ text.length) :
    (span.textIn text).length = span.stop - span.start := by
  rw [textIn, List.length_take, List.length_drop]
  omega

/-- The text under a span is of the characters that it covers. -/
theorem mem_textIn {c : Char} :
    c ∈ span.textIn text ↔ ∃ index, text[index]? = some c ∧ span.Covers index := by
  rw [textIn, List.mem_iff_getElem?]
  constructor
  · rintro ⟨offset, hoffset⟩
    rw [List.getElem?_take] at hoffset
    split at hoffset
    · next hlt =>
      rw [List.getElem?_drop] at hoffset
      exact ⟨span.start + offset, hoffset, by omega, by omega⟩
    · exact absurd hoffset (Option.some_ne_none c).symm
  · rintro ⟨index, hindex, hstart, hstop⟩
    refine ⟨index - span.start, ?_⟩
    rw [List.getElem?_take, if_pos (by omega), List.getElem?_drop, Nat.add_sub_cancel' hstart]
    exact hindex

end Span

/-- The tokens are those of the text from `position` on: each covers its lexeme, one ends before the
next begins, they cover all but the space, and each is what its lexeme and the next character make
it. -/
structure Tokenization (text : List Char) (position : Nat) (tokens : List Token) : Prop where
  after : ∀ token ∈ tokens, position ≤ token.span.start
  stand : ∀ token ∈ tokens, token.Stands text
  ordered : tokens.Pairwise Token.Before
  covered : ∀ index c, text[index]? = some c → position ≤ index →
    (isLineSpace c = false ↔ ∃ token ∈ tokens, token.span.Covers index)
  classified : ∀ token ∈ tokens, Classified token.kind token.lexeme text[token.span.stop]?

/-- Up to the end of the first token nothing but that token covers anything. -/
theorem covered_before {token : Token} {tokens : List Token} {index : Nat}
    (hordered : (token :: tokens).Pairwise Token.Before) (h : index < token.span.stop) :
    (∃ covering ∈ token :: tokens, covering.span.Covers index) ↔ token.span.start ≤ index := by
  constructor
  · rintro ⟨covering, hmem, hstart, -⟩
    rcases List.mem_cons.mp hmem with rfl | hmem
    · exact hstart
    · have hbefore : token.span.stop ≤ covering.span.start :=
        (List.pairwise_cons.mp hordered).1 covering hmem
      omega
  · intro hstart
    exact ⟨token, List.mem_cons_self .., hstart, h⟩

theorem covered_behind {token : Token} {tokens : List Token} {index : Nat}
    (h : token.span.stop ≤ index) :
    (∃ covering ∈ token :: tokens, covering.span.Covers index) ↔
      ∃ covering ∈ tokens, covering.span.Covers index := by
  constructor
  · rintro ⟨covering, hmem, hcovers⟩
    rcases List.mem_cons.mp hmem with rfl | hmem
    · exact absurd hcovers.2 (Nat.not_lt.mpr h)
    · exact ⟨covering, hmem, hcovers⟩
  · rintro ⟨covering, hmem, hcovers⟩
    exact ⟨covering, List.mem_cons_of_mem _ hmem, hcovers⟩

namespace Tokenization

variable {text : List Char} {position : Nat} {token : Token} {tokens : List Token}

theorem nil_iff :
    Tokenization text position [] ↔ ∀ c ∈ text.drop position, isLineSpace c = true := by
  constructor
  · intro h c hc
    obtain ⟨offset, hoffset⟩ := List.mem_iff_getElem?.mp hc
    rw [List.getElem?_drop] at hoffset
    by_contra hspace
    obtain ⟨token, htoken, -⟩ :=
      (h.covered _ c hoffset (Nat.le_add_right ..)).mp (by simpa using hspace)
    exact absurd htoken List.not_mem_nil
  · intro h
    refine ⟨by simp, by simp, .nil, fun index c hc hle => ?_, by simp⟩
    have hmem : c ∈ text.drop position := by
      apply List.mem_iff_getElem?.mpr
      exact ⟨index - position, by rw [List.getElem?_drop, Nat.add_sub_cancel' hle, hc]⟩
    simp [h c hmem]

/-- Before the first token there is but space. -/
theorem gap (h : Tokenization text position (token :: tokens)) :
    ∀ c ∈ (Span.mk position token.span.start).textIn text, isLineSpace c = true := by
  intro c hc
  obtain ⟨index, hindex, hle, hlt⟩ := Span.mem_textIn.mp hc
  have hlt : index < token.span.start := hlt
  have hnonempty := (h.stand token (by simp)).nonempty
  have hcovered := h.covered index c hindex hle
  rw [covered_before h.ordered (by omega)] at hcovered
  by_contra hspace
  have hstart := hcovered.mp (by simpa using hspace)
  omega

theorem tail (h : Tokenization text position (token :: tokens)) :
    Tokenization text token.span.stop tokens := by
  have hmem {other : Token} (hother : other ∈ tokens) : other ∈ token :: tokens :=
    List.mem_cons_of_mem _ hother
  obtain ⟨hbefore, hordered⟩ := List.pairwise_cons.mp h.ordered
  refine ⟨hbefore, fun other hother => h.stand other (hmem hother), hordered, ?_,
    fun other hother => h.classified other (hmem hother)⟩
  intro index c hindex hle
  have hafter := h.after token (by simp)
  have hnonempty := (h.stand token (by simp)).nonempty
  rw [← covered_behind hle]
  exact h.covered index c hindex (by omega)

theorem cons (hafter : position ≤ token.span.start) (hstands : token.Stands text)
    (hgap : ∀ c ∈ (Span.mk position token.span.start).textIn text, isLineSpace c = true)
    (hclassified : Classified token.kind token.lexeme text[token.span.stop]?)
    (hrest : Tokenization text token.span.stop tokens) :
    Tokenization text position (token :: tokens) := by
  have hnonempty := hstands.nonempty
  have hordered : (token :: tokens).Pairwise Token.Before :=
    List.pairwise_cons.mpr ⟨hrest.after, hrest.ordered⟩
  refine ⟨?_, List.forall_mem_cons.mpr ⟨hstands, hrest.stand⟩, hordered, ?_,
    List.forall_mem_cons.mpr ⟨hclassified, hrest.classified⟩⟩
  · refine List.forall_mem_cons.mpr ⟨hafter, fun other hother => ?_⟩
    have hother := hrest.after other hother
    omega
  -- A place is behind the token, in it or before it, where `hrest`, its lexeme and the gap tell
  · intro index c hindex hle
    by_cases hstop : token.span.stop ≤ index
    · rw [covered_behind hstop]
      exact hrest.covered index c hindex hstop
    · rw [covered_before hordered (by omega)]
      by_cases hstart : token.span.start ≤ index
      · have hlexeme : c ∈ token.lexeme := by
          rw [← hstands.covers]
          exact Span.mem_textIn.mpr ⟨index, hindex, hstart, by omega⟩
        rw [← List.head?_drop] at hclassified
        simp [hclassified.whole.not_space c hlexeme, hstart]
      · have hspace : isLineSpace c = true :=
          hgap c (Span.mem_textIn.mpr ⟨index, hindex, hle, Nat.not_le.mp hstart⟩)
        simp [hspace, hstart]

/-- The conditions on the tokens lay them out in the text. -/
theorem layout (h : Tokenization text position tokens) :
    Layout position (text.drop position) tokens := by
  induction tokens generalizing position with
  | nil => exact .space (nil_iff.mp h)
  | cons token tokens ih =>
    have hafter := h.after token (by simp)
    have hstands := h.stand token (by simp)
    have hnonempty := hstands.nonempty
    have hinside := hstands.inside
    have hclassified := h.classified token (by simp)
    rw [← List.head?_drop] at hclassified
    have hgap := Span.textIn_append_drop text ⟨position, token.span.start⟩ hafter
    have hlexeme := Span.textIn_append_drop text token.span hnonempty.le
    have hstart : position + ((Span.mk position token.span.start).textIn text).length =
        token.span.start := by
      rw [Span.length_textIn (by show token.span.start ≤ text.length; omega)]
      show position + (token.span.start - position) = token.span.start
      omega
    have hstop : token.span.start + token.lexeme.length = token.span.stop := by
      rw [← hstands.covers, Span.length_textIn hinside]
      omega
    have hrest : Layout (position + ((Span.mk position token.span.start).textIn text).length +
        token.lexeme.length) (text.drop token.span.stop) tokens := by
      rw [hstart, hstop]
      exact ih h.tail
    have hlayout := Layout.token h.gap hclassified.whole hrest
    rw [hstart, hstop, ← hclassified.kind_eq] at hlayout
    rw [hstands.covers] at hlexeme
    rw [← hgap, ← hlexeme]
    exact hlayout

end Tokenization

/-- What is laid out in the rest of a line meets the conditions on its tokens. -/
theorem Layout.tokenization {line text : List Char} {position : Nat} {tokens : List Token}
    (h : Layout position text tokens) (htext : line.drop position = text)
    (hle : position ≤ line.length) : Tokenization line position tokens := by
  induction h with
  | space hspace =>
    rw [← htext] at hspace
    exact Tokenization.nil_iff.mpr hspace
  | @token position gap lexeme following tokens hgap hwhole _ ih =>
    have hstart : line.drop (position + gap.length) = lexeme ++ following := by
      rw [← List.drop_drop, htext, List.drop_left]
    have hstop : line.drop (position + gap.length + lexeme.length) = following := by
      rw [← List.drop_drop, hstart, List.drop_left]
    have hlength := congrArg List.length htext
    simp only [List.length_drop, List.length_append] at hlength
    have hinside : position + gap.length + lexeme.length ≤ line.length := by omega
    have hnonempty : 0 < lexeme.length := by
      obtain ⟨first, rest, rfl, -⟩ := hwhole
      exact Nat.succ_pos _
    refine .cons (Nat.le_add_right ..) ⟨Nat.lt_add_of_pos_right hnonempty, hinside, ?_⟩ ?_ ?_
      (ih hstop hinside)
    · rw [Span.textIn, hstart, Nat.add_sub_cancel_left, List.take_left]
    · rw [Span.textIn, htext, Nat.add_sub_cancel_left, List.take_left]
      exact hgap
    · rw [← List.head?_drop, hstop]
      exact .of_whole hwhole

theorem Tokenization.iff_tokens {line : List Char} {tokens : List Token} :
    Tokenization line 0 tokens ↔ tokens = (Cursor.ofLine line).tokens := by
  constructor
  · intro h
    exact h.layout.tokens_eq.symm
  · rintro rfl
    exact (Layout.of_line line).tokenization rfl (Nat.zero_le _)

/-! ### Reading on -/

namespace Reading

variable {line : List Char} {reading : Reading}

/-- The reading after so many more tokens, the end of the line counted as often as it is read. -/
def past : Nat → Reading → Reading
  | 0, reading => reading
  | count + 1, reading => reading.next.2.past count

theorem past_in (h : reading.cursor.In line) (count : Nat) :
    (reading.past count).cursor.In line := by
  induction count generalizing reading with
  | zero => exact h
  | succ count ih =>
    apply ih
    rw [next_cursor]
    exact h.next

theorem past_tokens (reading : Reading) (count : Nat) :
    (reading.past count).cursor.tokens = reading.cursor.tokens.drop count := by
  induction count generalizing reading with
  | zero => rfl
  | succ count ih => rw [past, ih, next_cursor, Cursor.next_tokens, List.drop_tail]

theorem past_eventual (reading : Reading) (count : Nat) :
    (reading.past count).eventual = reading.eventual := by
  induction count generalizing reading with
  | zero => rfl
  | succ count ih => rw [past, ih, next_eventual]

/-- What is read is the token of that number, or the end of the line if there is none. -/
theorem past_next (h : reading.cursor.In line) (count : Nat) :
    (reading.past count).next.1 = reading.cursor.tokens.getD count (.endOfLine line.length) := by
  rw [next_fst, Cursor.next_fst_eq (past_in h count), past_tokens, List.headD_eq_head?_getD,
    List.head?_drop, List.getD_eq_getElem?_getD]

end Reading

/-- What is found in a line with this first unrecognized token. -/
def Findings.ofUnrecognized (first : Option Token) : Findings :=
  { unrecognized := first.isSome
    unrecognizedText := first.map Token.lexeme
    blame := first.map Token.span }

theorem Findings.recordFirst_fresh (tokens : List Token) :
    ({} : Findings).recordFirst tokens = .ofUnrecognized (tokens.find? (·.kind = .invalid)) := by
  rw [recordFirst]
  split
  · next hfind =>
    rw [hfind]
    rfl
  · next hfind =>
    rw [hfind]
    rfl

/-- Every line has one list of tokens that cover all but the space, each as long as it can be and of
the kind that its text tells. Reading the line gives these, and the end of the line ever after. What
is found is the first unrecognized of them, once all are read or the rest is drained. -/
theorem reading_tokenizes (line : List Char) :
    ∃ tokens, Tokenization line 0 tokens ∧ (∀ other, Tokenization line 0 other → other = tokens) ∧
      (∀ token ∈ tokens, token.kind ≠ .endOfLine) ∧
      (∀ findings count, ((Reading.ofLine line findings).past count).next.1 =
        tokens.getD count ⟨.endOfLine, [], ⟨line.length, line.length + 1⟩⟩) ∧
      (∀ count, tokens.length ≤ count → ((Reading.ofLine line {}).past count).findings =
        .ofUnrecognized (tokens.find? (·.kind = .invalid))) ∧
      ∀ count, ((Reading.ofLine line {}).past count).drain.findings =
        .ofUnrecognized (tokens.find? (·.kind = .invalid)) := by
  have heventual (count : Nat) : ((Reading.ofLine line {}).past count).eventual =
      .ofUnrecognized ((Cursor.ofLine line).tokens.find? (·.kind = .invalid)) := by
    rw [Reading.past_eventual]
    exact Findings.recordFirst_fresh _
  refine ⟨(Cursor.ofLine line).tokens, Tokenization.iff_tokens.mpr rfl,
    fun other hother => Tokenization.iff_tokens.mp hother, Cursor.kind_ne_endOfLine, ?_, ?_, ?_⟩
  · intro findings count
    exact Reading.past_next (Cursor.in_ofLine line) count
  · intro count hcount
    have hread : ((Reading.ofLine line {}).past count).cursor.tokens = [] := by
      rw [Reading.past_tokens]
      exact List.drop_eq_nil_of_le hcount
    rw [← heventual count, Reading.eventual, hread]
    rfl
  · intro count
    rw [Reading.drain_findings, heventual]

end ArithLines
