import ArithLines.Proofs.Likeness
import ArithLines.Proofs.RoundTrip
import ArithLines.Proofs.Unrecognized

/-! Changes of the space in a line. At a space the scan of a line begins anew. Main statement: the
tokens of a text with a space in it are those before the space and those after it, so space can be
put in the place of other space, or around a line, and all but the spans stays as it is. -/

namespace ArithLines

namespace Span

/-- The span so many characters later. -/
def later (count : Nat) (span : Span) : Span := ⟨span.start + count, span.stop + count⟩

end Span

def Token.later (count : Nat) (token : Token) : Token :=
  { token with span := token.span.later count }

/-! ### Tokens on both sides of a space -/

namespace Layout

variable {position : Nat} {text rest : List Char} {tokens after : List Token}

/-- A text that begins later has its tokens as much later. -/
theorem later (h : Layout position text tokens) (count : Nat) :
    Layout (position + count) text (tokens.map (Token.later count)) := by
  induction h with
  | space hspace => exact .space hspace
  | @token position gap lexeme following tokens hgap hwhole _ ih =>
    have hstart : position + gap.length + count = position + count + gap.length := by omega
    have hstop : position + gap.length + lexeme.length + count =
        position + count + gap.length + lexeme.length := by omega
    rw [hstop] at ih
    have htoken := Layout.token hgap hwhole ih
    rw [← hstop, ← hstart] at htoken
    exact htoken

/-- A space ends what comes before it, and what comes after it begins anew. -/
theorem append_at_space (h : Layout position text tokens) {space : Char}
    (hspace : isLineSpace space = true) (hrest : Layout (position + text.length + 1) rest after) :
    Layout position (text ++ space :: rest) (tokens ++ after) := by
  induction h with
  | @space position text htext =>
    rw [List.append_cons]
    apply after_space
    · intro c hc
      rcases List.mem_append.mp hc with hc | hc
      · exact htext c hc
      · obtain rfl := List.mem_singleton.mp hc
        exact hspace
    · rwa [List.length_append, List.length_singleton, ← Nat.add_assoc]
  | @token position gap lexeme following tokens hgap hwhole _ ih =>
    have hlength : position + (gap ++ (lexeme ++ following)).length + 1 =
        position + gap.length + lexeme.length + following.length + 1 := by
      simp only [List.length_append]
      omega
    rw [hlength] at hrest
    rw [List.append_assoc, List.append_assoc]
    exact .token hgap (hwhole.before_space hspace) (ih hrest)

end Layout

/-- The tokens on the two sides of a space are those that each side has by itself. -/
theorem tokens_at_space (before after : List Char) {space : Char}
    (hspace : isLineSpace space = true) :
    tokens (before ++ space :: after) =
      (tokens before).dropLast ++ (tokens after).map (Token.later (before.length + 1)) := by
  have hafter : Layout (0 + before.length + 1) after
      ((Cursor.ofLine after).tokens.map (Token.later (before.length + 1))) := by
    have hlater := (Layout.of_line after).later (before.length + 1)
    rwa [← Nat.add_assoc] at hlater
  have hboth : (Cursor.ofLine (before ++ space :: after)).tokens = (Cursor.ofLine before).tokens ++
      (Cursor.ofLine after).tokens.map (Token.later (before.length + 1)) :=
    ((Layout.of_line before).append_at_space hspace hafter).tokens_eq
  have hend : Token.endOfLine (before ++ space :: after).length =
      (Token.endOfLine after.length).later (before.length + 1) := by
    simp only [Token.endOfLine, Token.later, Span.later, Span.single, List.length_append,
      List.length_cons, Token.mk.injEq, Span.mk.injEq, true_and]
    omega
  rw [tokens, tokens, tokens, List.dropLast_concat, List.map_append, List.map_singleton, ← hend,
    ← List.append_assoc, hboth]

/-! ### Lines that differ in space -/

theorem map_bare_of_recognized {line : List Char} (h : firstUnrecognized line = none) :
    (validate line).reason.map Reason.bare = (validate line).reason := by
  have hne := reason_ne_unrecognized h
  cases hreason : (validate line).reason with
  | none => rfl
  | some reason =>
    rw [hreason] at hne
    cases reason with
    | unrecognizedToken text => exact absurd rfl (hne text)
    | _ => rfl

/-- The tokens of the line apart from their places. -/
def items (line : List Char) : List Item := (tokens line).map Token.item

/-- All but spans is the same with the lines. -/
structure ReadsAs (line other : List Char) : Prop where
  items : items other = items line
  accepted : (validate other).accepted = (validate line).accepted
  reason : (validate other).reason = (validate line).reason
  statement : (examine other).statement.map Statement.bare =
    (examine line).statement.map Statement.bare

section Items

variable {line other : List Char}

theorem items_eq (line : List Char) :
    items line = (Cursor.ofLine line).tokens.map Token.item ++ [⟨.endOfLine, []⟩] := by
  rw [items, tokens, List.map_append]
  rfl

theorem items_nil : items [] = [⟨.endOfLine, []⟩] := by
  rw [items_eq, Cursor.tokens_of_rest rfl]
  rfl

variable (h : items other = items line)

include h

theorem kinds_of_items : kinds other = kinds line := by
  have hkinds (line : List Char) : kinds line = (items line).dropLast.map Item.kind := by
    rw [items_eq, List.dropLast_concat, List.map_map]
    rfl
  rw [hkinds, hkinds, h]

theorem firstUnrecognized_of_items :
    (firstUnrecognized other).map Token.item = (firstUnrecognized line).map Token.item := by
  have hfirst (line : List Char) : (firstUnrecognized line).map Token.item =
      (items line).find? (·.kind = .invalid) := by
    rw [← find?_tokens, items, List.find?_map]
    rfl
  rw [hfirst, hfirst, h]

theorem reason_bare_of_items :
    (validate other).reason.map Reason.bare = (validate line).reason.map Reason.bare := by
  obtain ⟨-, hflags, hblame⟩ := Descent.parse_alike (kinds_of_items h)
  exact (Verdict.alike_ofFindings hflags hblame).2.1

/-- The flags tell the reason, and the first unrecognized token tells its text. -/
theorem reason_of_items : (validate other).reason = (validate line).reason := by
  have hfirst := firstUnrecognized_of_items h
  cases hline : firstUnrecognized line with
  | some first =>
    rw [hline] at hfirst
    obtain ⟨first', hother, hitem⟩ := Option.map_eq_some_iff.mp hfirst
    have hlexeme : first'.lexeme = first.lexeme := congrArg Item.lexeme hitem
    rw [validate_of_unrecognized hline, validate_of_unrecognized hother, hlexeme]
    rfl
  | none =>
    rw [hline] at hfirst
    have hother := Option.map_eq_none_iff.mp hfirst
    have hbare := reason_bare_of_items h
    rwa [map_bare_of_recognized hline, map_bare_of_recognized hother] at hbare

theorem statement_of_items :
    (examine other).statement.map Statement.bare = (examine line).statement.map Statement.bare := by
  obtain ⟨hresult, hflags, hblame⟩ := Descent.parse_alike (kinds_of_items h)
  have haccepted : (validate other).accepted = (validate line).accepted :=
    (Verdict.alike_ofFindings hflags hblame).1
  cases hline : (validate line).accepted with
  | false =>
    rw [examine_statement, examine_statement, haccepted, hline]
    rfl
  | true =>
    obtain ⟨parsed, last, hparse⟩ := exists_parse_of_accepted hline
    obtain ⟨hspells, hnormal⟩ := Descent.spells_of_parse hparse
    obtain ⟨machine, hreach, -, -⟩ := Descent.parse_ok hparse
    have hlisting := hspells.listing (Layout.of_line line).lexeme_of_mark
    rw [items_eq, items_eq, List.append_left_inj, hlisting] at h
    obtain ⟨read, hread, hbare⟩ := parsed.exists_spells h
    obtain ⟨last', hother⟩ :=
      Descent.parse_of_bare hread hbare hnormal (hspells.nesting_le hreach)
    rw [(examine_of_ok hparse).2, (examine_of_ok hother).2]
    exact congrArg some hbare

theorem readsAs_of_items : ReadsAs line other := by
  obtain ⟨-, hflags, hblame⟩ := Descent.parse_alike (kinds_of_items h)
  exact ⟨h, (Verdict.alike_ofFindings hflags hblame).1, reason_of_items h, statement_of_items h⟩

end Items

/-! ### Runs of space -/

theorem items_at_space (before after : List Char) {space : Char}
    (hspace : isLineSpace space = true) :
    items (before ++ space :: after) = (items before).dropLast ++ items after := by
  rw [items, tokens_at_space before after hspace, List.map_append, List.map_map, List.map_dropLast]
  rfl

/-- Space in front of a line adds nothing to it. -/
theorem items_after_gap {gap : List Char} (hgap : ∀ c ∈ gap, isLineSpace c = true)
    (line : List Char) : items (gap ++ line) = items line := by
  induction gap with
  | nil => rfl
  | cons space gap ih =>
    have hrest : items (gap ++ line) = items line := ih fun c hc => hgap c (by simp [hc])
    have hspace : isLineSpace space = true := hgap space (by simp)
    calc items (space :: (gap ++ line)) = (items []).dropLast ++ items (gap ++ line) :=
          items_at_space [] _ hspace
      _ = items line := by rw [hrest, items_nil]; rfl

/-- A line with space in it has the tokens on both sides of the space, whatever space it is. -/
theorem items_at_gap (before after : List Char) {gap : List Char} (hne : gap ≠ [])
    (hgap : ∀ c ∈ gap, isLineSpace c = true) :
    items (before ++ gap ++ after) = (items before).dropLast ++ items after := by
  cases gap with
  | nil => exact absurd rfl hne
  | cons space gap =>
    rw [List.append_assoc, List.cons_append, items_at_space before _ (hgap space (by simp)),
      items_after_gap fun c hc => hgap c (by simp [hc])]

/-- Space behind a line adds nothing to it. -/
theorem items_before_gap (line : List Char) {gap : List Char}
    (hgap : ∀ c ∈ gap, isLineSpace c = true) : items (line ++ gap) = items line := by
  by_cases hne : gap = []
  · rw [hne, List.append_nil]
  · have hboth := items_at_gap line [] hne hgap
    rw [List.append_nil] at hboth
    rw [hboth, items_eq line, List.dropLast_concat, items_nil]

/-- At a space the tokens of a line are those that come before it, and those that come after it with
their spans moved. So with any space in the place of other space, and with space put around it, a
line has the same tokens, verdict and tree apart from spans. -/
theorem spacing_immaterial :
    (∀ (before after : List Char) (space : Char), isLineSpace space = true →
      tokens (before ++ space :: after) =
        (tokens before).dropLast ++ (tokens after).map (Token.later (before.length + 1))) ∧
    (∀ before gap gap' after : List Char, gap ≠ [] → (∀ c ∈ gap, isLineSpace c = true) →
      gap' ≠ [] → (∀ c ∈ gap', isLineSpace c = true) →
      ReadsAs (before ++ gap ++ after) (before ++ gap' ++ after)) ∧
    (∀ left line right : List Char, (∀ c ∈ left, isLineSpace c = true) →
      (∀ c ∈ right, isLineSpace c = true) → ReadsAs line (left ++ line ++ right)) := by
  refine ⟨fun before after space hspace => tokens_at_space before after hspace, ?_, ?_⟩
  · intro before gap gap' after hne hgap hne' hgap'
    apply readsAs_of_items
    rw [items_at_gap before after hne hgap, items_at_gap before after hne' hgap']
  · intro left line right hleft hright
    apply readsAs_of_items
    rw [items_before_gap _ hright, items_after_gap hleft]

/-- Space behind a point that no digit follows, and around a line that has a tree. -/
theorem spacing_immaterial_point :
    tokens "1. +2".toList =
      (tokens "1.".toList).dropLast ++ (tokens "+2".toList).map (Token.later 3) ∧
    (validate "1.\t\t+2".toList).reason = some (.unrecognizedToken ['1', '.']) ∧
    (examine "\tx = 1\r".toList).statement.map Statement.bare =
      some (.assignment ['x'] (.number ['1'] ⟨0, 0⟩) ⟨0, 0⟩) := by
  have hspace : isLineSpace ' ' = true := by decide
  have htab : isLineSpace '\t' = true := by decide
  have hreturn : isLineSpace '\r' = true := by decide
  obtain ⟨htokens, hrun, hpadding⟩ := spacing_immaterial
  refine ⟨htokens "1.".toList "+2".toList ' ' hspace, ?_, ?_⟩
  · have hreason : (validate "1. +2".toList).reason = some (.unrecognizedToken ['1', '.']) := by
      decide +kernel
    have hreads : ReadsAs "1. +2".toList "1.\t\t+2".toList :=
      hrun "1.".toList [' '] ['\t', '\t'] "+2".toList (by simp) (by simp [hspace])
        (by simp) (by simp [htab])
    exact hreads.reason.trans hreason
  · have hstatement : (examine "x = 1".toList).statement.map Statement.bare =
        some (.assignment ['x'] (.number ['1'] ⟨0, 0⟩) ⟨0, 0⟩) := by
      decide +kernel
    have hreads : ReadsAs "x = 1".toList "\tx = 1\r".toList :=
      hpadding ['\t'] "x = 1".toList ['\r'] (by simp [htab]) (by simp [hreturn])
    exact hreads.statement.trans hstatement

end ArithLines
