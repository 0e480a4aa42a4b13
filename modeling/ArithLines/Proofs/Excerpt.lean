import ArithLines.Proofs.Acceptance
import ArithLines.Proofs.Cutting
import ArithLines.Proofs.Descent.Rebuilding
import ArithLines.Proofs.Tree.Subtrees

/-! Excerpts from a line. What stands under the span of a node has the tokens of that node. Main
statement: under the span of each node of an accepted line stands an expression, which by itself is
accepted and reads as that node. -/

namespace ArithLines

/-! ### Excerpts and their tokens -/

namespace Layout

variable {position count start stop : Nat} {text : List Char} {span : Span}
  {tokens before part after : List Token}

/-- From the first of some tokens on a text has these tokens. -/
theorem from_first (h : Layout position text (before ++ part))
    (hstart : part.head?.map (·.span.start) = some start) :
    ∃ head rest, text = head ++ rest ∧ start = position + head.length ∧ Layout start rest part := by
  induction before generalizing position text with
  | nil =>
    cases h with
    | space => simp at hstart
    | @token _ gap lexeme following tokens _ hwhole hrest =>
      obtain rfl : position + gap.length = start := by simpa using hstart
      have hnone : ∀ c ∈ ([] : List Char), isLineSpace c = true := by simp
      exact ⟨gap, lexeme ++ following, rfl, rfl, .token hnone hwhole hrest⟩
  | cons token before ih =>
    cases h with
    | @token _ gap lexeme following tokens _ _ hrest =>
      obtain ⟨head, rest, rfl, rfl, hpart⟩ := ih hrest
      refine ⟨gap ++ (lexeme ++ head), rest, by simp, ?_, hpart⟩
      simp only [List.length_append]
      omega

/-- Up to the last of some tokens a text has these tokens. -/
theorem up_to_last (h : Layout position text (part ++ after))
    (hstop : part.getLast?.map (·.span.stop) = some stop) :
    ∃ inner tail, text = inner ++ tail ∧ stop = position + inner.length ∧
      Layout position inner part := by
  induction part generalizing position text with
  | nil => simp at hstop
  | cons token part ih =>
    cases h with
    | @token _ gap lexeme following tokens hgap hwhole hrest =>
      cases part with
      | nil =>
        obtain rfl : position + gap.length + lexeme.length = stop := by simpa using hstop
        have hend : WholeLexeme lexeme ([] ++ following) := hwhole
        have hlast : Layout (position + gap.length + lexeme.length) [] [] := .space (by simp)
        have hinner := Layout.token hgap hend.of_append hlast
        exact ⟨gap ++ (lexeme ++ []), following, by simp, by simp [Nat.add_assoc], hinner⟩
      | cons next part =>
        obtain ⟨inner, tail, rfl, rfl, hpart⟩ := ih hrest (by simpa using hstop)
        refine ⟨gap ++ (lexeme ++ inner), tail, by simp, ?_, .token hgap hwhole.of_append hpart⟩
        simp only [List.length_append]
        omega

/-- Where tokens stand side by side, the text that their span covers has these tokens. -/
theorem excerpt (h : Layout position text (before ++ part ++ after)) (hspan : span.RunsOver part) :
    ∃ head inner tail, text = head ++ (inner ++ tail) ∧ span.start = position + head.length ∧
      span.stop = span.start + inner.length ∧ Layout span.start inner part := by
  rw [List.append_assoc] at h
  have hfirst : (part ++ after).head?.map (·.span.start) = some span.start := by
    obtain ⟨first, hfirst, hstart⟩ := Option.map_eq_some_iff.mp hspan.start
    simp [List.head?_append, hfirst, hstart]
  obtain ⟨head, rest, rfl, hstart, hrest⟩ := h.from_first hfirst
  obtain ⟨inner, tail, rfl, hstop, hinner⟩ := hrest.up_to_last hspan.stop
  exact ⟨head, inner, tail, rfl, hstart, hstop, hinner⟩

/-- A text that begins earlier has its tokens as much earlier. -/
theorem earlier (h : Layout position text tokens) (hcount : count ≤ position) :
    Layout (position - count) text (tokens.map (Token.earlier count)) := by
  induction h with
  | space hspace => exact .space hspace
  | @token position gap lexeme following tokens hgap hwhole _ ih =>
    have hstart : position + gap.length - count = position - count + gap.length := by omega
    have hstop : position + gap.length + lexeme.length - count =
        position - count + gap.length + lexeme.length := by omega
    have hrest := ih (by omega)
    rw [hstop] at hrest
    have htoken := Layout.token hgap hwhole hrest
    rw [← hstop, ← hstart] at htoken
    exact htoken

end Layout

/-! ### Nodes and what stands under their spans -/

namespace Expr

/-- The tree is one that the descent may build of some tokens among these. -/
structure StandsAmong (tokens : List Token) (tree : Expr) : Prop where
  spelled : ∃ part, part <:+: tokens ∧ tree.Spells part
  normal : tree.Normal
  nesting : tree.nesting ≤ Descent.depthLimit

namespace StandsAmong

variable {tokens : List Token} {tree child : Expr}

theorem children (h : tree.StandsAmong tokens) (hchild : child ∈ tree.children) :
    child.StandsAmong tokens := by
  obtain ⟨part, hpart, hspells⟩ := h.spelled
  obtain ⟨inner, hinner, hchildSpells⟩ := hspells.children child hchild
  exact ⟨⟨inner, hinner.trans hpart, hchildSpells⟩, h.normal.children hchild,
    (nesting_children hchild).trans h.nesting⟩

theorem children_placed (h : tree.StandsAmong tokens) (horder : InOrder tokens) :
    (∀ child ∈ tree.children, child.span.Inside tree.span) ∧
      tree.children.Pairwise fun left right => left.span.stop ≤ right.span.start := by
  obtain ⟨part, hpart, hspells⟩ := h.spelled
  have hinner := horder.sublist hpart.sublist
  exact ⟨hspells.span_children hinner, hspells.children_before hinner⟩

theorem span_nonempty (h : tree.StandsAmong tokens) (horder : InOrder tokens) :
    tree.span.start < tree.span.stop := by
  obtain ⟨part, hpart, hspells⟩ := h.spelled
  have hinner := horder.sublist hpart.sublist
  obtain ⟨first, hfirst, hstart⟩ := hspells.runsOver.exists_first
  have hnonempty := hinner.nonempty first hfirst
  have hinside := (hspells.runsOver.encloses hinner hfirst).2
  omega

/-- What stands under the span of the node parses as the node, which begins there. -/
theorem parse_excerpt {line : List Char} (h : tree.StandsAmong (Cursor.ofLine line).tokens) :
    tree.span.stop ≤ line.length ∧
      ∃ last, Descent.parse (.ofLine (tree.span.textIn line)) =
        (.ok (.ofExpr (tree.earlier tree.span.start)), last) := by
  obtain ⟨part, ⟨before, after, htokens⟩, hspells⟩ := h.spelled
  have hlayout := Layout.of_line line
  rw [← htokens] at hlayout
  obtain ⟨head, inner, tail, hline, hstart, hstop, hinner⟩ := hlayout.excerpt hspells.runsOver
  have hlength : line.length = head.length + inner.length + tail.length := by
    rw [hline]
    simp [Nat.add_assoc]
  have htext : tree.span.textIn line = inner := by
    rw [Span.textIn, hstop, Nat.add_sub_cancel_left, hstart, hline, Nat.zero_add, List.drop_left,
      List.take_left]
  have hexcerpt := hinner.earlier (Nat.le_refl _)
  rw [Nat.sub_self] at hexcerpt
  have htokens : (Cursor.ofLine inner).tokens = part.map (Token.earlier tree.span.start) :=
    hexcerpt.tokens_eq
  have hearlier := hspells.earlier tree.span.start
  rw [← htokens] at hearlier
  have hnormal : (tree.earlier tree.span.start).Normal := by
    rw [← normal_bare, bare_earlier, normal_bare]
    exact h.normal
  have hnesting : (tree.earlier tree.span.start).nesting ≤ Descent.depthLimit := by
    rw [← nesting_bare, bare_earlier, nesting_bare]
    exact h.nesting
  rw [htext]
  exact ⟨by omega, Descent.parse_of_spells (.expression hearlier) hnormal hnesting⟩

end StandsAmong

end Expr

/-- The nodes of an accepted line stand among its tokens. -/
theorem standsAmong_of_parse {line : List Char} {parsed : Statement} {last : Descent.State}
    (h : Descent.parse (.ofLine line) = (.ok parsed, last)) :
    ∀ placed ∈ parsed.nodes, placed.2.StandsAmong (Cursor.ofLine line).tokens := by
  obtain ⟨machine, hreach, -, -⟩ := Descent.parse_ok h
  obtain ⟨hspells, hnormal⟩ := Descent.spells_of_parse h
  exact parsed.forall_mem_nodes (fun _ hnode _ hchild => hnode.children hchild)
    ⟨hspells.value, hnormal, hspells.nesting_le hreach⟩

/-- Every node of an accepted line is what stands under its span: that is an expression which is
accepted as well, and its tree is the node, moved to where it begins. The children of the node stand
in it one after the other. -/
theorem accepted_nodes_stand_alone (line : List Char) (h : (validate line).accepted = true) :
    ∃ statement, (examine line).statement = some statement ∧
      ∀ place node, (place, node) ∈ statement.nodes →
        node.span.start < node.span.stop ∧ node.span.stop ≤ line.length ∧
        (validate (node.span.textIn line)).accepted = true ∧
        (examine (node.span.textIn line)).statement =
          some (.ofExpr (node.earlier node.span.start)) ∧
        (∀ child ∈ node.children, child.span.Inside node.span) ∧
        node.children.Pairwise fun left right => left.span.stop ≤ right.span.start := by
  obtain ⟨parsed, last, hparse⟩ := exists_parse_of_accepted h
  obtain ⟨-, hstatement⟩ := examine_of_ok hparse
  refine ⟨parsed, hstatement, fun place node hnode => ?_⟩
  have hstands := standsAmong_of_parse hparse (place, node) hnode
  have horder := inOrder_tokens line
  obtain ⟨hinside, last, hexcerpt⟩ := hstands.parse_excerpt
  obtain ⟨hverdict, htree⟩ := examine_of_ok hexcerpt
  have haccepted : (validate (node.span.textIn line)).accepted = true := by
    rw [validate, hverdict]
    rfl
  exact ⟨hstands.span_nonempty horder, hinside, haccepted, htree, hstands.children_placed horder⟩

/-- The sum in `x=(1+2)*3` stands from the fourth character to the sixth. -/
theorem accepted_nodes_stand_alone_sum :
    (validate "x=(1+2)*3".toList).accepted = true ∧
    ∃ statement, (examine "x=(1+2)*3".toList).statement = some statement ∧
      (3, .binary (.number ['1'] ⟨3, 4⟩) .add (.number ['2'] ⟨5, 6⟩) ⟨3, 6⟩) ∈ statement.nodes ∧
      (validate "1+2".toList).accepted = true ∧
      (examine "1+2".toList).statement = some (.expression
        (.binary (.number ['1'] ⟨0, 1⟩) .add (.number ['2'] ⟨2, 3⟩) ⟨0, 3⟩) ⟨0, 3⟩) := by
  have haccepted : (validate "x=(1+2)*3".toList).accepted = true := by decide +kernel
  let node : Expr := .binary (.number ['1'] ⟨3, 4⟩) .add (.number ['2'] ⟨5, 6⟩) ⟨3, 6⟩
  have htree : (examine "x=(1+2)*3".toList).statement = some (.assignment ['x']
      (.binary (.group node ⟨2, 7⟩) .multiply (.number ['3'] ⟨8, 9⟩) ⟨2, 9⟩) ⟨0, 9⟩) := by
    decide +kernel
  obtain ⟨statement, hstatement, hnodes⟩ :=
    accepted_nodes_stand_alone "x=(1+2)*3".toList haccepted
  obtain rfl := Option.some.inj (hstatement.symm.trans htree)
  obtain ⟨-, -, halone, hread, -⟩ := hnodes 3 node (by decide)
  exact ⟨haccepted, _, hstatement, by decide, halone, hread⟩

end ArithLines
