import ArithLines.Proofs.Recall
import ArithLines.Proofs.Tree.Spelling

/-! The parts of a tree, each of which is spelled by tokens that stand side by side, and trees that
are moved to an earlier place in a line. -/

namespace ArithLines

namespace Span

/-- The span so many characters earlier. -/
def earlier (count : Nat) (span : Span) : Span := ⟨span.start - count, span.stop - count⟩

def Inside (inner outer : Span) : Prop := outer.start ≤ inner.start ∧ inner.stop ≤ outer.stop

end Span

def Token.earlier (count : Nat) (token : Token) : Token :=
  { token with span := token.span.earlier count }

namespace Expr

/-- The tree with all its spans so many characters earlier. -/
def earlier (count : Nat) : Expr → Expr
  | number text span => .number text (span.earlier count)
  | name text span => .name text (span.earlier count)
  | binary left operator right span =>
    .binary (left.earlier count) operator (right.earlier count) (span.earlier count)
  | group body span => .group (body.earlier count) (span.earlier count)

@[simp] theorem bare_earlier (count : Nat) (tree : Expr) :
    (tree.earlier count).bare = tree.bare := by
  induction tree with
  | number | name => rfl
  | binary left operator right span ihl ihr => simp [earlier, bare, ihl, ihr]
  | group body span ih => simp [earlier, bare, ih]

/-- The operands of the operator at the root, or what the group at the root holds. -/
def children : Expr → List Expr
  | number .. | name .. => []
  | binary left _ right _ => [left, right]
  | group body _ => [body]

theorem mem_children_binary {child left right : Expr} {operator : Operator} {span : Span} :
    child ∈ (binary left operator right span).children ↔ child = left ∨ child = right := by
  simp [children]

/-- What holds of a tree and passes to children holds of all its nodes. -/
theorem forall_mem_nodes {Holds : Expr → Prop}
    (hchildren : ∀ tree : Expr, Holds tree → ∀ child ∈ tree.children, Holds child) {tree : Expr}
    (h : Holds tree) (before : Nat) : ∀ placed ∈ tree.nodes before, Holds placed.2 := by
  have hbelow := hchildren tree h
  induction tree generalizing before with
  | number | name => simpa [nodes] using h
  | binary left operator right span ihl ihr =>
    have hleft : Holds left := hbelow left (by simp [children])
    have hright : Holds right := hbelow right (by simp [children])
    intro placed hplaced
    rcases List.mem_cons.mp hplaced with rfl | hplaced
    · exact h
    · rcases List.mem_append.mp hplaced with hplaced | hplaced
      · exact ihl hleft before (hchildren left hleft) placed hplaced
      · exact ihr hright _ (hchildren right hright) placed hplaced
  | group body span ih =>
    have hbody : Holds body := hbelow body (by simp [children])
    intro placed hplaced
    rcases List.mem_cons.mp hplaced with rfl | hplaced
    · exact h
    · exact ih hbody _ (hchildren body hbody) placed hplaced

variable {tree child : Expr}

theorem Normal.children (h : tree.Normal) (hchild : child ∈ tree.children) : child.Normal := by
  cases tree with
  | number | name => simp [Expr.children] at hchild
  | binary left operator right span =>
    obtain ⟨hleft, hright, -⟩ := h
    rcases mem_children_binary.mp hchild with rfl | rfl
    · exact hleft
    · exact hright
  | group body span =>
    obtain rfl := List.mem_singleton.mp hchild
    exact h

theorem nesting_children (hchild : child ∈ tree.children) : child.nesting ≤ tree.nesting := by
  cases tree with
  | number | name => simp [Expr.children] at hchild
  | binary left operator right span =>
    rcases mem_children_binary.mp hchild with rfl | rfl
    · exact Nat.le_max_left ..
    · exact Nat.le_max_right ..
  | group body span =>
    obtain rfl := List.mem_singleton.mp hchild
    exact Nat.le_succ _

end Expr

/-! ### Tokens in their order -/

/-- The tokens stand one before the other, and none is empty. -/
structure InOrder (tokens : List Token) : Prop where
  before : tokens.Pairwise Token.Before
  nonempty : ∀ token ∈ tokens, token.span.start < token.span.stop

theorem inOrder_tokens (line : List Char) : InOrder (Cursor.ofLine line).tokens where
  before := Cursor.tokens_before (Cursor.in_ofLine line)
  nonempty _ htoken := (Cursor.tokens_stand (Cursor.in_ofLine line) _ htoken).1.nonempty

theorem InOrder.sublist {tokens part : List Token} (h : InOrder tokens)
    (hpart : part.Sublist tokens) : InOrder part :=
  ⟨h.before.sublist hpart, fun token htoken => h.nonempty token (hpart.subset htoken)⟩

namespace Span.RunsOver

variable {tokens part : List Token} {span inner : Span}

theorem exists_first (h : span.RunsOver tokens) :
    ∃ first ∈ tokens, first.span.start = span.start := by
  obtain ⟨first, hfirst, hstart⟩ := Option.map_eq_some_iff.mp h.start
  exact ⟨first, List.mem_of_mem_head? hfirst, hstart⟩

theorem exists_last (h : span.RunsOver tokens) : ∃ last ∈ tokens, last.span.stop = span.stop := by
  obtain ⟨last, hlast, hstop⟩ := Option.map_eq_some_iff.mp h.stop
  exact ⟨last, List.mem_of_mem_getLast? hlast, hstop⟩

/-- Each of the tokens stands inside the span that runs over them. -/
theorem encloses (h : span.RunsOver tokens) (horder : InOrder tokens) {token : Token}
    (htoken : token ∈ tokens) : token.span.Inside span := by
  obtain ⟨first, hfirst, hstart⟩ := Option.map_eq_some_iff.mp h.start
  obtain ⟨last, hlast, hstop⟩ := Option.map_eq_some_iff.mp h.stop
  have hnonempty := horder.nonempty
  have hbefore := horder.before
  constructor
  · obtain ⟨rest, rfl⟩ := List.head?_eq_some_iff.mp hfirst
    rcases List.mem_cons.mp htoken with rfl | hrest
    · exact Nat.le_of_eq hstart.symm
    · have hfirst : first.span.stop ≤ token.span.start := List.rel_of_pairwise_cons hbefore hrest
      have := hnonempty first (by simp)
      omega
  · obtain ⟨rest, rfl⟩ := List.getLast?_eq_some_iff.mp hlast
    rcases List.mem_append.mp htoken with hrest | hlast
    · have hlast : token.span.stop ≤ last.span.start :=
        (List.pairwise_append.mp hbefore).2.2 token hrest last (by simp)
      have := hnonempty last (by simp)
      omega
    · obtain rfl := List.mem_singleton.mp hlast
      exact Nat.le_of_eq hstop

theorem inside (h : inner.RunsOver part) (houter : span.RunsOver tokens) (horder : InOrder tokens)
    (hpart : part ⊆ tokens) : inner.Inside span := by
  obtain ⟨first, hfirst, hstart⟩ := h.exists_first
  obtain ⟨last, hlast, hstop⟩ := h.exists_last
  rw [Span.Inside, ← hstart, ← hstop]
  exact ⟨(houter.encloses horder (hpart hfirst)).1, (houter.encloses horder (hpart hlast)).2⟩

theorem earlier (h : span.RunsOver tokens) (count : Nat) :
    (span.earlier count).RunsOver (tokens.map (Token.earlier count)) := by
  obtain ⟨first, hfirst, hstart⟩ := Option.map_eq_some_iff.mp h.start
  obtain ⟨last, hlast, hstop⟩ := Option.map_eq_some_iff.mp h.stop
  constructor
  · rw [List.head?_map, hfirst]
    simp [Token.earlier, Span.earlier, hstart]
  · rw [List.getLast?_map, hlast]
    simp [Token.earlier, Span.earlier, hstop]

end Span.RunsOver

namespace Expr.Spells

variable {tokens : List Token} {tree : Expr}

theorem earlier (h : tree.Spells tokens) (count : Nat) :
    (tree.earlier count).Spells (tokens.map (Token.earlier count)) := by
  induction h with
  | number hkind => exact .number hkind
  | name hkind => exact .name hkind
  | binary _ hsign _ hspan ihl ihr =>
    have hmoved := hspan.earlier count
    rw [List.map_append, List.map_cons] at hmoved ⊢
    exact .binary ihl hsign ihr hmoved
  | group hopening _ hclosing ih =>
    rw [List.map_cons, List.map_append, List.map_singleton]
    exact .group hopening ih hclosing

/-- A child is spelled by some of the tokens that stand side by side. -/
theorem children (h : tree.Spells tokens) :
    ∀ child ∈ tree.children, ∃ part, part <:+: tokens ∧ child.Spells part := by
  cases h with
  | number | name => simp [Expr.children]
  | @binary before after sign left right operator span hleft _ hright _ =>
    intro child hchild
    rcases mem_children_binary.mp hchild with rfl | rfl
    · exact ⟨before, ⟨[], sign :: after, by simp⟩, hleft⟩
    · exact ⟨after, ⟨before ++ [sign], [], by simp⟩, hright⟩
  | @group opening closing body inner _ hbody _ =>
    intro child hchild
    obtain rfl := List.mem_singleton.mp hchild
    exact ⟨body, ⟨[opening], [closing], by simp⟩, hbody⟩

theorem span_children (h : tree.Spells tokens) (horder : InOrder tokens) :
    ∀ child ∈ tree.children, child.span.Inside tree.span := by
  intro child hchild
  obtain ⟨part, hpart, hspells⟩ := h.children child hchild
  exact hspells.runsOver.inside h.runsOver horder hpart.subset

theorem children_before (h : tree.Spells tokens) (horder : InOrder tokens) :
    tree.children.Pairwise fun left right => left.span.stop ≤ right.span.start := by
  cases h with
  | number | name => exact .nil
  | group => exact List.pairwise_singleton ..
  | @binary before after sign left right operator span hleft _ hright _ =>
    obtain ⟨last, hlast, hstop⟩ := hleft.runsOver.exists_last
    obtain ⟨first, hfirst, hstart⟩ := hright.runsOver.exists_first
    have hbefore : last.span.stop ≤ first.span.start :=
      (List.pairwise_append.mp horder.before).2.2 last hlast first (by simp [hfirst])
    rw [hstop, hstart] at hbefore
    simpa [Expr.children] using hbefore

/-- The machine reads the tokens that spell a tree only if there is room for the groups in it. -/
theorem nesting_le (h : tree.Spells tokens) {floor groups : Nat} {awaits : Bool} {last : Machine}
    (hgroups : groups ≤ Descent.depthLimit)
    (hrun : (Machine.mk .operand groups awaits).run floor (tokens.map Token.kind) = some last) :
    groups + tree.nesting ≤ Descent.depthLimit ∧ ∃ awaits, last = ⟨.operator, groups, awaits⟩ := by
  induction h generalizing groups awaits last with
  | number hkind | name hkind =>
    rw [List.map_singleton, hkind] at hrun
    exact ⟨hgroups, false, (Option.some.inj hrun).symm⟩
  | @binary before after sign left right operator span _ hsign _ _ ihl ihr =>
    rw [List.map_append, List.map_cons, Machine.run_append, Option.bind_eq_some_iff] at hrun
    obtain ⟨_, hleft, hrest⟩ := hrun
    obtain ⟨hleftNesting, awaitsLeft, rfl⟩ := ihl hgroups hleft
    have hstep : (Machine.mk .operator groups awaitsLeft).step floor sign.kind =
        some ⟨.operand, groups, true⟩ := by
      rw [hsign]
      cases operator <;> rfl
    rw [Machine.run, hstep, Option.bind_some] at hrest
    obtain ⟨hrightNesting, hlast⟩ := ihr hgroups hrest
    refine ⟨?_, hlast⟩
    rw [Expr.nesting]
    omega
  | @group opening closing body inner hopening _ hclosing ih =>
    rw [List.map_cons, List.map_append, List.map_singleton, hopening, hclosing, Machine.run] at hrun
    by_cases hroom : groups < Descent.depthLimit
    · have hstep : (Machine.mk .operand groups awaits).step floor .leftParen =
          some ⟨.operand, groups + 1, false⟩ := if_pos hroom
      rw [hstep, Option.bind_some, Machine.run_append, Option.bind_eq_some_iff] at hrun
      obtain ⟨_, hbody, hclose⟩ := hrun
      obtain ⟨hnesting, awaitsBody, rfl⟩ := ih hroom hbody
      rw [Machine.run_singleton, Machine.step_eq_some_iff] at hclose
      cases hclose with
      | operator hkind => exact absurd hkind (by decide)
      | closing => exact ⟨by rw [Expr.nesting]; omega, false, rfl⟩
    · have hstep : (Machine.mk .operand groups awaits).step floor .leftParen = none := if_neg hroom
      rw [hstep] at hrun
      simp at hrun

end Expr.Spells

namespace Statement

variable {statement : Statement} {tokens : List Token}

theorem forall_mem_nodes {Holds : Expr → Prop}
    (hchildren : ∀ tree : Expr, Holds tree → ∀ child ∈ tree.children, Holds child)
    (h : Holds statement.value) : ∀ placed ∈ statement.nodes, Holds placed.2 := by
  cases statement with
  | assignment target value span => exact Expr.forall_mem_nodes hchildren h 2
  | expression value span => exact Expr.forall_mem_nodes hchildren h 0

namespace Spells

theorem value (h : statement.Spells tokens) :
    ∃ part, part <:+: tokens ∧ statement.value.Spells part := by
  cases h with
  | expression hvalue => exact ⟨tokens, ⟨[], [], by simp⟩, hvalue⟩
  | @assignment target equals body value _ _ hvalue =>
    exact ⟨body, ⟨[target, equals], [], by simp⟩, hvalue⟩

theorem nesting_le (h : statement.Spells tokens) {machine : Machine}
    (hreach : Machine.reach (tokens.map Token.kind) = some machine) :
    statement.value.nesting ≤ Descent.depthLimit := by
  have hvalue {awaits : Bool} {body : List Token} (hspells : statement.value.Spells body)
      (hrun : (Machine.start awaits).run 0 (body.map Token.kind) = some machine) :
      statement.value.nesting ≤ Descent.depthLimit := by
    have hnesting := (hspells.nesting_le (Nat.zero_le _) hrun).1
    omega
  cases h with
  | expression hspells =>
    rw [Machine.reach_of_not_assignment] at hreach
    · exact hvalue hspells hreach
    · intro rest hrest
      obtain ⟨_, _, rfl, -, hmore⟩ := List.map_eq_cons_iff.mp hrest
      obtain ⟨equals, _, rfl, hequals, -⟩ := List.map_eq_cons_iff.mp hmore
      exact hspells.kind_ne_equal equals (by simp) hequals
  | assignment htarget hequals hspells =>
    rw [List.map_cons, List.map_cons, htarget, hequals, Machine.reach_assignment] at hreach
    exact hvalue hspells hreach

end Spells

end Statement

end ArithLines
