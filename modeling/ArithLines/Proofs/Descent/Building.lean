import ArithLines.Proofs.Descent.Parse
import ArithLines.Proofs.Tree.Spelling

/-! The trees that the descent builds. What a part of it returns is spelled by the tokens that it
consumes and is in normal form. -/

namespace ArithLines.Descent

open ArithLines.Expr

/-- What a part of the descent builds when it begins before the tokens `rest` and the tokens `read`
have been consumed for its tree before: a good tree, spelled by `read` and the tokens consumed. -/
def Builds (line : List Char) (read rest : List Token) (Good : Expr → Prop) {bound : Nat} :
    Outcome bound Expr → Prop
  | .parsed tree next _ =>
    ∃ more rest', rest = more ++ rest' ∧ next.Faces line rest' ∧ tree.Spells (read ++ more) ∧
      Good tree
  | .stopped _ _ => True

namespace Builds

variable {line : List Char} {read more rest : List Token} {Good : Expr → Prop} {bound : Nat}
  {outcome : Outcome bound Expr}

theorem after (h : Builds line (read ++ more) rest Good outcome) :
    Builds line read (more ++ rest) Good outcome := by
  cases outcome with
  | parsed tree next nearer =>
    obtain ⟨more', rest', rfl, hfaces, hspells, hgood⟩ := h
    exact ⟨more ++ more', rest', (List.append_assoc ..).symm, hfaces, by simpa using hspells, hgood⟩
  | stopped blame last => trivial

end Builds

theorem builds_factor {line : List Char} {rest : List Token} {state : State}
    (h : state.Faces line rest)
    (hgroup : ∀ isOpen, Builds line [] rest (IsOperand .product) (group state isOpen)) :
    Builds line [] rest (IsOperand .product) (factor state) := by
  rw [factor]
  split
  · next hnumber =>
    refine ⟨[state.current], rest.tail, h.eq_cons (by simp [hnumber]), h.advance, ?_, trivial, rfl⟩
    exact .number hnumber
  · next hname =>
    refine ⟨[state.current], rest.tail, h.eq_cons (by simp [hname]), h.advance, ?_, trivial, rfl⟩
    exact .name hname
  · exact hgroup _
  · trivial

theorem builds_chain (line : List Char) (level : Precedence) (state : State) (rest : List Token)
    (h : state.Faces line rest) : Builds line [] rest (IsChain level) (chain level state) := by
  refine (chain.mutual_induct
    (fun level state => ∀ rest, state.Faces line rest →
      Builds line [] rest (IsChain level) (chain level state))
    (fun level left _ state nearer => ∀ read rest, state.Faces line rest → left.Spells read →
      left.IsChain level → Builds line read rest (IsChain level) (extend level left state nearer))
    (fun level state => ∀ rest, state.Faces line rest →
      Builds line [] rest (IsOperand level) (operand level state))
    (fun state => ∀ rest, state.Faces line rest →
      Builds line [] rest (IsOperand .product) (factor state))
    (fun state isOpen => ∀ rest, state.Faces line rest →
      Builds line [] rest (IsOperand .product) (group state isOpen))
    ?first_stops ?first ?no_operator ?right_stops ?right ?sum ?product ?number ?name ?paren
    ?no_factor ?too_deep ?body_stops ?closes ?unclosed).1 level state rest h
  case first_stops =>
    intro level state blame last h _ rest _
    rw [chain, h]
    trivial
  case first =>
    intro level state first next nearer h ih ihextend rest hfaces
    have hfirst := ih rest hfaces
    rw [h] at hfirst
    obtain ⟨more, rest', rfl, hnext, hspells, hoperand⟩ := hfirst
    rw [chain, h]
    exact (ihextend more rest' hnext hspells hoperand.isChain).after
  case no_operator =>
    intro level left bound state nearer h read rest hfaces hspells hchain
    rw [extend_ends left nearer h]
    exact ⟨[], rest, rfl, hfaces, by simpa using hspells, hchain⟩
  case right_stops =>
    intro level left bound state nearer operator h blame last hright _ read rest _ _ _
    rw [extend_stops left nearer h hright]
    trivial
  case right =>
    intro level left bound state nearer operator h right next shorter hright ih ihextend read rest
      hfaces hspells hchain
    rw [hfaces.eq_cons (Precedence.ne_endOfLine_of_operator? h)]
    have hoperand := ih rest.tail hfaces.advance
    rw [hright] at hoperand
    obtain ⟨more, rest', hrest, hnext, hmore, hoperand⟩ := hoperand
    obtain ⟨hoperator, hlevel⟩ := Option.filter_eq_some_iff.mp h
    obtain rfl : operator.precedence = level := by simpa using hlevel
    have hjoin := hspells.join (Operator.kind_of_operator? hoperator) hmore
    obtain ⟨nearer', hextend⟩ := extend_joins left nearer h hright
    rw [hextend, hrest]
    exact (ihextend _ rest' hnext hjoin (hchain.join hoperand)).after
  case sum =>
    intro state ih rest hfaces
    rw [operand]
    exact ih rest hfaces
  case product =>
    intro state ih rest hfaces
    rw [operand]
    exact ih rest hfaces
  case number =>
    intro state h rest hfaces
    exact builds_factor hfaces fun isOpen => by simp [h] at isOpen
  case name =>
    intro state h rest hfaces
    exact builds_factor hfaces fun isOpen => by simp [h] at isOpen
  case paren =>
    intro state h ih rest hfaces
    exact builds_factor hfaces fun _ => ih rest hfaces
  case no_factor =>
    intro state _ _ h rest hfaces
    exact builds_factor hfaces fun isOpen => absurd isOpen h
  case too_deep =>
    intro state isOpen h rest _
    rw [group_too_deep isOpen h]
    trivial
  case body_stops =>
    intro state isOpen hroom blame last h _ rest _
    rw [group_stops isOpen hroom h]
    trivial
  case closes =>
    intro state isOpen hroom body next shorter h hclose ih rest hfaces
    have hbody := ih rest.tail hfaces.advance.opened
    rw [h] at hbody
    obtain ⟨more, rest', hrest, hnext, hspells, hnormal⟩ := hbody
    rw [hfaces.eq_cons (by simp [isOpen]), hrest, hnext.eq_cons (by simp [hclose])]
    obtain ⟨nearer, hgroup⟩ := group_closes isOpen hroom h hclose
    rw [hgroup]
    exact ⟨state.current :: (more ++ [next.current]), rest'.tail, by simp, hnext.advance.closed,
      .group isOpen hspells hclose, hnormal, rfl⟩
  case unclosed =>
    intro state isOpen hroom body next shorter h hclose ih rest _
    rw [group_unclosed isOpen hroom h hclose]
    trivial

/-- Before the end of a line the tree of an expression is spelled by all the tokens to come. -/
theorem spells_of_expression {line : List Char} {rest : List Token} {state next : State}
    {tree : Expr} (h : state.Faces line rest) (htokens : ∀ token ∈ rest, token.kind ≠ .endOfLine)
    (hexpression : expression state = (.ok tree, next)) (hend : next.current.kind = .endOfLine) :
    tree.Spells rest ∧ tree.Normal := by
  have hbuilds := builds_chain line .sum state rest h
  rw [expression] at hexpression
  cases hchain : chain .sum state with
  | stopped blame last =>
    rw [hchain] at hexpression
    cases hexpression
  | parsed value last nearer =>
    rw [hchain] at hexpression hbuilds
    obtain ⟨hvalue, rfl⟩ := Prod.mk.injEq .. ▸ hexpression
    obtain rfl := Except.ok.inj hvalue
    obtain ⟨more, rest', rfl, hfaces, hspells, hnormal⟩ := hbuilds
    obtain rfl := hfaces.eq_nil (fun token ht => htokens token (by simp [ht])) hend
    exact ⟨by simpa using hspells, hnormal⟩

/-- The tree of a line that parses is spelled by its tokens and is in normal form. -/
theorem spells_of_parse {line : List Char} {parsed : Statement} {last : State}
    (h : parse (.ofLine line) = (.ok parsed, last)) :
    parsed.Spells (Cursor.ofLine line).tokens ∧ parsed.value.Normal := by
  obtain ⟨hstatement, hend⟩ := parse_eq_ok_iff.mp h
  have hfaces := faces_ofLine line
  have hkinds : ∀ token ∈ (Cursor.ofLine line).tokens, token.kind ≠ .endOfLine :=
    Cursor.kind_ne_endOfLine
  generalize (Cursor.ofLine line).tokens = tokens at hfaces hkinds ⊢
  generalize State.ofLine line = state at hstatement hfaces
  cases hexpression : expression state.expressionStart with
  | mk result next =>
    cases hform : Machine.beginsAssignment (tokens.map Token.kind) with
    | true =>
      obtain ⟨target, equals, body, rfl, htarget, hequals⟩ :=
        Machine.exists_of_beginsAssignment hform
      rw [hfaces.statement_of_assignment htarget hequals, hexpression] at hstatement
      cases result with
      | error blame => exact nomatch hstatement
      | ok value =>
        obtain ⟨hparsed, rfl⟩ := Prod.mk.injEq .. ▸ hstatement
        obtain rfl := Except.ok.inj hparsed
        have hstart := (hfaces.start_of_assignment htarget hequals).1
        obtain ⟨hspells, hnormal⟩ := spells_of_expression hstart
          (fun token ht => hkinds token (by simp [ht])) hexpression hend
        exact ⟨.assignment htarget hequals hspells, hnormal⟩
    | false =>
      rw [hfaces.statement_of_expression hform, hexpression] at hstatement
      cases result with
      | error blame => exact nomatch hstatement
      | ok value =>
        obtain ⟨hparsed, rfl⟩ := Prod.mk.injEq .. ▸ hstatement
        obtain rfl := Except.ok.inj hparsed
        have hstart := (hfaces.start_of_expression hform).1
        obtain ⟨hspells, hnormal⟩ := spells_of_expression hstart hkinds hexpression hend
        exact ⟨.expression hspells, hnormal⟩

end ArithLines.Descent
