import ArithLines.Proofs.Automaton
import ArithLines.Proofs.Descent.Rebuilding
import ArithLines.Proofs.Tree.Subtrees

/-! Lines with tokens of the same kinds. Names and numbers can be put in the place of others, and
space can be put between tokens, without a change to what the check of a line comes to. Main
statement: such lines have trees of one shape, or are rejected at the same token with the same
flags. -/

namespace ArithLines

/-! ### Trees spelled by tokens of the same kinds -/

namespace Expr

/-- The tree without the texts and the spans of its nodes. -/
def shape : Expr → Expr
  | number _ _ => .number [] ⟨0, 0⟩
  | name _ _ => .name [] ⟨0, 0⟩
  | binary left operator right _ => .binary left.shape operator right.shape ⟨0, 0⟩
  | group body _ => .group body.shape ⟨0, 0⟩

@[simp] theorem level?_shape (tree : Expr) : tree.shape.level? = tree.level? := by
  cases tree <;> rfl

@[simp] theorem nesting_shape (tree : Expr) : tree.shape.nesting = tree.nesting := by
  induction tree with
  | number | name => rfl
  | binary left operator right span ihl ihr => simp [shape, nesting, ihl, ihr]
  | group body span ih => simp [shape, nesting, ih]

@[simp] theorem normal_shape {tree : Expr} : tree.shape.Normal ↔ tree.Normal := by
  induction tree with
  | number | name => rfl
  | binary left operator right span ihl ihr => simp [shape, Normal, ihl, ihr]
  | group body span ih => exact ih

/-- Other tokens of the same kinds spell a tree of the same shape. -/
theorem Spells.respell {tokens other : List Token} {tree : Expr} (h : tree.Spells tokens)
    (hkinds : other.map Token.kind = tokens.map Token.kind) :
    ∃ read : Expr, read.Spells other ∧ read.shape = tree.shape := by
  induction h generalizing other with
  | number hkind =>
    obtain ⟨token, rfl, hother⟩ := List.map_eq_singleton_iff.mp hkinds
    exact ⟨_, .number (hother.trans hkind), rfl⟩
  | name hkind =>
    obtain ⟨token, rfl, hother⟩ := List.map_eq_singleton_iff.mp hkinds
    exact ⟨_, .name (hother.trans hkind), rfl⟩
  | binary _ hsign _ _ ihl ihr =>
    rw [List.map_append] at hkinds
    obtain ⟨before, more, rfl, hbefore, hmore⟩ := List.map_eq_append_iff.mp hkinds
    obtain ⟨sign, after, rfl, hother, hafter⟩ := List.map_eq_cons_iff.mp hmore
    obtain ⟨left, hleft, hleftShape⟩ := ihl hbefore
    obtain ⟨right, hright, hrightShape⟩ := ihr hafter
    refine ⟨_, hleft.join (hother.trans hsign) hright, ?_⟩
    simp only [Expr.join, shape, hleftShape, hrightShape]
  | group hopening _ hclosing ih =>
    rw [List.map_cons, List.map_append, List.map_singleton] at hkinds
    obtain ⟨opening, more, rfl, hopens, hmore⟩ := List.map_eq_cons_iff.mp hkinds
    obtain ⟨inner, last, rfl, hinner, hlast⟩ := List.map_eq_append_iff.mp hmore
    obtain ⟨closing, rfl, hcloses⟩ := List.map_eq_singleton_iff.mp hlast
    obtain ⟨body, hbody, hshape⟩ := ih hinner
    refine ⟨_, .group (hopens.trans hopening) hbody (hcloses.trans hclosing), ?_⟩
    simp only [shape, hshape]

end Expr

namespace Statement

/-- The statement without its texts and spans. -/
def shape : Statement → Statement
  | assignment _ value _ => .assignment [] value.shape ⟨0, 0⟩
  | expression value _ => .expression value.shape ⟨0, 0⟩

@[simp] theorem value_shape (statement : Statement) :
    statement.shape.value = statement.value.shape := by
  cases statement <;> rfl

theorem Spells.respell {tokens other : List Token} {statement : Statement}
    (h : statement.Spells tokens) (hkinds : other.map Token.kind = tokens.map Token.kind) :
    ∃ read : Statement, read.Spells other ∧ read.shape = statement.shape := by
  cases h with
  | expression hvalue =>
    obtain ⟨read, hread, hshape⟩ := hvalue.respell hkinds
    exact ⟨_, .expression hread, congrArg (Statement.expression · ⟨0, 0⟩) hshape⟩
  | assignment htarget hequals hvalue =>
    obtain ⟨target, more, rfl, hname, hmore⟩ := List.map_eq_cons_iff.mp hkinds
    obtain ⟨equals, body, rfl, hequal, hbody⟩ := List.map_eq_cons_iff.mp hmore
    obtain ⟨read, hread, hshape⟩ := hvalue.respell hbody
    refine ⟨_, .assignment (hname.trans htarget) (hequal.trans hequals) hread, ?_⟩
    exact congrArg (Statement.assignment [] · ⟨0, 0⟩) hshape

end Statement

/-! ### Findings without texts and places -/

/-- The reason without the text of a token. -/
def Reason.bare : Reason → Reason
  | unrecognizedToken _ => .unrecognizedToken []
  | reason => reason

namespace Findings

/-- The flags, without texts, places and the reason. -/
def flags (findings : Findings) : Findings :=
  { findings with unrecognizedText := none, blame := none, reason := none }

theorem rejects_flags (findings : Findings) : findings.flags.rejects = findings.rejects := rfl

theorem select_flags (findings : Findings) : findings.flags.select = findings.select.bare := by
  by_cases h : findings.unrecognized = true
  · simp [select, flags, h, Reason.bare]
  · simp only [select, flags, h]
    repeat' split
    all_goals rfl

theorem flags_ofFailure {first first' : Option Token} {token token' : Token}
    (hfirst : first'.isSome = first.isSome) (hkind : token'.kind = token.kind) (assignment : Bool)
    (machine : Machine) :
    (ofFailure assignment first' machine token').flags =
      (ofFailure assignment first machine token).flags := by
  simp only [ofFailure, flags, hfirst, hkind]

end Findings

/-! ### Two lines -/

/-- The spans are those of tokens with the same number in their lines. -/
def SamePlace (line other : List Char) (span span' : Span) : Prop :=
  ∃ (index : Nat) (token token' : Token), (tokens line)[index]? = some token ∧
    (tokens other)[index]? = some token' ∧ token.span = span ∧ token'.span = span'

/-- Both are trees of one shape, or both failures at tokens with the same number. -/
inductive Alike (line other : List Char) :
    Except Span Statement → Except Span Statement → Prop
  | parsed {statement statement' : Statement} : statement'.shape = statement.shape →
      Alike line other (.ok statement) (.ok statement')
  | failed {span span' : Span} : SamePlace line other span span' →
      Alike line other (.error span) (.error span')

theorem Stalls.token_at_place {line : List Char} {read rest : List Token} {machine : Machine}
    (h : Stalls line read rest machine) :
    (tokens line)[read.length]? = some (rest.headD (.endOfLine line.length)) := by
  rw [tokens, h.split, List.append_assoc, List.getElem?_append_right (Nat.le_refl _), Nat.sub_self]
  cases rest <;> rfl

/-- The first unrecognized tokens of two lists with the same kinds have the same number. -/
theorem find?_invalid_rel {tokens other : List Token}
    (h : other.map Token.kind = tokens.map Token.kind) :
    Option.Rel (fun first first' => ∃ index : Nat,
        tokens[index]? = some first ∧ other[index]? = some first')
      (tokens.find? (·.kind = .invalid)) (other.find? (·.kind = .invalid)) := by
  induction tokens generalizing other with
  | nil =>
    obtain rfl := List.map_eq_nil_iff.mp h
    exact .none
  | cons token tokens ih =>
    obtain ⟨token', other, rfl, hkind, hother⟩ := List.map_eq_cons_iff.mp h
    by_cases hinvalid : token.kind = .invalid
    · rw [List.find?_cons_of_pos (by simpa using hinvalid),
        List.find?_cons_of_pos (by simpa [hkind] using hinvalid)]
      exact .some ⟨0, rfl, rfl⟩
    · rw [List.find?_cons_of_neg (by simpa using hinvalid),
        List.find?_cons_of_neg (by simpa [hkind] using hinvalid)]
      have hrest := ih hother
      generalize tokens.find? (·.kind = .invalid) = first,
        other.find? (·.kind = .invalid) = first' at hrest ⊢
      cases hrest with
      | none => exact .none
      | some hplace =>
        obtain ⟨index, hfirst, hfirst'⟩ := hplace
        exact .some ⟨index + 1, hfirst, hfirst'⟩

theorem examine_statement (line : List Char) : (examine line).statement =
    if (validate line).accepted then (Descent.parse (.ofLine line)).1.toOption else none := rfl

section Pair

variable {line other : List Char}

theorem kinds_eq_of_tokens (h : (tokens other).map Token.kind = (tokens line).map Token.kind) :
    kinds other = kinds line := by
  rw [tokens, tokens, List.map_append, List.map_append] at h
  exact List.append_cancel_right h

variable (h : kinds other = kinds line)

include h

theorem firstUnrecognized_rel :
    Option.Rel (fun first first' => SamePlace line other first.span first'.span)
      (firstUnrecognized line) (firstUnrecognized other) := by
  have hkinds : (tokens other).map Token.kind = (tokens line).map Token.kind := by
    rw [tokens, tokens, List.map_append, List.map_append]
    exact congrArg (· ++ [Kind.endOfLine]) h
  have hrel := find?_invalid_rel hkinds
  rw [find?_tokens, find?_tokens] at hrel
  generalize firstUnrecognized line = first, firstUnrecognized other = first' at hrel ⊢
  cases hrel with
  | none => exact .none
  | some hplace =>
    obtain ⟨index, hfirst, hfirst'⟩ := hplace
    exact .some ⟨index, _, _, hfirst, hfirst', rfl, rfl⟩

/-- Where the machine stalls in one of the lines it stalls in the other, in the same state. -/
theorem Stalls.same_place {read rest read' rest' : List Token} {machine machine' : Machine}
    (hstalls : Stalls line read rest machine) (hstalls' : Stalls other read' rest' machine') :
    machine' = machine ∧ (rest'.headD (.endOfLine other.length)).kind =
        (rest.headD (.endOfLine line.length)).kind ∧
      SamePlace line other (rest.headD (.endOfLine line.length)).span
        (rest'.headD (.endOfLine other.length)).span := by
  have hsplit : read'.map Token.kind ++ rest'.map Token.kind =
      read.map Token.kind ++ rest.map Token.kind := by
    rw [← List.map_append, ← List.map_append, ← hstalls.split, ← hstalls'.split]
    exact h
  obtain ⟨hread, hrest, hmachine⟩ := hstalls'.stuck.unique hstalls.stuck hsplit
  have hlength : read'.length = read.length := by
    simpa using congrArg List.length hread
  refine ⟨hmachine, ?_, read.length, _, _, hstalls.token_at_place, ?_, rfl, rfl⟩
  · cases rest with
    | nil =>
      obtain rfl := List.map_eq_nil_iff.mp hrest
      rfl
    | cons token rest =>
      obtain ⟨token', rest', rfl, hkind, -⟩ := List.map_eq_cons_iff.mp hrest
      exact hkind
  · rw [← hlength]
    exact hstalls'.token_at_place

namespace Descent

theorem parse_shape {parsed : Statement} {last : State}
    (hparse : parse (.ofLine line) = (.ok parsed, last)) :
    ∃ parsed' last', parse (.ofLine other) = (.ok parsed', last') ∧
      parsed'.shape = parsed.shape := by
  obtain ⟨machine, hreach, -, -⟩ := parse_ok hparse
  obtain ⟨hspells, hnormal⟩ := spells_of_parse hparse
  obtain ⟨parsed', hspells', hshape⟩ := hspells.respell h
  have hvalue : parsed'.value.shape = parsed.value.shape := by
    rw [← Statement.value_shape, hshape, Statement.value_shape]
  have hnormal' : parsed'.value.Normal := by
    rw [← Expr.normal_shape, hvalue, Expr.normal_shape]
    exact hnormal
  have hnesting : parsed'.value.nesting ≤ depthLimit := by
    rw [← Expr.nesting_shape, hvalue, Expr.nesting_shape]
    exact hspells.nesting_le hreach
  obtain ⟨last', hparse'⟩ := parse_of_spells hspells' hnormal' hnesting
  exact ⟨parsed', last', hparse', hshape⟩

/-- The parses of the lines come to the same, apart from texts and spans. -/
theorem parse_alike :
    Alike line other (parse (.ofLine line)).1 (parse (.ofLine other)).1 ∧
      (parse (.ofLine other)).2.findings.flags = (parse (.ofLine line)).2.findings.flags ∧
      Option.Rel (SamePlace line other) (parse (.ofLine line)).2.findings.blame
        (parse (.ofLine other)).2.findings.blame := by
  cases hparse : parse (.ofLine line) with
  | mk result last =>
    cases result with
    | ok parsed =>
      obtain ⟨parsed', last', hparse', hshape⟩ := parse_shape h hparse
      obtain ⟨machine, hreach, -, hfindings⟩ := parse_ok hparse
      obtain ⟨machine', hreach', -, hfindings'⟩ := parse_ok hparse'
      rw [h] at hreach'
      obtain rfl := Option.some.inj (hreach.symm.trans hreach')
      have hsame : last'.findings = last.findings := by
        rw [hfindings', hfindings, Findings.ofMachine, Findings.ofMachine, h]
      rw [hparse']
      refine ⟨.parsed hshape, congrArg Findings.flags hsame, ?_⟩
      simp only [hsame, hfindings]
      exact .none
    | error blame =>
      cases hparse' : parse (.ofLine other) with
      | mk result' last' =>
        cases result' with
        | ok parsed =>
          obtain ⟨parsed', last, hother, -⟩ := parse_shape h.symm hparse'
          rw [hparse] at hother
          simp at hother
        | error blame' =>
          obtain ⟨read, rest, machine, hstalls, -, rfl, hfindings⟩ := parse_error hparse
          obtain ⟨read', rest', machine', hstalls', -, rfl, hfindings'⟩ := parse_error hparse'
          obtain ⟨rfl, hkind, hplace⟩ := hstalls.same_place h hstalls'
          have hfirst := firstUnrecognized_rel h
          rw [Findings.ofHalt_eq_ofFailure hstalls.blocked.1 hstalls.blocked.2] at hfindings
          rw [Findings.ofHalt_eq_ofFailure hstalls'.blocked.1 hstalls'.blocked.2, h] at hfindings'
          simp only [hfindings, hfindings']
          generalize firstUnrecognized line = first, firstUnrecognized other = first' at hfirst ⊢
          cases hfirst with
          | none => exact ⟨.failed hplace, Findings.flags_ofFailure rfl hkind _ _, .some hplace⟩
          | some hother =>
            exact ⟨.failed hplace, Findings.flags_ofFailure rfl hkind _ _, .some hother⟩

end Descent

end Pair

/-- Findings with the same flags give the same verdict, apart from a text and the span. -/
theorem Verdict.alike_ofFindings {line other : List Char} {findings findings' : Findings}
    (hflags : findings'.flags = findings.flags)
    (hblame : Option.Rel (SamePlace line other) findings.blame findings'.blame) :
    (ofFindings findings').accepted = (ofFindings findings).accepted ∧
    (ofFindings findings').reason.map Reason.bare = (ofFindings findings).reason.map Reason.bare ∧
    Option.Rel (SamePlace line other) (ofFindings findings).span (ofFindings findings').span := by
  have hrejects : findings'.rejects = findings.rejects := by
    rw [← Findings.rejects_flags, hflags, Findings.rejects_flags]
  have hselect : findings'.select.bare = findings.select.bare := by
    rw [← Findings.select_flags, hflags, Findings.select_flags]
  rw [ofFindings, ofFindings, Findings.reason?, Findings.reason?, hrejects]
  cases findings.rejects with
  | false => exact ⟨rfl, rfl, .none⟩
  | true => exact ⟨rfl, congrArg some hselect, hblame⟩

/-- Two lines with tokens of the same kinds parse to trees of one shape, or fail at tokens with the
same number. The flags that are raised are the same, and so are the verdicts, but for the text of an
unrecognized token and for the spans, which are those of tokens with the same number. -/
theorem verdict_of_kinds (line other : List Char)
    (h : (tokens other).map Token.kind = (tokens line).map Token.kind) :
    Alike line other (Descent.parse (.ofLine line)).1 (Descent.parse (.ofLine other)).1 ∧
    (Descent.parse (.ofLine other)).2.findings.flags =
      (Descent.parse (.ofLine line)).2.findings.flags ∧
    (validate other).accepted = (validate line).accepted ∧
    (validate other).reason.map Reason.bare = (validate line).reason.map Reason.bare ∧
    Option.Rel (SamePlace line other) (validate line).span (validate other).span ∧
    Option.Rel (fun statement statement' => statement'.shape = statement.shape)
      (examine line).statement (examine other).statement := by
  obtain ⟨hresult, hflags, hblame⟩ := Descent.parse_alike (kinds_eq_of_tokens h)
  obtain ⟨haccepted, hreason, hspan⟩ : (validate other).accepted = (validate line).accepted ∧
      (validate other).reason.map Reason.bare = (validate line).reason.map Reason.bare ∧
      Option.Rel (SamePlace line other) (validate line).span (validate other).span :=
    Verdict.alike_ofFindings hflags hblame
  refine ⟨hresult, hflags, haccepted, hreason, hspan, ?_⟩
  rw [examine_statement, examine_statement, haccepted]
  cases (validate line).accepted with
  | false => exact .none
  | true =>
    generalize (Descent.parse (.ofLine line)).1 = first,
      (Descent.parse (.ofLine other)).1 = second at hresult ⊢
    cases hresult with
    | parsed hshape => exact .some hshape
    | failed => exact .none

/-- In `y+#)` and `total + 1.2.3 )` the third token is one that no line may have. -/
theorem verdict_of_kinds_unrecognized :
    (tokens "total + 1.2.3 )".toList).map Token.kind = (tokens "y+#)".toList).map Token.kind ∧
    (validate "total + 1.2.3 )".toList).accepted = false ∧
    (validate "total + 1.2.3 )".toList).reason.map Reason.bare = some (.unrecognizedToken []) ∧
    SamePlace "y+#)".toList "total + 1.2.3 )".toList ⟨2, 3⟩ ⟨8, 13⟩ := by
  have hkinds : (tokens "total + 1.2.3 )".toList).map Token.kind =
      (tokens "y+#)".toList).map Token.kind := by
    decide +kernel
  have hverdict : validate "y+#)".toList = .reject (.unrecognizedToken ['#']) (some ⟨2, 3⟩) := by
    decide +kernel
  have hother : (validate "total + 1.2.3 )".toList).span = some ⟨8, 13⟩ := by
    decide +kernel
  obtain ⟨-, -, haccepted, hreason, hspan, -⟩ := verdict_of_kinds _ _ hkinds
  rw [hverdict] at haccepted hreason hspan
  rw [hother] at hspan
  cases hspan with
  | some hplace => exact ⟨hkinds, haccepted, hreason, hplace⟩

end ArithLines
