import ArithLines.Proofs.Layout
import ArithLines.Proofs.Tree.Listing

/-! Which tokens spell a tree. They are in the order of its listing, and each node has the span from
the first of its own tokens to the last. -/

namespace ArithLines

/-- The span runs from the start of the first of these tokens to the end of the last. -/
structure Span.RunsOver (tokens : List Token) (span : Span) : Prop where
  start : tokens.head?.map (·.span.start) = some span.start
  stop : tokens.getLast?.map (·.span.stop) = some span.stop

namespace Span.RunsOver

variable {tokens before after : List Token} {token : Token} {first last span : Span}

theorem single (token : Token) : token.span.RunsOver [token] := ⟨rfl, rfl⟩

theorem unique (h : first.RunsOver tokens) (h' : last.RunsOver tokens) : first = last := by
  obtain ⟨start, stop⟩ := first
  obtain ⟨start', stop'⟩ := last
  have hstart := Option.some.inj (h.start.symm.trans h'.start)
  have hstop := Option.some.inj (h.stop.symm.trans h'.stop)
  simp only at hstart hstop
  rw [hstart, hstop]

theorem through (h : first.RunsOver before) (h' : last.RunsOver after) :
    (first.through last).RunsOver (before ++ token :: after) := by
  cases before with
  | nil => exact nomatch h.start
  | cons initial before =>
    refine ⟨h.start, ?_⟩
    cases after with
    | nil => exact nomatch h'.stop
    | cons next after =>
      have hstop := h'.stop
      simpa [List.getLast?_append, List.getLast?_cons] using hstop

end Span.RunsOver

namespace Expr

/-- The tokens spell the tree. -/
inductive Spells : List Token → Expr → Prop
  | number {token : Token} : token.kind = .number → Spells [token] (.number token.lexeme token.span)
  | name {token : Token} :
      token.kind = .identifier → Spells [token] (.name token.lexeme token.span)
  | binary {before after : List Token} {sign : Token} {left right : Expr} {operator : Operator}
      {span : Span} :
      Spells before left → sign.kind = operator.kind → Spells after right →
      span.RunsOver (before ++ sign :: after) →
      Spells (before ++ sign :: after) (.binary left operator right span)
  | group {opening closing : Token} {body : List Token} {inner : Expr} :
      opening.kind = .leftParen → Spells body inner → closing.kind = .rightParen →
      Spells (opening :: (body ++ [closing])) (.group inner (opening.span.through closing.span))

namespace Spells

variable {tokens before after : List Token} {tree left right : Expr} {operator : Operator}

theorem runsOver (h : Spells tokens tree) : tree.span.RunsOver tokens := by
  cases h with
  | number | name => exact .single _
  | binary _ _ _ hspan => exact hspan
  | group => exact ⟨rfl, by simp [Expr.span, List.getLast?_cons]⟩

theorem kind_ne_equal (h : Spells tokens tree) : ∀ token ∈ tokens, token.kind ≠ .equal := by
  induction h with
  | number hkind | name hkind => simp [hkind]
  | @binary before after sign left right operator span _ hsign _ _ ihl ihr =>
    have hne : sign.kind ≠ .equal := by
      rw [hsign]
      cases operator <;> nofun
    simp only [List.mem_append, List.mem_cons]
    rintro token (ht | rfl | ht)
    · exact ihl token ht
    · exact hne
    · exact ihr token ht
  | group hopening _ hclosing ih =>
    simp only [List.mem_append, List.mem_cons, List.not_mem_nil, or_false]
    rintro token (rfl | ht | rfl)
    · simp [hopening]
    · exact ih token ht
    · simp [hclosing]

theorem join {sign : Token} (hleft : Spells before left) (hsign : sign.kind = operator.kind)
    (hright : Spells after right) :
    Spells (before ++ sign :: after) (left.join operator right) :=
  .binary hleft hsign hright (hleft.runsOver.through hright.runsOver)

theorem eq_join {span : Span} {sign : Token} (hleft : Spells before left)
    (hright : Spells after right) (hspan : span.RunsOver (before ++ sign :: after)) :
    left.binary operator right span = left.join operator right := by
  rw [hspan.unique (hleft.runsOver.through hright.runsOver)]
  rfl

/-- The tokens that spell a tree are those that it lists, if their kinds tell what the lexemes of
single characters are. -/
theorem listing (h : Spells tokens tree)
    (hmarks : ∀ token ∈ tokens, ∀ c, token.kind.mark? = some c → token.lexeme = [c]) :
    tokens.map Token.item = tree.listing := by
  induction h with
  | number hkind | name hkind => simp [Token.item, hkind, Expr.listing]
  | @binary before after sign left right operator span _ hsign _ _ ihl ihr =>
    have hitem : sign.item = .ofOperator operator := by
      have hlexeme := hmarks sign (by simp) operator.symbol
      rw [Token.item, hsign] at *
      rw [hlexeme (by cases operator <;> rfl)]
      rfl
    rw [List.map_append, List.map_cons, hitem, ihl fun token ht => hmarks token (by simp [ht]),
      ihr fun token ht => hmarks token (by simp [ht])]
    rfl
  | @group opening closing body inner hopening _ hclosing ih =>
    have hopens : opening.item = .opening := by
      rw [Token.item, hmarks opening (by simp) '(' (by rw [hopening]; rfl), hopening]
      rfl
    have hcloses : closing.item = .closing := by
      rw [Token.item, hmarks closing (by simp) ')' (by rw [hclosing]; rfl), hclosing]
      rfl
    rw [List.map_cons, List.map_append, hopens, ih fun token ht => hmarks token (by simp [ht]),
      List.map_singleton, hcloses]
    rfl

theorem length (h : Spells tokens tree) : tokens.length = tree.listing.length := by
  induction h with
  | number | name => rfl
  | binary _ _ _ _ ihl ihr => simp [Expr.listing, ihl, ihr]
  | group _ _ _ ih => simp [Expr.listing, ih]

/-- Among other tokens the tree has the span of as many of them as it lists, from its place on. -/
theorem runsOver_within (h : Spells tokens tree) (outer following : List Token) :
    tree.span.RunsOver
      (((outer ++ tokens ++ following).drop outer.length).take tree.listing.length) := by
  rw [List.append_assoc, List.drop_left, ← h.length, List.take_left]
  exact h.runsOver

theorem nodes (h : Spells tokens tree) (outer following : List Token) :
    ∀ placed ∈ tree.nodes outer.length, placed.2.span.RunsOver
      (((outer ++ tokens ++ following).drop placed.1).take placed.2.listing.length) := by
  induction h generalizing outer following with
  | number hkind =>
    rintro placed hplaced
    obtain rfl := List.mem_singleton.mp hplaced
    exact (number hkind).runsOver_within outer following
  | name hkind =>
    rintro placed hplaced
    obtain rfl := List.mem_singleton.mp hplaced
    exact (name hkind).runsOver_within outer following
  | @binary before after sign left right operator span hleft hsign hright hspan ihl ihr =>
    rintro placed hplaced
    rcases List.mem_cons.mp hplaced with rfl | hplaced
    · exact (binary hleft hsign hright hspan).runsOver_within outer following
    · rcases List.mem_append.mp hplaced with hplaced | hplaced
      · simpa using ihl outer (sign :: after ++ following) placed hplaced
      · have hlength :
            outer.length + left.listing.length + 1 = (outer ++ before ++ [sign]).length := by
          simp [← hleft.length, Nat.add_assoc]
        rw [hlength] at hplaced
        simpa using ihr (outer ++ before ++ [sign]) following placed hplaced
  | @group opening closing body inner hopening hbody hclosing ih =>
    rintro placed hplaced
    rcases List.mem_cons.mp hplaced with rfl | hplaced
    · exact (group hopening hbody hclosing).runsOver_within outer following
    · have hlength : outer.length + 1 = (outer ++ [opening]).length := by simp
      rw [hlength] at hplaced
      simpa using ih (outer ++ [opening]) (closing :: following) placed hplaced

end Spells

end Expr

namespace Statement

inductive Spells : List Token → Statement → Prop
  | expression {tokens : List Token} {value : Expr} :
      value.Spells tokens → Spells tokens (.ofExpr value)
  | assignment {target equals : Token} {body : List Token} {value : Expr} :
      target.kind = .identifier → equals.kind = .equal → value.Spells body →
      Spells (target :: equals :: body)
        (.assignment target.lexeme value (target.span.through value.span))

namespace Spells

variable {tokens : List Token} {statement : Statement}

theorem runsOver (h : Spells tokens statement) : statement.span.RunsOver tokens := by
  cases h with
  | expression hvalue => exact hvalue.runsOver
  | @assignment target equals body value _ _ hvalue =>
    exact (Span.RunsOver.single target).through hvalue.runsOver

theorem listing (h : Spells tokens statement)
    (hmarks : ∀ token ∈ tokens, ∀ c, token.kind.mark? = some c → token.lexeme = [c]) :
    tokens.map Token.item = statement.listing := by
  cases h with
  | expression hvalue => exact hvalue.listing hmarks
  | @assignment target equals body value htarget hequals hvalue =>
    have hitem : equals.item = .equals := by
      rw [Token.item, hmarks equals (by simp) '=' (by rw [hequals]; rfl), hequals]
      rfl
    have hbody := hvalue.listing fun token ht => hmarks token (by simp [ht])
    rw [List.map_cons, List.map_cons, hitem, hbody, Token.item, htarget]
    rfl

theorem nodes (h : Spells tokens statement) :
    ∀ placed ∈ statement.nodes, placed.2.span.RunsOver
      ((tokens.drop placed.1).take placed.2.listing.length) := by
  cases h with
  | expression hvalue => simpa [Statement.nodes, ofExpr] using hvalue.nodes [] []
  | @assignment target equals body value _ _ hvalue =>
    simpa [Statement.nodes] using hvalue.nodes [target, equals] []

end Spells

end Statement

end ArithLines
