import ArithLines.Token

/-! The language of the lines, stated apart from any way to read them: which sequences of kinds are
a statement, and which can be continued to one. -/

namespace ArithLines

namespace Kind

def beginsOperand : Kind → Bool
  | number | identifier | leftParen => true
  | _ => false

/-- The kinds of the tokens of which expressions are made. -/
def inExpression (kind : Kind) : Bool :=
  kind.beginsOperand || kind.isOperator || kind = rightParen

end Kind

namespace Grammar

/-- The phrases of a statement, from the loosest to the tightest. -/
inductive Phrase where
  | expression
  | term
  | factor

/-- `Derives room phrase kinds` when tokens of these kinds are such a phrase and no more than `room`
groups are open at any point of it.

    expression := term (('+' | '-') term)*
    term       := factor (('*' | '/') factor)*
    factor     := NUMBER | NAME | '(' expression ')' -/
inductive Derives : Nat → Phrase → List Kind → Prop
  | ofTerm {room : Nat} {kinds : List Kind} :
      Derives room .term kinds → Derives room .expression kinds
  | sum {room : Nat} {left right : List Kind} {operator : Kind} :
      Derives room .expression left → operator = .plus ∨ operator = .minus →
      Derives room .term right → Derives room .expression (left ++ operator :: right)
  | ofFactor {room : Nat} {kinds : List Kind} :
      Derives room .factor kinds → Derives room .term kinds
  | product {room : Nat} {left right : List Kind} {operator : Kind} :
      Derives room .term left → operator = .star ∨ operator = .slash →
      Derives room .factor right → Derives room .term (left ++ operator :: right)
  | number {room : Nat} : Derives room .factor [.number]
  | name {room : Nat} : Derives room .factor [.identifier]
  | group {room : Nat} {body : List Kind} :
      Derives room .expression body →
      Derives (room + 1) .factor (.leftParen :: (body ++ [.rightParen]))

/-- `Sentence room kinds` when tokens of these kinds are a statement in which no more than `room`
groups are open at any point.

    statement := NAME '=' expression | expression -/
inductive Sentence (room : Nat) : List Kind → Prop
  | expression {kinds : List Kind} : Derives room .expression kinds → Sentence room kinds
  | assignment {kinds : List Kind} :
      Derives room .expression kinds → Sentence room (.identifier :: .equal :: kinds)

/-- Some statement begins with tokens of these kinds. -/
def Viable (room : Nat) (kinds : List Kind) : Prop := ∃ rest, Sentence room (kinds ++ rest)

/-- The number of groups that are open after tokens of these kinds. -/
def openGroups (kinds : List Kind) : Nat := kinds.count .leftParen - kinds.count .rightParen

/-- Whether an operand is expected after tokens of these kinds. -/
def expectsOperand (kinds : List Kind) : Bool :=
  kinds.getLast?.all fun last => last.awaitsOperand || last = .leftParen

/-- The parentheses match when none closes too early and none stays open. -/
def Matched (kinds : List Kind) : Prop :=
  (∀ before after, kinds = before ++ after →
    before.count .rightParen ≤ before.count .leftParen) ∧
  kinds.count .leftParen = kinds.count .rightParen

@[simp] theorem expectsOperand_concat (kinds : List Kind) (kind : Kind) :
    expectsOperand (kinds ++ [kind]) = (kind.awaitsOperand || kind = .leftParen) := by
  simp [expectsOperand]

theorem Sentence.viable {room : Nat} {kinds : List Kind} (h : Sentence room kinds) :
    Viable room kinds :=
  ⟨[], by simpa using h⟩

theorem Viable.of_append {room : Nat} {kinds rest : List Kind} (h : Viable room (kinds ++ rest)) :
    Viable room kinds := by
  obtain ⟨more, h⟩ := h
  exact ⟨rest ++ more, by simpa using h⟩

namespace Derives

variable {room : Nat} {phrase : Phrase} {kinds : List Kind}

theorem inExpression (h : Derives room phrase kinds) : ∀ kind ∈ kinds, kind.inExpression = true := by
  induction h with
  | ofTerm _ ih | ofFactor _ ih => exact ih
  | sum _ hop _ ihl ihr | product _ hop _ ihl ihr =>
    simp only [List.mem_append, List.mem_cons]
    rintro kind (hl | rfl | hr)
    · exact ihl kind hl
    · rcases hop with rfl | rfl <;> rfl
    · exact ihr kind hr
  | number | name => simp [Kind.inExpression, Kind.beginsOperand]
  | group _ ih =>
    simp only [List.mem_append, List.mem_cons, List.not_mem_nil, or_false]
    rintro kind (rfl | hb | rfl)
    · rfl
    · exact ih kind hb
    · rfl

/-- An expression stays one when an operator of either level and a factor follow it: a product
takes the factor into its last term. -/
theorem extend {left right : List Kind} {operator : Kind} (hl : Derives room .expression left)
    (hop : operator.isOperator = true) (hr : Derives room .factor right) :
    Derives room .expression (left ++ operator :: right) := by
  have level : (operator = .plus ∨ operator = .minus) ∨ (operator = .star ∨ operator = .slash) := by
    cases operator <;> simp_all [Kind.isOperator, Kind.operator?]
  rcases level with hsum | hproduct
  · exact .sum hl hsum (.ofFactor hr)
  · cases hl with
    | ofTerm ht => exact .ofTerm (.product ht hproduct hr)
    | sum hfirst hfirstOp hlast =>
      rw [List.append_assoc, List.cons_append]
      exact .sum hfirst hfirstOp (.product hlast hproduct hr)

end Derives

theorem Sentence.kinds {room : Nat} {kinds : List Kind} (h : Sentence room kinds) :
    ∀ kind ∈ kinds, kind.inExpression = true ∨ kind = .equal := by
  cases h with
  | expression h => exact fun kind hk => .inl (h.inExpression kind hk)
  | assignment h =>
    simp only [List.mem_cons]
    rintro kind (rfl | rfl | hk)
    · exact .inl rfl
    · exact .inr rfl
    · exact .inl (h.inExpression kind hk)

end Grammar

end ArithLines
