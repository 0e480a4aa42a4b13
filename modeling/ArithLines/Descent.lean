import ArithLines.Reading
import ArithLines.Tree

/-! Recursive descent over the tokens of a line, which are read as they are needed.

    statement  := NAME '=' expression | expression
    expression := term (('+' | '-') term)*
    term       := factor (('*' | '/') factor)*
    factor     := NUMBER | NAME | '(' expression ')'

An expression and a term are chains of operands at one level of precedence, so one function serves
both. The descent ends because every part of it that succeeds leaves fewer tokens to come. -/

namespace ArithLines.Descent

/-- The number of groups that may be open at once. -/
def depthLimit : Nat := 256

structure State where
  reading : Reading
  current : Token
  /-- The token after it, if that one is read already. -/
  lookahead : Option Token
  depth : Nat
deriving DecidableEq

namespace State

def ofReading (reading : Reading) : State := ⟨reading.next.2, reading.next.1, none, 0⟩

def findings (state : State) : Findings := state.reading.findings

def note (state : State) (event : Event) : State :=
  { state with reading := state.reading.note event }

def amend (state : State) (change : Findings → Findings) : State :=
  { state with reading := { state.reading with findings := change state.reading.findings } }

/-- At most how many tokens are to come: the current one, the one read ahead, and one for each
character after them. The end of the line counts nothing. -/
def size (state : State) : Nat :=
  state.current.weight + state.lookahead.elim 0 Token.weight + state.reading.cursor.rest.length

def peek (state : State) : State :=
  match state.lookahead with
  | some _ => state
  | none => { state with reading := state.reading.next.2, lookahead := some state.reading.next.1 }

def shift (state : State) : State :=
  match state.lookahead with
  | some token => { state with current := token, lookahead := none }
  | none => { state with reading := state.reading.next.2, current := state.reading.next.1 }

def advance (state : State) : State :=
  state.shift.amend fun findings =>
    { findings with awaitsOperand := state.current.kind.awaitsOperand }

def opened (state : State) : State := { state with depth := state.depth + 1 }

def closed (state : State) : State := { state with depth := state.depth - 1 }

def complain (state : State) (complaint : Complaint) : State :=
  (state.note (.complained complaint)).amend (·.complain complaint)

/-- Takes note that the descent stops at the current token, with a complaint if there is one. -/
def halt (state : State) (complaint : Option Complaint) : State :=
  (complaint.elim state state.complain).note (.stopped state.current)

@[simp] theorem size_amend (state : State) (change : Findings → Findings) :
    (state.amend change).size = state.size := rfl

@[simp] theorem size_opened (state : State) : state.opened.size = state.size := rfl

@[simp] theorem size_closed (state : State) : state.closed.size = state.size := rfl

theorem size_shift (state : State) :
    state.shift.size + state.current.weight ≤ state.size := by
  unfold shift size
  split
  · next h => simp [h]; omega
  · next h =>
    have := state.reading.next_length
    simp only [h, Option.elim]
    omega

theorem size_advance_lt (state : State) (h : state.current.kind ≠ .endOfLine) :
    state.advance.size < state.size := by
  have := size_shift state
  rw [Token.weight_eq_one h] at this
  simp only [advance, size_amend]
  omega

@[simp] theorem halt_current (state : State) (complaint : Option Complaint) :
    (state.halt complaint).current = state.current := by
  cases complaint <;> rfl

@[simp] theorem halt_depth (state : State) (complaint : Option Complaint) :
    (state.halt complaint).depth = state.depth := by
  cases complaint <;> rfl

@[simp] theorem halt_lookahead (state : State) (complaint : Option Complaint) :
    (state.halt complaint).lookahead = state.lookahead := by
  cases complaint <;> rfl

@[simp] theorem advance_depth (state : State) : state.advance.depth = state.depth := by
  simp only [advance, amend, shift]; split <;> rfl

@[simp] theorem advance_lookahead (state : State) : state.advance.lookahead = none := by
  simp only [advance, amend, shift]; split <;> simp_all

@[simp] theorem advance_awaitsOperand (state : State) :
    state.advance.findings.awaitsOperand = state.current.kind.awaitsOperand := rfl

end State

/-- What a part of the descent comes to: a value and the state after it, which has fewer than
`bound` tokens to come, or the span of the token that stopped it and the state at that token. -/
inductive Outcome (bound : Nat) (α : Type) where
  | parsed (value : α) (next : State) (nearer : next.size < bound)
  | stopped (blame : Span) (last : State)

def State.stop {bound : Nat} {α : Type} (state : State) (complaint : Option Complaint) :
    Outcome bound α :=
  .stopped state.current.span (state.halt complaint)

/-- What to complain of where an operand is needed and the current token begins none. -/
def State.missingOperand (state : State) : Option Complaint :=
  match state.current.kind with
  | .rightParen => if state.depth = 0 then some .unopened else none
  | .endOfLine => if 0 < state.depth then some .endsInGroup else none
  | _ => none

/-- What to complain of where a group needs to be closed and the current token does not do so. -/
def State.missingClose (state : State) : Option Complaint :=
  match state.current.kind with
  | .endOfLine => some .unclosed
  | _ => none

/-- What to complain of where the line needs to end and the current token is not its end. -/
def State.missingEnd (state : State) : Option Complaint :=
  match state.current.kind with
  | .equal => some .unassignable
  | .rightParen => some .unopened
  | .invalid => none
  | _ => some (.trailing state.current.lexeme)

/-- Room for the calls on one state, from the outer level of precedence to the inner. -/
def levels : Precedence → Nat
  | .sum => 4
  | .product => 2

mutual

/-- Operands at `level` with operators of that level between them, grouped from the left. -/
def chain (level : Precedence) (state : State) : Outcome state.size Expr :=
  match operand level state with
  | .stopped blame last => .stopped blame last
  | .parsed first next nearer => extend level first next nearer
termination_by 8 * state.size + levels level + 1

def operand (level : Precedence) (state : State) : Outcome state.size Expr :=
  match level with
  | .sum => chain .product state
  | .product => factor state
termination_by 8 * state.size + levels level
decreasing_by all_goals simp [levels]

/-- Extends `left` by the operators at `level` that follow, and their right operands. -/
def extend (level : Precedence) (left : Expr) {bound : Nat} (state : State)
    (nearer : state.size < bound) : Outcome bound Expr :=
  match h : level.operator? state.current.kind with
  | none => .parsed left state nearer
  | some operator =>
    match operand level state.advance with
    | .stopped blame last => .stopped blame last
    | .parsed right next shorter =>
      extend level (left.join operator right) next (by
        have := state.size_advance_lt (Precedence.ne_endOfLine_of_operator? h)
        omega)
termination_by 8 * state.size + 7
decreasing_by
  · have := state.size_advance_lt (Precedence.ne_endOfLine_of_operator? h)
    cases level <;> simp only [levels] <;> omega
  · have := state.size_advance_lt (Precedence.ne_endOfLine_of_operator? h)
    omega

def factor (state : State) : Outcome state.size Expr :=
  match h : state.current.kind with
  | .number =>
    .parsed (.number state.current.lexeme state.current.span) state.advance
      (state.size_advance_lt (by simp [h]))
  | .identifier =>
    .parsed (.name state.current.lexeme state.current.span) state.advance
      (state.size_advance_lt (by simp [h]))
  | .leftParen => group state h
  | _ => state.stop state.missingOperand
termination_by 8 * state.size + 1
decreasing_by omega

/-- An expression in parentheses, where no more than `depthLimit` may be open at once. -/
def group (state : State) (isOpen : state.current.kind = .leftParen) : Outcome state.size Expr :=
  if depthLimit ≤ state.depth then state.stop (some (.tooDeep depthLimit))
  else
    match chain .sum state.advance.opened with
    | .stopped blame last => .stopped blame last
    | .parsed body next shorter =>
      if h : next.current.kind = .rightParen then
        .parsed (.group body (state.current.span.through next.current.span)) next.advance.closed (by
          have := state.size_advance_lt (by simp [isOpen])
          have := next.size_advance_lt (by simp [h])
          simp only [State.size_opened, State.size_closed] at *
          omega)
      else next.stop next.missingClose
termination_by 8 * state.size
decreasing_by
  have := state.size_advance_lt (by simp [isOpen])
  simp only [levels, State.size_opened]
  omega

end

/-- The outcome as a value or the span to blame, and the state that it leaves. -/
def Outcome.result {bound : Nat} {α : Type} : Outcome bound α → Except Span α × State
  | .parsed value next _ => (.ok value, next)
  | .stopped blame last => (.error blame, last)

def expression (state : State) : Except Span Expr × State := (chain .sum state).result

def expressionStatement (state : State) : Except Span Statement × State :=
  let (result, last) := expression state
  (result.map Statement.ofExpr, last)

/-- An assignment, when the current token is its target and `=` is read ahead. -/
def assignment (state : State) : Except Span Statement × State :=
  let marked := state.amend fun findings => { findings with assignment := true }
  let (result, last) := expression marked.advance.advance
  (result.map fun value =>
    .assignment state.current.lexeme value (state.current.span.through value.span), last)

/-- A statement. Only after an identifier is a token read ahead, to see whether it is `=`. -/
def statement (state : State) : Except Span Statement × State :=
  if state.current.kind = .identifier then
    let peeked := state.peek
    if peeked.lookahead.any (·.kind = .equal) then assignment peeked
    else expressionStatement peeked
  else expressionStatement state

def wholeLine (state : State) : Except Span Statement × State :=
  match statement state with
  | (.error blame, last) => (.error blame, last)
  | (.ok parsed, next) =>
    if next.current.kind = .endOfLine then (.ok parsed, next)
    else (.error next.current.span, next.halt next.missingEnd)

/-- Parses the rest of the line as one statement. After a failure what is left is still read, so
that an unrecognized token anywhere in the line is found. -/
def parse (state : State) : Except Span Statement × State :=
  match wholeLine state with
  | (.ok parsed, next) => (.ok parsed, next)
  | (.error blame, last) =>
    let marked := last.amend (·.failAt blame)
    (.error blame, { marked with reading := marked.reading.drain })

end ArithLines.Descent
