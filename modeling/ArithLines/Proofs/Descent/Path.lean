import ArithLines.Proofs.Descent.Equations
import ArithLines.Proofs.Descent.View
import ArithLines.Proofs.Machine

/-! The descent takes the steps of the machine. Each part of it reads a stretch of the line that the
machine reads too, and either comes to where an operator may follow or halts at a token that the
machine cannot read; the complaint that it halts with depends on nothing but the state there. -/

namespace ArithLines.Descent

namespace State

/-- Consumes the current token, and opens or closes a group if it is a parenthesis. -/
def consume (state : State) : State :=
  match state.current.kind with
  | .leftParen => state.advance.opened
  | .rightParen => state.advance.closed
  | _ => state.advance

/-- What the machine remembers where the descent is in this state. -/
def machine (state : State) (mode : Mode) : Machine :=
  ⟨mode, state.depth, state.findings.awaitsOperand⟩

theorem consume_awaitsOperand (state : State) :
    state.consume.findings.awaitsOperand = state.current.kind.awaitsOperand := by
  rw [consume]
  split <;> exact advance_awaitsOperand state

theorem consume_machine {floor : Nat} {mode : Mode} {state : State} {next : Machine}
    (h : (state.machine mode).step floor state.current.kind = some next) :
    state.consume.machine next.mode = next := by
  have hawaits := state.consume_awaitsOperand
  have hdepth : state.consume.depth = match state.current.kind with
      | .leftParen => state.depth + 1
      | .rightParen => state.depth - 1
      | _ => state.depth := by
    rw [consume]
    split <;> simp [opened, closed]
  have hstep := Machine.step_eq_some_iff.mp h
  simp only [machine, hawaits, hdepth] at hstep ⊢
  generalize state.current.kind = kind, state.depth = depth at hstep ⊢
  cases hstep with
  | operand hkind => rcases hkind with rfl | rfl <;> rfl
  | opening => rfl
  | closing => rfl
  | operator hkind =>
    have hawait : kind.awaitsOperand = true := by simp [Kind.awaitsOperand, hkind]
    rw [hawait]
    cases kind <;> first | rfl | exact absurd hkind (by decide)

theorem consume_eventual (state : State) :
    state.consume.eventual =
      { state.eventual with awaitsOperand := state.current.kind.awaitsOperand } := by
  rw [consume]
  split <;> exact eventual_advance state

@[simp] theorem consume_lookahead (state : State) : state.consume.lookahead = none := by
  rw [consume]
  split <;> exact advance_lookahead state

theorem Faces.consume {line : List Char} {rest : List Token} {state : State}
    (h : state.Faces line rest) : state.consume.Faces line rest.tail := by
  rw [State.consume]
  split
  · exact h.advance.opened
  · exact h.advance.closed
  · exact h.advance

end State

/-- `Path floor mode state read mode' last` when the descent consumes the tokens `read` from `state`
to `last` as the machine does, the one to come first in `mode` and the next one after them in
`mode'`, and closes no group but those opened after the first `floor`. -/
inductive Path (floor : Nat) : Mode → State → List Token → Mode → State → Prop
  | nil {mode : Mode} {state : State} : Path floor mode state [] mode state
  | cons {mode mode' : Mode} {state last : State} {next : Machine} {read : List Token} :
      (state.machine mode).step floor state.current.kind = some next →
      Path floor next.mode state.consume read mode' last →
      Path floor mode state (state.current :: read) mode' last

namespace Path

variable {floor : Nat} {mode mode' : Mode} {state last : State} {read : List Token}

theorem single {next : Machine}
    (h : (state.machine mode).step floor state.current.kind = some next) :
    Path floor mode state [state.current] next.mode state.consume :=
  .cons h .nil

theorem trans {mode'' : Mode} {final : State} {more : List Token}
    (h : Path floor mode state read mode' last) (h' : Path floor mode' last more mode'' final) :
    Path floor mode state (read ++ more) mode'' final := by
  induction h with
  | nil => exact h'
  | cons hstep _ ih => exact .cons hstep (ih h')

theorem lower {floor' : Nat} (hle : floor' ≤ floor) (h : Path floor mode state read mode' last) :
    Path floor' mode state read mode' last := by
  induction h with
  | nil => exact .nil
  | cons hstep _ ih => exact .cons (Machine.step_lower hle hstep) ih

theorem run (h : Path floor mode state read mode' last) :
    (state.machine mode).run floor (read.map Token.kind) = some (last.machine mode') := by
  induction h with
  | nil => rfl
  | cons hstep _ ih =>
    rw [List.map_cons, Machine.run, hstep, Option.bind_some, ← State.consume_machine hstep]
    exact ih

/-- A token that was read ahead is the first to be consumed. -/
theorem lookahead (h : Path floor mode state read mode' last) (hread : read ≠ []) :
    last.lookahead = none := by
  induction h with
  | nil => exact absurd rfl hread
  | cons _ hrest ih =>
    cases hrest with
    | nil => exact State.consume_lookahead _
    | cons => exact ih (List.cons_ne_nil _ _)

theorem faces {line : List Char} {rest : List Token} (h : Path floor mode state read mode' last)
    (hfaces : state.Faces line rest) : ∃ rest', rest = read ++ rest' ∧ last.Faces line rest' := by
  induction h generalizing rest with
  | nil => exact ⟨rest, rfl, hfaces⟩
  | @cons mode mode' state last next read hstep _ ih =>
    have hcurrent := hfaces.current
    cases rest with
    | nil =>
      -- The machine does not read the end of the line.
      rw [hcurrent] at hstep
      exact absurd hstep (by simp [Token.endOfLine])
    | cons token rest =>
      obtain ⟨rest', hrest, hlast⟩ := ih hfaces.consume
      refine ⟨rest', ?_, hlast⟩
      rw [List.cons_append, ← hrest, hcurrent]
      rfl

/-- Of the findings that the line will lead to, a path changes only what awaits an operand. -/
theorem eventual (h : Path floor mode state read mode' last) :
    last.eventual = { state.eventual with awaitsOperand := last.findings.awaitsOperand } := by
  induction h with
  | nil => rw [← State.eventual_awaitsOperand]
  | cons _ _ ih => rw [ih, State.consume_eventual]

end Path

def State.complaint (state : State) : Mode → Option Complaint
  | .operand =>
    if state.current.kind = .leftParen then some (.tooDeep depthLimit) else state.missingOperand
  | .operator => state.missingClose

/-- The descent halts at `place`: the machine cannot read the token there, which does not merely end
the part of the expression that has the first `floor` groups around it. -/
structure Halts (floor : Nat) (mode : Mode) (place : State) (blame : Span) (last : State) :
    Prop where
  blocked : (place.machine mode).step floor place.current.kind = none
  inside : mode = .operator → floor < place.depth
  blame : blame = place.current.span
  last : last = place.halt (place.complaint mode)

/-- Inside a group the closing parenthesis is what the machine can read, so that the descent halts
in it as it does around it. -/
theorem Halts.lower {floor : Nat} {mode : Mode} {place last : State} {blame : Span}
    (h : Halts (floor + 1) mode place blame last) : Halts floor mode place blame last := by
  refine ⟨?_, fun hmode => Nat.lt_of_succ_lt (h.inside hmode), h.blame, h.last⟩
  cases hstep : (place.machine mode).step floor place.current.kind with
  | none => rfl
  | some next =>
    have hblocked := h.blocked
    have hinside := h.inside
    have hs := Machine.step_eq_some_iff.mp hstep
    simp only [State.machine] at hs hblocked
    generalize place.current.kind = kind, place.depth = depth at hs hblocked hinside
    cases hs with
    | operand hkind => rcases hkind with rfl | rfl <;> simp [Machine.step] at hblocked
    | opening hgroups => simp [Machine.step, hgroups] at hblocked
    | closing => simp [Machine.step, hinside rfl] at hblocked
    | operator hkind =>
      rw [Machine.step_eq_some_iff.mpr (.operator hkind)] at hblocked
      simp at hblocked

/-- What becomes of a part of the descent that begins in `state`: it leaves its groups as they were
and stops before a kind of which `Ends` holds, or it halts. -/
def Follows (mode : Mode) (state : State) (Ends : Kind → Prop) {bound : Nat} :
    Outcome bound Expr → Prop
  | .parsed _ next _ =>
    ∃ read, Path state.depth mode state read .operator next ∧ next.depth = state.depth ∧
      Ends next.current.kind
  | .stopped blame last =>
    ∃ read mode' place, Path state.depth mode state read mode' place ∧
      Halts state.depth mode' place blame last

theorem Follows.after {mode mode' : Mode} {state next : State} {read : List Token}
    {Ends : Kind → Prop} {bound : Nat} {outcome : Outcome bound Expr}
    (hpath : Path state.depth mode state read mode' next) (hdepth : next.depth = state.depth)
    (h : Follows mode' next Ends outcome) : Follows mode state Ends outcome := by
  cases outcome with
  | parsed value last nearer =>
    obtain ⟨more, hmore, hlast, hends⟩ := h
    rw [hdepth] at hmore hlast
    exact ⟨read ++ more, hpath.trans hmore, hlast, hends⟩
  | stopped blame last =>
    obtain ⟨more, mode'', place, hmore, hhalts⟩ := h
    rw [hdepth] at hmore hhalts
    exact ⟨read ++ more, mode'', place, hpath.trans hmore, hhalts⟩

theorem Follows.mono {mode : Mode} {state : State} {Ends Ends' : Kind → Prop} {bound : Nat}
    {outcome : Outcome bound Expr} (h : Follows mode state Ends outcome)
    (hends : ∀ kind, Ends kind → Ends' kind) : Follows mode state Ends' outcome := by
  cases outcome with
  | parsed value next nearer =>
    obtain ⟨read, hpath, hdepth, hkind⟩ := h
    exact ⟨read, hpath, hdepth, hends _ hkind⟩
  | stopped blame last => exact h

/-- After an operand of a chain at this level no operator of a tighter level follows. -/
def EndsOperand : Precedence → Kind → Prop
  | .sum, kind => Precedence.product.operator? kind = none
  | .product, _ => True

/-- After a chain at this level no operator of it or a tighter level follows. -/
def EndsChain (level : Precedence) (kind : Kind) : Prop :=
  level.operator? kind = none ∧ EndsOperand level kind

theorem EndsChain.not_isOperator {kind : Kind} (h : EndsChain .sum kind) :
    kind.isOperator = false := by
  obtain ⟨hsum, hproduct⟩ := h
  simp only [EndsOperand] at hproduct
  cases kind <;> first | rfl | exact absurd hsum (by decide) | exact absurd hproduct (by decide)

theorem path_operator {level : Precedence} {state : State} {operator : Operator}
    (h : level.operator? state.current.kind = some operator) :
    Path state.depth .operator state [state.current] .operand state.advance := by
  have hoperator : state.current.kind.isOperator = true := by
    revert h
    generalize state.current.kind = kind
    cases kind <;> simp [Precedence.operator?, Kind.operator?, Kind.isOperator]
  have hstep : (state.machine .operator).step state.depth state.current.kind =
      some ⟨.operand, state.depth, true⟩ := Machine.step_eq_some_iff.mpr (.operator hoperator)
  have hconsume : state.consume = state.advance := by
    rw [State.consume]
    split <;> simp_all [Kind.isOperator, Kind.operator?]
  have hpath := Path.single hstep
  rw [hconsume] at hpath
  exact hpath

theorem follows_word {state : State} (value : Expr) (nearer : state.advance.size < state.size)
    (h : state.current.kind = .number ∨ state.current.kind = .identifier) :
    Follows .operand state (fun _ => True) (.parsed value state.advance nearer) := by
  have hstep : (state.machine .operand).step state.depth state.current.kind =
      some ⟨.operator, state.depth, false⟩ := Machine.step_eq_some_iff.mpr (.operand h)
  have hconsume : state.consume = state.advance := by
    rw [State.consume]
    rcases h with h | h <;> rw [h]
  have hpath := Path.single hstep
  rw [hconsume] at hpath
  exact ⟨_, hpath, state.advance_depth, trivial⟩

theorem follows_stop {state : State} {complaint : Option Complaint} {bound : Nat}
    {Ends : Kind → Prop}
    (hblocked : (state.machine .operand).step state.depth state.current.kind = none)
    (hcomplaint : complaint = state.complaint .operand) :
    Follows .operand state Ends (state.stop complaint : Outcome bound Expr) := by
  subst hcomplaint
  exact ⟨[], .operand, state, .nil, hblocked, nofun, rfl, rfl⟩

theorem follows_factor_of_group {state : State} (hgroup : ∀ isOpen,
    Follows .operand state (fun _ => True) (group state isOpen)) :
    Follows .operand state (fun _ => True) (factor state) := by
  rw [factor]
  split
  · next hnumber => exact follows_word _ _ (.inl hnumber)
  · next hname => exact follows_word _ _ (.inr hname)
  · exact hgroup _
  · next hnumber hname hopen =>
    have hkinds : ∀ kind ∈ [Kind.number, .identifier, .leftParen], state.current.kind ≠ kind := by
      simpa using ⟨hnumber, hname, hopen⟩
    refine follows_stop ?_ (if_neg hopen).symm
    rw [State.machine]
    generalize state.current.kind = kind at hkinds
    cases kind <;> first | rfl | exact absurd rfl (hkinds _ (by decide))

theorem path_opening {state : State} (isOpen : state.current.kind = .leftParen)
    (hroom : ¬depthLimit ≤ state.depth) :
    Path state.depth .operand state [state.current] .operand state.advance.opened := by
  have hstep : (state.machine .operand).step state.depth state.current.kind =
      some ⟨.operand, state.depth + 1, false⟩ := by
    rw [isOpen]
    exact Machine.step_eq_some_iff.mpr (.opening (Nat.lt_of_not_le hroom))
  have hpath := Path.single hstep
  rw [State.consume, isOpen] at hpath
  exact hpath

theorem path_closing {floor : Nat} {state : State} (h : state.current.kind = .rightParen)
    (hdepth : state.depth = floor + 1) :
    Path floor .operator state [state.current] .operator state.advance.closed := by
  have hstep : (state.machine .operator).step floor state.current.kind =
      some ⟨.operator, floor, false⟩ := by
    rw [h, State.machine, hdepth]
    exact Machine.step_eq_some_iff.mpr (.closing (Nat.le_refl floor))
  have hpath := Path.single hstep
  rw [State.consume, h] at hpath
  exact hpath

@[simp] theorem opened_advance_depth (state : State) :
    state.advance.opened.depth = state.depth + 1 := by
  simp [State.opened]

theorem follows_group_of_body {state : State} {isOpen : state.current.kind = .leftParen}
    (hbody : ¬depthLimit ≤ state.depth → Follows .operand state.advance.opened (EndsChain .sum)
      (chain .sum state.advance.opened)) :
    Follows .operand state (fun _ => True) (group state isOpen) := by
  by_cases hdeep : depthLimit ≤ state.depth
  · rw [group_too_deep isOpen hdeep]
    refine follows_stop ?_ (if_pos isOpen).symm
    rw [isOpen]
    exact if_neg (Nat.not_lt_of_le hdeep)
  have hinner := hbody hdeep
  cases hchain : chain .sum state.advance.opened with
  | stopped blame last =>
    rw [hchain] at hinner
    obtain ⟨read, mode, place, hpath, hhalts⟩ := hinner
    rw [opened_advance_depth] at hpath hhalts
    rw [group_stops isOpen hdeep hchain]
    exact ⟨_, mode, place, (path_opening isOpen hdeep).trans (hpath.lower (Nat.le_succ _)),
      hhalts.lower⟩
  | parsed body next shorter =>
    rw [hchain] at hinner
    obtain ⟨read, hpath, hdepth, hends⟩ := hinner
    rw [opened_advance_depth] at hpath hdepth
    have hinside := (path_opening isOpen hdeep).trans (hpath.lower (Nat.le_succ _))
    by_cases hclose : next.current.kind = .rightParen
    · obtain ⟨nearer, hgroup⟩ := group_closes isOpen hdeep hchain hclose
      rw [hgroup]
      refine ⟨_, hinside.trans (path_closing hclose hdepth), ?_, trivial⟩
      simp [State.closed, hdepth]
    · rw [group_unclosed isOpen hdeep hchain hclose]
      refine ⟨_, .operator, next, hinside, ?_, fun _ => by omega, rfl, rfl⟩
      have hoperator := hends.not_isOperator
      rw [State.machine]
      generalize next.current.kind = kind at hclose hoperator
      cases kind <;> first | rfl | exact absurd rfl hclose | exact absurd hoperator (by decide)

theorem follows_chain (level : Precedence) (state : State) :
    Follows .operand state (EndsChain level) (chain level state) := by
  refine (chain.mutual_induct
    (fun level state => Follows .operand state (EndsChain level) (chain level state))
    (fun level left _ state nearer => EndsOperand level state.current.kind →
      Follows .operator state (EndsChain level) (extend level left state nearer))
    (fun level state => Follows .operand state (EndsOperand level) (operand level state))
    (fun state => Follows .operand state (fun _ => True) (factor state))
    (fun state isOpen => Follows .operand state (fun _ => True) (group state isOpen))
    ?first_stops ?first ?no_operator ?right_stops ?right ?sum ?product ?number ?name ?paren
    ?no_factor ?too_deep ?body_stops ?closes ?unclosed).1 level state
  case first_stops =>
    intro level state blame last h ih
    rw [h] at ih
    rw [chain, h]
    exact ih
  case first =>
    intro level state first next nearer h ih ihextend
    rw [h] at ih
    obtain ⟨read, hpath, hdepth, hends⟩ := ih
    rw [chain, h]
    exact .after hpath hdepth (ihextend hends)
  case no_operator =>
    intro level left bound state nearer h hends
    rw [extend_ends left nearer h]
    exact ⟨[], .nil, rfl, h, hends⟩
  case right_stops =>
    intro level left bound state nearer operator h blame last hright ih _
    rw [hright] at ih
    rw [extend_stops left nearer h hright]
    exact .after (path_operator h) state.advance_depth ih
  case right =>
    intro level left bound state nearer operator h right next shorter hright ih ihextend _
    rw [hright] at ih
    obtain ⟨read, hread, hdepth, hends⟩ := ih
    rw [state.advance_depth] at hread hdepth
    obtain ⟨nearer', hextend⟩ := extend_joins left nearer h hright
    rw [hextend]
    exact .after ((path_operator h).trans hread) hdepth (ihextend hends)
  case sum =>
    intro state ih
    rw [operand]
    exact ih.mono fun kind hends => hends.1
  case product =>
    intro state ih
    rw [operand]
    exact ih
  case number =>
    intro state h
    exact follows_factor_of_group fun isOpen => by simp [h] at isOpen
  case name =>
    intro state h
    exact follows_factor_of_group fun isOpen => by simp [h] at isOpen
  case paren =>
    intro state h ih
    exact follows_factor_of_group fun _ => ih
  case no_factor =>
    intro state _ _ h
    exact follows_factor_of_group fun isOpen => absurd isOpen h
  case too_deep =>
    intro state isOpen h
    exact follows_group_of_body fun hroom => absurd h hroom
  case body_stops =>
    intro state isOpen hroom blame last h ih
    exact follows_group_of_body fun _ => ih
  case closes =>
    intro state isOpen hroom body next shorter h hclose ih
    exact follows_group_of_body fun _ => ih
  case unclosed =>
    intro state isOpen hroom body next shorter h hclose ih
    exact follows_group_of_body fun _ => ih

theorem follows_group (state : State) (isOpen : state.current.kind = .leftParen) :
    Follows .operand state (fun _ => True) (group state isOpen) :=
  follows_group_of_body fun _ => follows_chain ..

theorem follows_factor (state : State) :
    Follows .operand state (fun _ => True) (factor state) :=
  follows_factor_of_group (follows_group state)

theorem follows_operand (level : Precedence) (state : State) :
    Follows .operand state (EndsOperand level) (operand level state) := by
  cases level with
  | sum =>
    rw [operand]
    exact (follows_chain .product state).mono fun kind hends => hends.1
  | product =>
    rw [operand]
    exact follows_factor state

end ArithLines.Descent
