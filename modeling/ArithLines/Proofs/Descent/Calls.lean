import ArithLines.Proofs.Descent.Repetition
import Mathlib.Logic.Relation

/-! The calls that the descent makes in a parse, one inside the other. Main statement: each of them
leaves the groups as they were or halts with those open that it has opened and not closed, whatever
the parses before have left, and there is no endless chain of calls. -/

namespace ArithLines

open Descent (depthLimit)

/-! ### Groups that are opened and closed -/

namespace Grammar

/-- Kinds among which no parenthesis closes a group but one that is opened among them. -/
def ClosesOwn (kinds : List Kind) : Prop :=
  ∀ before, before <+: kinds → before.count .rightParen ≤ before.count .leftParen

end Grammar

namespace Machine

variable {floor : Nat} {machine next last : Machine} {kind : Kind} {kinds : List Kind}

/-- What becomes of the groups as the machine reads `kinds`. -/
structure Regroups (floor : Nat) (machine : Machine) (kinds : List Kind) (last : Machine) :
    Prop where
  count : machine.groups + kinds.count .leftParen = last.groups + kinds.count .rightParen
  floor_le : floor ≤ machine.groups → floor ≤ last.groups
  le_limit : machine.groups ≤ depthLimit → last.groups ≤ depthLimit

theorem regroups_of_step (h : machine.step floor kind = some next) :
    Regroups floor machine [kind] next := by
  cases step_eq_some_iff.mp h with
  | operand hkind => rcases hkind with rfl | rfl <;> exact ⟨rfl, id, id⟩
  | opening hgroups => exact ⟨rfl, Nat.le_succ_of_le, fun _ => hgroups⟩
  | closing hfloor => exact ⟨rfl, fun _ => hfloor, Nat.le_of_succ_le⟩
  | operator hkind =>
    cases kind <;> first | exact ⟨rfl, id, id⟩ | exact absurd hkind (by decide)

theorem regroups_of_run (h : machine.run floor kinds = some last) :
    Regroups floor machine kinds last := by
  induction kinds generalizing machine with
  | nil =>
    obtain rfl : machine = last := Option.some.inj h
    exact ⟨rfl, id, id⟩
  | cons kind kinds ih =>
    obtain ⟨next, hstep, hrest⟩ := Option.bind_eq_some_iff.mp h
    have hfirst := regroups_of_step hstep
    have hmore := ih hrest
    refine ⟨?_, hmore.floor_le ∘ hfirst.floor_le, hmore.le_limit ∘ hfirst.le_limit⟩
    have hcount := hfirst.count
    have hcounts := hmore.count
    rw [← List.singleton_append, List.count_append, List.count_append]
    omega

theorem closesOwn_of_run (h : machine.run floor kinds = some last)
    (hfloor : machine.groups = floor) : Grammar.ClosesOwn kinds := by
  rintro before ⟨after, rfl⟩
  rw [run_append] at h
  obtain ⟨middle, hmiddle, -⟩ := Option.bind_eq_some_iff.mp h
  have hregroups := regroups_of_run hmiddle
  have hcount := hregroups.count
  have hle := hregroups.floor_le (Nat.le_of_eq hfloor.symm)
  omega

theorem groups_of_run (h : machine.run floor kinds = some last)
    (hfloor : machine.groups = floor) :
    last.groups = machine.groups + Grammar.openGroups kinds := by
  have hregroups := regroups_of_run h
  have hcount := hregroups.count
  have hle := hregroups.floor_le (Nat.le_of_eq hfloor.symm)
  rw [Grammar.openGroups]
  omega

/-- Where an operator may follow, what was read last does not ask for an operand. -/
theorem not_awaits_of_step (h : machine.step floor kind = some next)
    (hmode : next.mode = .operator) : kind.awaitsOperand = false ∧ next.awaits = false := by
  cases step_eq_some_iff.mp h with
  | operand hkind => rcases hkind with rfl | rfl <;> exact ⟨rfl, rfl⟩
  | opening => simp at hmode
  | closing => exact ⟨rfl, rfl⟩
  | operator => simp at hmode

end Machine

/-! ### Operators that are looked for -/

/-- The kinds among which the loop of a chain at this level looks for an operator. -/
def Precedence.sought : Precedence → List Kind
  | .sum => [.plus, .minus]
  | .product => [.star, .slash]

/-- What the loop finds, and nothing at all where it finds a kind that it looks for and that is no
operator. -/
def Precedence.find? (level : Precedence) (kind : Kind) : Option (Option Operator) :=
  if kind ∈ level.sought then kind.operator?.map some else some none

theorem Precedence.find?_eq (level : Precedence) (kind : Kind) :
    level.find? kind = some (level.operator? kind) := by
  cases level <;> cases kind <;> rfl

namespace Descent

open Grammar

section Paths

variable {floor : Nat} {mode mode' : Mode} {state last : State} {read : List Token}

theorem Path.depth_le (h : Path floor mode state read mode' last)
    (hdepth : state.depth ≤ depthLimit) : last.depth ≤ depthLimit :=
  (Machine.regroups_of_run h.run).le_limit hdepth

theorem Path.closesOwn (h : Path state.depth mode state read mode' last) :
    ClosesOwn (read.map Token.kind) :=
  Machine.closesOwn_of_run h.run rfl

theorem Path.depth_eq (h : Path state.depth mode state read mode' last) :
    last.depth = state.depth + openGroups (read.map Token.kind) :=
  Machine.groups_of_run h.run rfl

/-- An operand ends with a token that asks for no other. -/
theorem Path.exists_last (h : Path floor .operand state read .operator last) :
    last.findings.awaitsOperand = false ∧
      ∃ before token, read = before ++ [token] ∧ token.kind.awaitsOperand = false := by
  have hrun := h.run
  rcases List.eq_nil_or_concat read with rfl | ⟨before, token, rfl⟩
  · cases h
  · rw [List.concat_eq_append, List.map_append, Machine.run_append] at hrun
    obtain ⟨middle, -, hlast⟩ := Option.bind_eq_some_iff.mp hrun
    rw [List.map_singleton, Machine.run_singleton] at hlast
    obtain ⟨htoken, hawaits⟩ := Machine.not_awaits_of_step hlast rfl
    exact ⟨hawaits, before, token, List.concat_eq_append .., htoken⟩

end Paths

/-! ### What a call leaves -/

/-- A call that begins in `state` returns a tree in `next`. -/
structure Returned (state next : State) : Prop where
  depth : next.depth = state.depth
  lookahead : next.lookahead = none
  awaits : next.findings.awaitsOperand = false
  /-- It has consumed tokens, and the last of them is neither an operator nor `=`. -/
  consumed : ∃ before token, state.unread = before ++ token :: next.unread ∧
    token.kind.awaitsOperand = false

/-- A call that begins in `state` fails in `last`. -/
structure Failed (state : State) (blame : Span) (last : State) : Prop where
  current : last.current.span = blame
  lookahead : last.lookahead = none
  depth_le : last.depth ≤ depthLimit
  /-- Of the groups that it has opened those are left that it has not closed. -/
  groups : ∃ read, state.unread = read ++ last.unread ∧ ClosesOwn (read.map Token.kind) ∧
    last.depth = state.depth + openGroups (read.map Token.kind)

/-- What a call that begins in `state` may come to. -/
def Lawful (state : State) : Except Span Expr × State → Prop
  | (.ok _, next) => Returned state next
  | (.error blame, last) => Failed state blame last

/-- A part of the descent may begin here. -/
structure State.Ready (line : List Char) (state : State) : Prop where
  faces : ∃ rest, state.Faces line rest ∧ ∀ token ∈ rest, token.kind ≠ .endOfLine
  lookahead : state.lookahead = none ∨ state.current.kind = .identifier
  depth_le : state.depth ≤ depthLimit

namespace State.Ready

variable {line : List Char} {floor : Nat} {mode mode' : Mode} {state last : State}
  {read : List Token}

theorem unread_eq (h : state.Ready line) (hpath : Path floor mode state read mode' last) :
    state.unread = read ++ last.unread := by
  obtain ⟨rest, hfaces, hproper⟩ := h.faces
  obtain ⟨rest', rfl, hlast⟩ := hpath.faces hfaces
  rw [hfaces.unread hproper, hlast.unread fun token ht => hproper token (by simp [ht])]

theorem path (h : state.Ready line) (hpath : Path floor mode state read mode' last)
    (hread : read ≠ []) : last.Ready line := by
  obtain ⟨rest, hfaces, hproper⟩ := h.faces
  obtain ⟨rest', rfl, hlast⟩ := hpath.faces hfaces
  exact ⟨⟨rest', hlast, fun token ht => hproper token (by simp [ht])⟩,
    .inl (hpath.lookahead hread), hpath.depth_le h.depth_le⟩

theorem returned (h : state.Ready line) (hpath : Path floor .operand state read .operator last)
    (hdepth : last.depth = state.depth) : Returned state last := by
  obtain ⟨hawaits, before, token, rfl, htoken⟩ := hpath.exists_last
  refine ⟨hdepth, hpath.lookahead (by simp), hawaits, before, token, ?_, htoken⟩
  rw [h.unread_eq hpath, List.append_assoc, List.singleton_append]

theorem failed {place : State} {blame : Span} (h : state.Ready line)
    (hpath : Path state.depth .operand state read mode place)
    (hhalts : Halts state.depth mode place blame last) : Failed state blame last := by
  obtain ⟨hblocked, -, rfl, rfl⟩ := hhalts
  have hlook := hpath.place_lookahead h.lookahead (.inr hblocked)
  have hunread : (place.halt (place.complaint mode)).unread = place.unread := by
    cases place.complaint mode <;> rfl
  refine ⟨by rw [halt_current], by rw [halt_lookahead, hlook], ?_, read, ?_, hpath.closesOwn, ?_⟩
  · rw [halt_depth]
    exact hpath.depth_le h.depth_le
  · rw [hunread, h.unread_eq hpath]
  · rw [halt_depth, hpath.depth_eq]

theorem lawful (h : state.Ready line) {Ends : Kind → Prop} {bound : Nat}
    {outcome : Outcome bound Expr} (hfollows : Follows .operand state Ends outcome) :
    Lawful state outcome.result := by
  cases outcome with
  | parsed tree next nearer =>
    obtain ⟨read, hpath, hdepth, -⟩ := hfollows
    exact h.returned hpath hdepth
  | stopped blame last =>
    obtain ⟨read, mode, place, hpath, hhalts⟩ := hfollows
    exact h.failed hpath hhalts

end State.Ready

/-! ### Calls inside calls -/

/-- A call of one of the functions of the descent. -/
inductive Call where
  | chain (level : Precedence) (state : State)
  | extend (level : Precedence) (left : Expr) (state : State)
  | factor (state : State)
  | group (state : State) (isOpen : state.current.kind = .leftParen)

namespace Call

def state : Call → State
  | chain _ state | extend _ _ state | factor state | group state _ => state

def operand : Precedence → State → Call
  | .sum, state => .chain .product state
  | .product, state => .factor state

/-- Room for the calls inside this one. -/
def room : Call → Nat
  | chain level state => 8 * state.size + levels level + 1
  | extend _ _ state => 8 * state.size + 7
  | factor state => 8 * state.size + 1
  | group state _ => 8 * state.size

@[simp] theorem state_operand (level : Precedence) (state : State) :
    (operand level state).state = state := by
  cases level <;> rfl

theorem room_operand_le (level : Precedence) (state : State) :
    (operand level state).room ≤ 8 * state.size + levels level := by
  cases level <;> exact Nat.le_of_lt (Nat.lt_succ_self _)

end Call

/-- `Makes outer inner` when `outer` makes the call `inner` itself. -/
inductive Makes : Call → Call → Prop
  | first {level : Precedence} {state : State} : Makes (.chain level state) (.operand level state)
  | loop {level : Precedence} {state next : State} {first : Expr}
      {nearer : next.size < state.size} : operand level state = .parsed first next nearer →
      Makes (.chain level state) (.extend level first next)
  | right {level : Precedence} {left : Expr} {state : State} {operator : Operator} :
      level.operator? state.current.kind = some operator →
      Makes (.extend level left state) (.operand level state.advance)
  | again {level : Precedence} {left right : Expr} {state next : State} {operator : Operator}
      {nearer : next.size < state.advance.size} :
      level.operator? state.current.kind = some operator →
      operand level state.advance = .parsed right next nearer →
      Makes (.extend level left state) (.extend level (left.join operator right) next)
  | opening {state : State} (isOpen : state.current.kind = .leftParen) :
      Makes (.factor state) (.group state isOpen)
  | body {state : State} {isOpen : state.current.kind = .leftParen} :
      ¬depthLimit ≤ state.depth → Makes (.group state isOpen) (.chain .sum state.advance.opened)

/-- The calls that a parse makes which begins in `state`: that of its expression and all inside it. -/
def Made (state : State) : Call → Prop :=
  Relation.ReflTransGen Makes (.chain .sum state.expressionStart)

section Calls

variable {outer inner : Call}

theorem Makes.room_lt (h : Makes outer inner) : inner.room < outer.room := by
  cases h with
  | @first level state => exact Nat.lt_succ_of_le (Call.room_operand_le level state)
  | @loop level state next _ nearer =>
    simp only [Call.room]
    omega
  | @right level _ state _ hoperator =>
    have hroom := Call.room_operand_le level state.advance
    have hadvance := state.size_advance_lt (Precedence.ne_endOfLine_of_operator? hoperator)
    have hlevel : levels level ≤ 4 := by cases level <;> decide
    simp only [Call.room] at hroom ⊢
    omega
  | @again _ _ _ state _ _ nearer hoperator =>
    have hadvance := state.size_advance_lt (Precedence.ne_endOfLine_of_operator? hoperator)
    simp only [Call.room]
    omega
  | opening => exact Nat.lt_succ_self _
  | @body state isOpen =>
    have hadvance := state.size_advance_lt (by simp [isOpen])
    simp only [Call.room, levels, State.size_opened]
    omega

/-- There is no endless chain of calls, nor of turns of a loop. -/
theorem makes_wellFounded : WellFounded fun inner outer => Makes outer inner :=
  Subrelation.wf Makes.room_lt (measure Call.room).wf

theorem Makes.ready {line : List Char} (h : Makes outer inner) (hready : outer.state.Ready line) :
    inner.state.Ready line := by
  cases h with
  | first =>
    rw [Call.state_operand]
    exact hready
  | @loop level state next first nearer hfirst =>
    have hfollows := follows_operand level state
    rw [hfirst] at hfollows
    obtain ⟨read, hpath, -, -⟩ := hfollows
    obtain ⟨-, before, token, rfl, -⟩ := hpath.exists_last
    exact hready.path hpath (by simp)
  | right hoperator =>
    rw [Call.state_operand]
    exact hready.path (path_operator hoperator) (by simp)
  | @again level left right state next operator nearer hoperator hright =>
    have hfollows := follows_operand level state.advance
    rw [hright] at hfollows
    obtain ⟨read, hpath, -, -⟩ := hfollows
    rw [state.advance_depth] at hpath
    exact hready.path ((path_operator hoperator).trans hpath) (by simp)
  | opening => exact hready
  | @body state isOpen hroom => exact hready.path (path_opening isOpen hroom) (by simp)

end Calls

/-! ### The calls of a parse -/

theorem Made.ready {line : List Char} {state : State} {call : Call} (h : Made state call)
    (hready : state.expressionStart.Ready line) : call.state.Ready line := by
  induction h with
  | refl => exact hready
  | tail _ hmakes ih => exact hmakes.ready ih

theorem State.Rests.ready {line : List Char} {rest : List Token} {state : State}
    (h : state.Rests line rest) (hdepth : state.depth ≤ depthLimit) :
    state.expressionStart.Ready line := by
  obtain ⟨body, hbody, hfaces⟩ := h.faces.exists_expressionStart
  refine ⟨⟨body, hfaces, fun token ht => h.proper token (hbody.subset ht)⟩,
    State.expressionStart_lookahead h.lookahead, ?_⟩
  rw [State.expressionStart_depth]
  exact hdepth

/-- A parse may leave groups open, but no more than the limit. -/
theorem depth_parse_le {state : State} (hlook : state.lookahead = none)
    (hdepth : state.depth ≤ depthLimit) : (parse state).2.depth ≤ depthLimit := by
  have hended := ended_parse state hlook
  have hstart := state.expressionStart_depth
  generalize parse state = outcome at hended
  cases hended with
  | parsed _ hlast =>
    rw [hlast]
    exact hdepth
  | failed hpath =>
    rw [State.failed_depth]
    exact hpath.depth_le (by rw [hstart]; exact hdepth)

theorem depth_parsing_le (earlier : Findings) (line : List Char) (count : Nat) :
    (parsing earlier line count).depth ≤ depthLimit := by
  induction count with
  | zero => exact Nat.zero_le _
  | succ count ih =>
    obtain ⟨left, -, hleft⟩ := (State.rests_ofLine line earlier).afterParses count
    exact depth_parse_le hleft.lookahead ih

/-- In each of the parses of a line one after the other the descent calls for one expression, and
each call inside it comes to what is lawful, whatever groups the parses before have left open. No
more than the limit are open at any call, one is open more where a group is closed, what a loop looks
for is always found to be an operator, and the calls come to an end. -/
theorem calls_lawful (earlier : Findings) (line : List Char) (count : Nat) :
    (∃ finish, statement (parsing earlier line count) =
      ((expression (parsing earlier line count).expressionStart).1.map finish,
        (expression (parsing earlier line count).expressionStart).2)) ∧
    (∀ level state, Made (parsing earlier line count) (.chain level state) →
      Lawful state (chain level state).result) ∧
    (∀ state, Made (parsing earlier line count) (.factor state) →
      Lawful state (factor state).result) ∧
    (∀ state isOpen, Made (parsing earlier line count) (.group state isOpen) →
      Lawful state (group state isOpen).result ∧
        ∀ body next nearer, chain .sum state.advance.opened = .parsed body next nearer →
          next.advance.depth = state.depth + 1) ∧
    (∀ call, Made (parsing earlier line count) call → call.state.depth ≤ depthLimit) ∧
    (parsing earlier line count).depth ≤ depthLimit ∧
    (∀ (level : Precedence) (kind : Kind), level.find? kind = some (level.operator? kind)) ∧
    WellFounded fun inner outer => Makes outer inner := by
  have hdepth := depth_parsing_le earlier line count
  obtain ⟨rest, -, hrests⟩ := (State.rests_ofLine line earlier).afterParses count
  have hstart : (parsing earlier line count).expressionStart.Ready line := hrests.ready hdepth
  refine ⟨exists_statement_eq _, fun level state hmade => ?_, fun state hmade => ?_,
    fun state isOpen hmade => ⟨?_, fun body next nearer hbody => ?_⟩, fun call hmade => ?_, hdepth,
    Precedence.find?_eq, makes_wellFounded⟩
  · exact (hmade.ready hstart).lawful (follows_chain level state)
  · exact (hmade.ready hstart).lawful (follows_factor state)
  · exact (hmade.ready hstart).lawful (follows_group state isOpen)
  · have hfollows := follows_chain .sum state.advance.opened
    rw [hbody] at hfollows
    obtain ⟨-, -, hnext, -⟩ := hfollows
    rw [State.advance_depth, hnext, opened_advance_depth]
  · exact (hmade.ready hstart).depth_le

end Descent

end ArithLines
