import ArithLines.Descent
import ArithLines.Proofs.Grammar
import Mathlib.Data.List.Induction

/-! A machine that reads the kinds of a line from left to right. It remembers whether an operand or
an operator comes next, how many groups are open, and whether the kind read last awaits an operand.
What it reads are the sequences that some statement begins with, and where it may end are the
statements. -/

namespace ArithLines

open Descent (depthLimit)

inductive Mode where
  | operand
  | operator
deriving DecidableEq

structure Machine where
  mode : Mode
  groups : Nat
  /-- The kind read last is an operator or `=`. -/
  awaits : Bool
deriving DecidableEq

namespace Machine

/-- Reads one kind. No group is closed that was open before the first `floor`. -/
def step (floor : Nat) (machine : Machine) (kind : Kind) : Option Machine :=
  match machine.mode, kind with
  | .operand, .number | .operand, .identifier => some ⟨.operator, machine.groups, false⟩
  | .operand, .leftParen =>
    if machine.groups < depthLimit then some ⟨.operand, machine.groups + 1, false⟩ else none
  | .operator, .rightParen =>
    if floor < machine.groups then some ⟨.operator, machine.groups - 1, false⟩ else none
  | .operator, kind => if kind.isOperator then some ⟨.operand, machine.groups, true⟩ else none
  | _, _ => none

inductive Step (floor : Nat) : Machine → Kind → Machine → Prop
  | operand {groups : Nat} {awaits : Bool} {kind : Kind} :
      kind = .number ∨ kind = .identifier →
      Step floor ⟨.operand, groups, awaits⟩ kind ⟨.operator, groups, false⟩
  | opening {groups : Nat} {awaits : Bool} :
      groups < depthLimit →
      Step floor ⟨.operand, groups, awaits⟩ .leftParen ⟨.operand, groups + 1, false⟩
  | closing {groups : Nat} {awaits : Bool} :
      floor ≤ groups →
      Step floor ⟨.operator, groups + 1, awaits⟩ .rightParen ⟨.operator, groups, false⟩
  | operator {groups : Nat} {awaits : Bool} {kind : Kind} :
      kind.isOperator = true →
      Step floor ⟨.operator, groups, awaits⟩ kind ⟨.operand, groups, true⟩

theorem step_eq_some_iff {floor : Nat} {machine next : Machine} {kind : Kind} :
    machine.step floor kind = some next ↔ Step floor machine kind next := by
  obtain ⟨mode, groups, awaits⟩ := machine
  constructor
  · intro h
    cases mode with
    | operand =>
      cases kind <;> simp only [step, Option.some.injEq, reduceCtorEq, Option.ite_none_right_eq_some]
        at h
      case number => exact h ▸ .operand (.inl rfl)
      case identifier => exact h ▸ .operand (.inr rfl)
      case leftParen => exact h.2 ▸ .opening h.1
    | operator =>
      cases kind <;> simp [step, Kind.isOperator, Kind.operator?] at h
      case rightParen =>
        obtain ⟨hfloor, rfl⟩ := h
        obtain ⟨groups, rfl⟩ : ∃ n, groups = n + 1 := ⟨groups - 1, by omega⟩
        exact .closing (by omega)
      all_goals exact h ▸ .operator rfl
  · intro h
    cases h with
    | operand hkind => rcases hkind with rfl | rfl <;> rfl
    | opening hgroups => simp [step, hgroups]
    | closing hfloor => simp [step, Nat.lt_succ_of_le hfloor]
    | operator hkind =>
      cases kind <;> simp_all [step, Kind.isOperator, Kind.operator?]

theorem step_lower {floor floor' : Nat} {machine next : Machine} {kind : Kind} (hle : floor' ≤ floor)
    (h : machine.step floor kind = some next) : machine.step floor' kind = some next := by
  rw [step_eq_some_iff] at h ⊢
  cases h with
  | operand hkind => exact .operand hkind
  | opening hgroups => exact .opening hgroups
  | closing hfloor => exact .closing (Nat.le_trans hle hfloor)
  | operator hkind => exact .operator hkind

@[simp] theorem step_endOfLine (floor : Nat) (machine : Machine) :
    machine.step floor .endOfLine = none := by
  obtain ⟨mode, groups, awaits⟩ := machine
  cases mode <;> rfl

def run (floor : Nat) (machine : Machine) : List Kind → Option Machine
  | [] => some machine
  | kind :: kinds => (machine.step floor kind).bind fun next => next.run floor kinds

@[simp] theorem run_nil (floor : Nat) (machine : Machine) : machine.run floor [] = some machine :=
  rfl

theorem run_append (floor : Nat) (machine : Machine) (before after : List Kind) :
    machine.run floor (before ++ after) =
      (machine.run floor before).bind fun next => next.run floor after := by
  induction before generalizing machine with
  | nil => rfl
  | cons kind before ih => simp only [List.cons_append, run, Option.bind_assoc, ih]

@[simp] theorem run_singleton (floor : Nat) (machine : Machine) (kind : Kind) :
    machine.run floor [kind] = machine.step floor kind := by
  simp [run]

/-- Before the first token of an expression. -/
def start (awaits : Bool) : Machine := ⟨.operand, 0, awaits⟩

/-- A statement may end here. -/
def Accepts (machine : Machine) : Prop := machine.mode = .operator ∧ machine.groups = 0

instance (machine : Machine) : Decidable machine.Accepts :=
  inferInstanceAs (Decidable (_ ∧ _))

end Machine

namespace Grammar

/-- A phrase takes the machine from where an operand comes next to where an operator does, and
leaves the groups around it open. -/
theorem Derives.run {room : Nat} {phrase : Phrase} {kinds : List Kind}
    (h : Derives room phrase kinds) {floor groups : Nat} {awaits : Bool} (hfloor : floor ≤ groups)
    (hroom : groups + room ≤ depthLimit) :
    (Machine.mk .operand groups awaits).run floor kinds = some ⟨.operator, groups, false⟩ := by
  induction h generalizing groups awaits with
  | ofTerm _ ih | ofFactor _ ih => exact ih hfloor hroom
  | number | name => rfl
  | @sum room left right operator _ hop _ ihl ihr | @product room left right operator _ hop _ ihl ihr =>
    have operates : (Machine.mk .operator groups false).step floor operator =
        some ⟨.operand, groups, true⟩ := by
      rcases hop with rfl | rfl <;> rfl
    rw [Machine.run_append, ihl hfloor hroom]
    simp only [Option.bind_some, Machine.run, operates]
    exact ihr hfloor hroom
  | @group room body _ ih =>
    have opens : (Machine.mk .operand groups awaits).step floor .leftParen =
        some ⟨.operand, groups + 1, false⟩ := by
      simp [Machine.step, show groups < depthLimit by omega]
    have closes : (Machine.mk .operator (groups + 1) false).step floor .rightParen =
        some ⟨.operator, groups, false⟩ := by
      simp [Machine.step, Nat.lt_succ_of_le hfloor]
    simp only [Machine.run, opens, Option.bind_some, Machine.run_append,
      ih (show floor ≤ groups + 1 by omega) (show groups + 1 + room ≤ depthLimit by omega), closes]

/-- What stands before an operand: nothing, or an expression and an operator. -/
inductive Lead (room : Nat) : List Kind → Prop
  | nil : Lead room []
  | operator {left : List Kind} {operator : Kind} :
      Derives room .expression left → operator.isOperator = true → Lead room (left ++ [operator])

theorem Lead.complete {room : Nat} {lead factor : List Kind} (hlead : Lead room lead)
    (hfactor : Derives room .factor factor) : Derives room .expression (lead ++ factor) := by
  cases hlead with
  | nil => exact .ofTerm (.ofFactor hfactor)
  | operator hleft hop =>
    rw [List.append_assoc]
    exact hleft.extend hop hfactor

/-- `Opened groups room kinds` when these kinds end with the parenthesis that opens the innermost of
`groups` groups, inside which there is room for `room` more. -/
inductive Opened : Nat → Nat → List Kind → Prop
  | nil : Opened 0 depthLimit []
  | group {groups room : Nat} {outer lead : List Kind} :
      Opened groups (room + 1) outer → Lead (room + 1) lead →
      Opened (groups + 1) room (outer ++ lead ++ [.leftParen])

theorem Opened.room {groups room : Nat} {kinds : List Kind} (h : Opened groups room kinds) :
    groups + room = depthLimit := by
  induction h with
  | nil => exact Nat.zero_add _
  | group _ _ ih => omega

/-- What follows the innermost open parenthesis. -/
def Inner (room : Nat) : Mode → List Kind → Prop
  | .operand, kinds => Lead room kinds
  | .operator, kinds => Derives room .expression kinds

/-- Kinds that bring the machine to its state: the groups that are open, and what stands in the
innermost of them. -/
def Begun (machine : Machine) (kinds : List Kind) : Prop :=
  ∃ room outer inner, kinds = outer ++ inner ∧ Opened machine.groups room outer ∧
    Inner room machine.mode inner

theorem begun_start (awaits : Bool) : Begun (.start awaits) [] :=
  ⟨depthLimit, [], [], rfl, .nil, .nil⟩

theorem Begun.step {machine next : Machine} {kinds : List Kind} {kind : Kind}
    (h : Begun machine kinds) (hstep : machine.step 0 kind = some next) :
    Begun next (kinds ++ [kind]) := by
  obtain ⟨room, outer, inner, rfl, hopened, hinner⟩ := h
  cases Machine.step_eq_some_iff.mp hstep with
  | operand hkind =>
    have hfactor : Derives room .factor [kind] := by
      rcases hkind with rfl | rfl
      · exact .number
      · exact .name
    exact ⟨room, outer, inner ++ [kind], List.append_assoc .., hopened,
      Lead.complete hinner hfactor⟩
  | opening hgroups =>
    have hroom := hopened.room
    obtain ⟨room, rfl⟩ : ∃ n, room = n + 1 := ⟨room - 1, by simp only at hroom; omega⟩
    exact ⟨room, outer ++ inner ++ [.leftParen], [], by simp, hopened.group hinner, .nil⟩
  | closing _ =>
    cases hopened with
    | @group _ _ outer lead houter hlead =>
      refine ⟨room + 1, outer, lead ++ .leftParen :: (inner ++ [.rightParen]), by simp, houter, ?_⟩
      exact hlead.complete (.group hinner)
  | operator hkind =>
    exact ⟨room, outer, inner ++ [kind], List.append_assoc .., hopened, .operator hinner hkind⟩

theorem begun_of_run {awaits : Bool} {machine : Machine} {kinds : List Kind}
    (h : (Machine.start awaits).run 0 kinds = some machine) : Begun machine kinds := by
  induction kinds using List.reverseRecOn generalizing machine with
  | nil =>
    obtain rfl : Machine.start awaits = machine := Option.some.inj h
    exact begun_start awaits
  | append_singleton kinds kind ih =>
    rw [Machine.run_append] at h
    obtain ⟨middle, hmiddle, hlast⟩ := Option.bind_eq_some_iff.mp h
    exact (ih hmiddle).step (by simpa using hlast)

theorem Begun.derives {machine : Machine} {kinds : List Kind} (h : Begun machine kinds)
    (haccepts : machine.Accepts) : Derives depthLimit .expression kinds := by
  obtain ⟨mode, groups, awaits⟩ := machine
  obtain ⟨rfl, rfl⟩ : mode = .operator ∧ groups = 0 := haccepts
  obtain ⟨room, outer, inner, rfl, hopened, hinner⟩ := h
  cases hopened with
  | nil => exact hinner

theorem Begun.groups_le {machine : Machine} {kinds : List Kind} (h : Begun machine kinds) :
    machine.groups ≤ depthLimit := by
  obtain ⟨room, _, _, _, hopened, _⟩ := h
  have := hopened.room
  omega

end Grammar

namespace Machine

/-- What is missing for the machine to accept. -/
def completion (machine : Machine) : List Kind :=
  (if machine.mode = .operand then [.number] else []) ++ List.replicate machine.groups .rightParen

theorem run_closing (groups : Nat) (awaits : Bool) :
    ∃ last, (Machine.mk .operator groups awaits).run 0 (List.replicate groups .rightParen) =
      some last ∧ last.Accepts := by
  induction groups generalizing awaits with
  | zero => exact ⟨_, rfl, rfl, rfl⟩
  | succ groups ih =>
    obtain ⟨last, hrun, haccepts⟩ := ih false
    refine ⟨last, ?_, haccepts⟩
    simpa [List.replicate_succ, run, step] using hrun

theorem run_completion (machine : Machine) :
    ∃ last, machine.run 0 machine.completion = some last ∧ last.Accepts := by
  obtain ⟨mode, groups, awaits⟩ := machine
  cases mode with
  | operand =>
    obtain ⟨last, hrun, haccepts⟩ := run_closing groups false
    refine ⟨last, ?_, haccepts⟩
    simpa [completion, run, step] using hrun
  | operator => simpa [completion] using run_closing groups awaits

/-- The machine after the kinds of a whole line so far. A name and `=` at its beginning are the
target of an assignment, and the machine starts after them. -/
def reach : List Kind → Option Machine
  | .identifier :: .equal :: kinds => (start true).run 0 kinds
  | kinds => (start false).run 0 kinds

/-- Whether a line with these kinds has the form of an assignment. -/
def beginsAssignment : List Kind → Bool
  | .identifier :: .equal :: _ => true
  | _ => false

theorem beginsAssignment_iff {kinds : List Kind} :
    beginsAssignment kinds = true ↔ ∃ rest, kinds = .identifier :: .equal :: rest := by
  constructor
  · intro h
    unfold beginsAssignment at h
    split at h
    · exact ⟨_, rfl⟩
    · simp at h
  · rintro ⟨rest, rfl⟩
    rfl

theorem exists_of_beginsAssignment {tokens : List Token}
    (h : beginsAssignment (tokens.map Token.kind) = true) :
    ∃ target equals body, tokens = target :: equals :: body ∧ target.kind = .identifier ∧
      equals.kind = .equal := by
  obtain ⟨kinds, hkinds⟩ := beginsAssignment_iff.mp h
  obtain ⟨target, following, rfl, htarget, hfollowing⟩ := List.map_eq_cons_iff.mp hkinds
  obtain ⟨equals, body, rfl, hequals, -⟩ := List.map_eq_cons_iff.mp hfollowing
  exact ⟨target, equals, body, rfl, htarget, hequals⟩

@[simp] theorem reach_nil : reach [] = some (start false) := rfl

@[simp] theorem reach_assignment (kinds : List Kind) :
    reach (.identifier :: .equal :: kinds) = (start true).run 0 kinds := rfl

theorem reach_of_not_assignment {kinds : List Kind}
    (h : ∀ rest, kinds ≠ .identifier :: .equal :: rest) :
    reach kinds = (start false).run 0 kinds := by
  unfold reach
  split
  · exact absurd rfl (h _)
  · rfl

/-- Only after a single name does an `=` mean anything else than to the machine. -/
theorem reach_concat {kinds : List Kind} {kind : Kind}
    (h : ¬(kinds = [.identifier] ∧ kind = .equal)) :
    reach (kinds ++ [kind]) = (reach kinds).bind fun machine => machine.step 0 kind := by
  by_cases hform : ∃ rest, kinds = .identifier :: .equal :: rest
  · obtain ⟨rest, rfl⟩ := hform
    simp [run_append]
  · have hbefore : ∀ rest, kinds ≠ .identifier :: .equal :: rest := fun rest hr => hform ⟨rest, hr⟩
    have hafter : ∀ rest, kinds ++ [kind] ≠ .identifier :: .equal :: rest := by
      intro rest hr
      match kinds, hbefore, h, hr with
      | [], _, _, hr => simp at hr
      | [_], _, h, hr => simp_all
      | first :: second :: more, hbefore, _, hr =>
        simp only [List.cons_append, List.cons.injEq] at hr
        exact hbefore more (by rw [hr.1, hr.2.1])
    rw [reach_of_not_assignment hbefore, reach_of_not_assignment hafter, run_append]
    simp

theorem reach_append_none {kinds : List Kind} (h : reach kinds = none) (more : List Kind) :
    reach (kinds ++ more) = none := by
  induction more using List.reverseRecOn with
  | nil => simpa using h
  | append_singleton more kind ih =>
    have hne : ¬(kinds ++ more = [.identifier] ∧ kind = .equal) := by
      rintro ⟨hname, -⟩
      rw [hname] at ih
      exact absurd ih (by decide)
    rw [← List.append_assoc, reach_concat hne, ih]
    rfl

theorem reach_of_append {kinds more : List Kind} {machine : Machine}
    (h : reach (kinds ++ more) = some machine) : ∃ middle, reach kinds = some middle := by
  cases hr : reach kinds with
  | none => rw [reach_append_none hr] at h; simp at h
  | some middle => exact ⟨middle, rfl⟩

end Machine

namespace Grammar

open Machine

/-- The machine accepts the statements, at the limit of the descent. -/
theorem sentence_iff {kinds : List Kind} :
    Sentence depthLimit kinds ↔ ∃ machine, reach kinds = some machine ∧ machine.Accepts := by
  constructor
  · intro h
    cases h with
    | expression h =>
      refine ⟨⟨.operator, 0, false⟩, ?_, rfl, rfl⟩
      rw [reach_of_not_assignment ?_]
      · exact h.run (Nat.le_refl 0) (Nat.le_of_eq (Nat.zero_add _))
      · rintro rest rfl
        exact absurd (h.inExpression .equal (by simp)) (by decide)
    | assignment h =>
      refine ⟨⟨.operator, 0, false⟩, ?_, rfl, rfl⟩
      exact h.run (Nat.le_refl 0) (Nat.le_of_eq (Nat.zero_add _))
  · rintro ⟨machine, hreach, haccepts⟩
    unfold reach at hreach
    split at hreach
    · exact .assignment ((begun_of_run hreach).derives haccepts)
    · exact .expression ((begun_of_run hreach).derives haccepts)

/-- What the machine reads can be completed to a statement. -/
theorem viable_iff {kinds : List Kind} :
    Viable depthLimit kinds ↔ ∃ machine, reach kinds = some machine := by
  constructor
  · rintro ⟨rest, h⟩
    obtain ⟨machine, hreach, -⟩ := sentence_iff.mp h
    exact reach_of_append hreach
  · rintro ⟨machine, hreach⟩
    obtain ⟨last, hrun, haccepts⟩ := machine.run_completion
    refine ⟨machine.completion, ?_⟩
    have extended (awaits : Bool) (kinds : List Kind)
        (h : (start awaits).run 0 kinds = some machine) :
        Derives depthLimit .expression (kinds ++ machine.completion) := by
      refine (begun_of_run (?_ : (start awaits).run 0 _ = some last)).derives haccepts
      rw [run_append, h]
      exact hrun
    unfold reach at hreach
    split at hreach
    · exact .assignment (extended true _ hreach)
    · exact .expression (extended false _ hreach)

end Grammar

end ArithLines
