import ArithLines.Proofs.Machine

/-! What the machine remembers of the kinds that it has read: its mode, the groups that are open and
the last kind, as far as these matter. -/

namespace ArithLines

open Descent (depthLimit)

namespace Machine

open Grammar

/-- What the machine remembers is read off the kinds that it has read. -/
structure Recalls (machine : Machine) (kinds : List Kind) : Prop where
  mode : machine.mode = .operand ↔ expectsOperand kinds = true
  groups : kinds.count .leftParen = kinds.count .rightParen + machine.groups
  awaits : machine.awaits = kinds.getLast?.any Kind.awaitsOperand

theorem Recalls.step {machine next : Machine} {kinds : List Kind} {kind : Kind}
    (h : machine.Recalls kinds) (hstep : machine.step 0 kind = some next) :
    next.Recalls (kinds ++ [kind]) := by
  have hgroups := h.groups
  cases step_eq_some_iff.mp hstep with
  | operand hkind =>
    rcases hkind with rfl | rfl
    all_goals exact ⟨by simp; rfl, by simpa using hgroups, by simp; rfl⟩
  | opening _ =>
    refine ⟨by simp, ?_, by simp; rfl⟩
    simp at hgroups ⊢
    omega
  | closing _ =>
    refine ⟨by simp; rfl, ?_, by simp; rfl⟩
    simp at hgroups ⊢
    omega
  | operator hkind =>
    have hleft : kind ≠ .leftParen := by rintro rfl; exact absurd hkind (by decide)
    have hright : kind ≠ .rightParen := by rintro rfl; exact absurd hkind (by decide)
    exact ⟨by simp [Kind.awaitsOperand, hkind], by simpa [hleft, hright] using hgroups,
      by simp [Kind.awaitsOperand, hkind]⟩

theorem Recalls.run {machine last : Machine} {kinds more : List Kind} (h : machine.Recalls kinds)
    (hrun : machine.run 0 more = some last) : last.Recalls (kinds ++ more) := by
  induction more generalizing machine kinds with
  | nil =>
    obtain rfl : machine = last := Option.some.inj hrun
    simpa using h
  | cons kind more ih =>
    obtain ⟨next, hstep, hrest⟩ := Option.bind_eq_some_iff.mp hrun
    simpa using ih (h.step hstep) hrest

theorem recalls_of_reach {machine : Machine} {kinds : List Kind} (h : reach kinds = some machine) :
    machine.Recalls kinds := by
  unfold reach at h
  split at h
  · have base : (start true).Recalls [.identifier, .equal] := ⟨by decide, by decide, by decide⟩
    exact base.run h
  · have base : (start false).Recalls [] := ⟨by decide, by decide, by decide⟩
    exact base.run h

theorem ne_invalid_of_reach {machine : Machine} {kinds : List Kind}
    (h : reach kinds = some machine) : ∀ kind ∈ kinds, kind ≠ .invalid := by
  obtain ⟨rest, hsentence⟩ := viable_iff.mpr ⟨machine, h⟩
  rintro kind hkind rfl
  exact absurd (hsentence.kinds _ (List.mem_append_left rest hkind)) (by decide)

theorem groups_le_of_reach {machine : Machine} {kinds : List Kind}
    (h : reach kinds = some machine) : machine.groups ≤ depthLimit := by
  unfold reach at h
  split at h <;> exact (begun_of_run h).groups_le

namespace Recalls

theorem openGroups_eq {machine : Machine} {kinds : List Kind} (h : machine.Recalls kinds) :
    openGroups kinds = machine.groups := by
  have := h.groups
  rw [openGroups]
  omega

theorem operand_of_awaits {machine : Machine} {kinds : List Kind} (h : machine.Recalls kinds)
    (hawaits : machine.awaits = true) : machine.mode = .operand := by
  rw [h.awaits] at hawaits
  rw [h.mode]
  cases hlast : kinds.getLast? with
  | none => simp [hlast] at hawaits
  | some last =>
    have hkind : last.awaitsOperand = true := by simpa [hlast] using hawaits
    simp [expectsOperand, hlast, hkind]

theorem awaits_of_operator {machine : Machine} {kinds : List Kind} (h : machine.Recalls kinds)
    (hmode : machine.mode = .operator) : machine.awaits = false := by
  by_contra hawaits
  have hoperand := h.operand_of_awaits (by simpa using hawaits)
  rw [hmode] at hoperand
  simp at hoperand

end Recalls

theorem reach_of_sentence {kinds : List Kind} (h : Sentence depthLimit kinds) :
    reach kinds = some ⟨.operator, 0, false⟩ := by
  obtain ⟨machine, hreach, hmode, hgroups⟩ := sentence_iff.mp h
  have hawaits := (recalls_of_reach hreach).awaits_of_operator hmode
  obtain ⟨mode, groups, awaits⟩ := machine
  simp only at hmode hgroups hawaits
  rw [hreach, hmode, hgroups, hawaits]

theorem groups_of_equal {machine : Machine} {kinds : List Kind}
    (h : reach (kinds ++ [.equal]) = some machine) : machine.groups = 0 := by
  by_cases hname : kinds = [.identifier]
  · subst hname
    obtain rfl : start true = machine := Option.some.inj h
    rfl
  · rw [reach_concat (by simp [hname])] at h
    obtain ⟨earlier, -, hstep⟩ := Option.bind_eq_some_iff.mp h
    cases step_eq_some_iff.mp hstep with
    | operand hkind => simp at hkind
    | operator hkind => simp [Kind.isOperator, Kind.operator?] at hkind

/-- An operand that neither an operator nor a group demands is at the beginning of the line. -/
theorem eq_nil_of_operand {machine : Machine} {kinds : List Kind} (h : reach kinds = some machine)
    (hmode : machine.mode = .operand) (hawaits : machine.awaits = false)
    (hgroups : machine.groups = 0) : kinds = [] := by
  have hrecalls := recalls_of_reach h
  induction kinds using List.reverseRecOn with
  | nil => rfl
  | append_singleton kinds kind _ =>
    have hkind : kind = .leftParen := by
      have hlast := hrecalls.mode.mp hmode
      have hother := hrecalls.awaits
      rw [hawaits] at hother
      simp only [expectsOperand_concat, Bool.or_eq_true, decide_eq_true_eq] at hlast
      refine hlast.resolve_left fun hk => ?_
      simp [hk] at hother
    subst hkind
    rw [reach_concat (by simp)] at h
    obtain ⟨earlier, -, hstep⟩ := Option.bind_eq_some_iff.mp h
    cases step_eq_some_iff.mp hstep with
    | operand hkind => simp at hkind
    | opening _ => simp at hgroups
    | operator hkind => simp [Kind.isOperator, Kind.operator?] at hkind

end Machine

end ArithLines
