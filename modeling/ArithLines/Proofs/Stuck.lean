import ArithLines.Proofs.Recall

/-! Where the machine stops reading a line that is no statement. There is one such place, and up to
it the line can still be continued to a statement. -/

namespace ArithLines

open Descent (depthLimit)
open Grammar

namespace Machine

/-- The machine reads the kinds `before`, but then neither the first of `after` nor, if there is
none, the end of the line. -/
structure Stuck (before after : List Kind) (machine : Machine) : Prop where
  reach : reach before = some machine
  blocked : ∀ kind more, after = kind :: more → Machine.reach (before ++ [kind]) = none
  unfinished : after = [] → ¬machine.Accepts

variable {before after : List Kind} {machine : Machine}

theorem stuck_of_step {kind : Kind} {more : List Kind} (hreach : reach before = some machine)
    (hname : ¬(before = [.identifier] ∧ kind = .equal)) (hstep : machine.step 0 kind = none) :
    Stuck before (kind :: more) machine := by
  refine ⟨hreach, fun kind' more' hafter => ?_, nofun⟩
  obtain ⟨rfl, rfl⟩ := List.cons.inj hafter
  rw [reach_concat hname, hreach]
  exact hstep

theorem stuck_of_end (hreach : reach before = some machine) (hend : ¬machine.Accepts) :
    Stuck before [] machine :=
  ⟨hreach, nofun, fun _ => hend⟩

theorem exists_stuck {kinds : List Kind} (h : ¬Sentence depthLimit kinds) :
    ∃ before after machine, kinds = before ++ after ∧ Stuck before after machine := by
  have later (after : List Kind) : ∀ before machine, kinds = before ++ after →
      Machine.reach before = some machine →
      ∃ before after machine, kinds = before ++ after ∧ Stuck before after machine := by
    induction after with
    | nil =>
      intro before machine hkinds hreach
      rw [List.append_nil] at hkinds
      subst hkinds
      have hend : ¬machine.Accepts := fun haccepts => h (sentence_iff.mpr ⟨machine, hreach, haccepts⟩)
      exact ⟨kinds, [], machine, (List.append_nil kinds).symm, stuck_of_end hreach hend⟩
    | cons kind after ih =>
      intro before machine hkinds hreach
      cases hnext : Machine.reach (before ++ [kind]) with
      | some next => exact ih (before ++ [kind]) next (by simp [hkinds]) hnext
      | none =>
        refine ⟨before, kind :: after, machine, hkinds, hreach, fun kind' more hafter => ?_, nofun⟩
        obtain ⟨rfl, -⟩ := List.cons.inj hafter
        exact hnext
  exact later kinds [] (.start false) rfl reach_nil

namespace Stuck

theorem viable (h : Stuck before after machine) : Viable depthLimit before :=
  viable_iff.mpr ⟨machine, h.reach⟩

theorem not_viable {kind : Kind} {more : List Kind} (h : Stuck before (kind :: more) machine) :
    ¬Viable depthLimit (before ++ [kind]) := by
  rw [viable_iff]
  rintro ⟨next, hnext⟩
  rw [h.blocked kind more rfl] at hnext
  simp at hnext

theorem not_sentence (h : Stuck before after machine) : ¬Sentence depthLimit (before ++ after) := by
  cases after with
  | nil =>
    rw [List.append_nil, sentence_iff]
    rintro ⟨last, hreach, haccepts⟩
    obtain rfl := Option.some.inj (h.reach.symm.trans hreach)
    exact h.unfinished rfl haccepts
  | cons kind more =>
    intro hsentence
    rw [List.append_cons] at hsentence
    exact h.not_viable hsentence.viable.of_append

theorem step {kind : Kind} {more : List Kind} (h : Stuck before (kind :: more) machine) :
    machine.step 0 kind = none := by
  have hblocked := h.blocked kind more rfl
  by_cases hname : before = [.identifier] ∧ kind = .equal
  · obtain ⟨rfl, rfl⟩ := hname
    exact absurd hblocked (by decide)
  · rw [reach_concat hname, h.reach] at hblocked
    exact hblocked

/-- Nothing that the machine reads goes past the place where it is stuck. -/
theorem eq_nil_of_reach {extra rest : List Kind} {other : Machine}
    (h : Stuck before (extra ++ rest) machine)
    (hother : Machine.reach (before ++ extra) = some other) : extra = [] := by
  cases extra with
  | nil => rfl
  | cons kind extra =>
    have hnone := reach_append_none (h.blocked kind (extra ++ rest) rfl) extra
    rw [List.append_cons, hnone] at hother
    simp at hother

/-- A line has only one place where the machine is stuck. -/
theorem unique {before' after' : List Kind} {machine' : Machine} (h : Stuck before after machine)
    (h' : Stuck before' after' machine') (hkinds : before ++ after = before' ++ after') :
    before = before' ∧ after = after' ∧ machine = machine' := by
  have hbefore : before = before' := by
    rcases List.append_eq_append_iff.mp hkinds with ⟨extra, rfl, rfl⟩ | ⟨extra, rfl, rfl⟩
    · rw [h.eq_nil_of_reach h'.reach, List.append_nil]
    · rw [h'.eq_nil_of_reach h.reach, List.append_nil]
  subst hbefore
  exact ⟨rfl, List.append_cancel_left hkinds, Option.some.inj (h.reach.symm.trans h'.reach)⟩

end Stuck

end Machine

end ArithLines
