import ArithLines.Proofs.Layout
import ArithLines.Proofs.Unrecognized

/-! Lines with their verdicts on them, and how to tell both apart again. The words of a verdict have
no dash, so the last place at which the separator stands is the one where it was put. -/

namespace ArithLines

/-! ### The last place of a separator -/

/-- What comes before and after the last place at which the separator stands. -/
def splitLast (separator : List Char) : List Char → Option (List Char × List Char)
  | [] => if separator = [] then some ([], []) else none
  | c :: text =>
    match splitLast separator text with
    | some (before, after) => some (c :: before, after)
    | none =>
      if separator <+: c :: text then some ([], (c :: text).drop separator.length) else none

/-- The text is taken apart at the last place of the separator. -/
structure LastSplit (separator text before after : List Char) : Prop where
  text_eq : text = before ++ (separator ++ after)
  last : ∀ other rest, text = other ++ (separator ++ rest) → other.length ≤ before.length

section Split

variable {separator text before after : List Char}

theorem splitLast_none (h : splitLast separator text = none) (other rest : List Char) :
    text ≠ other ++ (separator ++ rest) := by
  induction text generalizing other with
  | nil =>
    intro heq
    obtain ⟨-, heq⟩ := List.append_eq_nil_iff.mp heq.symm
    rw [splitLast, if_pos (List.append_eq_nil_iff.mp heq).1] at h
    simp at h
  | cons c text ih =>
    intro heq
    rw [splitLast] at h
    split at h
    · simp at h
    · next hnone =>
      split at h
      · simp at h
      · next hstart =>
        cases other with
        | nil => exact hstart ⟨rest, heq.symm⟩
        | cons first other => exact ih hnone other (List.cons.inj heq).2

theorem splitLast_some (h : splitLast separator text = some (before, after)) :
    LastSplit separator text before after := by
  induction text generalizing before with
  | nil =>
    rw [splitLast] at h
    split at h
    · next hseparator =>
      obtain ⟨rfl, rfl⟩ := Prod.mk.inj (Option.some.inj h)
      refine ⟨by rw [hseparator]; rfl, fun other rest heq => ?_⟩
      rw [(List.append_eq_nil_iff.mp heq.symm).1]
    · simp at h
  | cons c text ih =>
    rw [splitLast] at h
    split at h
    · next tail _ hsome =>
      obtain ⟨rfl, rfl⟩ := Prod.mk.inj (Option.some.inj h)
      have hsplit := ih hsome
      refine ⟨by rw [hsplit.text_eq]; rfl, fun other rest heq => ?_⟩
      cases other with
      | nil => exact Nat.zero_le _
      | cons first other =>
        exact Nat.succ_le_succ (hsplit.last other rest (List.cons.inj heq).2)
    · next hnone =>
      split at h
      · next hstart =>
        obtain ⟨rfl, rfl⟩ := Prod.mk.inj (Option.some.inj h)
        refine ⟨(List.prefix_iff_eq_append.mp hstart).symm, fun other rest heq => ?_⟩
        cases other with
        | nil => exact Nat.zero_le _
        | cons first other => exact absurd (List.cons.inj heq).2 (splitLast_none hnone other rest)
      · simp at h

theorem splitLast_eq_some_iff :
    splitLast separator text = some (before, after) ↔ LastSplit separator text before after := by
  constructor
  · exact splitLast_some
  · intro h
    cases hsplit : splitLast separator text with
    | none => exact absurd h.text_eq (splitLast_none hsplit before after)
    | some parts =>
      obtain ⟨other, rest⟩ := parts
      have hother := splitLast_some hsplit
      have hlength : before.length = other.length :=
        Nat.le_antisymm (hother.last _ _ h.text_eq) (h.last _ _ hother.text_eq)
      obtain ⟨rfl, hafter⟩ := List.append_inj (h.text_eq.symm.trans hother.text_eq) hlength
      rw [List.append_cancel_left hafter]

end Split

/-! ### The words of a verdict -/

theorem WholeLexeme.not_endsWord {lexeme following : List Char}
    (h : WholeLexeme lexeme following) (hinvalid : Kind.ofLexeme lexeme = .invalid) :
    ∀ c ∈ lexeme, endsWord c = false := by
  obtain ⟨first, rest, rfl, hfirst, hrest, -⟩ := h
  intro c hc
  rcases List.mem_cons.mp hc with rfl | hc
  · have hmark : Kind.ofPunctuation? c = none := by
      cases hmark : Kind.ofPunctuation? c with
      | none => rfl
      | some kind =>
        have hkind : kind = .invalid := by simpa [Kind.ofLexeme, hmark] using hinvalid
        rw [hkind] at hmark
        unfold Kind.ofPunctuation? at hmark
        split at hmark <;> simp at hmark
    rw [endsWord, hfirst, hmark]
    rfl
  · exact not_endsWord_of_continues (hrest c hc)

theorem Layout.whole_of_mem {position : Nat} {text : List Char} {tokens : List Token}
    {token : Token} (h : Layout position text tokens) (htoken : token ∈ tokens) :
    token.kind = .ofLexeme token.lexeme ∧ ∃ following, WholeLexeme token.lexeme following := by
  induction h with
  | space => simp at htoken
  | token hgap hwhole _ ih =>
    rcases List.mem_cons.mp htoken with rfl | htoken
    · exact ⟨rfl, _, hwhole⟩
    · exact ih htoken

/-- Neither space nor punctuation is part of an unrecognized token. -/
theorem not_mem_lexeme_of_firstUnrecognized {line : List Char} {first : Token}
    (h : firstUnrecognized line = some first) {c : Char} (hc : endsWord c = true) :
    c ∉ first.lexeme := by
  intro hmem
  obtain ⟨hkind, following, hwhole⟩ :=
    (Layout.of_line line).whole_of_mem (List.mem_of_find?_eq_some h)
  have hinvalid : first.kind = .invalid := by simpa using List.find?_some h
  rw [hwhole.not_endsWord (hkind.symm.trans hinvalid) c hmem] at hc
  simp at hc

theorem not_mem_message {reason : Reason} (h : ∀ text, reason ≠ .unrecognizedToken text) {c : Char}
    (hc : c = '-' ∨ c = '\n') : c ∉ reason.message.toList := by
  cases reason with
  | unrecognizedToken text => exact absurd rfl (h text)
  | _ => rcases hc with rfl | rfl <;> decide

/-- What is said of a line has no dash, and no newline. -/
theorem not_mem_words (line : List Char) {c : Char} (hc : c = '-' ∨ c = '\n') :
    c ∉ (validate line).words.toList := by
  have hends : endsWord c = true := by rcases hc with rfl | rfl <;> decide
  cases hfirst : firstUnrecognized line with
  | some first =>
    have hlexeme := not_mem_lexeme_of_firstUnrecognized hfirst hends
    have hwords : (validate line).words.toList =
        "invalid: ".toList ++ ("unrecognized token '".toList ++ first.lexeme ++ "'".toList) := by
      rw [validate_of_unrecognized hfirst, Verdict.words_reject, String.toList_append]
      rw [show Reason.message (.unrecognizedToken first.lexeme) =
        "unrecognized token '" ++ String.ofList first.lexeme ++ "'" from rfl]
      rw [String.toList_append, String.toList_append, String.toList_ofList (l := first.lexeme)]
    rw [hwords]
    simp only [List.mem_append, not_or]
    refine ⟨?_, ⟨?_, hlexeme⟩, ?_⟩
    · rcases hc with rfl | rfl <;> decide
    · rcases hc with rfl | rfl <;> decide
    · rcases hc with rfl | rfl <;> decide
  | none =>
    have hreason := reason_ne_unrecognized hfirst
    generalize validate line = verdict at hreason
    rw [Verdict.words]
    split
    · next reason _ hsome =>
      rw [hsome] at hreason
      rw [String.toList_append, List.mem_append, not_or]
      refine ⟨?_, not_mem_message (fun text heq => hreason text (congrArg some heq)) hc⟩
      rcases hc with rfl | rfl <;> decide
    · rcases hc with rfl | rfl <;> decide

/-- The mark between a line and the words on it. -/
def dashes : List Char := " -- ".toList

theorem lastSplit_dashes {line words : List Char} (h : '-' ∉ words) :
    LastSplit dashes (line ++ dashes ++ words) line words := by
  refine ⟨List.append_assoc .., fun other rest heq => ?_⟩
  by_contra hlonger
  -- Its second dash would stand behind the dashes that come after the line.
  have hdrop := congrArg (List.drop (line.length + 3)) heq
  have hleft : (line ++ dashes ++ words).drop (line.length + 3) = ' ' :: words := by
    rw [List.append_assoc, List.drop_append, List.drop_eq_nil_of_le (by omega),
      Nat.add_sub_cancel_left]
    rfl
  have hright : other ++ (dashes ++ rest) = other ++ [' ', '-'] ++ '-' :: ' ' :: rest := by
    rw [List.append_assoc]
    rfl
  rw [hleft, hright, List.drop_append_of_le_length (by simp; omega)] at hdrop
  have hmem : '-' ∈ ' ' :: words := by
    rw [hdrop]
    simp
  rcases List.mem_cons.mp hmem with hspace | hwords
  · exact absurd hspace (by decide)
  · exact h hwords

/-! ### Lines with their verdicts -/

theorem splitLast_render (line : List Char) :
    splitLast dashes ((validate line).render line) =
      some (line, (validate line).words.toList) :=
  splitLast_eq_some_iff.mpr (lastSplit_dashes (not_mem_words line (.inl rfl)))

/-- A line that ends like one with a verdict is told from the verdict that it gets. -/
example : splitLast dashes "a -- valid -- invalid: incomplete expression".toList =
    some ("a -- valid".toList, "invalid: incomplete expression".toList) := by
  decide +kernel

theorem render_injective {line other : List Char}
    (h : (validate line).render line = (validate other).render other) : line = other := by
  have hsplit := splitLast_render line
  rw [h, splitLast_render other] at hsplit
  exact (Prod.mk.inj (Option.some.inj hsplit)).1.symm

theorem invalid_ne_valid (text : String) : "invalid: " ++ text ≠ "valid" := by
  intro h
  have hlist := congrArg (·.toList.head?) h
  rw [String.toList_append] at hlist
  exact absurd (show some 'i' = some 'v' from hlist) (by decide)

theorem words_of_reason {line : List Char} {reason : Reason}
    (h : (validate line).reason = some reason) :
    (validate line).words = "invalid: " ++ reason.message := by
  rcases validate_cases line with ⟨machine, -, -, hvalidate⟩ | ⟨read, rest, machine, -, hvalidate⟩
  · rw [hvalidate] at h
    simp [Verdict.accept] at h
  · rw [hvalidate] at h ⊢
    rw [Verdict.words_reject, Option.some.inj h]

/-- The words tell whether the line is accepted, and name the reason if it is not. -/
theorem words_cases (line : List Char) :
    ((validate line).words = "valid" ↔ (validate line).accepted = true) ∧
    ((validate line).accepted = false → ∃ reason, (validate line).reason = some reason ∧
      (validate line).words = "invalid: " ++ reason.message) := by
  rcases validate_cases line with ⟨machine, -, -, hvalidate⟩ | ⟨read, rest, machine, -, hvalidate⟩
  · rw [hvalidate]
    exact ⟨⟨fun _ => rfl, fun _ => rfl⟩, by simp [Verdict.accept]⟩
  · rw [hvalidate]
    refine ⟨⟨fun h => absurd h (invalid_ne_valid _), by simp [Verdict.reject]⟩, fun _ => ?_⟩
    exact ⟨_, rfl, rfl⟩

end ArithLines
