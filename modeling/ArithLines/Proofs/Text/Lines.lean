import ArithLines.Text.Lines

/-! Texts in bytes, taken apart into lines and put together. Where a text ends with a newline another
one may follow, and the lines of both stay what they are. -/

namespace ArithLines.Text

/-- A text without a last line that is not ended. -/
def Complete (bytes : List UInt8) : Prop := bytes = [] ∨ bytes.getLast? = some newline

/-- The text up to its last newline. -/
def completed (bytes : List UInt8) : List UInt8 := (endedLines bytes).flatMap (· ++ [newline])

theorem complete_concat (bytes : List UInt8) : Complete (bytes ++ [newline]) :=
  .inr (List.getLast?_concat ..)

theorem Complete.eq_nil_or_concat {bytes : List UInt8} (h : Complete bytes) :
    bytes = [] ∨ ∃ before, bytes = before ++ [newline] :=
  h.imp_right List.getLast?_eq_some_iff.mp

/-- Texts line by line. The last line lacks its newline. -/
@[elab_as_elim]
theorem line_induction {motive : List UInt8 → Prop}
    (last : ∀ line, newline ∉ line → motive line)
    (ended : ∀ line rest, newline ∉ line → motive rest → motive (line ++ newline :: rest))
    (bytes : List UInt8) : motive bytes := by
  induction hlength : bytes.length using Nat.strongRecOn generalizing bytes with
  | ind length ih =>
    by_cases hmem : newline ∈ bytes
    · obtain ⟨line, rest, rfl, hline⟩ := List.eq_append_cons_of_mem hmem
      refine ended line rest hline (ih rest.length ?_ rest rfl)
      rw [List.length_append, List.length_cons] at hlength
      omega
    · exact last bytes hmem

/-! ### The lines of a text -/

section Lines

variable (before after : List UInt8)

theorem endedLines_append :
    endedLines (before ++ newline :: after) = before.splitOn newline ++ endedLines after := by
  rw [endedLines, List.splitOn_append_cons_self,
    List.dropLast_append_of_ne_nil (List.splitOn_ne_nil newline after), endedLines]

theorem remainder_append : remainder (before ++ newline :: after) = remainder after := by
  rw [remainder, List.splitOn_append_cons_self, remainder, List.getLastD_eq_getLast?,
    List.getLastD_eq_getLast?, List.getLast?_append]
  rw [List.getLast?_eq_some_getLast (List.splitOn_ne_nil newline after)]
  rfl

theorem lines_append :
    lines (before ++ newline :: after) = before.splitOn newline ++ lines after := by
  rw [lines, remainder_append, endedLines_append, lines]
  split
  · rfl
  · rw [List.append_assoc]

variable {before}

theorem Complete.lines_append (h : Complete before) :
    lines (before ++ after) = lines before ++ lines after := by
  rcases h.eq_nil_or_concat with rfl | ⟨before, rfl⟩
  · rfl
  · rw [List.append_assoc, List.singleton_append, Text.lines_append, Text.lines_append, lines_nil,
      List.append_nil]

end Lines

variable {line : List UInt8}

theorem endedLines_of_not_mem (h : newline ∉ line) : endedLines line = [] := by
  rw [endedLines, List.splitOn_eq_singleton h]
  rfl

theorem remainder_of_not_mem (h : newline ∉ line) : remainder line = line := by
  rw [remainder, List.splitOn_eq_singleton h]
  rfl

theorem lines_cons (h : newline ∉ line) (rest : List UInt8) :
    lines (line ++ newline :: rest) = line :: lines rest := by
  rw [lines_append, List.splitOn_eq_singleton h, List.singleton_append]

theorem endedLines_cons (h : newline ∉ line) (rest : List UInt8) :
    endedLines (line ++ newline :: rest) = line :: endedLines rest := by
  rw [endedLines_append, List.splitOn_eq_singleton h, List.singleton_append]

theorem newline_not_mem_of_mem_lines {bytes : List UInt8} (h : line ∈ lines bytes) :
    newline ∉ line := by
  induction bytes using line_induction with
  | last last hlast =>
    rw [lines, endedLines_of_not_mem hlast, remainder_of_not_mem hlast] at h
    split at h
    · simp at h
    · obtain rfl : line = last := by simpa using h
      exact hlast
  | ended first rest hfirst ih =>
    rw [lines_cons hfirst] at h
    rcases List.mem_cons.mp h with rfl | hrest
    · exact hfirst
    · exact ih hrest

/-- The lines are what a text is made of, if each of them has no newline. -/
theorem lines_flatMap {ended : List (List UInt8)} (h : ∀ line ∈ ended, newline ∉ line) :
    lines (ended.flatMap (· ++ [newline])) = ended := by
  induction ended with
  | nil => rfl
  | cons line ended ih =>
    rw [List.flatMap_cons, List.append_assoc, List.singleton_append,
      lines_cons (h line (by simp)), ih fun line hline => h line (by simp [hline])]

/-- There is a line for every newline, and one more if something follows the last of them. -/
theorem length_lines (bytes : List UInt8) :
    (lines bytes).length = bytes.count newline +
      if bytes = [] ∨ bytes.getLast? = some newline then 0 else 1 := by
  induction bytes using line_induction with
  | last line hline =>
    have hlast : line.getLast? ≠ some newline := fun h => hline (List.mem_of_getLast? h)
    rw [lines, remainder_of_not_mem hline, endedLines_of_not_mem hline,
      List.count_eq_zero.mpr hline, Nat.zero_add]
    cases line with
    | nil => rfl
    | cons byte line => rw [if_neg (by simp), if_neg (by simp [hlast])]; rfl
  | ended line rest hline ih =>
    have hlast : line ++ newline :: rest = [] ∨ (line ++ newline :: rest).getLast? = some newline ↔
        rest = [] ∨ rest.getLast? = some newline := by
      rw [List.getLast?_append]
      cases rest with
      | nil => simp
      | cons byte rest => simp [List.getLast?_cons_cons]
    rw [lines_cons hline, List.length_cons, ih, List.count_append, List.count_eq_zero.mpr hline,
      List.count_cons_self]
    simp only [hlast]
    omega

/-- The first lines of a text are the lines of a beginning of it. -/
theorem exists_prefix_of_lines {bytes : List UInt8} {first others : List (List UInt8)}
    (h : lines bytes = first ++ others) : ∃ before, before <+: bytes ∧ lines before = first := by
  induction bytes using line_induction generalizing first with
  | last last hlast =>
    cases first with
    | nil => exact ⟨[], List.nil_prefix, rfl⟩
    | cons line first =>
      refine ⟨last, List.prefix_refl last, ?_⟩
      rw [lines, endedLines_of_not_mem hlast, remainder_of_not_mem hlast] at h ⊢
      split at h
      · simp at h
      · next hempty =>
        obtain ⟨hline, hfirst⟩ := List.cons.inj h
        obtain ⟨rfl, rfl⟩ := List.append_eq_nil_iff.mp hfirst.symm
        rw [if_neg hempty, ← hline]
        rfl
  | ended line rest hline ih =>
    cases first with
    | nil => exact ⟨[], List.nil_prefix, rfl⟩
    | cons other first =>
      rw [lines_cons hline] at h
      obtain ⟨rfl, hrest⟩ := List.cons.inj h
      obtain ⟨before, ⟨after, rfl⟩, hbefore⟩ := ih hrest
      refine ⟨line ++ newline :: before, ⟨after, ?_⟩, ?_⟩
      · rw [List.append_assoc, List.cons_append]
      · rw [lines_cons hline, hbefore]

/-! ### A text up to its last newline -/

theorem complete_completed (bytes : List UInt8) : Complete (completed bytes) := by
  rw [completed]
  cases hlines : (endedLines bytes).reverse with
  | nil =>
    rw [List.reverse_eq_nil_iff.mp hlines]
    exact .inl rfl
  | cons last others =>
    rw [List.reverse_eq_cons_iff.mp hlines, List.flatMap_append, List.flatMap_singleton,
      ← List.append_assoc]
    exact complete_concat _

theorem completed_append_remainder (bytes : List UInt8) :
    completed bytes ++ remainder bytes = bytes := by
  induction bytes using line_induction with
  | last line hline =>
    rw [completed, endedLines_of_not_mem hline, remainder_of_not_mem hline]
    rfl
  | ended line rest hline ih =>
    rw [completed] at ih
    rw [completed, endedLines_cons hline, remainder_append, List.flatMap_cons, List.append_assoc, ih]
    simp

theorem newline_not_mem_remainder (bytes : List UInt8) : newline ∉ remainder bytes := by
  induction bytes using line_induction with
  | last line hline => rwa [remainder_of_not_mem hline]
  | ended line rest _ ih => rwa [remainder_append]

theorem newline_not_mem_of_mem_endedLines {bytes : List UInt8} (h : line ∈ endedLines bytes) :
    newline ∉ line := by
  apply newline_not_mem_of_mem_lines
  show line ∈ lines bytes
  rw [lines]
  split
  · exact h
  · exact List.mem_append_left _ h

theorem lines_completed (bytes : List UInt8) : lines (completed bytes) = endedLines bytes :=
  lines_flatMap fun _ hline => newline_not_mem_of_mem_endedLines hline

/-- No longer beginning of the text is complete. -/
theorem Complete.isPrefix_completed {bytes other : List UInt8} (h : Complete other)
    (hother : other <+: bytes) : other <+: completed bytes := by
  have hcompleted : completed bytes <+: bytes :=
    ⟨remainder bytes, completed_append_remainder bytes⟩
  rcases List.prefix_or_prefix_of_prefix hother hcompleted with hle | ⟨more, rfl⟩
  · exact hle
  -- What it has beyond the last newline of the text would end with another one.
  cases hmore : more.getLast? with
  | none =>
    obtain rfl := List.getLast?_eq_none_iff.mp hmore
    exact ⟨[], by simp⟩
  | some last =>
    have hlast : last = newline := by
      rcases h with hnil | hnewline
      · rw [(List.append_eq_nil_iff.mp hnil).2] at hmore
        simp at hmore
      · rw [List.getLast?_append, hmore] at hnewline
        exact Option.some.inj hnewline
    have hremainder : more <+: remainder bytes := by
      apply (List.prefix_append_right_inj (completed bytes)).mp
      rw [completed_append_remainder]
      exact hother
    have hmem := hremainder.subset (List.mem_of_getLast? hmore)
    rw [hlast] at hmem
    exact absurd hmem (newline_not_mem_remainder bytes)

end ArithLines.Text
