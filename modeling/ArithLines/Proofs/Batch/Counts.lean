import ArithLines.Proofs.Batch.Lines
import ArithLines.Proofs.Batch.Recovery
import ArithLines.Proofs.Text.Units
import Mathlib.Data.List.Forall2

/-! What the numbers of a summary count. Main statement: they agree with the input, with what is
written, and with what is given notice of, and every line that is written is accounted for. -/

namespace ArithLines.Batch

open Text (newline)

/-! ### Summaries -/

theorem Summary.ofEntries_cons (entry : Entry) (entries : List Entry) :
    ofEntries (entry :: entries) = ofEntries [entry] + ofEntries entries :=
  ofEntries_append [entry] entries

theorem Summary.ofEntries_eq (entries : List Entry) :
    ofEntries entries =
      { linesRead := entries.length
        valid := entries.countP (·.accepted? = some true)
        invalid := entries.countP (·.accepted? = some false)
        skipped := entries.countP (·.accepted? = none)
        truncated := entries.countP Entry.isTruncated } := by
  induction entries with
  | nil => rfl
  | cons entry entries ih =>
    rw [ofEntries_cons, ih, add_eq]
    simp only [ofEntries, List.foldl_cons, List.foldl_nil, count, Summary.mk.injEq, List.length_cons,
      List.countP_cons, decide_eq_true_eq]
    omega

/-- Each line is accounted for in one way. -/
theorem Summary.foldl_count_total (entries : List Entry) (summary : Summary)
    (h : summary.valid + summary.invalid + summary.skipped = summary.linesRead) :
    (entries.foldl count summary).valid + (entries.foldl count summary).invalid +
      (entries.foldl count summary).skipped = (entries.foldl count summary).linesRead := by
  induction entries generalizing summary with
  | nil => exact h
  | cons entry entries ih => exact ih (summary.count entry) (summary.count_total entry h)

/-! ### Entries and their numbers -/

section Numbered

variable {α : Type} (f : Entry → Nat → List α)

/-- What there is of each entry by its number, the first entry coming after so many others. -/
def numbered (before : Nat) : List Entry → List α
  | [] => []
  | entry :: entries => f entry (before + 1) ++ numbered (before + 1) entries

theorem mem_numbered_iff {a : α} {before : Nat} {entries : List Entry} :
    a ∈ numbered f before entries ↔
      ∃ (index : Nat) (entry : Entry), entries[index]? = some entry ∧
        a ∈ f entry (before + index + 1) := by
  induction entries generalizing before with
  | nil => simp [numbered]
  | cons entry entries ih =>
    have hplace (index : Nat) : before + 1 + index + 1 = before + (index + 1) + 1 := by omega
    rw [numbered, List.mem_append, ih]
    constructor
    · rintro (hfirst | ⟨index, other, hother, hmem⟩)
      · exact ⟨0, entry, rfl, hfirst⟩
      · exact ⟨index + 1, other, hother, hplace index ▸ hmem⟩
    · rintro ⟨index, other, hother, hmem⟩
      cases index with
      | zero =>
        obtain rfl : entry = other := Option.some.inj hother
        exact .inl hmem
      | succ index => exact .inr ⟨index, other, hother, (hplace index).symm ▸ hmem⟩

theorem countP_numbered {p : α → Bool} {q : Entry → Bool}
    (h : ∀ entry number, (f entry number).countP p = if q entry then 1 else 0) (before : Nat)
    (entries : List Entry) : (numbered f before entries).countP p = entries.countP q := by
  induction entries generalizing before with
  | nil => rfl
  | cons entry entries ih =>
    rw [numbered, List.countP_append, ih, h, List.countP_cons, Nat.add_comm]

/-- What belongs to an earlier entry comes first. -/
theorem numbered_pairwise {Before : α → α → Prop} {place : α → Nat}
    (hplace : ∀ entry number, ∀ a ∈ f entry number, place a = number)
    (hbefore : ∀ a b, place a < place b → Before a b)
    (hentry : ∀ entry number, (f entry number).Pairwise Before) (before : Nat)
    (entries : List Entry) : (numbered f before entries).Pairwise Before := by
  induction entries generalizing before with
  | nil => exact .nil
  | cons entry entries ih =>
    rw [numbered]
    refine List.pairwise_append.mpr ⟨hentry _ _, ih (before + 1), ?_⟩
    intro first hfirst second hsecond
    obtain ⟨index, other, -, hother⟩ := (mem_numbered_iff f).mp hsecond
    apply hbefore
    rw [hplace _ _ first hfirst, hplace _ _ second hother]
    omega

end Numbered

/-! ### Lines that are cut -/

def Notice.cutNumber? : Notice → Option Nat
  | cut number => some number
  | report _ => none

/-- The numbers of the lines that a run gives notice of cutting. -/
def warned (printer : Printer) (settings : Settings) (bytes : List UInt8) : List Nat :=
  (notices printer settings bytes).filterMap Notice.cutNumber?

theorem Entry.cutNumbers (printer : Printer) (settings : Settings) (entry : Entry) (number : Nat) :
    (entry.notices printer settings number).filterMap Notice.cutNumber? =
      if entry.isTruncated then [number] else [] := by
  have hreports : ∀ reports : List String,
      (reports.map Notice.report).filterMap Notice.cutNumber? = [] := by
    intro reports
    rw [List.filterMap_map, List.filterMap_eq_nil_iff]
    intro report _
    rfl
  rw [notices, List.filterMap_append, hreports, List.append_nil]
  split <;> rfl

section Cuts

variable (printer : Printer) (settings : Settings)

def cutsAfter (before : Nat) (entries : List Entry) : List Nat :=
  (noticesAfter printer settings before entries).filterMap Notice.cutNumber?

theorem cutsAfter_eq (before : Nat) (entries : List Entry) :
    cutsAfter printer settings before entries =
      numbered (fun entry number => if entry.isTruncated then [number] else []) before entries := by
  induction entries generalizing before with
  | nil => rfl
  | cons entry entries ih =>
    rw [cutsAfter, noticesAfter, List.filterMap_append, Entry.cutNumbers, numbered, ← ih, cutsAfter]

theorem length_cutsAfter (before : Nat) (entries : List Entry) :
    (cutsAfter printer settings before entries).length = entries.countP Entry.isTruncated := by
  rw [cutsAfter_eq, ← List.countP_true]
  refine countP_numbered _ (fun entry number => ?_) before entries
  split <;> rfl

theorem mem_cutsAfter_iff {before number : Nat} {entries : List Entry} :
    number ∈ cutsAfter printer settings before entries ↔
      ∃ index entry, entries[index]? = some entry ∧ number = before + index + 1 ∧
        entry.isTruncated = true := by
  rw [cutsAfter_eq, mem_numbered_iff]
  simp only [List.mem_ite_nil_right, List.mem_singleton, and_comm]

theorem cutsAfter_pairwise (before : Nat) (entries : List Entry) :
    (cutsAfter printer settings before entries).Pairwise (· < ·) := by
  rw [cutsAfter_eq]
  refine numbered_pairwise _ (fun entry number a ha => ?_) (fun _ _ => id)
    (fun entry number => ?_) before entries
  · exact List.mem_singleton.mp (List.mem_ite_nil_right.mp ha).2
  · split
    · exact List.pairwise_singleton _ _
    · exact .nil

end Cuts

/-! ### Lines that are written -/

/-- What is left of the lines of an input to be checked. -/
def texts (settings : Settings) (bytes : List UInt8) : List (List Char) :=
  (entries settings bytes).map Entry.text

section Texts

variable (settings : Settings) (bytes : List UInt8)

theorem forall₂_leaves :
    List.Forall₂ (Leaves settings.lineLimit) (Text.lines bytes) (texts settings bytes) := by
  rw [texts, entries, List.map_map, List.forall₂_map_right_iff]
  exact List.forall₂_same.mpr fun line _ => Entry.leaves_iff.mpr rfl

theorem checked_eq : checked settings bytes = (texts settings bytes).filter (· ≠ []) := by
  rw [checked, texts, entries]
  induction Text.lines bytes with
  | nil => rfl
  | cons line lines ih =>
    rw [List.map_cons, List.filterMap_cons, ih, List.map_cons, List.filter_cons, Entry.checked,
      Entry.examination_ofLine]
    by_cases h : (Entry.ofLine settings.lineLimit line).text = []
    · simp [h]
    · simp [h]

theorem accepted?_of_mem {entry : Entry} (h : entry ∈ entries settings bytes) :
    entry.accepted? = if entry.text = [] then none else some (validate entry.text).accepted := by
  obtain ⟨line, -, rfl⟩ := List.mem_map.mp h
  exact Entry.accepted?_ofLine settings.lineLimit line

theorem countP_blank : (entries settings bytes).countP (·.accepted? = none) =
    (texts settings bytes).count [] := by
  rw [texts, List.count, List.countP_map]
  refine List.countP_congr fun entry hentry => ?_
  rw [accepted?_of_mem settings bytes hentry]
  by_cases h : entry.text = [] <;> simp [h]

theorem countP_checked (accepted : Bool) :
    (entries settings bytes).countP (·.accepted? = some accepted) =
      (checked settings bytes).countP fun line => (validate line).accepted = accepted := by
  rw [checked_eq, List.countP_filter, texts, List.countP_map]
  refine List.countP_congr fun entry hentry => ?_
  rw [accepted?_of_mem settings bytes hentry]
  by_cases h : entry.text = [] <;> simp [h]

end Texts

/-- All that a summary says but for the lines that are cut is seen from what is left of the lines. -/
theorem summary_eq (printer : Printer) (settings : Settings) (bytes : List UInt8) :
    (faultless printer settings bytes).summary =
      { linesRead := (texts settings bytes).length
        valid := (checked settings bytes).countP fun line => (validate line).accepted = true
        invalid := (checked settings bytes).countP fun line => (validate line).accepted = false
        skipped := (texts settings bytes).count []
        truncated := (entries settings bytes).countP Entry.isTruncated } := by
  rw [faultless_summary, Summary.ofEntries_eq, countP_checked, countP_checked, countP_blank, texts,
    List.length_map]

/-! ### Lines that say that they are valid -/

theorem append_validMark (line : List Char) :
    line ++ " -- valid".toList = line ++ dashes ++ "valid".toList := by
  rw [List.append_assoc]
  rfl

theorem validMark_isSuffix_iff (line : List Char) :
    " -- valid".toList <:+ (validate line).render line ↔ (validate line).accepted = true := by
  rw [← (words_cases line).1]
  constructor
  · rintro ⟨other, hother⟩
    -- There is no dash after this mark, so it is the one that was put behind the line.
    have hlast : LastSplit dashes (other ++ dashes ++ "valid".toList) other "valid".toList :=
      lastSplit_dashes (by decide)
    have hsplit := splitLast_eq_some_iff.mpr hlast
    rw [← append_validMark, hother, splitLast_render] at hsplit
    exact String.toList_inj.mp (Prod.mk.inj (Option.some.inj hsplit)).2
  · intro hwords
    rw [Verdict.render, hwords]
    exact ⟨line, append_validMark line⟩

theorem validMark_isSuffix_encode_iff (line : List Char) :
    Text.Utf8.encode " -- valid".toList <:+ Text.Utf8.encode ((validate line).render line) ↔
      (validate line).accepted = true := by
  rw [← validMark_isSuffix_iff]
  constructor
  · have hspace : String.utf8EncodeChar ' ' = [0x20] := by decide
    exact Text.Utf8.suffix_of_encode_suffix (by decide) hspace
  · rintro ⟨before, hbefore⟩
    rw [← hbefore, Text.Utf8.encode_append]
    exact List.suffix_append _ _

theorem countP_validMark (printer : Printer) (settings : Settings) (bytes : List UInt8) :
    (Text.lines (faultless printer settings bytes).output).countP
        (fun line => decide (Text.Utf8.encode " -- valid".toList <:+ line)) =
      (checked settings bytes).countP fun line => (validate line).accepted = true := by
  rw [lines_output, List.countP_map]
  refine List.countP_congr fun line _ => ?_
  rw [Function.comp_apply, decide_eq_true_eq, validMark_isSuffix_encode_iff, decide_eq_true_eq]

/-! ### Runs -/

theorem length_checked (printer : Printer) (settings : Settings) (bytes : List UInt8) :
    (checked settings bytes).length =
      (faultless printer settings bytes).summary.valid +
        (faultless printer settings bytes).summary.invalid := by
  rw [summary_eq,
    List.length_eq_countP_add_countP fun line => decide ((validate line).accepted = true)]
  congr 1
  refine List.countP_congr fun line _ => ?_
  simp

/-- A run takes count of all its lines, writes those that have anything left of them with their
verdicts in the order in which they come, and gives notice of those that do not fit the limit. -/
theorem faultless_accounts (printer : Printer) (settings : Settings) (bytes : List UInt8) :
    let progress := faultless printer settings bytes
    let summary := progress.summary
    progress.outcome = .ok summary ∧
    summary.linesRead = bytes.count newline +
      (if bytes = [] ∨ bytes.getLast? = some newline then 0 else 1) ∧
    summary.valid + summary.invalid + summary.skipped = summary.linesRead ∧
    (∃ left, List.Forall₂ (Leaves settings.lineLimit) (Text.lines bytes) left ∧
      summary.skipped = left.count [] ∧
      progress.output = ((left.filter (· ≠ [])).map fun text =>
        Text.Utf8.encode ((validate text).render text)).flatMap (· ++ [newline]) ∧
      Text.lines progress.output = (left.filter (· ≠ [])).map fun text =>
        Text.Utf8.encode ((validate text).render text)) ∧
    (Text.lines progress.output).length = summary.valid + summary.invalid ∧
    (Text.lines progress.output).countP
      (fun line => decide (Text.Utf8.encode " -- valid".toList <:+ line)) = summary.valid ∧
    progress.errors = String.join ((notices printer settings bytes).map Notice.text) ∧
    (warned printer settings bytes).length = summary.truncated ∧
    (warned printer settings bytes).Pairwise (· < ·) ∧
    ∀ number, number ∈ warned printer settings bytes ↔ ∃ index line,
      (Text.lines bytes)[index]? = some line ∧ number = index + 1 ∧
        settings.lineLimit < Text.Utf8.size (lineText line) := by
  intro progress summary
  have hsummary : summary = _ := summary_eq printer settings bytes
  have hlinesRead : summary.linesRead = (Text.lines bytes).length := by
    rw [hsummary, texts, entries, List.length_map, List.length_map]
  refine ⟨faultless_outcome printer settings bytes, ?_, ?_, ⟨texts settings bytes,
    forall₂_leaves settings bytes,
    ?_, ?_, ?_⟩, ?_, ?_, faultless_errors printer settings bytes, ?_,
    cutsAfter_pairwise printer settings 0 _, ?_⟩
  · rw [hlinesRead, Text.length_lines]
  · rw [show summary = Summary.ofEntries (entries settings bytes) from
      faultless_summary printer settings bytes]
    exact Summary.foldl_count_total _ {} rfl
  · rw [hsummary]
  · rw [← checked_eq]
    exact output_eq printer settings bytes
  · rw [← checked_eq]
    exact lines_output printer settings bytes
  · rw [lines_output, List.length_map]
    exact length_checked printer settings bytes
  · rw [countP_validMark, hsummary]
  · rw [hsummary]
    exact length_cutsAfter printer settings 0 _
  · intro number
    apply (mem_cutsAfter_iff printer settings).trans
    constructor
    · rintro ⟨index, entry, hentry, rfl, hcut⟩
      rw [entries, List.getElem?_map, Option.map_eq_some_iff] at hentry
      obtain ⟨line, hline, rfl⟩ := hentry
      exact ⟨index, line, hline, by omega, Entry.isTruncated_ofLine_iff.mp hcut⟩
    · rintro ⟨index, line, hline, rfl, hcut⟩
      refine ⟨index, _, ?_, by omega, Entry.isTruncated_ofLine_iff.mpr hcut⟩
      rw [entries, List.getElem?_map, hline]
      rfl

end ArithLines.Batch
