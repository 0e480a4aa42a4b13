import ArithLines.Program
import ArithLines.Proofs.Batch.Lines
import ArithLines.Proofs.Text.Units
import Mathlib.Data.List.Basic

/-! Sessions beside runs. Main statement: a session answers the lines up to one that ends it, and its
answers to them are what a run over these lines writes. -/

namespace ArithLines.Session

open Text.Utf8 (encode)

/-- How a session ends on the lines that it does not answer, with its last words. -/
inductive Ending : List (List UInt8) → List Char → Prop
  | atEnd : Ending [] ['\n']
  | farewell {text others} (h : Text.trim Text.isBlank text ∈ farewells) :
      Ending (encode text :: others) "Goodbye!\n".toList
  | garbled {line others} (h : ∀ text, encode text ≠ line) : Ending (line :: others) []

/-- What a session answers to a line: nothing if it is blank, and otherwise the line with its
verdict. -/
def answer (text : List Char) : List Char :=
  let line := Text.trimEnd isLineSpace text
  if text.all isLineSpace then [] else (validate line).render line ++ ['\n']

theorem isBlank_of_isLineSpace {c : Char} (h : isLineSpace c = true) : Text.isBlank c = true := by
  rw [isLineSpace, List.contains_iff_mem] at h
  simp only [lineSpaces, List.mem_cons, List.not_mem_nil, or_false] at h
  rcases h with rfl | rfl | rfl | rfl | rfl | rfl <;> decide

/-! ### Replies -/

section Replies

variable {text : List Char} {line : List UInt8} (printer : Printer)

theorem not_blank_of_farewell (h : Text.trim Text.isBlank text ∈ farewells) :
    ¬ text.all isLineSpace = true := by
  intro hblank
  have hall : ∀ c ∈ text, Text.isBlank c = true := fun c hc =>
    isBlank_of_isLineSpace (List.all_eq_true.mp hblank c hc)
  rw [Text.trim_eq_nil_of_all hall] at h
  exact absurd h (by decide)

theorem reply_farewell (h : Text.trim Text.isBlank text ∈ farewells) :
    reply printer (encode text) = { output := "Goodbye!\n", isLast := true } := by
  rw [reply, Text.Utf8.decode?_encode]
  dsimp only
  rw [Text.all_trimEnd, if_neg (not_blank_of_farewell h),
    Text.trim_trimEnd fun _ => isBlank_of_isLineSpace, if_pos (List.contains_iff_mem.mpr h)]

theorem reply_answer (h : Text.trim Text.isBlank text ∉ farewells) :
    (reply printer (encode text)).output = String.ofList (answer text) ∧
      (reply printer (encode text)).isLast = false := by
  rw [reply, Text.Utf8.decode?_encode]
  dsimp only
  rw [Text.all_trimEnd, Text.trim_trimEnd fun _ => isBlank_of_isLineSpace, answer,
    if_neg (mt List.contains_iff_mem.mp h)]
  by_cases hblank : text.all isLineSpace = true
  · rw [if_pos hblank, if_pos hblank]
    exact ⟨rfl, rfl⟩
  · rw [if_neg hblank, if_neg hblank]
    exact ⟨rfl, rfl⟩

theorem reply_garbled (h : ∀ text, encode text ≠ line) :
    (reply printer line).output = "" ∧ (reply printer line).isLast = true := by
  have hnone : Text.Utf8.decode? line = none := by
    rw [Option.eq_none_iff_forall_not_mem]
    intro text htext
    exact h text (Text.Utf8.decode?_eq_some_iff.mp htext)
  rw [reply, hnone]
  exact ⟨rfl, rfl⟩

end Replies

section Lines

variable {texts : List (List Char)} {others : List (List UInt8)} {words : List Char}
  (printer : Printer)

theorem exists_ending (lines : List (List UInt8)) :
    ∃ (texts : List (List Char)) (others : List (List UInt8)) (words : List Char),
      lines = texts.map encode ++ others ∧
        (∀ text ∈ texts, Text.trim Text.isBlank text ∉ farewells) ∧ Ending others words := by
  induction lines with
  | nil => exact ⟨[], [], _, rfl, by simp, .atEnd⟩
  | cons line lines ih =>
    by_cases hline : ∃ text, encode text = line
    · obtain ⟨text, rfl⟩ := hline
      by_cases hfarewell : Text.trim Text.isBlank text ∈ farewells
      · exact ⟨[], _, _, rfl, by simp, .farewell hfarewell⟩
      · obtain ⟨texts, others, words, rfl, htexts, hending⟩ := ih
        refine ⟨text :: texts, others, words, rfl, ?_, hending⟩
        exact List.forall_mem_cons.mpr ⟨hfarewell, htexts⟩
    · exact ⟨[], _, _, rfl, by simp, .garbled fun text htext => hline ⟨text, htext⟩⟩

/-- What a session writes from its first prompt on, by the lines that are left. -/
def transcript (lines : List (List UInt8)) : List Char :=
  (replies printer lines).flatMap fun reply => (prompt ++ reply.output).toList

theorem transcript_cons (line : List UInt8) (lines : List (List UInt8)) :
    transcript printer (line :: lines) = prompt.toList ++ (reply printer line).output.toList ++
      if (reply printer line).isLast then [] else transcript printer lines := by
  rw [transcript, replies, ← String.toList_append]
  split
  · exact (List.flatMap_singleton ..).trans (List.append_nil _).symm
  · rw [List.flatMap_cons, transcript]

theorem transcript_ending (h : Ending others words) :
    transcript printer others = prompt.toList ++ words := by
  cases h with
  | atEnd => rfl
  | farewell hfarewell =>
    rw [transcript_cons, reply_farewell printer hfarewell, if_pos rfl, List.append_nil]
  | garbled hgarbled =>
    obtain ⟨houtput, hlast⟩ := reply_garbled printer hgarbled
    rw [transcript_cons, houtput, if_pos hlast]
    rfl

theorem transcript_append (h : ∀ text ∈ texts, Text.trim Text.isBlank text ∉ farewells)
    (others : List (List UInt8)) :
    transcript printer (texts.map encode ++ others) =
      (texts.flatMap fun text => prompt.toList ++ answer text) ++ transcript printer others := by
  induction texts with
  | nil => rfl
  | cons text texts ih =>
    obtain ⟨htext, htexts⟩ := List.forall_mem_cons.mp h
    obtain ⟨houtput, hlast⟩ := reply_answer printer htext
    rw [List.map_cons, List.cons_append, transcript_cons, houtput, hlast,
      if_neg Bool.false_ne_true, ih htexts, String.toList_ofList, List.flatMap_cons,
      List.append_assoc, List.append_assoc, List.append_assoc]

end Lines

/-! ### Runs over the lines of a session -/

theorem output_ofLine_encode {limit : Nat} {text : List Char}
    (h : Text.Utf8.size (Text.trimEnd Batch.isLineEnd text) ≤ limit) :
    (Batch.Entry.ofLine limit (encode text)).output = encode (answer text) := by
  have hblank : Text.trimEnd isLineSpace text = [] ↔ text.all isLineSpace = true := by
    rw [Text.trimEnd_eq_nil_iff, List.all_eq_true]
  rw [Batch.Entry.output, Batch.Entry.examination_ofLine,
    Batch.Entry.text_ofLine_encode h, answer]
  by_cases htrimmed : Text.trimEnd isLineSpace text = []
  · rw [if_pos htrimmed, if_pos (hblank.mp htrimmed)]
    rfl
  · rw [if_neg htrimmed, if_neg (mt hblank.mpr htrimmed), Option.elim_some, validate]

theorem output_of_lines (printer : Printer) {settings : Settings} {typed : List UInt8}
    {texts : List (List Char)} (h : Text.lines typed = texts.map encode)
    (hfits : ∀ text ∈ texts,
      Text.Utf8.size (Text.trimEnd Batch.isLineEnd text) ≤ settings.lineLimit) :
    (Batch.faultless printer settings typed).output = encode (texts.flatMap answer) := by
  rw [Batch.faultless_output, Batch.entries, h, List.map_map, encode, List.flatMap_assoc,
    List.flatMap_map]
  exact List.flatMap_congr fun text htext => output_ofLine_encode (hfits text htext)

/-- A session writes its banner, then a prompt and an answer for each line up to one that ends it,
and then a prompt and its last words. A run over the lines with an answer writes these answers, if its
limit is not below any of the lines. -/
theorem session_agrees (printer : Printer) (bytes : List UInt8) :
    ∃ (texts : List (List Char)) (others : List (List UInt8)) (words : List Char),
      Text.lines bytes = texts.map encode ++ others ∧
      (∀ text ∈ texts, Text.trim Text.isBlank text ∉ farewells) ∧ Ending others words ∧
      (Program.session printer bytes).output =
        encode ((banner Program.name Program.version).toList ++
          (texts.flatMap fun text => prompt.toList ++ answer text) ++ prompt.toList ++ words) ∧
      (∃ typed, typed <+: bytes ∧ Text.lines typed = texts.map encode) ∧
      ∀ settings typed, Text.lines typed = texts.map encode →
        (∀ text ∈ texts,
          Text.Utf8.size (Text.trimEnd Batch.isLineEnd text) ≤ settings.lineLimit) →
        (Batch.faultless printer settings typed).output = encode (texts.flatMap answer) := by
  obtain ⟨texts, others, words, hlines, htexts, hending⟩ := exists_ending (Text.lines bytes)
  refine ⟨texts, others, words, hlines, htexts, hending, ?_,
    Text.exists_prefix_of_lines hlines, fun _ _ => output_of_lines printer⟩
  have houtput : (output printer bytes).toList = transcript printer (Text.lines bytes) := by
    rw [output, String.toList_join, List.flatMap_map]
    rfl
  rw [Program.session, Program.Response.ofText, String.toList_append, houtput, hlines,
    transcript_append printer htexts, transcript_ending printer hending]
  simp only [List.append_assoc]

/-- A blank line has no answer, and space outside ASCII around a farewell is no part of it. -/
example : (Program.session (·.label.message) (encode "a = 1 \n\t\n\u00a0quit \nb".toList)).output =
    encode ((banner "exprcheck" "0.1.0").toList ++ "> a = 1 -- valid\n> > Goodbye!\n".toList) := by
  decide +kernel

end ArithLines.Session
