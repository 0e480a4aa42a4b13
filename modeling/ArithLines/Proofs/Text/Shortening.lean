import ArithLines.Text.Cut
import ArithLines.Text.Trim
import Mathlib.Data.List.TakeWhile

/-! Texts made shorter at their ends. Main statements: trimming takes off the characters that may go
and no others, and a cut leaves the longest beginning of a text that fits the limit. -/

namespace ArithLines.Text

/-! ### Trimming -/

/-- `kept` is the text without the characters at its end that satisfy `p`. -/
structure Trimmed (p : Char → Bool) (text kept : List Char) : Prop where
  exists_tail : ∃ tail, text = kept ++ tail ∧ ∀ c ∈ tail, p c = true
  stops : ∀ c ∈ kept.getLast?, p c = false

section Trimming

variable {p q : Char → Bool} {text kept tail : List Char}

theorem trimEnd_append_of_all (h : ∀ c ∈ tail, p c = true) (text : List Char) :
    trimEnd p (text ++ tail) = trimEnd p text := by
  rw [trimEnd, List.reverse_append, List.dropWhile_append_of_pos, trimEnd]
  intro c hc
  exact h c (List.mem_reverse.mp hc)

theorem trimmed_trimEnd (p : Char → Bool) (text : List Char) : Trimmed p text (trimEnd p text) := by
  constructor
  · refine ⟨(text.reverse.takeWhile p).reverse, ?_, ?_⟩
    · rw [trimEnd, ← List.reverse_append, List.takeWhile_append_dropWhile, List.reverse_reverse]
    · intro c hc
      exact List.mem_takeWhile_imp (List.mem_reverse.mp hc)
  · intro c hc
    rw [trimEnd, List.getLast?_reverse, Option.mem_def] at hc
    have hnot := List.head?_dropWhile_not p text.reverse
    rw [hc] at hnot
    exact hnot

theorem Trimmed.trimEnd_eq (h : Trimmed p text kept) : trimEnd p text = kept := by
  obtain ⟨tail, rfl, htail⟩ := h.exists_tail
  rw [trimEnd_append_of_all htail]
  cases hlast : kept.getLast? with
  | none =>
    rw [List.getLast?_eq_none_iff.mp hlast]
    rfl
  | some c =>
    obtain ⟨before, rfl⟩ := List.getLast?_eq_some_iff.mp hlast
    exact trimEnd_concat_of_neg (h.stops c hlast) before

theorem trimEnd_eq_nil_iff : trimEnd p text = [] ↔ ∀ c ∈ text, p c = true := by
  constructor
  · intro h
    obtain ⟨tail, htext, htail⟩ := (trimmed_trimEnd p text).exists_tail
    rw [h, List.nil_append] at htext
    rw [htext]
    exact htail
  · intro h
    exact trimEnd_append_of_all h []

theorem all_trimEnd (p : Char → Bool) (text : List Char) : (trimEnd p text).all p = text.all p := by
  obtain ⟨tail, htext, htail⟩ := (trimmed_trimEnd p text).exists_tail
  have hall : (trimEnd p text ++ tail).all p = ((trimEnd p text).all p && tail.all p) :=
    List.all_append
  rw [← htext, List.all_eq_true.mpr htail, Bool.and_true] at hall
  exact hall.symm

theorem all_trimEnd_iff : (trimEnd p text).all p = true ↔ trimEnd p text = [] := by
  rw [all_trimEnd, List.all_eq_true, trimEnd_eq_nil_iff]

/-- What is trimmed for less is trimmed for more all the same. -/
theorem trimEnd_trimEnd (h : ∀ c, p c = true → q c = true) (text : List Char) :
    trimEnd q (trimEnd p text) = trimEnd q text := by
  obtain ⟨tail, htext, htail⟩ := (trimmed_trimEnd p text).exists_tail
  have heq := trimEnd_append_of_all (fun c hc => h c (htail c hc)) (trimEnd p text)
  rw [← htext] at heq
  exact heq.symm

theorem trim_eq_nil_of_all (h : ∀ c ∈ text, p c = true) : trim p text = [] := by
  rw [trim, List.dropWhile_eq_nil_iff.mpr h, trimEnd_nil]

theorem trim_trimEnd (h : ∀ c, p c = true → q c = true) (text : List Char) :
    trim q (trimEnd p text) = trim q text := by
  obtain ⟨tail, htext, htail⟩ := (trimmed_trimEnd p text).exists_tail
  have hall : ∀ c ∈ tail, q c = true := fun c hc => h c (htail c hc)
  generalize trimEnd p text = kept at htext
  rw [htext, trim, trim, List.dropWhile_append]
  split
  · next hkept =>
    rw [List.isEmpty_iff.mp hkept, List.dropWhile_eq_nil_iff.mpr hall]
  · exact (trimEnd_append_of_all hall _).symm

end Trimming

/-! ### Cutting -/

/-- `kept` is the longest beginning of the text that takes no more than `limit` bytes. -/
structure LongestWithin (limit : Nat) (text kept : List Char) : Prop where
  isPrefix : kept <+: text
  size_le : Utf8.size kept ≤ limit
  longest : ∀ other, other <+: text → Utf8.size other ≤ limit → other <+: kept

section Cutting

variable {limit m n : Nat} {text kept other : List Char}

theorem size_le_of_prefix (h : kept <+: text) : Utf8.size kept ≤ Utf8.size text := by
  obtain ⟨tail, rfl⟩ := h
  rw [Utf8.size_append]
  exact Nat.le_add_right _ _

/-- Of two beginnings of a text the one of fewer bytes begins the other. -/
theorem prefix_of_size_le (hkept : kept <+: text) (hother : other <+: text)
    (h : Utf8.size other ≤ Utf8.size kept) : other <+: kept := by
  rcases List.prefix_or_prefix_of_prefix hother hkept with hle | ⟨tail, rfl⟩
  · exact hle
  · cases tail with
    | nil => exact ⟨[], by simp⟩
    | cons c tail =>
      have hpos := c.utf8Size_pos
      rw [Utf8.size_append, Utf8.size_cons] at h
      omega

theorem isBoundary_iff : isBoundary text n = true ↔ ∃ kept, kept <+: text ∧ Utf8.size kept = n := by
  fun_induction isBoundary text n with
  | case1 text =>
    rw [eq_self, true_iff]
    exact ⟨[], List.nil_prefix, rfl⟩
  | case2 n =>
    constructor
    · simp
    · rintro ⟨kept, hkept, hsize⟩
      rw [List.prefix_nil.mp hkept] at hsize
      simp at hsize
  | case3 c text n ih =>
    rw [Bool.and_eq_true, decide_eq_true_eq, ih]
    constructor
    · rintro ⟨hle, kept, hkept, hsize⟩
      refine ⟨c :: kept, List.cons_prefix_cons.mpr ⟨rfl, hkept⟩, ?_⟩
      rw [Utf8.size_cons]
      omega
    · rintro ⟨kept, hkept, hsize⟩
      cases kept with
      | nil => simp at hsize
      | cons first kept =>
        obtain ⟨rfl, hrest⟩ := List.cons_prefix_cons.mp hkept
        rw [Utf8.size_cons] at hsize
        exact ⟨by omega, kept, hrest, by omega⟩

theorem takeBytes_size (h : kept <+: text) : takeBytes text (Utf8.size kept) = kept := by
  induction kept generalizing text with
  | nil =>
    cases text with
    | nil => rfl
    | cons c text =>
      have hpos := c.utf8Size_pos
      rw [Utf8.size_nil, takeBytes, if_neg (by omega)]
  | cons c kept ih =>
    obtain ⟨tail, rfl⟩ := h
    rw [List.cons_append, Utf8.size_cons, takeBytes, if_pos (Nat.le_add_right _ _),
      Nat.add_sub_cancel_left, ih (List.prefix_append kept tail)]

theorem isBoundary_boundaryBelow (text : List Char) (n : Nat) :
    isBoundary text (boundaryBelow text n) = true := by
  fun_induction boundaryBelow text n with
  | case1 => exact isBoundary_iff.mpr ⟨[], List.nil_prefix, rfl⟩
  | case2 n h => exact h
  | case3 n h ih => exact ih

theorem le_boundaryBelow (h : isBoundary text m = true) (hle : m ≤ n) :
    m ≤ boundaryBelow text n := by
  fun_induction boundaryBelow text n with
  | case1 => exact hle
  | case2 n hn => exact hle
  | case3 n hn ih =>
    apply ih
    have hne : m ≠ n + 1 := by
      rintro rfl
      exact hn h
    omega

theorem longestWithin_cut (limit : Nat) (text : List Char) :
    LongestWithin limit text (cut limit text) := by
  rw [cut]
  split
  · next hfits => exact ⟨List.prefix_refl text, hfits, fun other hother _ => hother⟩
  · obtain ⟨kept, hkept, hsize⟩ := isBoundary_iff.mp (isBoundary_boundaryBelow text limit)
    rw [← hsize, takeBytes_size hkept]
    refine ⟨hkept, ?_, fun other hother hfits => ?_⟩
    · rw [hsize]
      exact boundaryBelow_le text limit
    · apply prefix_of_size_le hkept hother
      rw [hsize]
      exact le_boundaryBelow (isBoundary_iff.mpr ⟨other, hother, rfl⟩) hfits

theorem LongestWithin.cut_eq (h : LongestWithin limit text kept) : cut limit text = kept := by
  have hcut := longestWithin_cut limit text
  have hle := h.longest _ hcut.isPrefix hcut.size_le
  exact hle.eq_of_length_le (hcut.longest _ h.isPrefix h.size_le).length_le

theorem longestWithin_iff : LongestWithin limit text kept ↔ cut limit text = kept := by
  constructor
  · exact LongestWithin.cut_eq
  · rintro rfl
    exact longestWithin_cut limit text

/-- A text is made shorter exactly if it does not fit. -/
theorem size_cut_lt_iff : Utf8.size (cut limit text) < Utf8.size text ↔ limit < Utf8.size text := by
  constructor
  · intro hlt
    refine Nat.lt_of_not_le fun hfits => ?_
    rw [cut_of_size_le hfits] at hlt
    exact Nat.lt_irrefl _ hlt
  · exact Nat.lt_of_le_of_lt (longestWithin_cut limit text).size_le

end Cutting

end ArithLines.Text
