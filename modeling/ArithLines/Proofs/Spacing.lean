import ArithLines.Proofs.Layout
import ArithLines.Proofs.Tree.Listing
import Mathlib.Data.List.Chain

/-! Texts in which lexemes stand with any line space around them, or with none. Where no two words
are neighbours the lexemes cannot run into each other, and the text has the tokens that it was made
of. -/

namespace ArithLines

/-- The lexemes stand in the text in this order, with nothing but line space around them. -/
inductive Spaced : List (List Char) → List Char → Prop
  | space {text : List Char} : (∀ c ∈ text, isLineSpace c = true) → Spaced [] text
  | lexeme {gap lexeme text : List Char} {lexemes : List (List Char)} :
      (∀ c ∈ gap, isLineSpace c = true) → Spaced lexemes text →
      Spaced (lexeme :: lexemes) (gap ++ (lexeme ++ text))

/-- A letter or `_`, and then letters, digits and `_`. -/
def IsName (text : List Char) : Prop :=
  ∃ first rest, text = first :: rest ∧ isNameStart first = true ∧ ∀ c ∈ rest, isNameChar c = true

/-- One digit or more. -/
def AreDigits (text : List Char) : Prop := text ≠ [] ∧ ∀ c ∈ text, c.isDigit = true

/-- Digits, or digits, a point and digits. -/
def IsNumber (text : List Char) : Prop :=
  AreDigits text ∨
    ∃ whole fraction, text = whole ++ '.' :: fraction ∧ AreDigits whole ∧ AreDigits fraction

/-! ### The classes of characters -/

theorem isDigit_of_isAlpha {c : Char} (h : c.isAlpha = true) : c.isDigit = false := by
  by_contra hdigit
  have hdigits := Bool.and_eq_true_iff.mp (Bool.of_not_eq_false hdigit)
  have hlast : c.val.toNat ≤ 57 := UInt32.le_iff_toNat_le.mp (of_decide_eq_true hdigits.2)
  rcases Bool.or_eq_true_iff.mp h with hupper | hlower
  · have hfirst : 65 ≤ c.val.toNat := UInt32.le_iff_toNat_le.mp (of_decide_eq_true hupper).1
    omega
  · have hletters := Bool.and_eq_true_iff.mp hlower
    have hfirst : 97 ≤ c.val.toNat := UInt32.le_iff_toNat_le.mp (of_decide_eq_true hletters.1)
    omega

theorem isNumberChar_of_isNameStart {c : Char} (h : isNameStart c = true) :
    isNumberChar c = false := by
  rcases Bool.or_eq_true_iff.mp h with halpha | hunderscore
  · have hpoint : c ≠ '.' := by
      rintro rfl
      exact absurd halpha (by decide)
    simp [isNumberChar, isDigit_of_isAlpha halpha, hpoint]
  · obtain rfl := beq_iff_eq.mp hunderscore
    decide

theorem isNameChar_of_isNameStart {c : Char} (h : isNameStart c = true) : isNameChar c = true := by
  rcases Bool.or_eq_true_iff.mp h with halpha | hunderscore
  · simp [isNameChar, Char.isAlphanum, halpha]
  · simp [isNameChar, beq_iff_eq.mp hunderscore]

theorem not_endsWord_of_isNumberChar {c : Char} (h : isNumberChar c = true) :
    endsWord c = false := by
  by_contra hends
  rw [(isNameChar_of_endsWord (by simpa using hends)).2] at h
  exact nomatch h

theorem not_endsWord_of_isNameStart {c : Char} (h : isNameStart c = true) : endsWord c = false := by
  by_contra hends
  have hname := isNameChar_of_isNameStart h
  rw [(isNameChar_of_endsWord (by simpa using hends)).1] at hname
  exact nomatch hname

theorem endsWord_eq_false_iff {c : Char} :
    endsWord c = false ↔ isLineSpace c = false ∧ Kind.ofPunctuation? c = none := by
  simp [endsWord, Bool.or_eq_false_iff]

theorem isLineSpace_of_punctuation {c : Char} (h : (Kind.ofPunctuation? c).isSome = true) :
    isLineSpace c = false := by
  unfold Kind.ofPunctuation? at h
  split at h <;> first | decide | simp at h

/-! ### Items that a text can have -/

theorem AreDigits.isNumberChar {text : List Char} (h : AreDigits text) :
    ∀ c ∈ text, isNumberChar c = true := by
  intro c hc
  simp [ArithLines.isNumberChar, h.2 c hc]

namespace IsNumber

variable {text : List Char}

theorem ne_nil (h : IsNumber text) : text ≠ [] := by
  rcases h with h | ⟨whole, fraction, rfl, -, -⟩
  · exact h.1
  · simp

theorem isNumberChar (h : IsNumber text) : ∀ c ∈ text, isNumberChar c = true := by
  rcases h with h | ⟨whole, fraction, rfl, hwhole, hfraction⟩
  · exact h.isNumberChar
  · simp only [List.mem_append, List.mem_cons]
    rintro c (hc | rfl | hc)
    · exact hwhole.isNumberChar c hc
    · rfl
    · exact hfraction.isNumberChar c hc

theorem isNumeral (h : IsNumber text) : isNumeral text = true := by
  rcases h with h | ⟨whole, fraction, rfl, hwhole, hfraction⟩
  · have hrest : text.dropWhile Char.isDigit = [] := by simpa using h.2
    rw [ArithLines.isNumeral, hrest]
    simpa using h.1
  · have hdrop : (whole ++ '.' :: fraction).dropWhile Char.isDigit = '.' :: fraction := by
      rw [List.dropWhile_append_of_pos hwhole.2]
      rfl
    have htake : (whole ++ '.' :: fraction).takeWhile Char.isDigit = whole :=
      takeWhile_append_of_head? hwhole.2 (by simp)
    rw [ArithLines.isNumeral, hdrop]
    simp only [htake]
    simpa using ⟨⟨hwhole.1, hfraction.1⟩, hfraction.2⟩

end IsNumber

theorem isNumber_of_isNumeral {text : List Char} (h : isNumeral text = true) : IsNumber text := by
  have hsplit : text.takeWhile Char.isDigit ++ text.dropWhile Char.isDigit = text :=
    List.takeWhile_append_dropWhile
  have hwhole : ∀ c ∈ text.takeWhile Char.isDigit, c.isDigit = true :=
    fun c hc => List.mem_takeWhile_imp hc
  unfold isNumeral at h
  split at h
  · next hrest =>
    rw [hrest, List.append_nil] at hsplit
    rw [hsplit] at hwhole
    exact .inl ⟨by simpa using h, hwhole⟩
  · next point fraction hrest =>
    simp only [Bool.and_eq_true, bne_iff_ne, beq_iff_eq, List.all_eq_true] at h
    obtain ⟨⟨⟨hne, rfl⟩, hfraction⟩, hdigits⟩ := h
    exact .inr ⟨_, fraction, by rw [← hrest, hsplit], ⟨hne, hwhole⟩, hfraction, hdigits⟩

/-! ### Words as lexemes -/

section Continues

variable {first : Char}

theorem continues_of_isNumberChar (h : isNumberChar first = true) (c : Char) :
    continues first c = isNumberChar c := by
  simp [continues, h]

theorem continues_of_isNameStart (h : isNameStart first = true) (c : Char) :
    continues first c = isNameChar c := by
  simp [continues, isNumberChar_of_isNameStart h, h]

end Continues

theorem WholeLexeme.of_name {text following : List Char} (h : IsName text)
    (hends : ∀ c ∈ following.head?, isNameChar c = false) : WholeLexeme text following := by
  obtain ⟨first, rest, rfl, hfirst, hrest⟩ := h
  have hspace := (endsWord_eq_false_iff.mp (not_endsWord_of_isNameStart hfirst)).1
  refine ⟨first, rest, rfl, hspace, fun c hc => ?_, fun c hc => ?_⟩
  · rw [continues_of_isNameStart hfirst, hrest c hc]
  · rw [continues_of_isNameStart hfirst, hends c hc]

section Run

variable {text following : List Char} (hne : text ≠ []) (hrun : ∀ c ∈ text, isNumberChar c = true)

include hne hrun

theorem WholeLexeme.of_run (hends : ∀ c ∈ following.head?, isNumberChar c = false) :
    WholeLexeme text following := by
  cases text with
  | nil => exact absurd rfl hne
  | cons first rest =>
    have hfirst := hrun first (by simp)
    have hspace := (endsWord_eq_false_iff.mp (not_endsWord_of_isNumberChar hfirst)).1
    refine ⟨first, rest, rfl, hspace, fun c hc => ?_, fun c hc => ?_⟩
    · rw [continues_of_isNumberChar hfirst, hrun c (by simp [hc])]
    · rw [continues_of_isNumberChar hfirst, hends c hc]

theorem Kind.ofLexeme_of_run :
    Kind.ofLexeme text = if isNumeral text then .number else .invalid := by
  cases text with
  | nil => exact absurd rfl hne
  | cons first rest =>
    have hfirst := hrun first (by simp)
    have hmark := (endsWord_eq_false_iff.mp (not_endsWord_of_isNumberChar hfirst)).2
    simp [Kind.ofLexeme, hmark, hfirst]

end Run

namespace Item

/-- The item is a mark of a single character, a number or a name. -/
inductive Proper : Item → Prop
  | mark {c : Char} {kind : Kind} : Kind.ofPunctuation? c = some kind → Proper ⟨kind, [c]⟩
  | number {text : List Char} : IsNumber text → Proper ⟨.number, text⟩
  | name {text : List Char} : IsName text → Proper ⟨.identifier, text⟩

def isWord (item : Item) : Bool := item.kind = .number || item.kind = .identifier

/-- Of two items that may be neighbours one is no word. -/
def Apart (first second : Item) : Prop := first.isWord = false ∨ second.isWord = false

theorem isWord_ofOperator (operator : Operator) : (ofOperator operator).isWord = false := by
  cases operator <;> rfl

theorem apart_cons {item : Item} {items : List Item} (h : items.IsChain Apart)
    (hword : item.isWord = false) : (item :: items).IsChain Apart := by
  cases items with
  | nil => exact .singleton item
  | cons next items => exact .cons_cons (.inl hword) h

theorem apart_append {item : Item} {before items : List Item} (hbefore : before.IsChain Apart)
    (h : items.IsChain Apart) (hword : item.isWord = false) :
    (before ++ item :: items).IsChain Apart := by
  refine List.isChain_append.mpr ⟨hbefore, apart_cons h hword, fun last _ next hnext => ?_⟩
  obtain rfl : item = next := by simpa using hnext
  exact .inr hword

namespace Proper

variable {item : Item}

theorem ofLexeme (h : item.Proper) : Kind.ofLexeme item.lexeme = item.kind := by
  cases h with
  | mark hkind => simp [Kind.ofLexeme, hkind]
  | number h => rw [Kind.ofLexeme_of_run h.ne_nil h.isNumberChar, if_pos h.isNumeral]
  | name h =>
    obtain ⟨first, rest, rfl, hfirst, -⟩ := h
    have hmark := (endsWord_eq_false_iff.mp (not_endsWord_of_isNameStart hfirst)).2
    simp [Kind.ofLexeme, hmark, hfirst, isNumberChar_of_isNameStart hfirst]

/-- The item is a whole lexeme before anything that may come after it. -/
theorem whole (h : item.Proper) {following : List Char}
    (hafter : ∀ c ∈ following.head?, item.isWord = false ∨ endsWord c = true) :
    WholeLexeme item.lexeme following := by
  cases h with
  | @mark c kind hkind =>
    have hmark : (Kind.ofPunctuation? c).isSome = true := by simp [hkind]
    exact ⟨c, [], rfl, isLineSpace_of_punctuation hmark, by simp,
      fun next _ => continues_of_punctuation hmark next⟩
  | number h =>
    refine .of_run h.ne_nil h.isNumberChar fun c hc => ?_
    exact (isNameChar_of_endsWord ((hafter c hc).resolve_left (by simp [isWord]))).2
  | name h =>
    refine .of_name h fun c hc => ?_
    exact (isNameChar_of_endsWord ((hafter c hc).resolve_left (by simp [isWord]))).1

/-- An item that is no word begins with a character that ends words. -/
theorem endsWord_head (h : item.Proper) (hword : item.isWord = false) :
    ∀ c ∈ item.lexeme.head?, endsWord c = true := by
  cases h with
  | mark hkind => simp [endsWord, hkind]
  | number | name => simp [isWord] at hword

theorem lexeme_ne_nil (h : item.Proper) : item.lexeme ≠ [] := by
  cases h with
  | mark => simp
  | number h => exact h.ne_nil
  | name h =>
    obtain ⟨first, rest, rfl, -⟩ := h
    simp

end Proper

end Item

namespace Spaced

variable {items : List Item} {text : List Char}

/-- The text begins with line space or with its first item. -/
theorem head? {item : Item} (h : Spaced ((item :: items).map Item.lexeme) text)
    (hproper : item.Proper) :
    ∀ c ∈ text.head?, isLineSpace c = true ∨ c ∈ item.lexeme.head? := by
  cases h with
  | @lexeme gap _ text _ hgap _ =>
    intro c hc
    cases gap with
    | cons first gap =>
      obtain rfl : first = c := by simpa using hc
      exact .inl (hgap first (by simp))
    | nil =>
      have hlexeme := hproper.lexeme_ne_nil
      rw [List.nil_append, List.head?_append_of_ne_nil _ hlexeme] at hc
      exact .inr hc

/-- What comes after an item and may be its neighbour ends it, if it is a word. -/
theorem ends {item : Item} (h : Spaced (items.map Item.lexeme) text)
    (hproper : ∀ item ∈ items, item.Proper) (hapart : (item :: items).IsChain Item.Apart) :
    ∀ c ∈ text.head?, item.isWord = false ∨ endsWord c = true := by
  intro c hc
  cases items with
  | nil =>
    cases h with
    | space hspace =>
      have hmem := List.mem_of_mem_head? hc
      exact .inr (by simp [endsWord, hspace c hmem])
  | cons next items =>
    have hnext := hproper next (by simp)
    rcases h.head? hnext c hc with hspace | hhead
    · exact .inr (by simp [endsWord, hspace])
    · rcases (List.isChain_cons_cons.mp hapart).1 with hword | hword
      · exact .inl hword
      · exact .inr (hnext.endsWord_head hword c hhead)

/-- A text made of proper items has them as its tokens, however they are spaced. -/
theorem layout (h : Spaced (items.map Item.lexeme) text) (hproper : ∀ item ∈ items, item.Proper)
    (hapart : items.IsChain Item.Apart) (position : Nat) :
    ∃ tokens, Layout position text tokens ∧ tokens.map Token.item = items := by
  induction items generalizing text position with
  | nil =>
    cases h with
    | space hspace => exact ⟨[], .space hspace, rfl⟩
  | cons item items ih =>
    cases h with
    | @lexeme gap _ text _ hgap htext =>
      have hrest : ∀ item ∈ items, item.Proper := fun item hitem => hproper item (by simp [hitem])
      have hitem := hproper item (by simp)
      have hwhole := hitem.whole (htext.ends hrest hapart)
      obtain ⟨tokens, hlayout, hitems⟩ :=
        ih htext hrest hapart.tail (position + gap.length + item.lexeme.length)
      refine ⟨_, .token hgap hwhole hlayout, ?_⟩
      rw [List.map_cons, hitems, Token.item, hitem.ofLexeme]

end Spaced

end ArithLines
