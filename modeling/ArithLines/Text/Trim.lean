/-! Trimming of characters from the ends of a text. -/

namespace ArithLines.Text

/-- The text without the characters at its end that satisfy `p`. -/
def trimEnd (p : Char → Bool) (text : List Char) : List Char :=
  (text.reverse.dropWhile p).reverse

def trim (p : Char → Bool) (text : List Char) : List Char :=
  trimEnd p (text.dropWhile p)

@[simp] theorem trimEnd_nil (p : Char → Bool) : trimEnd p [] = [] := rfl

theorem trimEnd_concat_of_pos {p : Char → Bool} {c : Char} (h : p c = true) (text : List Char) :
    trimEnd p (text ++ [c]) = trimEnd p text := by
  simp [trimEnd, h]

theorem trimEnd_concat_of_neg {p : Char → Bool} {c : Char} (h : p c = false) (text : List Char) :
    trimEnd p (text ++ [c]) = text ++ [c] := by
  simp [trimEnd, h]

theorem trimEnd_prefix (p : Char → Bool) (text : List Char) : trimEnd p text <+: text := by
  have h := List.dropWhile_suffix (l := text.reverse) p
  simpa [trimEnd] using List.reverse_prefix.mpr h

end ArithLines.Text
