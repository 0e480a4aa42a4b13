import ArithLines.Text.Utf8

/-! Cutting a text to a number of bytes without cutting a character. The cut is made at the last
boundary between characters that the limit allows. -/

namespace ArithLines.Text

/-- Whether the byte offset falls between two characters of the encoded text, or on one of its
ends. -/
def isBoundary : List Char → Nat → Bool
  | _, 0 => true
  | [], _ + 1 => false
  | c :: text, n + 1 => c.utf8Size ≤ n + 1 && isBoundary text (n + 1 - c.utf8Size)

/-- The last boundary at the offset or below it, found by a search downwards. -/
def boundaryBelow (text : List Char) : Nat → Nat
  | 0 => 0
  | n + 1 => if isBoundary text (n + 1) then n + 1 else boundaryBelow text n

/-- The characters that end at the byte offset or before it. -/
def takeBytes : List Char → Nat → List Char
  | [], _ => []
  | c :: text, n => if c.utf8Size ≤ n then c :: takeBytes text (n - c.utf8Size) else []

/-- The text itself if it fits into `limit` bytes, or else its characters up to the last boundary
within the limit. -/
def cut (limit : Nat) (text : List Char) : List Char :=
  if Utf8.size text ≤ limit then text else takeBytes text (boundaryBelow text limit)

theorem boundaryBelow_le (text : List Char) (n : Nat) : boundaryBelow text n ≤ n := by
  fun_induction boundaryBelow text n <;> omega

theorem cut_of_size_le {limit : Nat} {text : List Char} (h : Utf8.size text ≤ limit) :
    cut limit text = text := if_pos h

theorem takeBytes_prefix (text : List Char) (n : Nat) : takeBytes text n <+: text := by
  fun_induction takeBytes text n with
  | case1 => exact List.prefix_refl _
  | case2 c text n h ih => exact List.cons_prefix_cons.mpr ⟨rfl, ih⟩
  | case3 => exact List.nil_prefix

theorem cut_prefix (limit : Nat) (text : List Char) : cut limit text <+: text := by
  unfold cut
  split
  · exact List.prefix_refl _
  · exact takeBytes_prefix _ _

end ArithLines.Text
