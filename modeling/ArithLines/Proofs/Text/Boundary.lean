import ArithLines.Proofs.Text.Shortening

/-! The place of a cut among the bytes of a text. A search downwards from the limit, which looks at
the bytes alone, finds it and never has to go below zero. Main statement: what is cut off is no more
than the limit demands, and cuts one after the other come to the cut at the smaller limit. -/

namespace ArithLines.Text

/-- Whether the offset is the end of the bytes, or that of a byte which begins a character. -/
def splitsAt (bytes : List UInt8) (offset : Nat) : Bool :=
  offset = bytes.length || bytes[offset]?.any fun byte => byte.IsUTF8FirstByte

/-- The first offset for which `stop` holds on the way down, if there is one before the search
would have to go below zero. -/
def searchDown? (stop : Nat → Bool) : Nat → Option Nat
  | 0 => if stop 0 then some 0 else none
  | n + 1 => if stop (n + 1) then some (n + 1) else searchDown? stop n

section Bytes

variable (text : List Char) (n : Nat)

theorem splitsAt_nil : splitsAt [] n = decide (n = 0) := by
  simp [splitsAt]

/-- The bytes of a character can be split only in front of it. -/
theorem splitsAt_encode_of_lt {c : Char} (h : n < c.utf8Size) :
    splitsAt (Utf8.encode (c :: text)) n = decide (n = 0) := by
  have hlength := String.length_utf8EncodeChar c
  have hbyte : (Utf8.encode (c :: text))[n]? = (String.utf8EncodeChar c)[n]? :=
    List.getElem?_append_left (by omega)
  have hshort : n ≠ (Utf8.encode (c :: text)).length := by
    rw [Utf8.length_encode, Utf8.size_cons]
    omega
  rw [splitsAt, hbyte, List.getElem?_eq_getElem (by omega)]
  simp [hshort]

theorem splitsAt_encode_add (c : Char) :
    splitsAt (Utf8.encode (c :: text)) (c.utf8Size + n) = splitsAt (Utf8.encode text) n := by
  have hlength := String.length_utf8EncodeChar c
  have hbyte : (Utf8.encode (c :: text))[c.utf8Size + n]? = (Utf8.encode text)[n]? := by
    rw [Utf8.encode, List.flatMap_cons, List.getElem?_append_right (by omega), hlength,
      Nat.add_sub_cancel_left]
    rfl
  rw [splitsAt, splitsAt, hbyte, Utf8.length_encode, Utf8.length_encode, Utf8.size_cons]
  simp only [Nat.add_left_cancel_iff]

theorem splitsAt_encode_zero : splitsAt (Utf8.encode text) 0 = true := by
  cases text with
  | nil => rfl
  | cons c text =>
    rw [splitsAt_encode_of_lt text 0 c.utf8Size_pos]
    rfl

/-- The bytes tell where the boundaries between the characters are. -/
theorem splitsAt_encode : splitsAt (Utf8.encode text) n = isBoundary text n := by
  fun_induction isBoundary text n with
  | case1 text => exact splitsAt_encode_zero text
  | case2 n => exact splitsAt_nil (n + 1)
  | case3 c text n ih =>
    by_cases h : c.utf8Size ≤ n + 1
    · have hadd := splitsAt_encode_add text (n + 1 - c.utf8Size) c
      rw [Nat.add_sub_cancel' h, ih] at hadd
      simpa [h] using hadd
    · have hinside := splitsAt_encode_of_lt text (n + 1) (Nat.lt_of_not_le h)
      simpa [h] using hinside

theorem searchDown?_isBoundary :
    searchDown? (isBoundary text) n = some (boundaryBelow text n) := by
  fun_induction boundaryBelow text n with
  | case1 => exact if_pos (isBoundary_iff.mpr ⟨[], List.nil_prefix, rfl⟩)
  | case2 n h => rw [searchDown?, if_pos h]
  | case3 n h ih => rw [searchDown?, if_neg h, ih]

end Bytes

section Laws

variable {limit : Nat} {text : List Char}

theorem cut_eq_self_iff : cut limit text = text ↔ Utf8.size text ≤ limit := by
  constructor
  · intro h
    have hsize := (longestWithin_cut limit text).size_le
    rwa [h] at hsize
  · exact cut_of_size_le

theorem encode_cut (h : limit < Utf8.size text) :
    Utf8.encode (cut limit text) = (Utf8.encode text).take (boundaryBelow text limit) := by
  obtain ⟨kept, ⟨tail, htail⟩, hsize⟩ := isBoundary_iff.mp (isBoundary_boundaryBelow text limit)
  have hcut : cut limit text = kept := by
    rw [cut, if_neg (Nat.not_le_of_lt h), ← hsize, takeBytes_size ⟨tail, htail⟩]
  rw [hcut, ← hsize, ← htail, Utf8.encode_append, ← Utf8.length_encode, List.take_left]

/-- The next character does not fit, and it has no more than four bytes. -/
theorem le_size_cut (h : limit < Utf8.size text) : limit ≤ Utf8.size (cut limit text) + 3 := by
  have hcut := longestWithin_cut limit text
  obtain ⟨tail, htail⟩ := hcut.isPrefix
  cases tail with
  | nil =>
    have hsize := hcut.size_le
    rw [← htail, List.append_nil] at h
    omega
  | cons c tail =>
    have hnext : ¬Utf8.size (cut limit text ++ [c]) ≤ limit := by
      intro hfits
      have hlength := (hcut.longest _ ⟨tail, by simpa using htail⟩ hfits).length_le
      rw [List.length_append, List.length_singleton] at hlength
      omega
    have hwidth := c.utf8Size_le_four
    rw [Utf8.size_append, Utf8.size_cons, Utf8.size_nil] at hnext
    omega

theorem cut_cut (limit other : Nat) (text : List Char) :
    cut other (cut limit text) = cut (min limit other) text := by
  have hcut := longestWithin_cut limit text
  have hboth := longestWithin_cut (min limit other) text
  have hsize := hboth.size_le
  apply LongestWithin.cut_eq
  refine ⟨hcut.longest _ hboth.isPrefix (by omega), by omega, fun kept hkept hfits => ?_⟩
  have hwithin := size_le_of_prefix hkept
  have hlimit := hcut.size_le
  exact hboth.longest kept (hkept.trans hcut.isPrefix) (by omega)

end Laws

/-- The search for the place of a cut ends at the limit or below it and never has to go below zero.
The text is kept up to there, which is its longest beginning of whole characters that fits the limit:
all of it exactly if it fits, and otherwise at most three bytes less than the limit. A second cut at
the same limit changes nothing, and one at another limit leaves what a cut at the smaller of the two
would have left. -/
theorem cut_at_boundary (limit : Nat) (text : List Char) :
    searchDown? (splitsAt (Utf8.encode text)) limit = some (boundaryBelow text limit) ∧
    boundaryBelow text limit ≤ limit ∧
    (limit < Utf8.size text →
      Utf8.encode (cut limit text) = (Utf8.encode text).take (boundaryBelow text limit)) ∧
    LongestWithin limit text (cut limit text) ∧
    (cut limit text = text ↔ Utf8.size text ≤ limit) ∧
    (limit < Utf8.size text → limit ≤ Utf8.size (cut limit text) + 3) ∧
    cut limit (cut limit text) = cut limit text ∧
    ∀ other, cut other (cut limit text) = cut (min limit other) text := by
  have hsplits : splitsAt (Utf8.encode text) = isBoundary text := funext (splitsAt_encode text)
  have hsearch := searchDown?_isBoundary text limit
  have hagain := cut_cut limit limit text
  rw [← hsplits] at hsearch
  rw [Nat.min_self] at hagain
  exact ⟨hsearch, boundaryBelow_le text limit, encode_cut, longestWithin_cut limit text,
    cut_eq_self_iff, le_size_cut, hagain, fun other => cut_cut limit other text⟩

/-- The second byte of a character is no place for a cut. -/
example : cut 2 ['a', 'é'] = ['a'] := by decide

end ArithLines.Text
