import ArithLines.Token

/-! Reading the tokens of a line one at a time. A cursor holds the characters not yet read;
`Cursor.next` skips the space before a token and takes the longest lexeme that begins there.
`Cursor.tokens` is the list of all tokens that are left. -/

namespace ArithLines

/-- The characters that may stand between tokens. Space outside ASCII is not among them. -/
def lineSpaces : List Char := [' ', '\t', '\n', '\r', '\x0b', '\x0c']

def isLineSpace (c : Char) : Bool := lineSpaces.contains c

def isNumberChar (c : Char) : Bool := c.isDigit || c == '.'

def isNameStart (c : Char) : Bool := c.isAlpha || c == '_'

def isNameChar (c : Char) : Bool := c.isAlphanum || c == '_'

/-- A number is digits, or digits, a point and digits. -/
def isNumeral (text : List Char) : Bool :=
  match text.dropWhile Char.isDigit with
  | [] => text != []
  | point :: fraction =>
    text.takeWhile Char.isDigit != [] && point == '.' && fraction != [] && fraction.all Char.isDigit

/-- The kind of the token with this lexeme, which its first character and, for a run of digits and
points, its form determine. -/
def Kind.ofLexeme (lexeme : List Char) : Kind :=
  match lexeme.head? with
  | none => .invalid
  | some c =>
    match Kind.ofPunctuation? c with
    | some kind => kind
    | none =>
      if isNumberChar c then if isNumeral lexeme then .number else .invalid
      else if isNameStart c then .identifier
      else .invalid

def longestLexeme (c : Char) (following : List Char) : List Char :=
  if isNumberChar c then c :: following.takeWhile isNumberChar
  else if isNameStart c then c :: following.takeWhile isNameChar
  else [c]

theorem Kind.ofPunctuation?_ne_endOfLine (c : Char) : ofPunctuation? c ≠ some .endOfLine := by
  unfold ofPunctuation?; split <;> simp

theorem Kind.ofLexeme_ne_endOfLine (lexeme : List Char) : ofLexeme lexeme ≠ .endOfLine := by
  unfold ofLexeme
  split
  · simp
  · split
    · intro h
      subst h
      exact ofPunctuation?_ne_endOfLine _ ‹_›
    · repeat' split
      all_goals simp

theorem longestLexeme_prefix (c : Char) (following : List Char) :
    longestLexeme c following <+: c :: following := by
  unfold longestLexeme
  repeat' split
  · exact List.cons_prefix_cons.mpr ⟨rfl, List.takeWhile_prefix _⟩
  · exact List.cons_prefix_cons.mpr ⟨rfl, List.takeWhile_prefix _⟩
  · exact ⟨following, rfl⟩

theorem longestLexeme_length_pos (c : Char) (following : List Char) :
    0 < (longestLexeme c following).length := by
  unfold longestLexeme
  repeat' split
  all_goals simp

/-- The characters of a line from `position` on. -/
structure Cursor where
  position : Nat
  rest : List Char
deriving DecidableEq

namespace Cursor

def ofLine (line : List Char) : Cursor := ⟨0, line⟩

def skip (cursor : Cursor) (count : Nat) : Cursor :=
  ⟨cursor.position + count, cursor.rest.drop count⟩

def skipSpace (cursor : Cursor) : Cursor :=
  cursor.skip (cursor.rest.takeWhile isLineSpace).length

/-- The token at the cursor, taken to stand at no space, and the cursor past it. At the end of the
line it is the token of that end, however often it is asked for. -/
def take (cursor : Cursor) : Token × Cursor :=
  match cursor.rest with
  | [] => (.endOfLine cursor.position, cursor)
  | c :: following =>
    let lexeme := longestLexeme c following
    let past := cursor.skip lexeme.length
    (⟨.ofLexeme lexeme, lexeme, ⟨cursor.position, past.position⟩⟩, past)

def next (cursor : Cursor) : Token × Cursor := cursor.skipSpace.take

theorem skipSpace_length_le (cursor : Cursor) :
    cursor.skipSpace.rest.length ≤ cursor.rest.length := by
  simp [skipSpace, skip]

theorem take_length (cursor : Cursor) :
    cursor.take.2.rest.length + cursor.take.1.weight ≤ cursor.rest.length := by
  unfold take
  split
  · simp
  · next c following h =>
    have := longestLexeme_length_pos c following
    exact Nat.le_trans (Nat.add_le_add_left (Token.weight_le_one _) _) (by simp [skip, h]; omega)

theorem next_length (cursor : Cursor) :
    cursor.next.2.rest.length + cursor.next.1.weight ≤ cursor.rest.length :=
  Nat.le_trans (take_length _) (skipSpace_length_le _)

theorem next_length_lt {cursor : Cursor} (h : cursor.next.1.kind ≠ .endOfLine) :
    cursor.next.2.rest.length < cursor.rest.length := by
  have := next_length cursor
  rw [Token.weight_eq_one h] at this
  omega

/-- The tokens that are left, without the end of the line. -/
def tokens (cursor : Cursor) : List Token :=
  if _ : cursor.next.1.kind = .endOfLine then []
  else cursor.next.1 :: tokens cursor.next.2
termination_by cursor.rest.length
decreasing_by exact next_length_lt ‹_›

end Cursor

/-- The tokens of a line, the end of the line last. -/
def tokens (line : List Char) : List Token :=
  (Cursor.ofLine line).tokens ++ [.endOfLine line.length]

end ArithLines
