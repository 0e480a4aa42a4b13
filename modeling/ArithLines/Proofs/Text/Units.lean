import ArithLines.Proofs.Text.Utf8

/-! How bytes are taken for characters and errors, said without the reader. Where the encoding of a
character stands it is that character. Elsewhere the longest run of bytes with which the encoding of
some character begins is one error, or a single byte if there is no such run. Main statements: the
bytes are decoded so and can be taken apart so in one way only, and they are decoded without an error
only if they are the encoding of a text. -/

namespace ArithLines.Text.Utf8

/-- Some character is encoded by these bytes and at least one more. -/
def Begins (bytes : List UInt8) : Prop :=
  ∃ c more, more ≠ [] ∧ String.utf8EncodeChar c = bytes ++ more

/-- Bytes that are one error where `rest` comes after them. -/
structure Broken (bad rest : List UInt8) : Prop where
  nonempty : bad ≠ []
  unreadable : ∀ c, ¬ String.utf8EncodeChar c <+: bad ++ rest
  part : Begins bad ∨ bad.length = 1
  longest : ∀ other, other <+: bad ++ rest → Begins other → other.length ≤ bad.length

/-- The bytes taken apart into characters and errors, where `none` is an error. -/
inductive Reads : List UInt8 → List (Option Char) → Prop
  | nil : Reads [] []
  | char {bytes units} (c : Char) (rest : Reads bytes units) :
      Reads (String.utf8EncodeChar c ++ bytes) (some c :: units)
  | broken {bad bytes units} (h : Broken bad bytes) (rest : Reads bytes units) :
      Reads (bad ++ bytes) (none :: units)

/-! ### The bytes of a character that is read -/

section Bytes

variable {first second third fourth : UInt8}

theorem toNat_ofNat_of_isValid {n : Nat} (h : n.isValidChar) : (Char.ofNat n).val.toNat = n := by
  rw [Char.ofNat, dif_pos h]
  rfl

theorem ofNat_of_toNat {n : Nat} (byte : UInt8) (h : n = byte.toNat) : UInt8.ofNat n = byte := by
  rw [h, UInt8.ofNat_toNat]

theorem encodeChar_one (h : first.toNat ≤ 0x7f) :
    String.utf8EncodeChar (Char.ofNat first.toNat) = [first] := by
  rw [String.utf8EncodeChar, toNat_ofNat_of_isValid (.inl (by omega))]
  rw [if_pos h, ofNat_of_toNat first rfl]

theorem encodeChar_two (hlow : 0xc2 ≤ first.toNat) (hhigh : first.toNat ≤ 0xdf)
    (hsecond : 0x80 ≤ second.toNat ∧ second.toNat ≤ 0xbf) :
    String.utf8EncodeChar (Char.ofNat ((first.toNat - 0xc0) * 64 + (second.toNat - 0x80))) =
      [first, second] := by
  rw [String.utf8EncodeChar, toNat_ofNat_of_isValid (.inl (by omega))]
  rw [if_neg (by omega), if_pos (by omega), ofNat_of_toNat first (by omega),
    ofNat_of_toNat second (by omega)]

theorem encodeChar_three (hlow : 0xe0 ≤ first.toNat) (hhigh : first.toNat ≤ 0xef)
    (hsecond : (if first.toNat = 0xe0 then 0xa0 else 0x80) ≤ second.toNat ∧
      second.toNat ≤ if first.toNat = 0xed then 0x9f else 0xbf)
    (hthird : 0x80 ≤ third.toNat ∧ third.toNat ≤ 0xbf) :
    String.utf8EncodeChar (Char.ofNat (((first.toNat - 0xe0) * 64 + (second.toNat - 0x80)) * 64 +
      (third.toNat - 0x80))) = [first, second, third] := by
  have hrange : 0x80 ≤ second.toNat ∧ second.toNat ≤ 0xbf := by
    constructor
    · exact Nat.le_trans (by split <;> omega) hsecond.1
    · exact Nat.le_trans hsecond.2 (by split <;> omega)
  -- It takes all of its bytes, and is no surrogate.
  have hlong : first.toNat = 0xe0 → 0xa0 ≤ second.toNat := fun h => by
    rw [if_pos h] at hsecond
    exact hsecond.1
  have hplain : first.toNat = 0xed → second.toNat ≤ 0x9f := fun h => by
    rw [if_pos h] at hsecond
    exact hsecond.2
  rw [String.utf8EncodeChar, toNat_ofNat_of_isValid (by rw [Nat.isValidChar]; omega)]
  rw [if_neg (by omega), if_neg (by omega), if_pos (by omega), ofNat_of_toNat first (by omega),
    ofNat_of_toNat second (by omega), ofNat_of_toNat third (by omega)]

theorem encodeChar_four (hlow : 0xf0 ≤ first.toNat) (hhigh : first.toNat ≤ 0xf4)
    (hsecond : (if first.toNat = 0xf0 then 0x90 else 0x80) ≤ second.toNat ∧
      second.toNat ≤ if first.toNat = 0xf4 then 0x8f else 0xbf)
    (hthird : 0x80 ≤ third.toNat ∧ third.toNat ≤ 0xbf)
    (hfourth : 0x80 ≤ fourth.toNat ∧ fourth.toNat ≤ 0xbf) :
    String.utf8EncodeChar (Char.ofNat ((((first.toNat - 0xf0) * 64 + (second.toNat - 0x80)) * 64 +
      (third.toNat - 0x80)) * 64 + (fourth.toNat - 0x80))) = [first, second, third, fourth] := by
  have hrange : 0x80 ≤ second.toNat ∧ second.toNat ≤ 0xbf := by
    constructor
    · exact Nat.le_trans (by split <;> omega) hsecond.1
    · exact Nat.le_trans hsecond.2 (by split <;> omega)
  -- It takes all of its bytes, and is not past the last code point.
  have hlong : first.toNat = 0xf0 → 0x90 ≤ second.toNat := fun h => by
    rw [if_pos h] at hsecond
    exact hsecond.1
  have hlast : first.toNat = 0xf4 → second.toNat ≤ 0x8f := fun h => by
    rw [if_pos h] at hsecond
    exact hsecond.2
  rw [String.utf8EncodeChar, toNat_ofNat_of_isValid (by rw [Nat.isValidChar]; omega)]
  rw [if_neg (by omega), if_neg (by omega), if_neg (by omega), ofNat_of_toNat first (by omega),
    ofNat_of_toNat second (by omega), ofNat_of_toNat third (by omega),
    ofNat_of_toNat fourth (by omega)]

end Bytes

/-! ### Bytes that are read as a character -/

section Read

variable {opened : Opened} {value missing low high : Nat} {byte : UInt8} {bytes : List UInt8}
  {c : Char} {units : List (Option Char)}

theorem exists_next_of_decodeFrom (h : decodeFrom (some opened) bytes = some c :: units) :
    ∃ byte rest, bytes = byte :: rest ∧ opened.low ≤ byte.toNat ∧ byte.toNat ≤ opened.high := by
  cases bytes with
  | nil => simp [decodeFrom] at h
  | cons byte rest =>
    by_cases hrange : opened.low ≤ byte.toNat ∧ byte.toNat ≤ opened.high
    · exact ⟨byte, rest, rfl, hrange⟩
    · rw [decodeFrom_stop _ hrange] at h
      simp at h

theorem of_decodeFrom_last (h : decodeFrom (some ⟨value, 0, low, high⟩) bytes = some c :: units) :
    ∃ byte rest, bytes = byte :: rest ∧ (low ≤ byte.toNat ∧ byte.toNat ≤ high) ∧
      Char.ofNat (value * 64 + (byte.toNat - 0x80)) = c ∧ decode rest = units := by
  obtain ⟨byte, rest, rfl, hrange⟩ := exists_next_of_decodeFrom h
  rw [decodeFrom, step, if_pos hrange] at h
  obtain ⟨hc, hunits⟩ := List.cons.inj h
  exact ⟨byte, rest, rfl, hrange, Option.some.inj hc, hunits⟩

theorem of_decodeFrom_next
    (h : decodeFrom (some ⟨value, missing + 1, low, high⟩) bytes = some c :: units) :
    ∃ byte rest, bytes = byte :: rest ∧ (low ≤ byte.toNat ∧ byte.toNat ≤ high) ∧
      decodeFrom (some (.rest (value * 64 + (byte.toNat - 0x80)) missing)) rest =
        some c :: units := by
  obtain ⟨byte, rest, rfl, hrange⟩ := exists_next_of_decodeFrom h
  rw [decodeFrom, step, if_pos hrange] at h
  exact ⟨byte, rest, rfl, hrange, h⟩

/-- What is read as a character is its encoding. -/
theorem of_decode_char (h : decode bytes = some c :: units) :
    ∃ rest, bytes = String.utf8EncodeChar c ++ rest ∧ decode rest = units := by
  cases bytes with
  | nil => simp [decode, decodeFrom] at h
  | cons first bytes =>
    rw [decode, decodeFrom, step, start] at h
    split at h
    · next hone =>
      obtain ⟨hc, hunits⟩ := List.cons.inj h
      rw [← Option.some.inj hc, encodeChar_one hone]
      exact ⟨bytes, rfl, hunits⟩
    split at h
    · simp at h
    split at h
    · next hlow hhigh =>
      obtain ⟨second, rest, rfl, hsecond, rfl, hunits⟩ := of_decodeFrom_last h
      rw [encodeChar_two (Nat.not_lt.mp hlow) hhigh hsecond]
      exact ⟨rest, rfl, hunits⟩
    split at h
    · next hlow hhigh =>
      obtain ⟨second, rest, rfl, hsecond, h⟩ := of_decodeFrom_next h
      obtain ⟨third, rest, rfl, hthird, rfl, hunits⟩ := of_decodeFrom_last h
      rw [encodeChar_three (Nat.not_le.mp hlow) hhigh hsecond hthird]
      exact ⟨rest, rfl, hunits⟩
    split at h
    · next hlow hhigh =>
      obtain ⟨second, rest, rfl, hsecond, h⟩ := of_decodeFrom_next h
      obtain ⟨third, rest, rfl, hthird, h⟩ := of_decodeFrom_next h
      obtain ⟨fourth, rest, rfl, hfourth, rfl, hunits⟩ := of_decodeFrom_last h
      rw [encodeChar_four (Nat.not_le.mp hlow) hhigh hsecond hthird hfourth]
      exact ⟨rest, rfl, hunits⟩
    · simp at h

theorem decode_encodeChar_append (c : Char) (bytes : List UInt8) :
    decode (String.utf8EncodeChar c ++ bytes) = some c :: decode bytes :=
  decodeFrom_encodeChar c bytes

theorem decodeFrom_ne_nil (opened : Opened) (bytes : List UInt8) :
    decodeFrom (some opened) bytes ≠ [] := by
  induction bytes generalizing opened with
  | nil => simp [decodeFrom]
  | cons byte bytes ih =>
    by_cases hrange : opened.low ≤ byte.toNat ∧ byte.toNat ≤ opened.high
    · rw [decodeFrom, step, if_pos hrange]
      cases opened.missing with
      | zero => simp
      | succ missing => exact ih _
    · rw [decodeFrom_stop _ hrange]
      simp

end Read

/-! ### Bytes that are read as an error -/

/-- Some byte goes on with the character that is open. -/
structure Opened.GoesOn (opened : Opened) : Prop where
  low_le_high : opened.low ≤ opened.high
  high_lt : opened.high < 0x100

theorem Opened.goesOn_rest (value missing : Nat) : (Opened.rest value missing).GoesOn :=
  ⟨show 0x80 ≤ 0xbf by decide, show 0xbf < 0x100 by decide⟩

/-- When these bytes are read a character is open, and there is a byte that goes on with it. -/
structure Leads (read : List UInt8) (opened : Opened) : Prop where
  decode_append : ∀ bytes, decode (read ++ bytes) = decodeFrom (some opened) bytes
  goesOn : opened.GoesOn

section Error

variable {read bad rest bytes : List UInt8} {opened : Opened} {byte : UInt8} {c : Char}
  {units : List (Option Char)}

theorem start_cases (byte : UInt8) :
    (∃ c, start byte = ⟨[some c], none⟩) ∨ start byte = ⟨[none], none⟩ ∨
      ∃ opened, start byte = ⟨[], some opened⟩ ∧ opened.GoesOn := by
  rw [start]
  split
  · exact .inl ⟨_, rfl⟩
  split
  · exact .inr (.inl rfl)
  split
  · exact .inr (.inr ⟨_, rfl, Opened.goesOn_rest _ _⟩)
  split
  · refine .inr (.inr ⟨_, rfl, ?_, ?_⟩)
    · dsimp only
      split <;> split <;> omega
    · dsimp only
      split <;> omega
  split
  · refine .inr (.inr ⟨_, rfl, ?_, ?_⟩)
    · dsimp only
      split <;> split <;> omega
    · dsimp only
      split <;> omega
  · exact .inr (.inl rfl)

theorem leads_start (h : start byte = ⟨[], some opened⟩) (hopened : opened.GoesOn) :
    Leads [byte] opened := by
  refine ⟨fun bytes => ?_, hopened⟩
  rw [List.singleton_append, decode, decodeFrom, step, h]
  rfl

theorem Leads.next {value missing low high : Nat} (h : Leads read ⟨value, missing + 1, low, high⟩)
    (hbyte : low ≤ byte.toNat ∧ byte.toNat ≤ high) :
    Leads (read ++ [byte]) (.rest (value * 64 + (byte.toNat - 0x80)) missing) := by
  refine ⟨fun bytes => ?_, Opened.goesOn_rest _ _⟩
  rw [List.append_assoc, h.decode_append, List.singleton_append, decodeFrom, step, if_pos hbyte]
  rfl

/-- A character that is open can be completed. -/
theorem Opened.GoesOn.completion (h : opened.GoesOn) :
    ∃ bytes c, decodeFrom (some opened) bytes = [some c] := by
  obtain ⟨value, missing, low, high⟩ := opened
  have hlow : low < 0x100 := Nat.lt_of_le_of_lt h.low_le_high h.high_lt
  induction missing generalizing value low high with
  | zero => exact ⟨_, _, decodeFrom_last [] (Nat.le_refl low) h.low_le_high hlow⟩
  | succ missing ih =>
    obtain ⟨bytes, c, hbytes⟩ := ih (value * 64 + (low - 0x80)) 0x80 0xbf
      (Opened.goesOn_rest _ missing) (by decide)
    refine ⟨UInt8.ofNat low :: bytes, c, ?_⟩
    rw [decodeFrom_next _ (Nat.le_refl low) h.low_le_high hlow]
    exact hbytes

/-- Where nothing is left to read a character that is open is an error. -/
theorem decode_eq_nil (h : decode bytes = []) : bytes = [] := by
  cases bytes with
  | nil => rfl
  | cons byte bytes =>
    rw [decode, decodeFrom, step] at h
    obtain ⟨hunits, hopened⟩ := List.append_eq_nil_iff.mp h
    rcases start_cases byte with ⟨c, hstart⟩ | hstart | ⟨opened, hstart, -⟩
    · rw [hstart] at hunits
      simp at hunits
    · rw [hstart] at hunits
      simp at hunits
    · rw [hstart] at hopened
      exact absurd hopened (decodeFrom_ne_nil opened bytes)

theorem begins_of_decode {more : List UInt8} (hmore : more ≠ [])
    (h : decode (read ++ more) = [some c]) : Begins read := by
  obtain ⟨rest, hread, hrest⟩ := of_decode_char h
  rw [decode_eq_nil hrest, List.append_nil] at hread
  exact ⟨c, more, hmore, hread.symm⟩

theorem Leads.begins (h : Leads read opened) : Begins read := by
  obtain ⟨bytes, c, hbytes⟩ := h.goesOn.completion
  refine begins_of_decode ?_ ((h.decode_append bytes).trans hbytes)
  rintro rfl
  simp [decodeFrom] at hbytes

/-- Bytes are an error if they are read as one whatever follows the byte after them. -/
theorem broken_of_decode (hbad : bad ≠ []) (hpart : Begins bad ∨ bad.length = 1)
    (h : ∀ following, following.head? = rest.head? →
      (decode (bad ++ following)).head? = some none) : Broken bad rest := by
  have hunread (following) (hnext : following.head? = rest.head?) (c : Char) :
      ¬ String.utf8EncodeChar c <+: bad ++ following := by
    rintro ⟨others, hothers⟩
    have herror := h following hnext
    rw [← hothers, decode_encodeChar_append] at herror
    simp at herror
  refine ⟨hbad, hunread rest rfl, hpart, ?_⟩
  rintro other ⟨others, hothers⟩ ⟨c, more, -, hc⟩
  -- It would go on past the error with the byte after it.
  refine Nat.le_of_not_lt fun hlonger => ?_
  obtain ⟨beyond, rfl⟩ : bad <+: other := by
    refine List.prefix_of_prefix_length_le (List.prefix_append bad rest) ⟨others, hothers⟩ ?_
    omega
  have hrest : beyond ++ others = rest := by
    rw [List.append_assoc] at hothers
    exact List.append_cancel_left hothers
  refine hunread (beyond ++ more) ?_ c ⟨[], ?_⟩
  · rw [← hrest]
    cases beyond with
    | nil => simp at hlonger
    | cons byte beyond => rfl
  · rw [hc, List.append_nil, List.append_assoc]

theorem Leads.exists_broken (h : Leads read opened) (hread : read ≠ [])
    (hdecode : decodeFrom (some opened) bytes = none :: units) :
    ∃ more rest, bytes = more ++ rest ∧ Broken (read ++ more) rest ∧ decode rest = units := by
  induction bytes generalizing read opened with
  | nil =>
    have hunits : [] = units := (List.cons.inj hdecode).2
    refine ⟨[], [], rfl, ?_, hunits⟩
    rw [List.append_nil]
    refine broken_of_decode hread (.inl h.begins) fun following hfollowing => ?_
    rw [List.head?_eq_none_iff.mp hfollowing, h.decode_append]
    rfl
  | cons byte bytes ih =>
    by_cases hrange : opened.low ≤ byte.toNat ∧ byte.toNat ≤ opened.high
    · obtain ⟨value, missing, low, high⟩ := opened
      rw [decodeFrom, step, if_pos hrange] at hdecode
      cases missing with
      | zero => simp at hdecode
      | succ missing =>
        obtain ⟨more, rest, rfl, hbroken, hrest⟩ := ih (h.next hrange) (by simp) hdecode
        rw [List.append_assoc] at hbroken
        exact ⟨byte :: more, rest, rfl, hbroken, hrest⟩
    · rw [decodeFrom_stop _ hrange] at hdecode
      refine ⟨[], byte :: bytes, rfl, ?_, (List.cons.inj hdecode).2⟩
      rw [List.append_nil]
      refine broken_of_decode hread (.inl h.begins) fun following hfollowing => ?_
      obtain ⟨others, rfl⟩ := List.head?_eq_some_iff.mp hfollowing
      rw [h.decode_append, decodeFrom_stop _ hrange]
      rfl

theorem of_decode_error (h : decode bytes = none :: units) :
    ∃ bad rest, bytes = bad ++ rest ∧ Broken bad rest ∧ decode rest = units := by
  cases bytes with
  | nil => simp [decode, decodeFrom] at h
  | cons byte bytes =>
    rcases start_cases byte with ⟨c, hstart⟩ | hstart | ⟨opened, hstart, hopened⟩
    · rw [decode, decodeFrom, step, hstart] at h
      simp at h
    · have hdecode (more : List UInt8) : decode (byte :: more) = none :: decode more := by
        rw [decode, decodeFrom, step, hstart]
        rfl
      rw [hdecode] at h
      refine ⟨[byte], bytes, rfl, ?_, (List.cons.inj h).2⟩
      refine broken_of_decode (List.cons_ne_nil _ _) (.inr rfl) fun following _ => ?_
      rw [List.singleton_append, hdecode]
      rfl
    · have hleads := leads_start hstart hopened
      rw [← List.singleton_append, hleads.decode_append] at h
      obtain ⟨more, rest, rfl, hbroken, hrest⟩ :=
        hleads.exists_broken (List.cons_ne_nil _ _) h
      exact ⟨byte :: more, rest, rfl, hbroken, hrest⟩

/-- There is only one way to tell where an error ends. -/
theorem Broken.length_le {other others : List UInt8} (h : Broken bad rest)
    (hother : Broken other others) (heq : bad ++ rest = other ++ others) :
    bad.length ≤ other.length := by
  rcases h.part with hbegins | hone
  · apply hother.longest bad _ hbegins
    rw [← heq]
    exact List.prefix_append bad rest
  · rw [hone]
    exact List.length_pos_iff.mpr hother.nonempty

end Error

/-! ### All of the bytes -/

section All

variable {bytes : List UInt8} {units : List (Option Char)}

theorem Reads.of_decode (h : decode bytes = units) : Reads bytes units := by
  induction units generalizing bytes with
  | nil =>
    rw [decode_eq_nil h]
    exact .nil
  | cons unit units ih =>
    cases unit with
    | some c =>
      obtain ⟨rest, rfl, hrest⟩ := of_decode_char h
      exact .char c (ih hrest)
    | none =>
      obtain ⟨bad, rest, rfl, hbroken, hrest⟩ := of_decode_error h
      exact .broken hbroken (ih hrest)

theorem Reads.decode_eq (h : Reads bytes units) : decode bytes = units := by
  induction h with
  | nil => rfl
  | char c _ ih => rw [decode_encodeChar_append, ih]
  | @broken bad rest units hbroken _ ih =>
    cases hdecode : decode (bad ++ rest) with
    | nil => exact absurd (List.append_eq_nil_iff.mp (decode_eq_nil hdecode)).1 hbroken.nonempty
    | cons unit others =>
      cases unit with
      | some c =>
        obtain ⟨following, hfollowing, -⟩ := of_decode_char hdecode
        exact absurd ⟨following, hfollowing.symm⟩ (hbroken.unreadable c)
      | none =>
        obtain ⟨other, following, heq, hother, hrest⟩ := of_decode_error hdecode
        have hlength := Nat.le_antisymm (hbroken.length_le hother heq)
          (hother.length_le hbroken heq.symm)
        obtain ⟨-, rfl⟩ := List.append_inj heq hlength
        rw [← ih, hrest]

theorem reads_iff : Reads bytes units ↔ decode bytes = units := ⟨Reads.decode_eq, Reads.of_decode⟩

/-- Three bytes of a character that a newline breaks off, a byte that begins none, and one that would
begin a character that is too long. -/
example : decode [0x61, 0xf0, 0x9f, 0x98, 0x0a, 0xff, 0xc0, 0x62] =
    [some 'a', none, some '\n', none, none, some 'b'] := by
  decide +kernel

end All

theorem encode_of_decode {bytes : List UInt8} {text : List Char}
    (h : decode bytes = text.map some) : encode text = bytes := by
  induction text generalizing bytes with
  | nil =>
    rw [decode_eq_nil h]
    rfl
  | cons c text ih =>
    obtain ⟨rest, rfl, hrest⟩ := of_decode_char h
    rw [encode, List.flatMap_cons]
    exact congrArg _ (ih hrest)

theorem map_some_of_all {units : List (Option Char)} (h : units.all Option.isSome = true) :
    (units.filterMap id).map some = units := by
  induction units with
  | nil => rfl
  | cons unit units ih =>
    rw [List.all_cons, Bool.and_eq_true] at h
    obtain ⟨c, rfl⟩ := Option.isSome_iff_exists.mp h.1
    exact congrArg (some c :: ·) (ih h.2)

theorem decode?_eq_some_iff {bytes : List UInt8} {text : List Char} :
    decode? bytes = some text ↔ encode text = bytes := by
  constructor
  · intro h
    apply encode_of_decode
    rw [decode?] at h
    split at h
    · next hall =>
      rw [← Option.some.inj h]
      exact (map_some_of_all hall).symm
    · simp at h
  · rintro rfl
    exact decode?_encode text

/-- Bytes at the end that are the encoding of a text are those of the characters at the end, here for
a text that begins with a character in ASCII. -/
theorem suffix_of_encode_suffix {byte : UInt8} {c : Char} {tail text : List Char}
    (hbyte : byte.toNat ≤ 0x7f) (hc : String.utf8EncodeChar c = [byte])
    (h : encode (c :: tail) <:+ encode text) : c :: tail <:+ text := by
  obtain ⟨before, hbefore⟩ := h
  have htail : encode (c :: tail) = byte :: encode tail := by
    rw [encode, List.flatMap_cons, hc]
    rfl
  have hunits := congrArg decode hbefore
  rw [htail, decode_append hbyte, ← htail, decode_encode, decode_encode] at hunits
  obtain ⟨first, last, rfl, -, hlast⟩ := List.map_eq_append_iff.mp hunits.symm
  rw [List.map_inj_right fun _ _ => Option.some.inj] at hlast
  rw [hlast]
  exact List.suffix_append first _

end ArithLines.Text.Utf8
