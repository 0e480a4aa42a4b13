import ArithLines.Proofs.Text.Lines
import ArithLines.Text.Utf8

/-! Texts and their bytes. Main statements: the bytes of a text are read back as that text, and a
newline is read where a newline stands among the bytes and nowhere else. -/

namespace ArithLines.Text.Utf8

/-! ### What is encoded is decoded -/

section Steps

variable {n value missing low high : Nat} (bytes : List UInt8)

theorem toNat_ofNat_of_lt (h : n < 0x100) : (UInt8.ofNat n).toNat = n := by
  rw [UInt8.toNat_ofNat', Nat.mod_eq_of_lt h]

/-- A byte within the range goes on with a character. -/
theorem decodeFrom_next (hlow : low ≤ n) (hhigh : n ≤ high) (hn : n < 0x100) :
    decodeFrom (some ⟨value, missing + 1, low, high⟩) (UInt8.ofNat n :: bytes) =
      decodeFrom (some (.rest (value * 64 + (n - 0x80)) missing)) bytes := by
  rw [decodeFrom, step, toNat_ofNat_of_lt hn, if_pos ⟨hlow, hhigh⟩]
  rfl

theorem decodeFrom_last (hlow : low ≤ n) (hhigh : n ≤ high) (hn : n < 0x100) :
    decodeFrom (some ⟨value, 0, low, high⟩) (UInt8.ofNat n :: bytes) =
      some (Char.ofNat (value * 64 + (n - 0x80))) :: decodeFrom none bytes := by
  rw [decodeFrom, step, toNat_ofNat_of_lt hn, if_pos ⟨hlow, hhigh⟩]
  rfl

/-- Another byte does not, and is read anew. -/
theorem decodeFrom_stop {opened : Opened} {byte : UInt8}
    (h : ¬(opened.low ≤ byte.toNat ∧ byte.toNat ≤ opened.high)) :
    decodeFrom (some opened) (byte :: bytes) = none :: decode (byte :: bytes) := by
  rw [decodeFrom, step, if_neg h]
  rfl

theorem decodeFrom_one (h : n ≤ 0x7f) :
    decodeFrom none (UInt8.ofNat n :: bytes) = some (Char.ofNat n) :: decodeFrom none bytes := by
  rw [decodeFrom, step, start, toNat_ofNat_of_lt (by omega)]
  rw [if_pos h]
  rfl

theorem decodeFrom_two (hlow : 0xc2 ≤ n) (hhigh : n ≤ 0xdf) :
    decodeFrom none (UInt8.ofNat n :: bytes) =
      decodeFrom (some (.rest (n - 0xc0) 0)) bytes := by
  rw [decodeFrom, step, start, toNat_ofNat_of_lt (by omega)]
  rw [if_neg (by omega), if_neg (by omega), if_pos hhigh]
  rfl

theorem decodeFrom_three (hlow : 0xe0 ≤ n) (hhigh : n ≤ 0xef) :
    decodeFrom none (UInt8.ofNat n :: bytes) =
      decodeFrom (some ⟨n - 0xe0, 1, if n = 0xe0 then 0xa0 else 0x80,
        if n = 0xed then 0x9f else 0xbf⟩) bytes := by
  rw [decodeFrom, step, start, toNat_ofNat_of_lt (by omega)]
  rw [if_neg (by omega), if_neg (by omega), if_neg (by omega), if_pos hhigh]
  rfl

theorem decodeFrom_four (hlow : 0xf0 ≤ n) (hhigh : n ≤ 0xf4) :
    decodeFrom none (UInt8.ofNat n :: bytes) =
      decodeFrom (some ⟨n - 0xf0, 2, if n = 0xf0 then 0x90 else 0x80,
        if n = 0xf4 then 0x8f else 0xbf⟩) bytes := by
  rw [decodeFrom, step, start, toNat_ofNat_of_lt (by omega)]
  rw [if_neg (by omega), if_neg (by omega), if_neg (by omega), if_neg (by omega), if_pos hhigh]
  rfl

end Steps

theorem decodeFrom_encodeChar (c : Char) (bytes : List UInt8) :
    decodeFrom none (String.utf8EncodeChar c ++ bytes) = some c :: decodeFrom none bytes := by
  have hvalid : c.toNat < 0xd800 ∨ 0xdfff < c.toNat ∧ c.toNat < 0x110000 := c.valid
  have hvalue {value : Nat} (h : value = c.toNat) : Char.ofNat value = c := by
    rw [h, Char.ofNat_toNat]
  rw [String.utf8EncodeChar, show c.val.toNat = c.toNat from rfl]
  generalize hn : c.toNat = n at *
  -- One case for each number of bytes. In the longer ones the range of the second byte hangs on the
  -- first, and holds as the character is no surrogate and needs all of its bytes.
  split
  · rw [List.cons_append, decodeFrom_one _ ‹_›, hvalue rfl, List.nil_append]
  split
  · rw [List.cons_append, decodeFrom_two _ (by omega) (by omega), Opened.rest, List.cons_append,
      decodeFrom_last _ (by omega) (by omega) (by omega), hvalue (by omega), List.nil_append]
  split
  · rw [List.cons_append, decodeFrom_three _ (by omega) (by omega), List.cons_append,
      decodeFrom_next _ (by split <;> omega) (by split <;> omega) (by omega), Opened.rest,
      List.cons_append, decodeFrom_last _ (by omega) (by omega) (by omega), hvalue (by omega),
      List.nil_append]
  · rw [List.cons_append, decodeFrom_four _ (by omega) (by omega), List.cons_append,
      decodeFrom_next _ (by split <;> omega) (by split <;> omega) (by omega), Opened.rest,
      List.cons_append, decodeFrom_next _ (by omega) (by omega) (by omega), Opened.rest,
      List.cons_append, decodeFrom_last _ (by omega) (by omega) (by omega), hvalue (by omega),
      List.nil_append]

theorem decode_encode (text : List Char) : decode (encode text) = text.map some := by
  rw [decode]
  induction text with
  | nil => rfl
  | cons c text ih =>
    rw [encode, List.flatMap_cons, decodeFrom_encodeChar, List.map_cons]
    exact congrArg (some c :: ·) ih

theorem decode?_encode (text : List Char) : decode? (encode text) = some text := by
  rw [decode?, decode_encode]
  simp [List.filterMap_map]

theorem decodeLossy_encode (text : List Char) : decodeLossy (encode text) = text := by
  rw [decodeLossy, decode_encode, List.map_map]
  exact List.map_id text

/-! ### Newlines -/

/-- However it goes on, the character has no byte in ASCII and is not in ASCII itself. The last byte
gives six bits of its value, and those before them make two at least, now or after the next byte. -/
structure Opened.IsLong (opened : Opened) : Prop where
  low : 0x80 ≤ opened.low
  value : 2 ≤ opened.value ∨
    0 < opened.missing ∧ 2 ≤ opened.value * 64 + (opened.low - 0x80)

theorem start_isLong (byte : UInt8) : ∀ opened ∈ (start byte).opened, opened.IsLong := by
  intro opened h
  rw [start] at h
  generalize byte.toNat = n at h
  repeat' split at h
  all_goals simp only [Option.mem_def, Option.some.injEq, reduceCtorEq] at h
  all_goals
    subst h
    constructor
    · dsimp only [Opened.rest]
      omega
    · dsimp only [Opened.rest]
      omega

/-- The numbers of no character do not make a newline. -/
theorem ofNat_newline_iff (value : Nat) : Char.ofNat value = '\n' ↔ value = 0x0a := by
  constructor
  · intro h
    have hvalue := congrArg Char.toNat h
    by_cases hvalid : value.isValidChar
    · rw [Char.ofNat, dif_pos hvalid] at hvalue
      exact hvalue
    · rw [Char.ofNat, dif_neg hvalid] at hvalue
      exact absurd hvalue (by decide)
  · rintro rfl
    rfl

theorem start_newline_iff (byte : UInt8) : some '\n' ∈ (start byte).units ↔ byte = newline := by
  have hbyte : byte = newline ↔ byte.toNat = 0x0a := UInt8.toNat_inj.symm
  rw [hbyte, start]
  generalize byte.toNat = n
  split
  · simp only [List.mem_singleton, Option.some.injEq]
    rw [eq_comm, ofNat_newline_iff]
  · have hne : n ≠ 0x0a := by omega
    repeat' split
    all_goals simp [hne]

theorem step_isLong {opened : Option Opened} (h : ∀ o ∈ opened, o.IsLong) (byte : UInt8) :
    ∀ o ∈ (step opened byte).opened, o.IsLong := by
  cases opened with
  | none => exact start_isLong byte
  | some o =>
    have hlong := h o rfl
    rw [step]
    split
    · next hrange =>
      cases hmissing : o.missing with
      | zero => simp
      | succ missing =>
        intro next hnext
        obtain rfl := Option.some.inj hnext
        refine ⟨Nat.le_refl _, .inl ?_⟩
        have hvalue := hlong.value
        dsimp only [Opened.rest]
        omega
    · exact start_isLong byte

theorem step_newline_iff {opened : Option Opened} (h : ∀ o ∈ opened, o.IsLong) (byte : UInt8) :
    some '\n' ∈ (step opened byte).units ↔ byte = newline := by
  cases opened with
  | none => exact start_newline_iff byte
  | some o =>
    have hlong := h o rfl
    rw [step]
    split
    · next hrange =>
      have hne : byte ≠ newline := by
        rintro rfl
        have := Nat.le_trans hlong.low hrange.1
        exact absurd this (by decide)
      cases hmissing : o.missing with
      | zero =>
        have hvalue := hlong.value
        have hchar : Char.ofNat (o.value * 64 + (byte.toNat - 0x80)) ≠ '\n' := by
          rw [ne_eq, ofNat_newline_iff]
          omega
        simp [hne, hchar.symm]
      | succ missing => simp [hne]
    · rw [← start_newline_iff byte]
      simp

theorem decodeFrom_newline_iff {opened : Option Opened} (h : ∀ o ∈ opened, o.IsLong)
    (bytes : List UInt8) : some '\n' ∈ decodeFrom opened bytes ↔ newline ∈ bytes := by
  induction bytes generalizing opened with
  | nil =>
    rw [decodeFrom]
    cases opened <;> simp
  | cons byte bytes ih =>
    rw [decodeFrom, List.mem_append, step_newline_iff h, ih (step_isLong h byte), List.mem_cons,
      eq_comm]

theorem decode_newline_iff (bytes : List UInt8) :
    some '\n' ∈ decode bytes ↔ newline ∈ bytes :=
  decodeFrom_newline_iff (by simp) bytes

theorem newline_mem_decodeLossy_iff (bytes : List UInt8) :
    '\n' ∈ decodeLossy bytes ↔ newline ∈ bytes := by
  rw [← decode_newline_iff, decodeLossy, List.mem_map]
  constructor
  · rintro ⟨c?, hc?, hc⟩
    cases c? with
    | none => simp [replacement] at hc
    | some c =>
      obtain rfl : c = '\n' := hc
      exact hc?
  · intro h
    exact ⟨some '\n', h, rfl⟩

theorem newline_mem_encode_iff (text : List Char) : newline ∈ encode text ↔ '\n' ∈ text := by
  rw [← decode_newline_iff, decode_encode]
  simp

/-! ### Bytes in ASCII -/

section Ascii

variable {byte : UInt8}

/-- A byte in ASCII is no part of a longer character, so reading begins anew with it. -/
theorem decodeFrom_append {opened : Option Opened} (h : ∀ o ∈ opened, o.IsLong)
    (hbyte : byte.toNat ≤ 0x7f) (before after : List UInt8) :
    decodeFrom opened (before ++ byte :: after) =
      decodeFrom opened before ++ decodeFrom none (byte :: after) := by
  induction before generalizing opened with
  | nil =>
    cases opened with
    | none => rfl
    | some o =>
      have hlow := (h o rfl).low
      rw [List.nil_append, decodeFrom_stop _ (by omega)]
      rfl
  | cons first before ih =>
    rw [List.cons_append, decodeFrom, ih (step_isLong h first), decodeFrom]
    exact (List.append_assoc ..).symm

theorem decode_append (hbyte : byte.toNat ≤ 0x7f) (before after : List UInt8) :
    decode (before ++ byte :: after) = decode before ++ decode (byte :: after) :=
  decodeFrom_append (by simp) hbyte before after

theorem decodeLossy_append_newline (before after : List UInt8) :
    decodeLossy (before ++ newline :: after) =
      decodeLossy before ++ '\n' :: decodeLossy after := by
  have hnewline : decode (newline :: after) = some '\n' :: decode after := rfl
  rw [decodeLossy, decode_append (by decide), hnewline, List.map_append, List.map_cons]
  rfl

end Ascii

end ArithLines.Text.Utf8
