import FaultInjection.Proofs.Wire.Field
import FaultInjection.Text.Utf8

/-!
Whatever is written in bytes is read back: no byte of a text is given up.
-/

namespace FaultInjection.Text

theorem encode_eq (text : String) : encode text = text.toList.flatMap String.utf8EncodeChar := by
  have bytes : encode text = text.toUTF8.data.toList := Wire.textBytes_eq text
  rw [bytes, String.toUTF8, ← String.utf8Encode_toList, List.utf8Encode, List.data_toByteArray]

theorem toNat_byte (value : Nat) (small : value < 256) : (UInt8.ofNat value).toNat = value :=
  Wire.Varint.toNat_byte value small

/-- One more byte of a character, of which the low bits are kept. -/
theorem readTails_cons (code low : Nat) (range : UInt8 × UInt8) (ranges : List (UInt8 × UInt8))
    (rest : List UInt8) (small : low < 64) (above : range.1.toNat ≤ low + 128)
    (below : low + 128 ≤ range.2.toNat) :
    readTails code (range :: ranges) (UInt8.ofNat (low + 128) :: rest) =
      readTails (64 * code + low) ranges rest := by
  have byte := toNat_byte (low + 128) (by omega)
  have fits : (range.1 ≤ UInt8.ofNat (low + 128) && UInt8.ofNat (low + 128) ≤ range.2) = true := by
    simp only [UInt8.le_iff_toNat_le, byte, above, below, decide_true, Bool.and_self]
  have kept : (low + 128) % 64 = low := by omega
  rw [readTails, if_pos fits, byte, kept]

/-- The first byte of a longer character is a mark with the high bits of the character. -/
theorem decode_lead (high mark : Nat) (ranges : List (UInt8 × UInt8)) (bytes rest : List UInt8)
    (code : Nat) (small : high + mark < 256) (longer : ranges.length ≠ 0)
    (fits : high < 2 ^ (6 - ranges.length)) (marked : mark % 2 ^ (6 - ranges.length) = 0)
    (starts : tailRanges? (UInt8.ofNat (high + mark)) = some ranges)
    (reads : readTails high ranges bytes = (some code, rest)) :
    decode (UInt8.ofNat (high + mark) :: bytes) = some (Char.ofNat code) :: decode rest := by
  have bits : leadBits (UInt8.ofNat (high + mark)) ranges.length = high := by
    rw [leadBits, if_neg longer, toNat_byte _ small, Nat.pow_eq, Nat.add_mod, marked,
      Nat.add_zero, Nat.mod_mod, Nat.mod_eq_of_lt fits]
  rw [decode, starts]
  simp only [bits, reads, Option.map_some]

/-- The ranges behind a first byte, told from its number. -/
theorem tailRanges_eq (lead : Nat) (small : lead < 256) :
    tailRanges? (UInt8.ofNat lead) =
      if lead < 128 then some []
      else if 194 ≤ lead ∧ lead ≤ 223 then some [(0x80, 0xBF)]
      else if lead = 224 then some [(0xA0, 0xBF), (0x80, 0xBF)]
      else if lead = 237 then some [(0x80, 0x9F), (0x80, 0xBF)]
      else if 225 ≤ lead ∧ lead ≤ 239 then some [(0x80, 0xBF), (0x80, 0xBF)]
      else if lead = 240 then some [(0x90, 0xBF), (0x80, 0xBF), (0x80, 0xBF)]
      else if 241 ≤ lead ∧ lead ≤ 243 then some [(0x80, 0xBF), (0x80, 0xBF), (0x80, 0xBF)]
      else if lead = 244 then some [(0x80, 0x8F), (0x80, 0xBF), (0x80, 0xBF)]
      else none := by
  have byte := toNat_byte lead small
  simp [tailRanges?, UInt8.lt_iff_toNat_lt, UInt8.le_iff_toNat_le, ← UInt8.toNat_inj, byte]

/-- The second byte of a character of three bytes, whose range depends on the first one. -/
theorem tailRanges_three (high middle : Nat) (least : high = 0 → 32 ≤ middle)
    (most : high = 13 → middle < 32) (small : high < 16) (narrow : middle < 64) :
    ∃ range : UInt8 × UInt8,
      tailRanges? (UInt8.ofNat (high + 224)) = some [range, (0x80, 0xBF)] ∧
        range.1.toNat ≤ middle + 128 ∧ middle + 128 ≤ range.2.toNat := by
  -- the first byte 0xE0 leaves out shorter forms, and 0xED leaves out surrogates
  rw [tailRanges_eq (high + 224) (by omega), if_neg (by omega), if_neg (by omega)]
  by_cases lowest : high = 0
  · rw [if_pos (by omega)]
    exact ⟨_, rfl, by have := least lowest; simp; omega, by simp; omega⟩
  · rw [if_neg (by omega)]
    by_cases last : high = 13
    · rw [if_pos (by omega)]
      exact ⟨_, rfl, by simp, by have := most last; simp; omega⟩
    · rw [if_neg (by omega), if_pos (by omega)]
      exact ⟨_, rfl, by simp, by simp; omega⟩

theorem tailRanges_four (high middle : Nat) (least : high = 0 → 16 ≤ middle)
    (most : high = 4 → middle < 16) (small : high ≤ 4) (narrow : middle < 64) :
    ∃ range : UInt8 × UInt8,
      tailRanges? (UInt8.ofNat (high + 240)) = some [range, (0x80, 0xBF), (0x80, 0xBF)] ∧
        range.1.toNat ≤ middle + 128 ∧ middle + 128 ≤ range.2.toNat := by
  rw [tailRanges_eq (high + 240) (by omega), if_neg (by omega), if_neg (by omega),
    if_neg (by omega), if_neg (by omega), if_neg (by omega)]
  by_cases lowest : high = 0
  · rw [if_pos (by omega)]
    exact ⟨_, rfl, by have := least lowest; simp; omega, by simp; omega⟩
  · rw [if_neg (by omega)]
    by_cases last : high = 4
    · rw [if_neg (by omega), if_pos (by omega)]
      exact ⟨_, rfl, by simp, by have := most last; simp; omega⟩
    · rw [if_pos (by omega)]
      exact ⟨_, rfl, by simp, by simp; omega⟩

/-! Characters of one to four bytes. The last byte always takes six bits. -/

section

variable (code : Nat) (rest : List UInt8)

theorem decode_one (most : code < 128) :
    decode (UInt8.ofNat code :: rest) = some (Char.ofNat code) :: decode rest := by
  have byte := toNat_byte code (by omega)
  have starts : tailRanges? (UInt8.ofNat code) = some [] := by
    rw [tailRanges_eq _ (by omega), if_pos most]
  rw [decode, starts]
  simp [readTails, leadBits, byte]

theorem decode_two (least : 128 ≤ code) (most : code < 2048) :
    decode (UInt8.ofNat (code / 64 % 32 + 192) :: UInt8.ofNat (code % 64 + 128) :: rest) =
      some (Char.ofNat code) :: decode rest := by
  apply decode_lead _ 192 [(0x80, 0xBF)]
  case small => omega
  case fits => simp only [List.length_cons, List.length_nil]; omega
  case longer | marked => simp
  case starts => rw [tailRanges_eq _ (by omega), if_neg (by omega), if_pos (by omega)]
  case reads =>
    have whole : 64 * (code / 64 % 32) + code % 64 = code := by omega
    rw [readTails_cons _ _ _ _ _ (by omega) (by simp) (by simp; omega), whole, readTails]

theorem decode_three (least : 2048 ≤ code) (most : code < 65536)
    (valid : code < 55296 ∨ 57343 < code) :
    decode (UInt8.ofNat (code / 4096 % 16 + 224) :: UInt8.ofNat (code / 64 % 64 + 128) ::
      UInt8.ofNat (code % 64 + 128) :: rest) = some (Char.ofNat code) :: decode rest := by
  obtain ⟨range, starts, above, below⟩ := tailRanges_three (code / 4096 % 16)
    (code / 64 % 64) (by omega) (by omega) (by omega) (by omega)
  apply decode_lead _ 224 _ _ _ _ ?small ?longer ?fits ?marked starts ?reads
  case small => omega
  case fits => simp only [List.length_cons, List.length_nil]; omega
  case longer | marked => simp
  case reads =>
    have whole : 64 * (64 * (code / 4096 % 16) + code / 64 % 64) + code % 64 = code := by omega
    rw [readTails_cons _ _ _ _ _ (by omega) above below,
      readTails_cons _ _ _ _ _ (by omega) (by simp) (by simp; omega), whole, readTails]

theorem decode_four (least : 65536 ≤ code) (most : code < 1114112) :
    decode (UInt8.ofNat (code / 262144 % 8 + 240) :: UInt8.ofNat (code / 4096 % 64 + 128) ::
      UInt8.ofNat (code / 64 % 64 + 128) :: UInt8.ofNat (code % 64 + 128) :: rest) =
      some (Char.ofNat code) :: decode rest := by
  obtain ⟨range, starts, above, below⟩ := tailRanges_four (code / 262144 % 8)
    (code / 4096 % 64) (by omega) (by omega) (by omega) (by omega)
  apply decode_lead _ 240 _ _ _ _ ?small ?longer ?fits ?marked starts ?reads
  case small => omega
  case fits => simp only [List.length_cons, List.length_nil]; omega
  case longer | marked => simp
  case reads =>
    have whole : 64 * (64 * (64 * (code / 262144 % 8) + code / 4096 % 64) + code / 64 % 64) +
        code % 64 = code := by omega
    rw [readTails_cons _ _ _ _ _ (by omega) above below,
      readTails_cons _ _ _ _ _ (by omega) (by simp) (by simp; omega),
      readTails_cons _ _ _ _ _ (by omega) (by simp) (by simp; omega), whole, readTails]

end

/-- A character is read back from its bytes, whatever follows them. -/
theorem decode_char (c : Char) (rest : List UInt8) :
    decode (String.utf8EncodeChar c ++ rest) = some c :: decode rest := by
  have valid : c.toNat < 55296 ∨ (57343 < c.toNat ∧ c.toNat < 1114112) := c.valid
  have code : c.val.toNat = c.toNat := rfl
  have same : Char.ofNat c.toNat = c := Char.ofNat_toNat c
  rw [String.utf8EncodeChar, code]
  split
  next one => exact (decode_one c.toNat rest (by omega)).trans (by rw [same])
  next =>
    split
    next two => exact (decode_two c.toNat rest (by omega) (by omega)).trans (by rw [same])
    next =>
      split
      next three =>
        exact (decode_three c.toNat rest (by omega) (by omega) (by omega)).trans (by rw [same])
      next four => exact (decode_four c.toNat rest (by omega) (by omega)).trans (by rw [same])

theorem decode_chars (chars : List Char) :
    decode (chars.flatMap String.utf8EncodeChar) = chars.map some := by
  induction chars with
  | nil => simp [decode]
  | cons c rest ih => rw [List.flatMap_cons, decode_char, ih, List.map_cons]

theorem decode_encode (text : String) : decode (encode text) = text.toList.map some := by
  rw [encode_eq, decode_chars]

theorem decodeStrict?_encode (text : String) : decodeStrict? (encode text) = some text :=
  Wire.Payload.text?_textBytes text

theorem decodeLossy_encode (text : String) : decodeLossy (encode text) = text := by
  simp [decodeLossy, decode_encode, Function.comp_def]

end FaultInjection.Text
