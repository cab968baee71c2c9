import Mathlib.Algebra.Group.Nat.Defs
import FaultInjection.Wire.Field

/-!
What is written as a field is read as that field, whatever stands behind it. Fields that were left
out because they hold a default leave nothing to read.
-/

namespace FaultInjection.Wire

namespace Varint

theorem toNat_byte (value : Nat) (small : value < 256) : (UInt8.ofNat value).toNat = value :=
  UInt8.toNat_ofNat_of_lt' small

theorem decodeWithin_encode (limit value : Nat) (rest : Bytes) (small : value < 128 ^ (limit + 1)) :
    decodeWithin (limit + 1) (encode value ++ rest) = some (value, rest) := by
  induction limit generalizing value with
  | zero =>
      have one : value < 128 := by simpa using small
      have byte := toNat_byte value (by omega)
      rw [encode, if_pos one]
      simp [decodeWithin, byte, one]
  | succ limit ih =>
      rw [encode]
      split
      next one =>
        have byte := toNat_byte value (by omega)
        simp [decodeWithin, byte, one]
      next more =>
        have byte := toNat_byte (value % 128 + 128) (by omega)
        have high : value / 128 < 128 ^ (limit + 1) := by
          rw [Nat.div_lt_iff_lt_mul (by decide), ← Nat.pow_succ]
          exact small
        -- the byte is marked, and what is left of the number fits one byte less
        have marked : ¬ value % 128 + 128 < 128 := by omega
        rw [List.cons_append, decodeWithin, byte, if_neg marked, ih (value / 128) high]
        have whole : 128 * (value / 128) + (value % 128 + 128 - 128) = value := by omega
        simp only [whole]

theorem decode?_encode (value : Nat) (rest : Bytes) (small : value < 18446744073709551616) :
    decode? (encode value ++ rest) = some (value, rest) := by
  have read := decodeWithin_encode 9 value rest (Nat.lt_trans small (by decide))
  simp [decode?, read, small]

theorem encode_ne_nil (value : Nat) : encode value ≠ [] := by
  rw [encode]
  split <;> exact List.cons_ne_nil _ _

end Varint

theorem readKey_writeKey (number : Nat) (form : Form) (rest : Bytes) (positive : 0 < number)
    (small : number < 536870912) :
    readKey (writeKey number form ++ rest) = some (number, form, rest) := by
  have code : form.code < 6 := by cases form <;> decide
  have known : Form.ofCode? form.code = some form := by cases form <;> rfl
  have low : (8 * number + form.code) % 8 = form.code := by omega
  have high : (8 * number + form.code) / 8 = number := by omega
  have key := Varint.decode?_encode (8 * number + form.code) rest (by omega)
  have fits : ¬ (4294967296 ≤ 8 * number + form.code ∨ 8 * number + form.code < 8) := by omega
  simp only [readKey, writeKey, key, if_neg fits, low, known, high, Option.map_some]

theorem readCounted_writeCounted (content rest : Bytes)
    (small : content.length < 18446744073709551616) :
    readCounted (writeCounted content ++ rest) = some (content, rest) := by
  have length := Varint.decode?_encode content.length (content ++ rest) small
  simp [readCounted, writeCounted, length]

/-- Bytes that are read as some fields and then left behind. -/
structure Reads (isEntry : Nat → Bool) (level : Nat) (bytes : Bytes) (fields : List Field) :
    Prop where
  /-- No field is without bytes, so that the bytes are steps enough. -/
  fits : fields.length ≤ bytes.length
  reads : ∀ steps rest, readFields isEntry level (steps + fields.length) (bytes ++ rest) =
    (readFields isEntry level steps rest).map (fields ++ ·)

namespace Reads

variable {isEntry : Nat → Bool} {level : Nat}

theorem nil : Reads isEntry level [] [] := ⟨Nat.le_refl _, by simp⟩

theorem append {first second : Bytes} {fields more : List Field}
    (start : Reads isEntry level first fields) (finish : Reads isEntry level second more) :
    Reads isEntry level (first ++ second) (fields ++ more) := by
  constructor
  · simpa using Nat.add_le_add start.fits finish.fits
  · intro steps rest
    rw [List.length_append, Nat.add_comm fields.length, ← Nat.add_assoc, List.append_assoc,
      start.reads, finish.reads, Option.map_map]
    simp [Function.comp_def]

theorem fieldsAt? {bytes : Bytes} {fields : List Field} (reads : Reads isEntry level bytes fields) :
    Wire.fieldsAt? isEntry level bytes = some fields := by
  have whole := reads.reads (bytes.length - fields.length) []
  rw [Nat.sub_add_cancel reads.fits, List.append_nil] at whole
  rw [Wire.fieldsAt?, whole]
  cases bytes.length - fields.length <;> simp [readFields]

/-- One field, of which the key and the payload are read one after the other. -/
theorem field (number : Nat) (form : Form) (payload : Payload) (body : Bytes)
    (positive : 0 < number) (small : number < 536870912)
    (expected : isEntry number = true → form = .counted)
    (read : ∀ rest, readPayload level number form (body ++ rest) = some (payload, rest)) :
    Reads isEntry level (writeKey number form ++ body) [⟨number, payload⟩] := by
  have present : ∀ others, writeKey number form ++ others ≠ [] :=
    List.append_ne_nil_of_left_ne_nil (Varint.encode_ne_nil _)
  refine ⟨List.length_pos_iff.mpr (present body), ?_⟩
  intro steps rest
  have chosen : (if isEntry number then .counted else form) = form := by
    split
    next entry => exact (expected entry).symm
    next => rfl
  have key := readKey_writeKey number form (body ++ rest) positive small
  rw [List.append_assoc, List.length_singleton, readFields, key]
  · simp only [chosen, read]
    rfl
  · exact present _

theorem content (number : Nat) (content : Bytes) (positive : 0 < number)
    (small : number < 536870912) (short : content.length < 18446744073709551616) :
    Reads isEntry level (writeContent number content) [⟨number, .counted content⟩] := by
  apply field number .counted _ _ positive small fun _ => rfl
  intro rest
  simp [readPayload, readCounted_writeCounted content rest short]

theorem varint (number value : Nat) (positive : 0 < number) (small : number < 536870912)
    (plain : isEntry number = false) (short : value < 18446744073709551616) :
    Reads isEntry level (writeKey number .varint ++ Varint.encode value)
      [⟨number, .varint value⟩] := by
  apply field number .varint _ _ positive small fun entry => by simp [plain] at entry
  intro rest
  simp [readPayload, Varint.decode?_encode value rest short]

end Reads

/-! Texts and numbers -/

theorem toList_loop (bytes : ByteArray) (index : Nat) (before : Bytes) :
    ByteArray.toList.loop bytes index before = before.reverse ++ bytes.data.toList.drop index := by
  induction missing : bytes.size - index generalizing index before with
  | zero =>
      have past : bytes.data.toList.length ≤ index := by
        have size : bytes.data.toList.length = bytes.size := Array.length_toList
        omega
      rw [ByteArray.toList.loop.eq_def, if_neg (by omega), List.drop_eq_nil_of_le past,
        List.append_nil]
  | succ missing ih =>
      have within : index < bytes.data.toList.length := by
        have size : bytes.data.toList.length = bytes.size := Array.length_toList
        omega
      have head : bytes.get! index = bytes.data.toList[index] := by
        simp [ByteArray.get!, getElem!_pos bytes.data index (by simpa using within)]
      rw [ByteArray.toList.loop.eq_def, if_pos (by omega), ih (index + 1) _ (by omega),
        List.drop_eq_getElem_cons within, head]
      simp

theorem textBytes_eq (text : String) : textBytes text = text.toUTF8.data.toList := by
  rw [textBytes, ByteArray.toList, toList_loop]
  rfl

theorem length_textBytes (text : String) : (textBytes text).length = text.utf8ByteSize := by
  rw [textBytes_eq, Array.length_toList]
  rfl

theorem Payload.text?_textBytes (text : String) :
    (Payload.counted (textBytes text)).text? = some text := by
  have same : (⟨(textBytes text).toArray⟩ : ByteArray) = text.toUTF8 := by rw [textBytes_eq]
  have valid : text.toUTF8.IsValidUTF8 := text.isValidUTF8
  simp only [Payload.text?, Payload.content?, Option.bind_some, same, String.fromUTF8?, valid,
    ↓reduceDIte]
  rfl

def payloadOf (value : Int) : Payload := .varint (value % 18446744073709551616).toNat

theorem int32?_payloadOf (value : Int32) : (payloadOf value.toInt).int32? = some value := by
  have low := value.minValue_le_toInt
  have high := value.toInt_le
  have natural : ((value.toInt % 18446744073709551616).toNat : Int) =
      value.toInt % 18446744073709551616 := Int.toNat_of_nonneg (by omega)
  change some (Int32.ofInt ((value.toInt % 18446744073709551616).toNat : Int)) = some value
  rw [Option.some.injEq, ← Int32.toInt_inj, Int32.toInt_ofInt, natural]
  simp only [Int.bmod, Int32.size]
  have least : Int32.minValue.toInt = -2147483648 := by decide
  have most : Int32.maxValue.toInt = 2147483647 := by decide
  omega

theorem uint64?_payloadOf (value : UInt64) :
    (payloadOf value.toNat).uint64? = some value := by
  have small := value.toNat_lt
  have natural : ((value.toNat : Int) % 18446744073709551616).toNat = value.toNat := by omega
  simp [payloadOf, Payload.uint64?, Payload.value?, natural]

def textFields (number : Nat) (text : String) : List Field :=
  if text = "" then [] else [⟨number, .counted (textBytes text)⟩]

def numberFields (number : Nat) (value : Int) : List Field :=
  if value = 0 then [] else [⟨number, payloadOf value⟩]

section

variable {isEntry : Nat → Bool} {level place : Nat} (positive : 0 < place)
  (small : place < 536870912)

include positive small

theorem Reads.text (text : String) (short : text.utf8ByteSize < 18446744073709551616) :
    Reads isEntry level (writeText place text) (textFields place text) := by
  unfold writeText textFields
  split
  · exact Reads.nil
  · exact Reads.content place _ positive small (by rw [length_textBytes]; exact short)

theorem Reads.number (value : Int) (plain : isEntry place = false) :
    Reads isEntry level (writeNumber place value) (numberFields place value) := by
  unfold writeNumber numberFields
  split
  · exact Reads.nil
  · exact Reads.varint place _ positive small plain (by omega)

end

section

variable {message : Type} (withField : message → Field → Option message) (number : Nat)

theorem foldlM_textFields (set : String → message)
    (law : ∀ payload : Payload, withField (set "") ⟨number, payload⟩ = payload.text?.map set)
    (text : String) :
    (textFields number text).foldlM withField (set "") = some (set text) := by
  unfold textFields
  split
  next none => rw [none]; rfl
  next => simp [law, Payload.text?_textBytes]

theorem foldlM_numberFields {β : Type} (set : β → message) (read? : Payload → Option β) (zero : β)
    (law : ∀ payload, withField (set zero) ⟨number, payload⟩ = (read? payload).map set)
    (value : Int) (result : β) (read : read? (payloadOf value) = some result)
    (left : value = 0 → result = zero) :
    (numberFields number value).foldlM withField (set zero) = some (set result) := by
  unfold numberFields
  split
  next none => rw [left none]; rfl
  next => simp [law, read]

end

end FaultInjection.Wire
