import FaultInjection.Wire.Message
import FaultInjection.Proofs.Wire.Field

/-!
An assignment is read back from its bytes, on its own as well as inside another message.
-/

namespace FaultInjection.Wire.Assignment

structure Countable (message : Assignment) : Prop where
  id : message.id.utf8ByteSize < 18446744073709551616
  node : message.node.utf8ByteSize < 18446744073709551616
  definition : message.definition.utf8ByteSize < 18446744073709551616

def fields (message : Assignment) : List Field :=
  textFields 1 message.id ++ textFields 2 message.node ++ textFields 3 message.definition ++
    numberFields 4 message.current.toInt ++ numberFields 5 message.expected.toInt ++
    numberFields 6 message.generation.toNat

theorem encode_reads (message : Assignment) (countable : message.Countable) (level : Nat) :
    Reads (fun _ => false) level message.encode message.fields := by
  refine ((((Reads.append ?id ?node).append ?definition).append ?current).append ?expected).append
    ?generation
  case id => exact Reads.text (by decide) (by decide) _ countable.id
  case node => exact Reads.text (by decide) (by decide) _ countable.node
  case definition => exact Reads.text (by decide) (by decide) _ countable.definition
  case current | expected | generation => exact Reads.number (by decide) (by decide) _ rfl

/-- Each field sets its part of a message that starts out empty. -/
theorem foldlM_fields (message : Assignment) :
    message.fields.foldlM withField empty = some message := by
  obtain ⟨id, node, definition, current, expected, generation⟩ := message
  have first := foldlM_textFields withField 1 (fun id => ⟨id, "", "", 0, 0, 0⟩) (fun _ => rfl) id
  have second := foldlM_textFields withField 2 (fun node => ⟨id, node, "", 0, 0, 0⟩)
    (fun _ => rfl) node
  have third := foldlM_textFields withField 3 (fun definition => ⟨id, node, definition, 0, 0, 0⟩)
    (fun _ => rfl) definition
  have fourth := foldlM_numberFields withField 4
    (fun current => ⟨id, node, definition, current, 0, 0⟩) Payload.int32? 0 (fun _ => rfl)
    current.toInt current (int32?_payloadOf current) fun none => Int32.toInt_inj.mp none
  have fifth := foldlM_numberFields withField 5
    (fun expected => ⟨id, node, definition, current, expected, 0⟩) Payload.int32? 0 (fun _ => rfl)
    expected.toInt expected (int32?_payloadOf expected) fun none => Int32.toInt_inj.mp none
  have sixth := foldlM_numberFields withField 6
    (fun generation => ⟨id, node, definition, current, expected, generation⟩) Payload.uint64? 0
    (fun _ => rfl) generation.toNat generation (uint64?_payloadOf generation)
    fun none => UInt64.toNat_inj.mp (Int.ofNat_inj.mp none)
  simp only [fields, List.foldlM_append]
  rw [show empty = (fun id => ⟨id, "", "", 0, 0, 0⟩ : String → Assignment) "" from rfl, first]
  simp only [Option.bind_eq_bind, Option.bind_some, second, third, fourth, fifth, sixth]

theorem merge?_encode (message : Assignment) (countable : message.Countable) (level : Nat) :
    merge? level empty message.encode = some message := by
  rw [merge?, plainFields?, (message.encode_reads countable level).fieldsAt?]
  exact message.foldlM_fields

theorem decode?_encode (message : Assignment) (countable : message.Countable) :
    decode? message.encode = some message :=
  message.merge?_encode countable 0

end FaultInjection.Wire.Assignment
