import FaultInjection.Proofs.Wire.Assignment

/-!
Messages between nodes and the master are read back from their bytes, as long as the number of
these bytes can be told in 64 bits.
-/

namespace FaultInjection.Wire

/-- So few bytes that their number fits into a varint. -/
def Tellable (bytes : Bytes) : Prop := bytes.length < 18446744073709551616

instance (bytes : Bytes) : Decidable (Tellable bytes) := inferInstanceAs (Decidable (_ < _))

namespace Tellable

theorem of_sublist {part whole : Bytes} (short : Tellable whole) (sublist : part.Sublist whole) :
    Tellable part :=
  Nat.lt_of_le_of_lt sublist.length_le short

theorem left {first second : Bytes} (short : Tellable (first ++ second)) : Tellable first :=
  short.of_sublist (List.sublist_append_left _ _)

theorem right {first second : Bytes} (short : Tellable (first ++ second)) : Tellable second :=
  short.of_sublist (List.sublist_append_right _ _)

/-- Content is in the field behind its key and its length. -/
theorem content {number : Nat} {content : Bytes} (short : Tellable (writeContent number content)) :
    Tellable content :=
  short.right.right

theorem text {number : Nat} {text : String} (short : Tellable (writeText number text)) :
    text.utf8ByteSize < 18446744073709551616 := by
  unfold writeText at short
  split at short
  next none => rw [none]; decide
  next =>
    have bytes := short.content
    rwa [Tellable, length_textBytes] at bytes

theorem item {α : Type} {write : α → Bytes} {items : List α}
    (short : Tellable (items.flatMap write)) (item : α) (member : item ∈ items) :
    Tellable (write item) :=
  short.of_sublist (List.sublist_flatten_of_mem (List.mem_map_of_mem member))

end Tellable

theorem int64?_payloadOf (value : Int64) : (payloadOf value.toInt).int64? = some value := by
  have low := value.minValue_le_toInt
  have high := value.toInt_le
  have natural : ((value.toInt % 18446744073709551616).toNat : Int) =
      value.toInt % 18446744073709551616 := Int.toNat_of_nonneg (by omega)
  change some (Int64.ofInt ((value.toInt % 18446744073709551616).toNat : Int)) = some value
  rw [Option.some.injEq, ← Int64.toInt_inj, Int64.toInt_ofInt, natural]
  simp only [Int.bmod, Int64.size]
  have least : Int64.minValue.toInt = -9223372036854775808 := by decide
  have most : Int64.maxValue.toInt = 9223372036854775807 := by decide
  omega

theorem Reads.flatMap {α : Type} {isEntry : Nat → Bool} {level : Nat} {write : α → Bytes}
    {fields : α → List Field} (items : List α)
    (each : ∀ item ∈ items, Reads isEntry level (write item) (fields item)) :
    Reads isEntry level (items.flatMap write) (items.flatMap fields) := by
  induction items with
  | nil => exact Reads.nil
  | cons item rest ih =>
      rw [List.flatMap_cons, List.flatMap_cons]
      exact (each item List.mem_cons_self).append
        (ih fun other member => each other (List.mem_cons_of_mem item member))

theorem Assignment.countable {message : Assignment} (short : Tellable message.encode) :
    message.Countable :=
  ⟨short.left.left.left.left.left.text, short.left.left.left.left.right.text,
    short.left.left.left.right.text⟩

namespace NodeRef

theorem decode?_encode (message : NodeRef) (short : Tellable message.encode) :
    decode? message.encode = some message := by
  have reads : Reads (fun _ => false) 0 message.encode (textFields 1 message.node) :=
    Reads.text (by decide) (by decide) _ short.text
  rw [decode?, plainFields?, reads.fieldsAt?]
  exact foldlM_textFields withField 1 NodeRef.mk (fun _ => rfl) message.node

end NodeRef

namespace Heartbeat

theorem decode?_encode (message : Heartbeat) (short : Tellable message.encode) :
    decode? message.encode = some message := by
  obtain ⟨node, sentAt⟩ := message
  have reads : Reads (fun _ => false) 0 (encode ⟨node, sentAt⟩)
      (textFields 1 node ++ numberFields 2 sentAt.toInt) :=
    (Reads.text (by decide) (by decide) _ short.left.text).append
      (Reads.number (by decide) (by decide) _ rfl)
  have first := foldlM_textFields withField 1 (fun node => ⟨node, 0⟩) (fun _ => rfl) node
  have second := foldlM_numberFields withField 2 (fun sentAt => ⟨node, sentAt⟩) Payload.int64? 0
    (fun _ => rfl) sentAt.toInt sentAt (int64?_payloadOf sentAt) fun none => Int64.toInt_inj.mp none
  rw [decode?, plainFields?, reads.fieldsAt?, Option.bind_some, List.foldlM_append, first]
  exact second

end Heartbeat

namespace Report

theorem decode?_encode (reporter : String) (assignment : Assignment)
    (short : Tellable (encode ⟨reporter, some assignment⟩)) :
    decode? (encode ⟨reporter, some assignment⟩) = some ⟨reporter, some assignment⟩ := by
  have nested : Tellable assignment.encode := short.right.content
  have reads : Reads (fun _ => false) 0 (encode ⟨reporter, some assignment⟩)
      (textFields 1 reporter ++ [⟨2, .counted assignment.encode⟩]) :=
    (Reads.text (by decide) (by decide) _ short.left.text).append
      (Reads.content 2 _ (by decide) (by decide) nested)
  have first := foldlM_textFields withField 1 (fun reporter => ⟨reporter, none⟩) (fun _ => rfl)
    reporter
  have merged := assignment.merge?_encode (Assignment.countable nested) 1
  rw [decode?, plainFields?, reads.fieldsAt?, Option.bind_some, List.foldlM_append, first]
  simp [withField, Payload.content?, merged]

end Report

namespace AssignmentList

theorem foldlM_assignments (assignments front : List Assignment)
    (short : ∀ assignment ∈ assignments, Tellable assignment.encode) :
    (assignments.flatMap fun assignment => [Field.mk 1 (.counted assignment.encode)]).foldlM
      withField ⟨front⟩ = some ⟨front ++ assignments⟩ := by
  induction assignments generalizing front with
  | nil => simp
  | cons assignment rest ih =>
      have countable := Assignment.countable (short assignment List.mem_cons_self)
      have read : withField ⟨front⟩ ⟨1, .counted assignment.encode⟩ =
          some ⟨front ++ [assignment]⟩ := by
        simp [withField, Payload.content?, assignment.merge?_encode countable 1]
      rw [List.flatMap_cons, List.singleton_append, List.foldlM_cons, read]
      have tail := ih (front ++ [assignment]) fun other member =>
        short other (List.mem_cons_of_mem assignment member)
      simpa using tail

theorem decode?_encode (message : AssignmentList) (short : Tellable message.encode) :
    decode? message.encode = some message := by
  have nested : ∀ assignment ∈ message.assignments, Tellable assignment.encode :=
    fun assignment member => (short.item assignment member).content
  have reads : Reads (fun _ => false) 0 message.encode
      (message.assignments.flatMap fun assignment => [⟨1, .counted assignment.encode⟩]) :=
    Reads.flatMap message.assignments fun assignment member =>
      Reads.content 1 _ (by decide) (by decide) (nested assignment member)
  rw [decode?, plainFields?, reads.fieldsAt?, Option.bind_some, foldlM_assignments _ _ nested]
  simp

end AssignmentList

namespace Registration

def labelBytes (label : String × String) : Bytes := writeText 1 label.1 ++ writeText 2 label.2

theorem label?_labelBytes (label : String × String) (short : Tellable (labelBytes label)) :
    label? (labelBytes label) = some label := by
  obtain ⟨name, value⟩ := label
  have reads : Reads (fun _ => false) 1 (labelBytes (name, value))
      (textFields 1 name ++ textFields 2 value) :=
    (Reads.text (by decide) (by decide) _ short.left.text).append
      (Reads.text (by decide) (by decide) _ short.right.text)
  have first := foldlM_textFields withLabelField 1 (fun name => (name, "")) (fun _ => rfl) name
  have second := foldlM_textFields withLabelField 2 (fun value => (name, value)) (fun _ => rfl)
    value
  rw [label?, plainFields?, reads.fieldsAt?, Option.bind_some, List.foldlM_append, first]
  exact second

/-- Each entry is put into the labels, in the order of the entries. -/
theorem foldlM_labels (node : String) (entries : List (String × String)) (labels : Table String)
    (short : ∀ label ∈ entries, Tellable (labelBytes label)) :
    (entries.flatMap fun label => [Field.mk 2 (.counted (labelBytes label))]).foldlM
        withField ⟨node, labels⟩ =
      some ⟨node, entries.foldl (fun table entry => table.put entry.1 entry.2) labels⟩ := by
  induction entries generalizing labels with
  | nil => rfl
  | cons label rest ih =>
      have read : withField ⟨node, labels⟩ ⟨2, .counted (labelBytes label)⟩ =
          some ⟨node, labels.put label.1 label.2⟩ := by
        simp [withField, Payload.content?, label?_labelBytes label (short label List.mem_cons_self)]
      rw [List.flatMap_cons, List.singleton_append, List.foldlM_cons, read]
      exact ih _ fun other member => short other (List.mem_cons_of_mem label member)

/-- The labels may be sent in any order; of several under one name the last counts. -/
theorem decode?_encodeWith (entries : List (String × String)) (node : String)
    (short : Tellable (encodeWith entries node)) :
    decode? (encodeWith entries node) = some ⟨node, Table.ofEntries entries⟩ := by
  -- a label is content whatever its key says, since the field is a map
  have nested : ∀ label ∈ entries, Tellable (labelBytes label) :=
    fun label member => (short.right.item label member).content
  have reads : Reads (· == 2) 0 (encodeWith entries node)
      (textFields 1 node ++ entries.flatMap fun label => [⟨2, .counted (labelBytes label)⟩]) :=
    (Reads.text (by decide) (by decide) _ short.left.text).append
      (Reads.flatMap entries fun label member =>
        Reads.content 2 _ (by decide) (by decide) (nested label member))
  have first := foldlM_textFields withField 1 (fun node => ⟨node, []⟩) (fun _ => rfl) node
  rw [decode?, reads.fieldsAt?, Option.bind_some, List.foldlM_append, first]
  exact foldlM_labels node entries [] nested

theorem decode?_encode (message : Registration) (short : Tellable message.encode)
    (ordered : message.labels.Ordered) : decode? message.encode = some message := by
  rw [encode, decode?_encodeWith message.labels message.node short,
    Table.ofEntries_eq message.labels ordered]

end Registration

end FaultInjection.Wire
