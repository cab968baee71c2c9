import FaultInjection.Proofs.Wire.Message
import Mathlib.Data.List.Sort

/-!
What is sent is received: each kind of message is read back from its bytes. Parts that are empty
are left out where they stand alone, but not where their being there tells something, as in a list.
-/

namespace FaultInjection

namespace Table

variable {α : Type}

/-- Tables that find the same are the same. -/
theorem eq_of_get? (first second : Table α) (ordered : first.Ordered) (orderly : second.Ordered)
    (same : ∀ key, first.get? key = second.get? key) : first = second := by
  have irrefl : Std.Irrefl fun entry later : String × α => entry.1 < later.1 :=
    ⟨fun entry => String.lt_irrefl entry.1⟩
  have antisymm : Std.Antisymm fun entry later : String × α => entry.1 < later.1 :=
    ⟨fun _ _ before after => (String.lt_asymm before after).elim⟩
  apply List.Pairwise.eq_of_mem_iff ordered orderly
  rintro ⟨key, value⟩
  rw [first.mem_iff_get? ordered, second.mem_iff_get? orderly, same]

/-- The entries of a table may come in any order. -/
theorem ofEntries_perm (table : Table α) (ordered : table.Ordered) (entries : List (String × α))
    (order : entries.Perm table) : ofEntries entries = table := by
  apply eq_of_get? _ _ (ofEntries_ordered entries) ordered
  intro key
  rw [get?_ofEntries]
  cases found : entries.reverse.find? (·.1 == key) with
  | none =>
      cases known : table.get? key with
      | none => rfl
      | some value =>
          have member := order.mem_iff.mpr (table.mem_of_get? key value known)
          have missed := List.find?_eq_none.mp found (key, value) (List.mem_reverse.mpr member)
          simp at missed
  | some entry =>
      have member := order.mem_iff.mp (List.mem_reverse.mp (List.mem_of_find?_eq_some found))
      have here : entry.1 = key := by simpa using List.find?_some found
      rw [← here, table.get?_of_mem ordered entry.1 entry.2 member]
      rfl

end Table

namespace Wire

theorem Assignment.decode?_told (message : Assignment) (short : Tellable message.encode) :
    decode? message.encode = some message :=
  message.decode?_encode (Assignment.countable short)

namespace Report

/-- A report that names no failure is told from one whose failure is empty. -/
theorem decode?_bare (reporter : String) (short : Tellable (encode ⟨reporter, none⟩)) :
    decode? (encode ⟨reporter, none⟩) = some ⟨reporter, none⟩ := by
  have reads : Reads (fun _ => false) 0 (encode ⟨reporter, none⟩) (textFields 1 reporter ++ []) :=
    (Reads.text (by decide) (by decide) _ short.left.text).append Reads.nil
  have first := foldlM_textFields withField 1 (fun reporter => ⟨reporter, none⟩) (fun _ => rfl)
    reporter
  rw [decode?, plainFields?, reads.fieldsAt?, Option.bind_some, List.append_nil, first]

theorem decode?_told (message : Report) (short : Tellable message.encode) :
    decode? message.encode = some message := by
  obtain ⟨reporter, assignment⟩ := message
  cases assignment with
  | none => exact decode?_bare reporter short
  | some assignment => exact decode?_encode reporter assignment short

end Report

/-- The labels of a registration are read back in whatever order they were written. -/
theorem Registration.decode?_shuffled (message : Registration) (ordered : message.labels.Ordered)
    (labels : List (String × String)) (order : labels.Perm message.labels)
    (short : Tellable (encodeWith labels message.node)) :
    decode? (encodeWith labels message.node) = some message := by
  rw [decode?_encodeWith labels message.node short,
    Table.ofEntries_perm message.labels ordered labels order]

/-- Every message is read back from its bytes, if their number can be told in 64 bits. The labels
of a registration may have been written in any order. -/
theorem message_read_back :
    (∀ message : Assignment, Tellable message.encode →
      Assignment.decode? message.encode = some message) ∧
    (∀ message : AssignmentList, Tellable message.encode →
      AssignmentList.decode? message.encode = some message) ∧
    (∀ message : Report, Tellable message.encode →
      Report.decode? message.encode = some message) ∧
    (∀ (message : Registration) (labels : List (String × String)), message.labels.Ordered →
      labels.Perm message.labels → Tellable (Registration.encodeWith labels message.node) →
        Registration.decode? (Registration.encodeWith labels message.node) = some message) ∧
    (∀ message : Heartbeat, Tellable message.encode →
      Heartbeat.decode? message.encode = some message) ∧
    ∀ message : NodeRef, Tellable message.encode →
      NodeRef.decode? message.encode = some message := by
  refine ⟨Assignment.decode?_told, AssignmentList.decode?_encode, Report.decode?_told, ?labels,
    Heartbeat.decode?_encode, NodeRef.decode?_encode⟩
  case labels =>
    intro message labels ordered order short
    exact message.decode?_shuffled ordered labels order short

/-- States that there are not, a list with an empty failure in it, an empty failure in a report
and none, labels without a name and without a value, and a time before 1970. -/
theorem message_read_back_odd :
    Assignment.decode? (Assignment.encode ⟨"é", "", "", -2147483648, 7, 18446744073709551615⟩) =
      some ⟨"é", "", "", -2147483648, 7, 18446744073709551615⟩ ∧
    AssignmentList.decode? (AssignmentList.encode ⟨[.empty, ⟨"b", "n", "", -1, 0, 1⟩, .empty]⟩) =
      some ⟨[.empty, ⟨"b", "n", "", -1, 0, 1⟩, .empty]⟩ ∧
    Report.decode? (Report.encode ⟨"", some .empty⟩) = some ⟨"", some .empty⟩ ∧
    Report.decode? (Report.encode ⟨"", none⟩) = some ⟨"", none⟩ ∧
    Registration.decode? (Registration.encodeWith [("zone", ""), ("", "a")] "n") =
      some ⟨"n", [("", "a"), ("zone", "")]⟩ ∧
    Heartbeat.decode? (Heartbeat.encode ⟨"n", -1⟩) = some ⟨"n", -1⟩ ∧
    NodeRef.decode? (NodeRef.encode ⟨""⟩) = some ⟨""⟩ := by
  obtain ⟨assignment, list, report, registration, heartbeat, node⟩ := message_read_back
  refine ⟨assignment _ (by decide +kernel), list _ (by decide +kernel),
    report _ (by decide +kernel), report _ (by decide +kernel),
    registration ⟨"n", [("", "a"), ("zone", "")]⟩ _ (by decide +kernel)
      (List.Perm.swap _ _ []) (by decide +kernel),
    heartbeat _ (by decide +kernel), node _ (by decide +kernel)⟩

end Wire

end FaultInjection
