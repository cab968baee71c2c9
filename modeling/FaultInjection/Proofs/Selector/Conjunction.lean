import FaultInjection.Proofs.Master.Listing
import FaultInjection.Proofs.Outcome
import FaultInjection.Proofs.Text.Split

/-!
Two selectors in one text. The text of both, with a comma between them, selects what the first and
the second have in common: among labels, among the nodes of a master and among its failures.
-/

namespace FaultInjection

/-! Reading two texts as one -/

namespace Selector

def both (one other : Selector) : Selector := ⟨one.requirements ++ other.requirements⟩

theorem parts_append (first second : List Char) :
    parts (first ++ ',' :: second) = parts first ++ parts second := by
  simp [parts, Text.splitAll_append]

theorem requirementsOf_append (first second : List (List Char)) :
    requirementsOf (first ++ second) =
      requirementsOf first >>= fun ones => (requirementsOf second).map (ones ++ ·) := by
  induction first with
  | nil =>
      change requirementsOf second = (requirementsOf second).map ([] ++ ·)
      cases requirementsOf second <;> rfl
  | cons part rest ih =>
      rw [List.cons_append, requirementsOf, requirementsOf, ih]
      cases requirement part with
      | error error => rfl
      | ok requirement =>
          cases requirementsOf rest with
          | error error => rfl
          | ok ones => cases requirementsOf second <;> rfl

theorem parse_append (first second : String) :
    parse (first ++ "," ++ second) =
      parse first >>= fun one => (parse second).map one.both := by
  have chars : (first ++ "," ++ second).toList = first.toList ++ ',' :: second.toList := by simp
  simp only [parse, chars, parts_append, requirementsOf_append]
  cases requirementsOf (parts first.toList) with
  | error error => rfl
  | ok ones => cases requirementsOf (parts second.toList) <;> rfl

/-! What is selected -/

variable (one other : Selector)

theorem accepts_both (labels : Labels) :
    (one.both other).accepts labels = (one.accepts labels && other.accepts labels) :=
  List.all_append

theorem isEmpty_both : (one.both other).isEmpty = (one.isEmpty && other.isEmpty) := by
  simp only [isEmpty, both]
  cases one.requirements <;> rfl

theorem accepts_of_isEmpty (selector : Selector) (empty : selector.isEmpty = true)
    (labels : Labels) : selector.accepts labels = true := by
  rw [accepts, List.isEmpty_iff.mp empty]
  rfl

end Selector

def Labels.extended (labels : Labels) (added : List (String × String)) : Labels :=
  added.foldl (fun table entry => table.put entry.1 entry.2) labels

theorem Labels.get?_extended (labels : Labels) (added : List (String × String)) (key : String)
    (untouched : ∀ entry ∈ added, entry.1 ≠ key) :
    (labels.extended added).get? key = labels.get? key := by
  induction added generalizing labels with
  | nil => rfl
  | cons entry rest ih =>
      obtain ⟨first, others⟩ := List.forall_mem_cons.mp untouched
      calc (labels.extended (entry :: rest)).get? key
        _ = (labels.put entry.1 entry.2).get? key := ih _ others
        _ = labels.get? key := by rw [Table.get?_put, if_neg first]

/-- Labels under new keys do no harm. -/
theorem Selector.accepts_extended (selector : Selector) (labels : Labels)
    (added : List (String × String)) (fresh : ∀ entry ∈ added, labels.get? entry.1 = none)
    (accepted : selector.accepts labels = true) :
    selector.accepts (labels.extended added) = true := by
  simp only [accepts, List.all_eq_true, decide_eq_true_eq] at accepted ⊢
  intro requirement member
  have found := accepted requirement member
  rw [labels.get?_extended added requirement.1 fun entry listed same => ?_, found]
  have absent := fresh entry listed
  rw [same, found] at absent
  cases absent

namespace Roster

variable (roster : Roster)

theorem mem_select_both (one other : Selector) (node : Node) :
    node ∈ roster.select (one.both other) ↔
      node ∈ roster.select one ∧ node ∈ roster.select other := by
  simp only [select, List.mem_filter, Selector.accepts_both, Bool.and_eq_true]
  exact and_and_left

theorem select_ascends (sound : roster.Sound) (selector : Selector) :
    (roster.select selector).Pairwise fun node later => node.id < later.id := by
  refine List.Pairwise.filter _ ?_
  rw [Table.values, List.map_map, List.pairwise_map]
  refine List.Pairwise.imp_of_mem ?_ sound.ordered
  intro entry later first second before
  rw [← sound.named entry first, ← sound.named later second] at before
  exact before

end Roster

namespace Master

variable (master : Master)

/-- Failures are admitted for both selectors if they are for each of them; an empty one admits all,
and leaves the other to decide. -/
theorem admits_both (one other : Selector) (node : String) :
    master.admits (one.both other) node =
      (master.admits one node && master.admits other node) := by
  simp only [admits, Selector.isEmpty_both]
  cases oneEmpty : one.isEmpty with
  | true =>
      cases master.roster.labels? node with
      | none => simp
      | some labels => simp [Selector.accepts_both, one.accepts_of_isEmpty oneEmpty]
  | false =>
      cases otherEmpty : other.isEmpty with
      | true =>
          cases master.roster.labels? node with
          | none => simp
          | some labels => simp [Selector.accepts_both, other.accepts_of_isEmpty otherEmpty]
      | false =>
          cases master.roster.labels? node with
          | none => simp
          | some labels => simp [Selector.accepts_both]

theorem mem_listFailures (inOrder : master.InOrder) (sound : master.ledger.Sound)
    (selector : Selector) (failure : Failure) :
    failure ∈ master.listFailures selector ↔ master.admits selector failure.node = true ∧
      master.ledger.get? failure.node failure.id = some failure := by
  rw [master.listFailures_eq inOrder.roster, (sound.filed inOrder.nodes).mem_list]

theorem listFailures_ascends (inOrder : master.InOrder) (sound : master.ledger.Sound)
    (selector : Selector) : (master.listFailures selector).Pairwise Failure.Precedes := by
  rw [master.listFailures_eq inOrder.roster]
  exact (sound.filed inOrder.nodes).list_sorted _

end Master

/-- A list has what two others have in common, and all three are in the same order. -/
structure Common {α : Type} (before : α → α → Prop) (both one other : List α) : Prop where
  mem : ∀ entry, entry ∈ both ↔ entry ∈ one ∧ entry ∈ other
  ascends : both.Pairwise before
  one : one.Pairwise before
  other : other.Pairwise before

namespace Selector

/-- A selector accepts the labels, and selects the nodes and the failures of a master, that two
others have in common. -/
structure Joins (master : Master) (both one other : Selector) : Prop where
  accepts : ∀ labels, both.accepts labels = true ↔
    one.accepts labels = true ∧ other.accepts labels = true
  nodes : Common (fun node later => node.id < later.id) (master.listNodes both)
    (master.listNodes one) (master.listNodes other)
  failures : Common Failure.Precedes (master.listFailures both) (master.listFailures one)
    (master.listFailures other)

structure Covers (master : Master) (all one : Selector) : Prop where
  nodes : master.listNodes one ⊆ master.listNodes all
  failures : master.listFailures one ⊆ master.listFailures all

theorem both_joins (master : Master) (inOrder : master.InOrder) (sound : master.ledger.Sound)
    (one other : Selector) : Joins master (one.both other) one other := by
  refine ⟨fun labels => ?_, ⟨?_, ?_, ?_, ?_⟩, ⟨fun failure => ?_, ?_, ?_, ?_⟩⟩
  · rw [accepts_both, Bool.and_eq_true]
  · exact master.roster.mem_select_both one other
  iterate 3 exact master.roster.select_ascends inOrder.roster _
  · simp only [master.mem_listFailures inOrder sound, master.admits_both, Bool.and_eq_true]
    exact and_and_right
  iterate 3 exact master.listFailures_ascends inOrder sound _

theorem empty_covers (master : Master) (inOrder : master.InOrder) (sound : master.ledger.Sound)
    (one : Selector) : Covers master ⟨[]⟩ one := by
  constructor
  · intro node selected
    exact List.mem_filter.mpr ⟨(List.mem_filter.mp selected).1, rfl⟩
  · intro failure selected
    rw [master.mem_listFailures inOrder sound] at selected ⊢
    exact ⟨rfl, selected.2⟩

/-- Two texts with a comma between them are a selector if both of them are one, and are refused for
the first that is not. On any master the selector of both selects what the first and the second have
in common; each selects a part of what the empty text does, and accepts labels with more keys. -/
theorem joined_selects_in_common (policy : LivenessPolicy) (operations : List Operation)
    (first second : String) :
    let master := (Master.empty policy).after operations
    (parse (first ++ "," ++ second)).isOk = ((parse first).isOk && (parse second).isOk) ∧
    (∀ error, parse first = .error error → parse (first ++ "," ++ second) = .error error) ∧
    (∀ one error, parse first = .ok one → parse second = .error error →
      parse (first ++ "," ++ second) = .error error) ∧
    (∀ one other, parse first = .ok one → parse second = .ok other →
      ∃ both, parse (first ++ "," ++ second) = .ok both ∧ Joins master both one other) ∧
    (∃ all, parse "" = .ok all ∧ ∀ one, parse first = .ok one → Covers master all one) ∧
    ∀ one, parse first = .ok one →
      ∀ labels added, (∀ entry ∈ added, labels.get? entry.1 = none) →
        one.accepts labels = true → one.accepts (labels.extended added) = true := by
  intro master
  have inOrder : master.InOrder := Master.after_inOrder _ operations (Master.empty_inOrder policy)
  have sound : master.ledger.Sound :=
    Master.after_ledger_sound _ operations Ledger.empty_sound
  rw [parse_append]
  refine ⟨?accepted, ?refused, ?alsoRefused, ?joined, ?covered, ?extended⟩
  case accepted =>
    cases parse first with
    | error error => rfl
    | ok one => exact isOk_map one.both (parse second)
  case refused =>
    intro error refused
    rw [refused]
    rfl
  case alsoRefused =>
    intro one error accepted refused
    rw [accepted, refused]
    rfl
  case joined =>
    intro one other accepted alsoAccepted
    refine ⟨one.both other, ?_, both_joins master inOrder sound one other⟩
    rw [accepted, alsoAccepted]
    rfl
  case covered => exact ⟨⟨[]⟩, rfl, fun one _ => empty_covers master inOrder sound one⟩
  case extended => exact fun one _ => one.accepts_extended

/-- Two nodes in one zone, and a failure on each of them and on a node that has not come yet. -/
def zoneOperations : List Operation :=
  [.call 0 (.register ⟨"front", [("tier", "web"), ("zone", "a")]⟩),
    .call 0 (.register ⟨"store", [("tier", "db"), ("zone", "a")]⟩),
    .request (.create "store" "leak" ⟨.empty, nofun⟩ .disabled),
    .request (.create "late" "spike" ⟨.empty, nofun⟩ .disabled),
    .request (.create "front" "spike" ⟨.empty, nofun⟩ .disabled)]

theorem joined_selects_in_common_zone :
    let master := (Master.empty .standard).after zoneOperations
    let one : Selector := ⟨[("zone", "a")]⟩
    let other : Selector := ⟨[("tier", "web")]⟩
    (∃ both, parse "zone=a, tier = web ," = .ok both ∧ Joins master both one other ∧
      (master.listFailures both).map (·.node) = ["front"]) ∧
    (master.listFailures one).map (·.node) = ["front", "store"] ∧
    (master.listFailures ⟨[]⟩).map (·.node) = ["front", "late", "store"] ∧
    Covers master ⟨[]⟩ one ∧
    one.accepts (Labels.extended [("zone", "a")] [("tier", "db")]) = true := by
  intro master one other
  have accepted : parse "zone=a" = .ok one := by decide +kernel
  have alsoAccepted : parse " tier = web ," = .ok other := by decide +kernel
  obtain ⟨_, _, _, joined, ⟨all, empty, covered⟩, extended⟩ :=
    joined_selects_in_common .standard zoneOperations "zone=a" " tier = web ,"
  obtain ⟨both, together, joins⟩ := joined one other accepted alsoAccepted
  have spelled : parse "zone=a, tier = web ," = .ok (one.both other) := by decide +kernel
  cases spelled.symm.trans together
  cases empty
  exact ⟨⟨one.both other, spelled, joins, by decide +kernel⟩, by decide +kernel,
    by decide +kernel, covered one accepted,
    extended one accepted [("zone", "a")] [("tier", "db")] (by decide) (by decide)⟩

end Selector

end FaultInjection
