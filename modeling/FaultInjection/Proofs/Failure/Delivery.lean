import FaultInjection.Failure.Assignment
import FaultInjection.Proofs.Duration
import FaultInjection.Proofs.Outcome
import FaultInjection.Proofs.Yaml.Canonical
import FaultInjection.Proofs.Yaml.Sameness

/-!
What becomes of a failure on its way to its node. Its specification travels as text; if the text
reads back as the value that was written, then the node gets an equal specification.
-/

namespace FaultInjection

open Yaml

theorem Options.sameEntries_refl (options : Options) : sameEntries options options = true := by
  induction options with
  | nil => rfl
  | cons option rest ih => simp [sameEntries, Value.same_refl, ih]

theorem AttackMap.same_refl (map : AttackMap) : map.same map = true := by
  induction map with
  | nil => rfl
  | cons attack rest ih =>
      obtain ⟨kind, options⟩ := attack
      cases options with
      | none => simp [AttackMap.same, sameOptions, ih]
      | some options => simp [AttackMap.same, sameOptions, Options.sameEntries_refl, ih]

theorem Options.sameEntries_trans (a b c : Options) (first : sameEntries a b = true)
    (second : sameEntries b c = true) : sameEntries a c = true := by
  induction a generalizing b c with
  | nil => cases b <;> cases c <;> simp_all [sameEntries]
  | cons option rest ih =>
      cases b with
      | nil => simp [sameEntries] at first
      | cons middle others =>
          cases c with
          | nil => simp [sameEntries] at second
          | cons last tail =>
              simp only [sameEntries, Bool.and_eq_true, beq_iff_eq] at first second ⊢
              exact ⟨⟨first.1.1.trans second.1.1, Value.same_trans _ _ _ first.1.2 second.1.2⟩,
                ih others tail first.2 second.2⟩

theorem AttackMap.sameOptions_trans (a b c : Option Options) (first : sameOptions a b = true)
    (second : sameOptions b c = true) : sameOptions a c = true := by
  cases a <;> cases b <;> cases c <;> simp only [sameOptions, Bool.false_eq_true] at first second ⊢
  exact Options.sameEntries_trans _ _ _ first second

theorem AttackMap.same_trans (a b c : AttackMap) (first : a.same b = true)
    (second : b.same c = true) : a.same c = true := by
  induction a generalizing b c with
  | nil => cases b <;> cases c <;> simp_all [AttackMap.same]
  | cons attack rest ih =>
      cases b with
      | nil => simp [AttackMap.same] at first
      | cons middle others =>
          cases c with
          | nil => simp [AttackMap.same] at second
          | cons last tail =>
              simp only [AttackMap.same, Bool.and_eq_true, beq_iff_eq] at first second ⊢
              exact ⟨⟨first.1.1.trans second.1.1,
                AttackMap.sameOptions_trans _ _ _ first.1.2 second.1.2⟩,
                ih others tail first.2 second.2⟩

namespace Specification

theorem sameAttacks_trans (a b c : List AttackMap) (first : sameAttacks a b = true)
    (second : sameAttacks b c = true) : sameAttacks a c = true := by
  induction a generalizing b c with
  | nil => cases b <;> cases c <;> simp_all [sameAttacks]
  | cons map rest ih =>
      cases b with
      | nil => simp [sameAttacks] at first
      | cons middle others =>
          cases c with
          | nil => simp [sameAttacks] at second
          | cons last tail =>
              simp only [sameAttacks, Bool.and_eq_true] at first second ⊢
              exact ⟨AttackMap.same_trans _ _ _ first.1 second.1, ih others tail first.2 second.2⟩

theorem same_refl (specification : Specification) :
    specification.same specification = true := by
  have attacks : ∀ maps : List AttackMap, sameAttacks maps maps = true := by
    intro maps
    induction maps with
    | nil => rfl
    | cons map rest ih => simp [sameAttacks, AttackMap.same_refl, ih]
  simp [same, attacks]

theorem same_trans (a b c : Specification) (first : a.same b = true) (second : b.same c = true) :
    a.same c = true := by
  simp only [same, Bool.and_eq_true, beq_iff_eq] at first second ⊢
  exact ⟨first.1.trans second.1, sameAttacks_trans _ _ _ first.2 second.2⟩

def Ordered (specification : Specification) : Prop :=
  ∀ map ∈ specification.attacks, ∀ entry ∈ map, ∀ options ∈ entry.2, Table.Ordered options

instance (specification : Specification) : Decidable specification.Ordered :=
  inferInstanceAs (Decidable (∀ map ∈ specification.attacks, ∀ entry ∈ map,
    ∀ options ∈ entry.2, Table.Ordered options))

def raw (specification : Specification) : RawSpecification :=
  ⟨if specification.timeout.isZero then none else some specification.timeout.text,
    some (.sequence (specification.attacks.map AttackMap.value))⟩

/-- The canonical text of the specification is read as the value that it was written from. -/
def ReadsBack (specification : Specification) : Prop :=
  ∀ text, specification.render = .ok text →
    (decodeDocument text fun document node =>
      decodeSpecification document nestingLimit .root node) = .ok specification.raw

end Specification

def Options.canonical (options : Options) : Options :=
  options.map fun option => (option.1, option.2.canonical)

theorem Options.ofEntries_value (options : Options) :
    ofEntries (options.map fun option => (.string option.1, option.2)) =
      .ok (canonical options) := by
  induction options with
  | nil => rfl
  | cons option rest ih =>
      simp only [List.map_cons, ofEntries, ih]
      rfl

theorem Options.canonical_same (options : Options) :
    sameEntries (canonical options) options = true := by
  induction options with
  | nil => rfl
  | cons option rest ih =>
      rw [canonical, List.map_cons, ← canonical, sameEntries, ih]
      simp [Value.canonical_same]

def AttackMap.canonical (map : AttackMap) : AttackMap :=
  map.map fun entry => (entry.1, entry.2.map Options.canonical)

theorem AttackMap.canonical_same (map : AttackMap) : map.canonical.same map = true := by
  induction map with
  | nil => rfl
  | cons attack rest ih =>
      obtain ⟨kind, options⟩ := attack
      rw [canonical, List.map_cons, ← canonical, AttackMap.same, ih]
      cases options with
      | none => simp [sameOptions]
      | some options => simp [sameOptions, Options.canonical_same]

theorem AttackMap.ofValue_value (map : AttackMap) (single : map.length = 1)
    (ordered : ∀ entry ∈ map, ∀ options ∈ entry.2, Table.Ordered options) :
    ofValue map.value = .ok map.canonical := by
  obtain ⟨⟨kind, options⟩, rfl⟩ := List.length_eq_one_iff.mp single
  cases options with
  | none => rfl
  | some options =>
      have sorted : Table.Ordered options := ordered _ List.mem_cons_self options rfl
      have ascending : Table.Ordered (Options.canonical options) := List.pairwise_map.mpr sorted
      simp only [value, List.map_cons, List.map_nil, ofValue, Options.ofEntries_value]
      change Except.ok (ofKind kind (some (Table.ofEntries _))) = _
      rw [Table.ofEntries_eq _ ascending]
      rfl

theorem attacksOfItems_value (maps : List AttackMap) (single : ∀ map ∈ maps, map.length = 1)
    (ordered : ∀ map ∈ maps, ∀ entry ∈ map, ∀ options ∈ entry.2, Table.Ordered options) :
    attacksOfItems (maps.map AttackMap.value) = .ok (maps.map AttackMap.canonical) := by
  induction maps with
  | nil => rfl
  | cons map rest ih =>
      have others := ih (fun later member => single later (List.mem_cons_of_mem map member))
        (fun later member => ordered later (List.mem_cons_of_mem map member))
      rw [List.map_cons, attacksOfItems, map.ofValue_value (single map List.mem_cons_self)
        (ordered map List.mem_cons_self), others]
      rfl

namespace Specification

def canonical (specification : Specification) : Specification :=
  ⟨specification.timeout, specification.attacks.map AttackMap.canonical⟩

theorem canonical_same (specification : Specification) :
    specification.canonical.same specification = true := by
  have attacks : ∀ maps : List AttackMap,
      sameAttacks (maps.map AttackMap.canonical) maps = true := by
    intro maps
    induction maps with
    | nil => rfl
    | cons map rest ih => rw [List.map_cons, sameAttacks, map.canonical_same, ih]; rfl
  simp [same, canonical, attacks]

/-- What is written is read as its canonical form. -/
theorem ofRaw_raw (specification : Specification) (single : specification.hasSingleMaps = true)
    (ordered : specification.Ordered) :
    ofRaw specification.raw = .ok specification.canonical := by
  have maps : ∀ map ∈ specification.attacks, map.length = 1 := fun map member =>
    of_decide_eq_true (List.all_eq_true.mp single map member)
  simp only [ofRaw, raw, attacksOfValue, attacksOfItems_value specification.attacks maps ordered]
  -- a timeout of no time is not written, and none is read as no time
  by_cases endless : specification.timeout.isZero = true
  · simp only [endless, ↓reduceIte, ← specification.timeout.eq_zero endless]
    rfl
  · simp only [endless, Bool.false_eq_true, ↓reduceIte, Duration.ofText,
      Duration.parse?_text]
    rfl

theorem single_of_rendered (specification : Specification) (document : Value) (text : String)
    (rendered : specification.renderValue document = .ok text) :
    specification.hasSingleMaps = true := by
  by_cases single : specification.hasSingleMaps = true
  · exact single
  · simp [renderValue, single] at rendered

theorem text_of_rendered (specification : Specification) (document : Value) (text : String)
    (rendered : specification.renderValue document = .ok text) : document.text? = some text := by
  unfold renderValue at rendered
  split at rendered
  · split at rendered
    next known => cases rendered; exact known
    next => cases rendered
  · cases rendered

theorem parse_render (specification : Specification) (text : String)
    (ordered : specification.Ordered) (readsBack : specification.ReadsBack)
    (rendered : specification.render = .ok text) : parse text = .ok specification.canonical := by
  have single := specification.single_of_rendered _ text rendered
  rw [parse, readsBack text rendered, ofDecoded, specification.ofRaw_raw single ordered]

end Specification

/-! What was read is in order and in its canonical form -/

structure AttackMap.Checked (map : AttackMap) : Prop where
  single : map.length = 1
  ordered : ∀ entry ∈ map, ∀ options ∈ entry.2, Table.Ordered options
  canonical : map.canonical = map

theorem Options.ofEntries_canonical (entries : List (Value × Value))
    (options : List (String × Value)) (read : ofEntries entries = .ok options) :
    ∀ option ∈ options, option.2.canonical = option.2 := by
  induction entries generalizing options with
  | nil => cases read; exact List.forall_mem_nil _
  | cons entry rest ih =>
      unfold ofEntries at read
      split at read
      next same => cases same
      next name value _ same =>
        cases same
        obtain ⟨others, later, made⟩ := (bind_eq_ok _ _ _).mp read
        cases made
        exact List.forall_mem_cons.mpr ⟨Value.canonical_canonical value, ih others later⟩
      next => cases read

theorem Options.canonical_self (options : Options)
    (each : ∀ option ∈ options, option.2.canonical = option.2) : canonical options = options := by
  refine (List.map_congr_left fun option member => ?_).trans (List.map_id options)
  rw [each option member]
  rfl

theorem AttackMap.ofValue_checked (value : Value) (map : AttackMap)
    (read : ofValue value = .ok map) : map.Checked := by
  unfold ofValue at read
  split at read
  · cases read
    refine ⟨rfl, ?_, rfl⟩
    rintro entry member options found
    cases List.mem_singleton.mp member
    cases found
  · obtain ⟨entries, known, made⟩ := (bind_eq_ok _ _ _).mp read
    cases made
    constructor
    case single => rfl
    case ordered =>
      rintro entry member options found
      cases List.mem_singleton.mp member
      cases found
      exact Table.ofEntries_ordered entries
    case canonical =>
      have each := Options.canonical_self (Table.ofEntries entries) fun option member =>
        Options.ofEntries_canonical _ entries known option (Table.mem_ofEntries _ _ member)
      simp only [AttackMap.canonical, ofKind, List.map_cons, List.map_nil, Option.map_some, each]
  · cases read

theorem attacksOfItems_checked (items : List Value) (maps : List AttackMap)
    (read : attacksOfItems items = .ok maps) : ∀ map ∈ maps, map.Checked := by
  induction items generalizing maps with
  | nil => cases read; exact List.forall_mem_nil _
  | cons item rest ih =>
      obtain ⟨first, readFirst, read⟩ := (bind_eq_ok _ _ _).mp read
      obtain ⟨others, readOthers, made⟩ := (bind_eq_ok _ _ _).mp read
      cases made
      exact List.forall_mem_cons.mpr
        ⟨AttackMap.ofValue_checked item first readFirst, ih others readOthers⟩

namespace Specification

theorem attacksOfValue_checked (value : Option Value) (maps : List AttackMap)
    (read : attacksOfValue value = .ok maps) : ∀ map ∈ maps, map.Checked := by
  unfold attacksOfValue at read
  split at read
  · cases read; exact List.forall_mem_nil _
  · cases read; exact List.forall_mem_nil _
  next items => exact attacksOfItems_checked items maps read
  · cases read

def Checked (specification : Specification) : Prop :=
  ∀ map ∈ specification.attacks, map.Checked

theorem ofRaw_checked (raw : RawSpecification) (specification : Specification)
    (read : ofRaw raw = .ok specification) : specification.Checked := by
  simp only [ofRaw] at read
  -- a timeout that is left out is read in one way, one that is given in another
  split at read
  all_goals
    obtain ⟨timeout, _, read⟩ := (bind_eq_ok _ _ _).mp read
    obtain ⟨attacks, readAttacks, made⟩ := (bind_eq_ok _ _ _).mp read
    cases made
    exact attacksOfValue_checked raw.attacks attacks readAttacks

theorem ofDecoded_checked (decoded : Except DefinitionFault RawSpecification)
    (specification : Specification) (read : ofDecoded decoded = .ok specification) :
    specification.Checked := by
  unfold ofDecoded at read
  split at read
  next raw => exact ofRaw_checked raw specification read
  next => cases read

theorem parseDefinition_ordered (text : String) (specification : Specification)
    (read : parseDefinition text = .ok specification) : specification.Ordered :=
  fun map member => (ofDecoded_checked _ specification read map member).ordered

end Specification

namespace Failure

theorem State.ofCode_code (state : State) : State.ofCode state.code = .ok state := by
  cases state <;> rfl

/-- What a node reads from the assignment of a failure. -/
theorem ofAssignment_toAssignment (failure : Failure) (assignment : Wire.Assignment)
    (ordered : failure.specification.Ordered) (readsBack : failure.specification.ReadsBack)
    (sent : failure.toAssignment = .ok assignment) :
    ∃ read, ofAssignment assignment = .ok { failure with specification := read } ∧
      read.same failure.specification = true := by
  obtain ⟨text, rendered, rfl⟩ := (map_eq_ok _ _ _).mp sent
  refine ⟨failure.specification.canonical, ?_, failure.specification.canonical_same⟩
  simp only [ofAssignment, State.ofCode_code,
    failure.specification.parse_render text ordered readsBack rendered]
  rfl

end Failure

end FaultInjection
