import FaultInjection.Proofs.Failure.Canonical
import FaultInjection.Proofs.Failure.Shape
import FaultInjection.Proofs.Yaml.Distinct

/-!
How far the canonical text of a definition is free of the order of mapping entries. The canonical
form of the attacks that were written is the value that is rendered, so that definitions with
rearranged options have the same text just if sorting leaves no choice in them.
-/

namespace FaultInjection

open Yaml

/-! Attacks as they are written, and as they are rendered -/

theorem Options.entry_injective : Function.Injective entry := by
  rintro ⟨name, value⟩ ⟨name', value'⟩ same
  cases same
  rfl

theorem Options.canonical_mapping (entries : List (Value × Value))
    (options : List (String × Value)) (same : canonicalEntries entries = options.map entry)
    (distinct : (entries.map (·.1)).Nodup) :
    (Value.mapping entries).canonical = .mapping ((Table.ofEntries options).map entry) := by
  have names : (entries.map (·.1)) = options.map fun option => .string option.1 := by
    have kept := congrArg (List.map (·.1)) same
    rwa [canonicalEntries_eq, List.map_map, List.map_map] at kept
  have apart : (options.map (·.1)).Nodup := by
    refine List.Nodup.of_map Value.string ?_
    rw [List.map_map]
    exact names ▸ distinct
  have order : ((Table.ofEntries options).map entry).Perm (options.map entry) :=
    (Table.ofEntries_perm_self options apart).map entry
  have ordered := Table.ofEntries_ordered options
  have sorted : Sorted ((Table.ofEntries options).map entry) := by
    refine List.pairwise_map.mpr (ordered.imp fun before => ?_)
    simp [entry, Value.sortKey, String.lt_asymm before]
  have sortKeys : (((Table.ofEntries options).map entry).map (·.1.sortKey)).Nodup := by
    rw [List.map_map]
    exact Table.keys_nodup _ ordered
  -- a table is in the order of its names, and there is one such order
  rw [Value.canonical, same, sortEntries_of_perm _ _ sortKeys order, sortEntries_of_sorted _ sorted]

def Yaml.Value.NamesApart (item : Value) : Prop :=
  ∀ kind entries, item = .mapping [(.string kind, .mapping entries)] → (entries.map (·.1)).Nodup

theorem Yaml.Value.Distinct.namesApart {item : Value} (distinct : item.Distinct) :
    item.NamesApart := by
  rintro kind entries rfl
  cases distinct with | mapping _ _ _ values =>
  cases values _ (List.mem_singleton.mpr rfl) with | mapping _ here _ _ =>
  exact here

theorem sortEntries_single (entry : Value × Value) : sortEntries [entry] = [entry] :=
  sortEntries_of_sorted _ (List.pairwise_singleton _ _)

theorem AttackMap.canonical_item (item : Value) (map : AttackMap)
    (accepted : ofValue item = .ok map) (apart : item.NamesApart) : item.canonical = map.value := by
  unfold ofValue at accepted
  split at accepted
  next kind =>
    cases accepted
    rw [Value.canonical, canonicalEntries, canonicalEntries, sortEntries_single]
    rfl
  next kind entries =>
    obtain ⟨options, read, accepted⟩ := (bind_eq_ok _ _ _).mp accepted
    cases accepted
    have same := (Options.ofEntries_decides entries).told options read
    rw [Value.canonical, canonicalEntries, canonicalEntries, sortEntries_single,
      Options.canonical_mapping entries options same (apart kind entries rfl)]
    rfl
  next => cases accepted

theorem AttackMap.value_injective : Function.Injective value := by
  intro first second same
  refine List.map_injective_iff.mpr ?_ (Value.mapping.inj same)
  rintro ⟨kind, options⟩ ⟨kind', options'⟩ alike
  have entries := List.map_injective_iff.mpr Options.entry_injective
  cases options <;> cases options' <;> simp at alike ⊢
  · exact alike
  · exact ⟨alike.1, entries alike.2⟩

theorem canonicalItems_accepted (items : List Value) (maps : List AttackMap)
    (accepted : attacksOfItems items = .ok maps) (apart : ∀ item ∈ items, item.NamesApart) :
    canonicalItems items = maps.map AttackMap.value := by
  induction items generalizing maps with
  | nil =>
      cases accepted
      rfl
  | cons item rest ih =>
      obtain ⟨first, read, accepted⟩ := (bind_eq_ok _ _ _).mp accepted
      obtain ⟨others, later, made⟩ := (bind_eq_ok _ _ _).mp accepted
      cases made
      obtain ⟨here, tail⟩ := List.forall_mem_cons.mp apart
      rw [canonicalItems, AttackMap.canonical_item item first read here, ih others later tail,
        List.map_cons]

/-! Rearranged attacks -/

/-- Texts stay where they are when entries are rearranged. -/
theorem Yaml.EntriesRearranged.names {entries others : List (Value × Value)}
    (moved : EntriesRearranged entries others) (named : NamedEntries entries) :
    others.map (·.1) = entries.map (·.1) := by
  induction entries generalizing others with
  | nil =>
      cases moved
      rfl
  | cons entry rest ih =>
      obtain ⟨⟨name, same⟩, tail⟩ := List.forall_mem_cons.mp named
      cases moved with | cons keyed valued later =>
      cases same
      cases keyed
      rw [List.map_cons, List.map_cons, ih later tail]

theorem Yaml.Value.IsAttack.rearranged {item other : Value} (attack : item.IsAttack)
    (apart : item.NamesApart) (moved : item.Rearranged other) :
    other.IsAttack ∧ other.NamesApart := by
  cases attack with | ofKind kind options fit =>
  obtain ⟨options', rfl, inside⟩ := moved.single_inv
  cases fit with
  | absent =>
      cases inside
      exact ⟨.ofKind kind .null .absent, nofun⟩
  | given entries named =>
      obtain ⟨middle, others, rfl, each, order⟩ := inside.mapping_inv
      have keys : (others.map (·.1)).Perm (entries.map (·.1)) :=
        each.names named ▸ (order.map (·.1)).symm
      constructor
      · refine .ofKind kind _ (.given others fun entry member => ?_)
        have known := keys.mem_iff.mp (List.mem_map_of_mem member)
        obtain ⟨old, there, same⟩ := List.mem_map.mp known
        exact same ▸ named old there
      · rintro _ _ ⟨⟩
        exact keys.nodup_iff.mpr (apart kind entries rfl)

theorem attacks_rearranged (items others : List Value) (attacks : ∀ item ∈ items, item.IsAttack)
    (apart : ∀ item ∈ items, item.NamesApart) (moved : ItemsRearranged items others) :
    (∀ other ∈ others, other.IsAttack) ∧ ∀ other ∈ others, other.NamesApart := by
  induction items generalizing others with
  | nil =>
      cases moved
      exact ⟨List.forall_mem_nil _, List.forall_mem_nil _⟩
  | cons item rest ih =>
      obtain ⟨attack, attacks⟩ := List.forall_mem_cons.mp attacks
      obtain ⟨here, apart⟩ := List.forall_mem_cons.mp apart
      cases moved with | cons first later =>
      have head := attack.rearranged here first
      have tail := ih _ attacks apart later
      exact ⟨List.forall_mem_cons.mpr ⟨head.1, tail.1⟩, List.forall_mem_cons.mpr ⟨head.2, tail.2⟩⟩

/-- Rearranged attacks are accepted, and come to the same just if their canonical form does. -/
theorem attacksOfValue_rearranged (attacks other : Value) (maps : List AttackMap)
    (accepted : attacksOfValue (some attacks) = .ok maps) (distinct : attacks.Distinct)
    (moved : attacks.Rearranged other) :
    ∃ found, attacksOfValue (some other) = .ok found ∧
      (found = maps ↔ other.canonical = attacks.canonical) := by
  have fit := (attacksOfValue_decides (some attacks)).isOk_iff.mp ((isOk_iff _).mpr ⟨_, accepted⟩)
  cases fit with
  | null =>
      cases moved
      exact ⟨maps, accepted, iff_of_true rfl rfl⟩
  | listed items each =>
      obtain ⟨others, rfl, later⟩ := moved.sequence_inv
      cases distinct with | sequence _ distinct =>
      have apart : ∀ item ∈ items, item.NamesApart := fun item member =>
        Value.Distinct.namesApart (distinct item member)
      have members := attacks_rearranged items others each apart later
      obtain ⟨found, read⟩ :=
        (isOk_iff _).mp ((attacksOfItems_decides others).isOk_iff.mpr members.1)
      refine ⟨found, read, ?_⟩
      -- the attacks can be told from the canonical form, on either side
      rw [Value.canonical, Value.canonical, canonicalItems_accepted others found read members.2,
        canonicalItems_accepted items maps accepted apart, Value.sequence.injEq,
        (List.map_injective_iff.mpr AttackMap.value_injective).eq_iff]

/-! Rearranged definitions -/

/-- The same specification but for the order of mapping entries in its attacks. -/
inductive RawSpecification.Rearranged : RawSpecification → RawSpecification → Prop
  | bare (timeout : Option String) : Rearranged ⟨timeout, none⟩ ⟨timeout, none⟩
  | listed (timeout : Option String) {attacks other : Value} (moved : attacks.Rearranged other) :
      Rearranged ⟨timeout, some attacks⟩ ⟨timeout, some other⟩

def RawSpecification.Sortable (raw : RawSpecification) : Prop :=
  ∀ attacks ∈ raw.attacks, attacks.Sortable

def rawDefinition (text : String) : Except DefinitionFault RawSpecification :=
  decodeDocument text fun document node => decodeDefinition document nestingLimit .root node

theorem rawDefinition_distinct (text : String) (raw : RawSpecification)
    (read : rawDefinition text = .ok raw) : raw.Distinct := by
  obtain ⟨⟨after, decoded⟩, _⟩ := (decodeDocument_eq_ok _ _ _).mp read
  exact decodeDefinition_distinct _ _ _ _ _ _ _ decoded

namespace Specification

theorem parseDefinition_of_raw (text : String) (raw : RawSpecification)
    (read : rawDefinition text = .ok raw) : parseDefinition text = ofRaw raw := by
  rw [rawDefinition] at read
  rw [parseDefinition, read, ofDecoded]

/-- A specification with rearranged attacks is accepted as well, and is the same just if the
canonical form of its attacks is. -/
theorem ofRaw_rearranged (raw other : RawSpecification) (specification : Specification)
    (accepted : ofRaw raw = .ok specification) (distinct : raw.Distinct)
    (moved : raw.Rearranged other) :
    ∃ alike, ofRaw other = .ok alike ∧ (alike = specification ↔
      other.attacks.map Value.canonical = raw.attacks.map Value.canonical) := by
  cases moved with
  | bare timeout => exact ⟨specification, accepted, iff_of_true rfl rfl⟩
  | listed timeout moved =>
      obtain ⟨timed, listed⟩ := (ofRaw_eq_ok _ _).mp accepted
      obtain ⟨maps, found, same⟩ := attacksOfValue_rearranged _ _ _ listed (distinct _ rfl) moved
      refine ⟨⟨specification.timeout, maps⟩, (ofRaw_eq_ok _ _).mpr ⟨timed, found⟩, ?_⟩
      rw [Option.map_some, Option.map_some, Option.some.injEq, ← same]
      constructor
      · intro alike
        rw [← alike]
      · rintro rfl
        rfl

/-- Attacks come to the same in every order just if sorting leaves no choice in them. -/
theorem sortable_iff_ofRaw (raw : RawSpecification) (specification : Specification)
    (accepted : ofRaw raw = .ok specification) (distinct : raw.Distinct) :
    raw.Sortable ↔ ∀ other, raw.Rearranged other → ofRaw other = .ok specification := by
  constructor
  · intro sortable other moved
    obtain ⟨alike, read, same⟩ := ofRaw_rearranged raw other specification accepted distinct moved
    rw [read, same.mpr ?_]
    cases moved with
    | bare timeout => rfl
    | listed timeout moved =>
        have settled := (Value.sortable_iff _ (distinct _ rfl)).mp (sortable _ rfl)
        exact congrArg some (settled _ moved)
  · intro settled attacks listed
    refine (attacks.sortable_iff (distinct attacks listed)).mpr fun other moved => ?_
    obtain ⟨timeout, known⟩ := raw
    cases listed
    have rearranged := RawSpecification.Rearranged.listed timeout moved
    obtain ⟨alike, read, same⟩ := ofRaw_rearranged _ _ specification accepted distinct rearranged
    have equal : alike = specification := Except.ok.inj (read.symm.trans (settled _ rearranged))
    exact Option.some.inj (same.mp equal)

/-- Specifications that were read from documents have different texts if they are different. -/
theorem eq_of_render (first second : Specification) (checked : first.Checked)
    (checked' : second.Checked) (readsBack : first.value.ReadsBack)
    (readsBack' : second.value.ReadsBack) (text : String) (rendered : first.render = .ok text)
    (rendered' : second.render = .ok text) : second = first := by
  have read := first.parse_render text checked.ordered (first.readsBack_of_value readsBack) rendered
  have again := second.parse_render text checked'.ordered (second.readsBack_of_value readsBack')
    rendered'
  rw [checked.canonical] at read
  rw [checked'.canonical] at again
  exact Except.ok.inj (again.symm.trans read)

/-- The canonical text of a definition does not depend on the order of mapping entries if sorting
leaves no choice in it. Otherwise some rearranged definition is accepted as another one, which
then has another text. -/
theorem canonical_text_of_rearranged (text : String) (raw : RawSpecification)
    (specification : Specification) (read : rawDefinition text = .ok raw)
    (accepted : parseDefinition text = .ok specification) :
    (raw.Sortable → ∀ other raw', rawDefinition other = .ok raw' → raw.Rearranged raw' →
      parseDefinition other = .ok specification ∧
      (parseDefinition other >>= render) = specification.render ∧
      (parseDefinition other >>= renderDefinition) = specification.renderDefinition) ∧
    (¬ raw.Sortable → ∃ raw' alike, raw.Rearranged raw' ∧ ofRaw raw' = .ok alike ∧
      alike ≠ specification ∧ (specification.value.ReadsBack → alike.value.ReadsBack →
        ∀ rendered, specification.render = .ok rendered → alike.render ≠ .ok rendered)) := by
  have distinct := rawDefinition_distinct text raw read
  rw [parseDefinition_of_raw text raw read] at accepted
  have ordered := sortable_iff_ofRaw raw specification accepted distinct
  constructor
  · intro sortable other raw' spelled moved
    have same := (parseDefinition_of_raw other raw' spelled).trans (ordered.mp sortable raw' moved)
    exact ⟨same, by rw [same]; rfl, by rw [same]; rfl⟩
  · intro unsortable
    rw [ordered] at unsortable
    push Not at unsortable
    obtain ⟨raw', moved, different⟩ := unsortable
    obtain ⟨alike, found, _⟩ := ofRaw_rearranged raw raw' specification accepted distinct moved
    refine ⟨raw', alike, moved, found, fun same => different (same ▸ found), ?_⟩
    intro readsBack readsBack' rendered first second
    refine different (found.trans (congrArg Except.ok ?_))
    exact eq_of_render specification alike (ofRaw_checked raw specification accepted)
      (ofRaw_checked raw' alike found) readsBack readsBack' rendered first second

def rawOption (timeout : Option String) (kind name : String) (value : Value) : RawSpecification :=
  ⟨timeout, some (.sequence [.mapping [(.string kind, .mapping [(.string name, value)])]])⟩

theorem rawOption_rearranged (timeout : Option String) (kind name : String) (value other : Value)
    (moved : value.Rearranged other) :
    (rawOption timeout kind name value).Rearranged (rawOption timeout kind name other) := by
  have options : (Value.mapping [(.string name, value)]).Rearranged
      (.mapping [(.string name, other)]) :=
    .mapping (.cons (.same _) moved .nil) (List.Perm.refl _)
  have attack : (Value.mapping [(.string kind, .mapping [(.string name, value)])]).Rearranged
      (.mapping [(.string kind, .mapping [(.string name, other)])]) :=
    .mapping (.cons (.same _) options .nil) (List.Perm.refl _)
  exact .listed timeout (.sequence (.cons attack .nil))

theorem sortable_named (entries : List (String × Value)) (apart : (entries.map (·.1)).Nodup)
    (each : ∀ entry ∈ entries, entry.2.Sortable) : (Value.named entries).Sortable := by
  refine .mapping _ ?_ ?_ ?_
  · rw [List.map_map]
    exact apart
  · exact List.forall_mem_map.mpr fun entry _ => .string entry.1
  · exact List.forall_mem_map.mpr each

theorem rawOption_sortable (timeout : Option String) (kind name : String) (value : Value)
    (sortable : value.Sortable) : (rawOption timeout kind name value).Sortable := by
  have options := sortable_named [(name, value)] (List.nodup_singleton _)
    (List.forall_mem_singleton.mpr sortable)
  have attack := sortable_named [(kind, _)] (List.nodup_singleton _)
    (List.forall_mem_singleton.mpr options)
  rintro attacks ⟨⟩
  exact .sequence _ (List.forall_mem_singleton.mpr attack)

/-- The loose definition with its mappings in order. -/
def sortedDefinition : String :=
  "spec:\n  attacks:\n  - load:\n      limits: \x7ba: [x, \x7bc: !unit 2, d: 1\x7d], b: 1\x7d\n" ++
    "  timeout: 90s\n"

theorem looseLimits_sortable : looseLimits.Sortable := by
  have inner := sortable_named [("d", .integer 1), ("c", .tagged "unit" (.integer 2))] (by decide)
    (by simpa using ⟨.integer 1, .tagged "unit" _ (.integer 2)⟩)
  exact sortable_named [("b", .integer 1), ("a", .sequence [.string "x", _])] (by decide)
    (by simpa using ⟨.integer 1, .sequence _ (by simpa using ⟨.string "x", inner⟩)⟩)

/-- A definition and its rearrangement are read as the same. -/
theorem canonical_text_of_rearranged_loose :
    rawDefinition looseDefinition = .ok looseRaw ∧
    parseDefinition looseDefinition = .ok looseSpecification ∧ looseRaw.Sortable ∧
    parseDefinition sortedDefinition = .ok looseSpecification ∧
    (parseDefinition sortedDefinition >>= render) = .ok looseBare ∧
    (parseDefinition sortedDefinition >>= renderDefinition) = .ok looseRooted := by
  have sortable : looseRaw.Sortable :=
    rawOption_sortable (some "90s") "load" "limits" looseLimits looseLimits_sortable
  have moved : looseRaw.Rearranged (rawOption (some "90s") "load" "limits" sortedLimits) :=
    rawOption_rearranged _ _ _ _ _ (looseLimits_sorted ▸ looseLimits.rearranged_canonical)
  have spelled : rawDefinition sortedDefinition =
      .ok (rawOption (some "90s") "load" "limits" sortedLimits) := by decide +kernel
  have unordered := (canonical_text_of_rearranged looseDefinition looseRaw looseSpecification
    looseDefinition_decoded looseSpecification_read).1 sortable sortedDefinition _ spelled moved
  rw [looseSpecification_written.1, looseSpecification_written.2] at unordered
  exact ⟨looseDefinition_decoded, looseSpecification_read, sortable, unordered⟩

/-- Definitions with a number and a text as keys, both sorted by the same text. -/
def numberFirst : String :=
  "spec:\n  attacks:\n  - custom:\n      settings:\n        1: a\n        \"1\\n\": b\n"

def textFirst : String :=
  "spec:\n  attacks:\n  - custom:\n      settings:\n        \"1\\n\": b\n        1: a\n"

/-- Entries whose sort keys do not descend stay in the order in which they were written. -/
theorem ofRaw_sorted (entries : List (Value × Value)) (sorted : Sorted entries)
    (canonical : ∀ entry ∈ entries, entry.2.canonical = entry.2) :
    ofRaw (rawOption none "custom" "settings" (.mapping entries)) =
      .ok ⟨.zero, [.ofKind "custom" (some [("settings", .mapping entries)])]⟩ := by
  have fixed : (Value.mapping entries).canonical = .mapping entries := by
    rw [Value.canonical, canonicalEntries_self entries canonical, sortEntries_of_sorted _ sorted]
  exact congrArg (fun settings : Value => Except.ok
    (⟨.zero, [.ofKind "custom" (some [("settings", settings)])]⟩ : Specification)) fixed

theorem canonical_text_depends_on_order :
    ¬ ∀ (text other : String) (raw raw' : RawSpecification) (specification alike : Specification),
      rawDefinition text = .ok raw → rawDefinition other = .ok raw' → raw.Rearranged raw' →
      parseDefinition text = .ok specification → parseDefinition other = .ok alike →
      alike.render = specification.render := by
  intro unordered
  let number : Value × Value := (.integer 1, .string "a")
  let text : Value × Value := (.string "1\n", .string "b")
  have first : rawDefinition numberFirst =
      .ok (rawOption none "custom" "settings" (.mapping [number, text])) := by decide +kernel
  have second : rawDefinition textFirst =
      .ok (rawOption none "custom" "settings" (.mapping [text, number])) := by decide +kernel
  have moved := rawOption_rearranged none "custom" "settings" _ _
    (.mapping (.same [number, text]) (List.Perm.swap text number []))
  have canonical : number.2.canonical = number.2 ∧ text.2.canonical = text.2 := ⟨rfl, rfl⟩
  have read := ofRaw_sorted [number, text] (List.pairwise_pair.mpr (by decide +kernel))
    (by simpa using canonical)
  have read' := ofRaw_sorted [text, number] (List.pairwise_pair.mpr (by decide +kernel))
    (by simpa using canonical.symm)
  have same := unordered numberFirst textFirst _ _ _ _ first second moved
    ((parseDefinition_of_raw _ _ first).trans read)
    ((parseDefinition_of_raw _ _ second).trans read')
  revert same
  decide +kernel

end Specification

end FaultInjection
