import FaultInjection.Yaml.Decode
import FaultInjection.Yaml.Printer
import FaultInjection.Proofs.Outcome

/-!
Nodes whose values are known. A node that has a text as its value is a scalar with that text, and
collections are read from collections; so the same node can be read as a field of a record.
-/

namespace FaultInjection.Yaml

theorem Decoding.bind_eq_ok {α β : Type} (first : Decoding α) (next : α → Decoding β)
    (count : Nat) (result : β × Nat) :
    (first >>= next) count = .ok result ↔
      ∃ value middle, first count = .ok (value, middle) ∧ next value middle = .ok result := by
  constructor
  · intro succeeded
    obtain ⟨⟨value, middle⟩, read, continued⟩ := (FaultInjection.bind_eq_ok _ _ _).mp succeeded
    exact ⟨value, middle, read, continued⟩
  · rintro ⟨value, middle, read, continued⟩
    exact (FaultInjection.bind_eq_ok _ _ _).mpr ⟨(value, middle), read, continued⟩

inductive Node.IsReal : Node → Prop where
  | scalar (tag : Option Bytes) (text : String) (style : ScalarStyle) :
      IsReal (.scalar tag text style)
  | sequence (tag : Option Bytes) (items : List Node) (whole : Bool) :
      IsReal (.sequence tag items whole)
  | mapping (tag : Option Bytes) (entries : List (Node × Node)) (whole : Bool) :
      IsReal (.mapping tag entries whole)
  | void : IsReal .void

theorem Document.follow_real (document : Document) (node : Node) (real : node.IsReal) :
    document.follow node = pure node := by
  cases real <;> rfl

/-- What a node is decoded to is what the node that it stands for is decoded to. -/
theorem decodeNode_target (document : Document) (inner : Option NodeDecoder) (path : Path)
    (node : Node) (count : Nat) (result : Value × Nat)
    (decoded : decodeNode document inner path node count = .ok result) :
    ∃ target middle, document.follow node count = .ok (target, middle) ∧ target.IsReal ∧
      decodeNode document inner path target middle = .ok result := by
  obtain ⟨target, middle, followed, rest⟩ := (Decoding.bind_eq_ok _ _ _ _).mp decoded
  have real : target.IsReal :=
    match target, rest with
    | .scalar tag text style, _ => .scalar tag text style
    | .sequence tag items whole, _ => .sequence tag items whole
    | .mapping tag entries whole, _ => .mapping tag entries whole
    | .void, _ => .void
    | .alias _, refused | .missing, refused => nomatch refused
  refine ⟨target, middle, followed, real, (Decoding.bind_eq_ok _ _ _ _).mpr ?_⟩
  exact ⟨target, middle, by rw [document.follow_real target real]; rfl, rest⟩

theorem Plain.value?_string (text content : String)
    (read : Plain.value? text = .ok (.string content)) :
    content = text ∧ text ≠ "" ∧ Plain.isNull text = false := by
  unfold Plain.value? at read
  split at read <;> cases read
  next meaning =>
    refine ⟨rfl, ?_⟩
    unfold Plain.ofText at meaning
    dsimp only at meaning
    split at meaning
    · cases meaning
    next present =>
      simp only [Bool.or_eq_true, beq_iff_eq, not_or, Bool.not_eq_true] at present
      exact present

theorem readPlain_value (text : String) (value : Value)
    (read : (match Plain.value? text with
      | .ok value => ScalarReading.value value
      | .error found => .found found) = .value value) : Plain.value? text = .ok value := by
  split at read
  next known => cases read; exact known
  next => cases read

/-- A scalar is read as its text, as what it means without quotes, or as what its standard tag
makes of it; none of these tags makes a text of it. -/
theorem readScalar_cases (tag : Option Bytes) (text : String) (style : ScalarStyle) (value : Value)
    (read : readScalar tag text style = .value value) :
    ((value = .string text ∨ Plain.value? text = .ok value) ∧ tag ≠ some (standardTag "null") ∧
      (tag = none → style = .plain → Plain.value? text = .ok value)) ∨
    ((scalarText? value).isSome = true ∧ ∀ content, value ≠ .string content) := by
  unfold readScalar at read
  cases tag with
  | none =>
      dsimp only at read
      by_cases plain : style = .plain
      · rw [if_pos plain] at read
        have known := readPlain_value text value read
        exact Or.inl ⟨Or.inr known, nofun, fun _ _ => known⟩
      · rw [if_neg plain] at read
        cases read
        exact Or.inl ⟨Or.inl rfl, nofun, fun _ bare => absurd bare plain⟩
  | some bytes =>
      dsimp only at read
      by_cases bool : bytes = standardTag "bool"
      · rw [if_pos bool] at read
        split at read <;> cases read
        exact Or.inr ⟨rfl, nofun⟩
      by_cases integer : bytes = standardTag "int"
      · rw [if_neg bool, if_pos integer] at read
        split at read <;> cases read
        exact Or.inr ⟨rfl, nofun⟩
      by_cases float : bytes = standardTag "float"
      · rw [if_neg bool, if_neg integer, if_pos float] at read
        split at read <;> cases read
        exact Or.inr ⟨rfl, nofun⟩
      by_cases null : bytes = standardTag "null"
      · rw [if_neg bool, if_neg integer, if_neg float, if_pos null] at read
        split at read <;> cases read
        exact Or.inr ⟨rfl, nofun⟩
      rw [if_neg bool, if_neg integer, if_neg float, if_neg null] at read
      -- what is left has no standard tag that gives it a meaning of its own
      have other : some bytes ≠ some (standardTag "null") := fun same => null (Option.some.inj same)
      by_cases marked : (startsWithMark bytes && decide (style = .plain)) = true
      · rw [if_pos marked] at read
        exact Or.inl ⟨Or.inr (readPlain_value text value read), other, nofun⟩
      · rw [if_neg marked] at read
        cases read
        exact Or.inl ⟨Or.inl rfl, other, nofun⟩

/-- No scalar is read as a collection or as a tagged value. -/
theorem readScalar_scalar (tag : Option Bytes) (text : String) (style : ScalarStyle)
    (value : Value) (read : readScalar tag text style = .value value) :
    (scalarText? value).isSome = true := by
  rcases readScalar_cases tag text style value read with ⟨rfl | known, _⟩ | ⟨scalar, _⟩
  · rfl
  · unfold Plain.value? at known
    split at known <;> cases known <;> rfl
  · exact scalar

/-- A scalar that is read as a text is that text, and is not taken for a missing value. -/
theorem readScalar_string (tag : Option Bytes) (text content : String) (style : ScalarStyle)
    (read : readScalar tag text style = .value (.string content)) :
    content = text ∧ isPresent (.scalar tag text style) = pure true := by
  rcases readScalar_cases tag text style _ read with ⟨meant, other, bare⟩ | ⟨_, different⟩
  · constructor
    · rcases meant with same | known
      · cases same
        rfl
      · exact (Plain.value?_string text content known).1
    · by_cases plain : style = .plain
      · cases tag with
        | none =>
            obtain ⟨_, present, written⟩ := Plain.value?_string text content (bare rfl plain)
            have some : (text != "" && !Plain.isNull text) = true := by simp [present, written]
            simp [isPresent, plain, some]
        | some bytes =>
            have kept : bytes ≠ standardTag "null" := fun null => other (null ▸ rfl)
            simp [isPresent, kept]
      · simp [isPresent, plain]
  · exact absurd rfl (different content)

def wrapped (tag : Option String) (value : Value) : Value :=
  match tag with
  | some name => .tagged name value
  | none => value

theorem wrapped_untagged (tag : Option String) (value other : Value)
    (untagged : other.isTagged = false) (same : other = wrapped tag value) :
    tag = none ∧ other = value := by
  cases tag with
  | none => exact ⟨rfl, same⟩
  | some name => rw [same] at untagged; cases untagged

theorem decodeNode_scalar (document : Document) (inner : Option NodeDecoder) (path : Path)
    (own : Option Bytes) (text : String) (style : ScalarStyle) (count : Nat) (value : Value)
    (after : Nat)
    (decoded : decodeNode document inner path (.scalar own text style) count =
      .ok (value, after)) :
    ∃ content, readScalar (if (localTag? own).isSome then none else own) text style =
        .value content ∧ value = wrapped (localTag? own) content ∧ after = count := by
  obtain ⟨target, middle, followed, rest⟩ := (Decoding.bind_eq_ok _ _ _ _).mp decoded
  cases followed
  obtain ⟨content, next, read, rest⟩ := (Decoding.bind_eq_ok _ _ _ _).mp rest
  cases rest
  change decodeScalar path (if (localTag? own).isSome then none else own) text style count =
    .ok (content, after) at read
  rw [decodeScalar] at read
  cases reading : readScalar (if (localTag? own).isSome then none else own) text style with
  | value known => rw [reading] at read; cases read; exact ⟨content, rfl, rfl, rfl⟩
  | found fault => rw [reading] at read; cases read
  | refused => rw [reading] at read; cases read

theorem decodeNode_items (document : Document) (inner : Option NodeDecoder) (path : Path)
    (own : Option Bytes) (items : List Node) (whole : Bool) (count : Nat)
    (value : Value) (after : Nat)
    (decoded : decodeNode document inner path (.sequence own items whole) count =
      .ok (value, after)) :
    ∃ decode values, inner = some decode ∧
      decodeItems decode path 0 items count = .ok (values, after) ∧
      value = wrapped (localTag? own) (.sequence values) := by
  cases inner with
  | none => cases decoded
  | some decode =>
      obtain ⟨target, middle, followed, rest⟩ := (Decoding.bind_eq_ok _ _ _ _).mp decoded
      cases followed
      obtain ⟨values, next, read, rest⟩ := (Decoding.bind_eq_ok _ _ _ _).mp rest
      obtain ⟨_, last, complete, rest⟩ := (Decoding.bind_eq_ok _ _ _ _).mp rest
      cases rest
      cases whole with
      | false => cases complete
      | true =>
          cases complete
          exact ⟨decode, values, rfl, read, rfl⟩

theorem decodeNode_entries (document : Document) (inner : Option NodeDecoder) (path : Path)
    (own : Option Bytes) (nodes : List (Node × Node)) (whole : Bool) (count : Nat)
    (value : Value) (after : Nat)
    (decoded : decodeNode document inner path (.mapping own nodes whole) count =
      .ok (value, after)) :
    ∃ decode entries, inner = some decode ∧ whole = true ∧
      decodeEntries decode path [] nodes count = .ok (entries, after) ∧
      value = wrapped (localTag? own) (.mapping entries) := by
  cases inner with
  | none => cases decoded
  | some decode =>
      obtain ⟨target, middle, followed, rest⟩ := (Decoding.bind_eq_ok _ _ _ _).mp decoded
      cases followed
      obtain ⟨values, next, read, rest⟩ := (Decoding.bind_eq_ok _ _ _ _).mp rest
      obtain ⟨_, last, complete, rest⟩ := (Decoding.bind_eq_ok _ _ _ _).mp rest
      cases rest
      cases whole with
      | false => cases complete
      | true =>
          cases complete
          exact ⟨decode, values, rfl, rfl, read, rfl⟩

/-- A node whose value is a text, once aliases are followed. -/
theorem decodeNode_string (document : Document) (inner : Option NodeDecoder) (path : Path)
    (target : Node) (real : target.IsReal) (count : Nat) (text : String) (after : Nat)
    (decoded : decodeNode document inner path target count = .ok (.string text, after)) :
    ∃ tag style, target = .scalar tag text style ∧ isPresent target = pure true ∧
      after = count := by
  cases real with
  | void => cases decoded
  | scalar own content style =>
      obtain ⟨value, read, same, rfl⟩ := decodeNode_scalar _ _ _ _ _ _ _ _ _ decoded
      obtain ⟨untagged, rfl⟩ := wrapped_untagged _ _ _ rfl same
      rw [untagged] at read
      obtain ⟨rfl, present⟩ := readScalar_string own content text style read
      exact ⟨own, style, rfl, present, rfl⟩
  | sequence own items whole =>
      obtain ⟨_, values, _, _, same⟩ := decodeNode_items _ _ _ _ _ _ _ _ _ decoded
      cases (wrapped_untagged _ _ _ rfl same).2
  | mapping own nodes whole =>
      obtain ⟨_, entries, _, _, _, same⟩ := decodeNode_entries _ _ _ _ _ _ _ _ _ decoded
      cases (wrapped_untagged _ _ _ rfl same).2

theorem decodeNode_sequence (document : Document) (inner : Option NodeDecoder) (path : Path)
    (target : Node) (real : target.IsReal) (count : Nat) (values : List Value) (after : Nat)
    (decoded : decodeNode document inner path target count = .ok (.sequence values, after)) :
    ∃ tag items whole, target = .sequence tag items whole := by
  cases real with
  | void => cases decoded
  | scalar own content style =>
      obtain ⟨value, read, same, _⟩ := decodeNode_scalar _ _ _ _ _ _ _ _ _ decoded
      cases (wrapped_untagged _ _ _ rfl same).2
      cases readScalar_scalar _ _ _ _ read
  | sequence own items whole => exact ⟨own, items, whole, rfl⟩
  | mapping own nodes whole =>
      obtain ⟨_, entries, _, _, _, same⟩ := decodeNode_entries _ _ _ _ _ _ _ _ _ decoded
      cases (wrapped_untagged _ _ _ rfl same).2

theorem decodeNode_mapping (document : Document) (inner : Option NodeDecoder) (path : Path)
    (target : Node) (real : target.IsReal) (count : Nat) (entries : List (Value × Value))
    (after : Nat)
    (decoded : decodeNode document inner path target count = .ok (.mapping entries, after)) :
    ∃ tag nodes decode, target = .mapping tag nodes true ∧ inner = some decode ∧
      decodeEntries decode path [] nodes count = .ok (entries, after) := by
  cases real with
  | void => cases decoded
  | scalar own content style =>
      obtain ⟨value, read, same, _⟩ := decodeNode_scalar _ _ _ _ _ _ _ _ _ decoded
      cases (wrapped_untagged _ _ _ rfl same).2
      cases readScalar_scalar _ _ _ _ read
  | sequence own items whole =>
      obtain ⟨_, values, _, _, same⟩ := decodeNode_items _ _ _ _ _ _ _ _ _ decoded
      cases (wrapped_untagged _ _ _ rfl same).2
  | mapping own nodes whole =>
      obtain ⟨decode, read, known, rfl, members, same⟩ :=
        decodeNode_entries _ _ _ _ _ _ _ _ _ decoded
      cases (wrapped_untagged _ _ _ rfl same).2
      exact ⟨own, nodes, decode, rfl, known, members⟩

def EntriesRead (decode : NodeDecoder) (path : Path) :
    List (Node × Node) → Nat → List (Value × Value) → Nat → Prop
  | [], count, [], after => count = after
  | (keyNode, valueNode) :: nodes, count, (key, value) :: entries, after =>
      ∃ keyed valued, decode path keyNode count = .ok (key, keyed) ∧
        decode (path.under keyNode) valueNode keyed = .ok (value, valued) ∧
        EntriesRead decode path nodes valued entries after
  | _, _, _, _ => False

theorem EntriesRead.nil {decode : NodeDecoder} {path : Path} {nodes : List (Node × Node)}
    {count after : Nat} (read : EntriesRead decode path nodes count [] after) :
    nodes = [] ∧ count = after := by
  cases nodes with
  | nil => exact ⟨rfl, read⟩
  | cons pair rest => exact read.elim

theorem EntriesRead.cons {decode : NodeDecoder} {path : Path} {nodes : List (Node × Node)}
    {count after : Nat} {entry : Value × Value} {entries : List (Value × Value)}
    (read : EntriesRead decode path nodes count (entry :: entries) after) :
    ∃ keyNode valueNode rest keyed valued, nodes = (keyNode, valueNode) :: rest ∧
      decode path keyNode count = .ok (entry.1, keyed) ∧
      decode (path.under keyNode) valueNode keyed = .ok (entry.2, valued) ∧
      EntriesRead decode path rest valued entries after := by
  cases nodes with
  | nil => exact read.elim
  | cons pair rest =>
      obtain ⟨keyed, valued, named, given, later⟩ := read
      exact ⟨pair.1, pair.2, rest, keyed, valued, rfl, named, given, later⟩

theorem decodeEntries_read (decode : NodeDecoder) (path : Path) (nodes : List (Node × Node))
    (before : List (Value × Value)) (count : Nat) (values : List (Value × Value)) (after : Nat)
    (decoded : decodeEntries decode path before nodes count = .ok (values, after)) :
    ∃ entries, values = before ++ entries ∧ EntriesRead decode path nodes count entries after := by
  induction nodes generalizing before count with
  | nil =>
      cases decoded
      exact ⟨[], (List.append_nil _).symm, rfl⟩
  | cons pair rest ih =>
      obtain ⟨keyNode, valueNode⟩ := pair
      obtain ⟨key, keyed, readKey, decoded⟩ := (Decoding.bind_eq_ok _ _ _ _).mp decoded
      split at decoded
      · cases decoded
      · obtain ⟨value, valued, readValue, decoded⟩ := (Decoding.bind_eq_ok _ _ _ _).mp decoded
        obtain ⟨entries, rfl, read⟩ := ih _ _ decoded
        exact ⟨(key, value) :: entries, by simp, keyed, valued, readKey, readValue, read⟩

/-! The same nodes as parts of a record -/

section

variable {document : Document} {depth : Nat} {path : Path} {node : Node} {count after : Nat}

theorem decodeValue_eq (document : Document) (depth : Nat) :
    ∃ inner, decodeValue document depth = decodeNode document inner := by
  cases depth with
  | zero => exact ⟨none, rfl⟩
  | succ depth => exact ⟨_, rfl⟩

theorem decodeFieldName_of_value {name : String}
    (decoded : decodeValue document depth path node count = .ok (.string name, after)) :
    decodeFieldName document path node count = .ok (name, after) := by
  obtain ⟨inner, same⟩ := decodeValue_eq document depth
  rw [same] at decoded
  obtain ⟨target, middle, followed, real, decoded⟩ := decodeNode_target _ _ _ _ _ _ decoded
  obtain ⟨tag, style, rfl, _, rfl⟩ := decodeNode_string _ _ _ _ real _ _ _ decoded
  exact (Decoding.bind_eq_ok _ _ _ _).mpr ⟨_, _, followed, rfl⟩

theorem decodeText?_of_value {text : String}
    (decoded : decodeValue document depth path node count = .ok (.string text, after)) :
    decodeText? document path node count = .ok (some text, after) := by
  obtain ⟨inner, same⟩ := decodeValue_eq document depth
  rw [same] at decoded
  obtain ⟨target, middle, followed, real, decoded⟩ := decodeNode_target _ _ _ _ _ _ decoded
  obtain ⟨tag, style, rfl, present, rfl⟩ := decodeNode_string _ _ _ _ real _ _ _ decoded
  refine (Decoding.bind_eq_ok _ _ _ _).mpr ⟨_, _, followed, ?_⟩
  exact (Decoding.bind_eq_ok _ _ _ _).mpr ⟨true, _, by rw [present]; rfl, rfl⟩

theorem decodeValue?_of_sequence {values : List Value}
    (decoded : decodeValue document depth path node count = .ok (.sequence values, after)) :
    decodeValue? document depth path node count = .ok (some (.sequence values), after) := by
  obtain ⟨inner, same⟩ := decodeValue_eq document depth
  rw [same] at decoded
  obtain ⟨target, middle, followed, real, decoded⟩ := decodeNode_target _ _ _ _ _ _ decoded
  obtain ⟨tag, items, whole, rfl⟩ := decodeNode_sequence _ _ _ _ real _ _ _ decoded
  refine (Decoding.bind_eq_ok _ _ _ _).mpr ⟨_, _, followed, ?_⟩
  refine (Decoding.bind_eq_ok _ _ _ _).mpr ⟨true, _, rfl, ?_⟩
  rw [← same] at decoded
  exact (Decoding.bind_eq_ok _ _ _ _).mpr ⟨_, _, decoded, rfl⟩

end

/-- A record is read from a mapping, field by field. -/
theorem decodeRecord_mapping {α : Type} (document : Document) (expected : Expected)
    (read : α → String → Path → Node → Decoding α) (empty record : α) (depth : Nat) (path : Path)
    (node : Node) (count middle after : Nat) (tag : Option Bytes) (nodes : List (Node × Node))
    (followed : document.follow node count = .ok (.mapping tag nodes true, middle))
    (fields : (nodes.foldlM (fun record entry => do
      let name ← decodeFieldName document path entry.1
      read record name (path.under entry.1) entry.2) empty : Decoding α) middle =
        .ok (record, after)) :
    decodeRecord document expected read empty (depth + 1) path node count =
      .ok (record, after) := by
  refine (Decoding.bind_eq_ok _ _ _ _).mpr ⟨_, _, followed, ?_⟩
  refine (Decoding.bind_eq_ok _ _ _ _).mpr ⟨_, _, fields, ?_⟩
  exact (Decoding.bind_eq_ok _ _ _ _).mpr ⟨_, _, rfl, rfl⟩

end FaultInjection.Yaml
