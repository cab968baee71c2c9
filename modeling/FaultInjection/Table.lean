/-!
Finite maps with text keys, as lists of entries in ascending order of their keys.
-/

namespace FaultInjection

abbrev Table (α : Type) := List (String × α)

namespace Table

variable {α β : Type}

def get? : Table α → String → Option α
  | [], _ => none
  | (name, value) :: rest, key => if name = key then some value else get? rest key

def has (table : Table α) (key : String) : Bool := (table.get? key).isSome

def put : Table α → String → α → Table α
  | [], key, value => [(key, value)]
  | (name, old) :: rest, key, value =>
      if name = key then (key, value) :: rest
      else if key < name then (key, value) :: (name, old) :: rest
      else (name, old) :: put rest key value

def erase : Table α → String → Table α
  | [], _ => []
  | (name, value) :: rest, key =>
      if name = key then erase rest key else (name, value) :: erase rest key

/-- The table of some entries, of which the last under a key counts. -/
def ofEntries (entries : List (String × α)) : Table α :=
  entries.foldl (fun table entry => put table entry.1 entry.2) []

def keys (table : Table α) : List String := table.map (·.1)

def values (table : Table α) : List α := table.map (·.2)

/-- The keys ascend, so that each has one entry. -/
def Ordered (table : Table α) : Prop := table.Pairwise fun entry later => entry.1 < later.1

instance (table : Table α) : Decidable table.Ordered :=
  inferInstanceAs (Decidable (List.Pairwise _ _))

theorem get?_put (table : Table α) (key other : String) (value : α) :
    (table.put key value).get? other = if key = other then some value else table.get? other := by
  induction table with
  | nil => simp [put, get?]
  | cons entry rest ih =>
      obtain ⟨name, old⟩ := entry
      simp only [put]
      by_cases same : name = key
      · subst same
        by_cases hit : name = other <;> simp [get?, hit]
      · by_cases before : key < name
        · simp [same, before, get?]
        · simp only [same, before, ↓reduceIte, get?, ih]
          by_cases hit : name = other
          · have different : key ≠ other := fun wrong => same (hit.trans wrong.symm)
            simp [hit, different]
          · simp [hit]

theorem get?_erase (table : Table α) (key other : String) :
    (table.erase key).get? other = if key = other then none else table.get? other := by
  induction table with
  | nil => simp [erase, get?]
  | cons entry rest ih =>
      obtain ⟨name, value⟩ := entry
      simp only [erase, get?]
      by_cases same : name = key
      · subst same
        rw [if_pos rfl, ih]
        by_cases hit : name = other <;> simp [hit]
      · rw [if_neg same, get?, ih]
        by_cases hit : name = other
        · have different : key ≠ other := fun wrong => same (hit.trans wrong.symm)
          simp [hit, different]
        · simp [hit]

theorem mem_of_get? (table : Table α) (key : String) (value : α)
    (found : table.get? key = some value) : (key, value) ∈ table := by
  induction table with
  | nil => cases found
  | cons entry rest ih =>
      obtain ⟨name, first⟩ := entry
      simp only [get?] at found
      by_cases same : name = key
      · simp only [same, ↓reduceIte, Option.some.injEq] at found
        subst same found
        exact List.mem_cons_self
      · simp only [same, ↓reduceIte] at found
        exact List.mem_cons_of_mem _ (ih found)

theorem mem_put (table : Table α) (key : String) (value : α) (entry : String × α)
    (member : entry ∈ table.put key value) : entry = (key, value) ∨ entry ∈ table := by
  induction table with
  | nil => exact Or.inl (List.mem_singleton.mp member)
  | cons first rest ih =>
      obtain ⟨name, old⟩ := first
      simp only [put] at member
      split at member
      · rcases List.mem_cons.mp member with new | kept
        · exact Or.inl new
        · exact Or.inr (List.mem_cons_of_mem _ kept)
      · split at member
        · exact List.mem_cons.mp member
        · rcases List.mem_cons.mp member with head | later
          · exact Or.inr (head ▸ List.mem_cons_self)
          · exact (ih later).imp_right (List.mem_cons_of_mem _)

theorem mem_ofEntries (entries : List (String × α)) (entry : String × α)
    (member : entry ∈ ofEntries entries) : entry ∈ entries := by
  have general : ∀ table : Table α,
      entry ∈ entries.foldl (fun table entry => put table entry.1 entry.2) table →
        entry ∈ entries ∨ entry ∈ table := by
    clear member
    induction entries with
    | nil => exact fun table old => Or.inr old
    | cons first rest ih =>
        intro table found
        rcases ih (table.put first.1 first.2) found with later | before
        · exact Or.inl (List.mem_cons_of_mem first later)
        · rcases table.mem_put first.1 first.2 entry before with new | old
          · exact Or.inl (new ▸ List.mem_cons_self)
          · exact Or.inr old
  rcases general [] member with found | absent
  · exact found
  · cases absent

theorem mem_keys_iff (table : Table α) (key : String) :
    key ∈ table.keys ↔ (table.get? key).isSome = true := by
  induction table with
  | nil => simp [keys, get?]
  | cons entry rest ih =>
      obtain ⟨name, value⟩ := entry
      by_cases same : name = key
      · simp [keys, get?, same]
      · have different : ¬ key = name := fun wrong => same wrong.symm
        simpa [keys, get?, same, different] using ih

/-- A value put under a key leaves the other keys where they are. -/
theorem keys_put_filter (table : Table α) (key : String) (value : α) (keep : String → Bool)
    (dropped : keep key = false) :
    (table.put key value).keys.filter keep = table.keys.filter keep := by
  induction table with
  | nil => simp [put, keys, dropped]
  | cons entry rest ih =>
      obtain ⟨name, old⟩ := entry
      simp only [keys] at ih
      simp only [put]
      split
      next same => simp [keys, same, dropped]
      next =>
        split
        · simp [keys, dropped]
        · simp [keys, List.filter_cons, ih]

theorem keys_erase_filter (table : Table α) (key : String) (keep : String → Bool)
    (dropped : keep key = false) :
    (table.erase key).keys.filter keep = table.keys.filter keep := by
  induction table with
  | nil => rfl
  | cons entry rest ih =>
      obtain ⟨name, value⟩ := entry
      simp only [keys] at ih
      simp only [erase]
      split
      next same => simp [keys, same, dropped, ih]
      next => simp [keys, List.filter_cons, ih]

theorem get?_map (table : Table α) (change : α → β) (key : String) :
    get? (table.map fun entry => (entry.1, change entry.2)) key =
      (table.get? key).map change := by
  induction table with
  | nil => rfl
  | cons entry rest ih =>
      obtain ⟨name, value⟩ := entry
      by_cases same : name = key
      · simp [get?, same]
      · simpa [get?, same] using ih

theorem eq_nil_of_absent (table : Table α) (absent : ∀ key, table.get? key = none) :
    table = [] := by
  cases table with
  | nil => rfl
  | cons entry rest => simpa [get?] using absent entry.1

theorem put_put (table : Table α) (key : String) (first second : α) :
    (table.put key first).put key second = table.put key second := by
  induction table with
  | nil => simp [put]
  | cons entry rest ih =>
      obtain ⟨name, old⟩ := entry
      simp only [put]
      split
      · simp [put]
      · split
        · simp [put]
        next different after => simp [put, different, after, ih]

theorem erase_put (table : Table α) (key : String) (value : α) :
    (table.put key value).erase key = table.erase key := by
  induction table with
  | nil => simp [put, erase]
  | cons entry rest ih =>
      obtain ⟨name, old⟩ := entry
      simp only [put]
      split
      next same => simp [erase, same]
      next different =>
        split
        · simp [erase]
        · simp [erase, different, ih]

/-! Ordered tables -/

theorem mem_erase (table : Table α) (key : String) (entry : String × α)
    (member : entry ∈ table.erase key) : entry ∈ table := by
  induction table with
  | nil => exact member
  | cons first rest ih =>
      obtain ⟨name, value⟩ := first
      simp only [erase] at member
      split at member
      · exact List.mem_cons_of_mem _ (ih member)
      · rcases List.mem_cons.mp member with head | later
        · exact head ▸ List.mem_cons_self
        · exact List.mem_cons_of_mem _ (ih later)

theorem put_ordered (table : Table α) (key : String) (value : α) (ordered : table.Ordered) :
    (table.put key value).Ordered := by
  induction table with
  | nil => exact List.pairwise_singleton _ _
  | cons entry rest ih =>
      obtain ⟨name, old⟩ := entry
      obtain ⟨first, others⟩ := List.pairwise_cons.mp ordered
      simp only [put]
      split
      next same =>
        subst same
        exact List.pairwise_cons.mpr ⟨first, others⟩
      next different =>
        split
        next before =>
          refine List.pairwise_cons.mpr ⟨?_, ordered⟩
          intro later member
          rcases List.mem_cons.mp member with rfl | rest
          · exact before
          · exact String.lt_trans before (first later rest)
        next after =>
          refine List.pairwise_cons.mpr ⟨?_, ih others⟩
          intro later member
          rcases mem_put rest key value later member with rfl | old
          · exact Std.lt_of_le_of_ne after different
          · exact first later old

theorem erase_ordered (table : Table α) (key : String) (ordered : table.Ordered) :
    (table.erase key).Ordered := by
  induction table with
  | nil => exact ordered
  | cons entry rest ih =>
      obtain ⟨name, value⟩ := entry
      obtain ⟨first, others⟩ := List.pairwise_cons.mp ordered
      simp only [erase]
      split
      · exact ih others
      · exact List.pairwise_cons.mpr
          ⟨fun later member => first later (mem_erase rest key later member), ih others⟩

theorem keys_nodup (table : Table α) (ordered : table.Ordered) : table.keys.Nodup := by
  refine List.pairwise_map.mpr (ordered.imp ?_)
  intro entry later before same
  rw [same] at before
  exact String.lt_irrefl _ before

theorem get?_of_mem (table : Table α) (ordered : table.Ordered) (key : String) (value : α)
    (member : (key, value) ∈ table) : table.get? key = some value := by
  induction table with
  | nil => cases member
  | cons entry rest ih =>
      obtain ⟨first, others⟩ := List.pairwise_cons.mp ordered
      rcases List.mem_cons.mp member with rfl | later
      · simp [get?]
      · have different : ¬ entry.1 = key := String.ne_of_lt (first (key, value) later)
        simp only [get?, different, ↓reduceIte]
        exact ih others later

theorem mem_iff_get? (table : Table α) (ordered : table.Ordered) (key : String) (value : α) :
    (key, value) ∈ table ↔ table.get? key = some value :=
  ⟨table.get?_of_mem ordered key value, table.mem_of_get? key value⟩

theorem keys_ascend (table : Table α) (ordered : table.Ordered) :
    table.keys.Pairwise fun key later => key < later :=
  List.pairwise_map.mpr ordered

theorem filter_ordered (table : Table α) (keep : String × α → Bool) (ordered : table.Ordered) :
    Ordered (table.filter keep) :=
  List.Pairwise.filter _ ordered

theorem erase_absent (table : Table α) (key : String) (absent : table.get? key = none) :
    table.erase key = table := by
  induction table with
  | nil => rfl
  | cons entry rest ih =>
      obtain ⟨name, value⟩ := entry
      simp only [get?] at absent
      split at absent
      · cases absent
      next different => rw [erase, if_neg different, ih absent]

/-- To put what is there already changes nothing. -/
theorem put_same (table : Table α) (key : String) (value : α) (ordered : table.Ordered)
    (found : table.get? key = some value) : table.put key value = table := by
  induction table with
  | nil => cases found
  | cons entry rest ih =>
      obtain ⟨name, first⟩ := entry
      obtain ⟨before, others⟩ := List.pairwise_cons.mp ordered
      simp only [get?] at found
      split at found
      next same =>
        cases found
        rw [put, if_pos same, same]
      next different =>
        have later := before (key, value) (mem_of_get? rest key value found)
        rw [put, if_neg different, if_neg (String.lt_asymm later), ih others found]

theorem put_perm (table : Table α) (key : String) (value : α) (absent : table.get? key = none) :
    (table.put key value).Perm ((key, value) :: table) := by
  induction table with
  | nil => exact List.Perm.refl _
  | cons entry rest ih =>
      obtain ⟨name, old⟩ := entry
      simp only [get?] at absent
      split at absent
      · cases absent
      next different =>
        rw [put, if_neg different]
        split
        · exact List.Perm.refl _
        · exact ((ih absent).cons (name, old)).trans (List.Perm.swap (key, value) (name, old) rest)

theorem values_put_perm (table : Table α) (key : String) (value : α)
    (absent : table.get? key = none) : (table.put key value).values.Perm (value :: table.values) :=
  (table.put_perm key value absent).map Prod.snd

/-- A value takes the place of the one that was under its key. -/
theorem values_replace_perm (table : Table α) (key : String) (old value : α)
    (found : table.get? key = some old) (ordered : table.Ordered) :
    (old :: (table.put key value).values).Perm (value :: table.values) := by
  induction table with
  | nil => cases found
  | cons entry rest ih =>
      obtain ⟨name, first⟩ := entry
      obtain ⟨before, others⟩ := List.pairwise_cons.mp ordered
      simp only [get?] at found
      split at found
      next same =>
        cases found
        rw [put, if_pos same]
        exact List.Perm.swap value old (values rest)
      next different =>
        have later := before (key, old) (mem_of_get? rest key old found)
        rw [put, if_neg different, if_neg (String.lt_asymm later)]
        calc (old :: first :: (put rest key value).values).Perm
              (first :: old :: (put rest key value).values) := List.Perm.swap _ _ _
          List.Perm _ (first :: value :: (values rest)) := (ih found others).cons first
          List.Perm _ (value :: first :: (values rest)) := List.Perm.swap _ _ _

theorem values_erase_perm (table : Table α) (key : String) (value : α)
    (found : table.get? key = some value) (ordered : table.Ordered) :
    (value :: (table.erase key).values).Perm table.values := by
  induction table with
  | nil => cases found
  | cons entry rest ih =>
      obtain ⟨name, first⟩ := entry
      obtain ⟨before, others⟩ := List.pairwise_cons.mp ordered
      simp only [get?] at found
      split at found
      next same =>
        cases found
        have gone : get? rest key = none := by
          cases again : get? rest key with
          | none => rfl
          | some other =>
              have later := before (key, other) (mem_of_get? rest key other again)
              rw [same] at later
              exact absurd later (String.lt_irrefl key)
        rw [erase, if_pos same, erase_absent rest key gone]
        exact List.Perm.refl _
      next different =>
        rw [erase, if_neg different]
        exact (List.Perm.swap first value _).trans ((ih found others).cons first)

theorem put_ne_nil (table : Table α) (key : String) (value : α) : table.put key value ≠ [] := by
  intro nothing
  have found := table.get?_put key key value
  rw [nothing, if_pos rfl] at found
  cases found

/-- The entries of a table are found in whatever order they come. -/
theorem get?_of_perm (table : Table α) (ordered : table.Ordered) (entries : List (String × α))
    (order : entries.Perm table) (key : String) : get? entries key = table.get? key := by
  cases found : get? entries key with
  | some value =>
      have member := order.mem_iff.mp (mem_of_get? entries key value found)
      exact (table.get?_of_mem ordered key value member).symm
  | none =>
      cases known : table.get? key with
      | none => rfl
      | some value =>
          have member := order.mem_iff.mpr (table.mem_of_get? key value known)
          have listed := (mem_keys_iff entries key).mp (List.mem_map.mpr ⟨_, member, rfl⟩)
          rw [found] at listed
          cases listed

theorem put_last (table : Table α) (key : String) (value : α)
    (last : ∀ entry ∈ table, entry.1 < key) : table.put key value = table ++ [(key, value)] := by
  induction table with
  | nil => rfl
  | cons entry rest ih =>
      obtain ⟨name, old⟩ := entry
      have before := last (name, old) List.mem_cons_self
      have tail := ih fun later member => last later (List.mem_cons_of_mem _ member)
      simp [put, String.ne_of_lt before, String.lt_asymm before, tail]

theorem ofEntries_ordered (entries : List (String × α)) : (ofEntries entries).Ordered := by
  have general : ∀ table : Table α, table.Ordered →
      Ordered (entries.foldl (fun table entry => put table entry.1 entry.2) table) := by
    induction entries with
    | nil => exact fun table ordered => ordered
    | cons first rest ih =>
        exact fun table ordered => ih _ (put_ordered table first.1 first.2 ordered)
  exact general [] List.Pairwise.nil

/-- Entries in ascending order are a table as they are. -/
theorem ofEntries_eq (table : Table α) (ordered : table.Ordered) : ofEntries table = table := by
  have general : ∀ front : Table α, Ordered (front ++ table) →
      table.foldl (fun table entry => put table entry.1 entry.2) front = front ++ table := by
    clear ordered
    induction table with
    | nil => intro front _; simp
    | cons entry rest ih =>
        intro front ordered
        have last : ∀ earlier ∈ front, earlier.1 < entry.1 := fun earlier member =>
          (List.pairwise_append.mp ordered).2.2 earlier member entry List.mem_cons_self
        rw [List.foldl_cons, put_last front entry.1 entry.2 last, ih]
        · simp
        · simpa using ordered
  exact general [] ordered

/-- Entries with different keys are all in their table. -/
theorem ofEntries_perm_self (entries : List (String × α)) (distinct : (entries.map (·.1)).Nodup) :
    (ofEntries entries).Perm entries := by
  have general : ∀ table : Table α, (∀ entry ∈ entries, table.get? entry.1 = none) →
      (entries.foldl (fun table entry => put table entry.1 entry.2) table).Perm
        (entries ++ table) := by
    induction entries with
    | nil => exact fun table _ => List.Perm.refl table
    | cons first rest ih =>
        intro table absent
        obtain ⟨fresh, others⟩ := List.nodup_cons.mp distinct
        obtain ⟨here, later⟩ := List.forall_mem_cons.mp absent
        refine (ih others (table.put first.1 first.2) fun entry member => ?_).trans ?_
        · have different : first.1 ≠ entry.1 := fun same =>
            fresh (List.mem_map.mpr ⟨entry, member, same.symm⟩)
          rw [get?_put, if_neg different, later entry member]
        · exact ((table.put_perm first.1 first.2 here).append_left rest).trans
            List.perm_middle
  simpa [ofEntries] using general [] fun _ _ => rfl

/-- Of several entries under one key the last one counts. -/
theorem get?_ofEntries (entries : List (String × α)) (key : String) :
    (ofEntries entries).get? key = (entries.reverse.find? (·.1 == key)).map (·.2) := by
  have general : ∀ table : Table α,
      (entries.foldl (fun table entry => put table entry.1 entry.2) table).get? key =
        ((entries.reverse.find? (·.1 == key)).map (·.2)).or (table.get? key) := by
    induction entries with
    | nil => exact fun table => rfl
    | cons first rest ih =>
        intro table
        rw [List.foldl_cons, ih, get?_put, List.reverse_cons, List.find?_append]
        cases rest.reverse.find? (·.1 == key) with
        | some later => rfl
        | none => by_cases here : first.1 = key <;> simp [here]
  rw [ofEntries, general]
  cases (entries.reverse.find? (·.1 == key)).map (·.2) <;> rfl

/-- An entry counts if its key does not come again behind it. -/
theorem get?_ofEntries_eq_some_iff (entries : List (String × α)) (key : String) (value : α) :
    (ofEntries entries).get? key = some value ↔
      ∃ earlier later, entries = earlier ++ (key, value) :: later ∧
        ∀ entry ∈ later, entry.1 ≠ key := by
  rw [get?_ofEntries, Option.map_eq_some_iff]
  simp only [List.find?_eq_some_iff_append]
  constructor
  · rintro ⟨⟨name, _⟩, ⟨same, later, earlier, turned, others⟩, rfl⟩
    obtain rfl : name = key := by simpa using same
    refine ⟨earlier.reverse, later.reverse, ?_, fun entry member => ?_⟩
    · rw [← List.reverse_reverse entries, turned]
      simp
    · simpa using others entry (List.mem_reverse.mp member)
  · rintro ⟨earlier, later, rfl, others⟩
    refine ⟨(key, value), ⟨by simp, later.reverse, earlier.reverse, by simp, ?_⟩, rfl⟩
    intro entry member
    simpa using others entry (List.mem_reverse.mp member)

theorem mem_keys_ofEntries (entries : List (String × α)) (key : String) :
    key ∈ (ofEntries entries).keys ↔ ∃ value, (key, value) ∈ entries := by
  rw [mem_keys_iff, get?_ofEntries]
  simp

end Table

end FaultInjection
