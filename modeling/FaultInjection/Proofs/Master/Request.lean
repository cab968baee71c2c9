import FaultInjection.Proofs.Master.Ledger

/-!
The requests of operators. A request that is refused changes nothing; one that is accepted changes
one failure.
-/

namespace FaultInjection

abbrev OrderedSpecification := { specification : Specification // specification.Ordered }

def OrderedSpecification.empty : OrderedSpecification := ⟨.empty, by decide⟩

inductive Request where
  | create (node id : String) (specification : OrderedSpecification) (expected : Failure.State)
  | apply (node id : String)
  | revert (node id : String)
  | update (node id : String) (specification : Option OrderedSpecification)
      (expected : Option Failure.State)
  | delete (node id : String)

namespace Request

def node : Request → String
  | create node _ _ _ | apply node _ | revert node _ | update node _ _ _ | delete node _ => node

def id : Request → String
  | create _ id _ _ | apply _ id | revert _ id | update _ id _ _ | delete _ id => id

def isCreate : Request → Bool
  | create _ _ _ _ => true
  | _ => false

def asksEnabled : Request → Bool
  | create _ _ _ expected => expected = .enabled
  | apply _ _ => true
  | update _ _ _ expected => expected = some .enabled
  | _ => false

def reply (request : Request) (master : Master) : Reply Failure :=
  match request with
  | create node id specification expected => master.createFailure node id specification.1 expected
  | apply node id => master.apply node id
  | revert node id => master.revert node id
  | update node id specification expected =>
      master.updateFailure node id (specification.map (·.1)) expected
  | delete node id => master.deleteFailure node id

def revised (specification : Option Specification) (expected : Option Failure.State)
    (failure : Failure) : Failure :=
  let respecified := match specification with
    | some specification => { failure with specification }
    | none => failure
  match expected with
  | some state => Ledger.expect respecified state
  | none => respecified

def effect (request : Request) (failure : Option Failure) : Option Failure :=
  match request with
  | create node id specification expected =>
      some ⟨node, id, specification.1, .unknown, expected, 0⟩
  | apply _ _ => failure.map (revised none (some .enabled))
  | revert _ _ => failure.map (revised none (some .disabled))
  | update _ _ specification expected => failure.map (revised (specification.map (·.1)) expected)
  | delete _ _ => none

end Request

namespace Master

theorem desired_eq_ok (state asked : Failure.State) (accepted : desired state = .ok asked) :
    asked = state ∧ state ≠ .unknown := by
  cases state <;> cases accepted <;> simp

theorem desired?_eq_ok (state asked : Option Failure.State)
    (accepted : desired? state = .ok asked) : asked = state ∧ state ≠ some .unknown := by
  cases state with
  | none => cases accepted; simp
  | some state =>
      obtain ⟨asked, desired, rfl⟩ := (map_eq_ok _ _ _).mp accepted
      obtain ⟨rfl, known⟩ := desired_eq_ok state asked desired
      exact ⟨rfl, fun wrong => known (Option.some.inj wrong)⟩

theorem deliverable_eq_ok (specification accepted : Specification)
    (rendered : deliverable specification = .ok accepted) : accepted = specification := by
  obtain ⟨_, _, same⟩ := (map_eq_ok _ _ _).mp rendered
  exact same.symm

theorem deliverable?_eq_ok (specification accepted : Option Specification)
    (rendered : deliverable? specification = .ok accepted) : accepted = specification := by
  cases specification with
  | none => cases rendered; rfl
  | some specification =>
      obtain ⟨accepted, delivered, rfl⟩ := (map_eq_ok _ _ _).mp rendered
      rw [deliverable_eq_ok specification accepted delivered]

theorem newFailure_eq_ok (node id : String) (specification : Specification)
    (expected : Failure.State) (failure : Failure)
    (made : newFailure node id specification expected = .ok failure) :
    failure = ⟨node, id, specification, .unknown, expected, 0⟩ ∧ expected ≠ .unknown := by
  unfold newFailure at made
  split at made
  · cases made
  · obtain ⟨asked, desired, made⟩ := (bind_eq_ok _ _ _).mp made
    obtain ⟨accepted, rendered, made⟩ := (bind_eq_ok _ _ _).mp made
    obtain ⟨rfl, known⟩ := desired_eq_ok expected asked desired
    cases deliverable_eq_ok specification accepted rendered
    cases made
    exact ⟨rfl, known⟩

theorem announce_error (master : Master) (change : Change)
    (written : Except Error (Failure × Ledger)) (error : Error)
    (refused : (master.announce change written).answer = .error error) :
    (master.announce change written).master = master := by
  unfold announce at refused ⊢
  split at refused
  · rfl
  · cases refused

theorem announce_ok (master : Master) (change : Change)
    (written : Except Error (Failure × Ledger)) (failure : Failure)
    (accepted : (master.announce change written).answer = .ok failure) :
    ∃ ledger, written = .ok (failure, ledger) ∧
      (master.announce change written).master = master.record ledger change failure := by
  unfold announce at accepted ⊢
  split at accepted
  · cases accepted
  · cases accepted
    exact ⟨_, rfl, rfl⟩

end Master

namespace Request

structure Done (request : Request) (before after : Master) : Prop where
  roster : after.roster = before.roster
  found : (before.ledger.get? request.node request.id).isSome = !request.isCreate
  ledger : ∀ node id, after.ledger.get? node id =
    if request.node = node ∧ request.id = id
    then request.effect (before.ledger.get? request.node request.id)
    else before.ledger.get? node id
  sound : before.ledger.Sound → after.ledger.Sound

theorem revised_fits (node id : String) (specification : Option Specification)
    (expected : Option Failure.State) (failure : Failure)
    (ordered : ∀ given ∈ specification, given.Ordered) (known : expected ≠ some .unknown)
    (fits : Ledger.Fits node id failure) :
    Ledger.Fits node id (revised specification expected failure) := by
  cases specification with
  | none =>
      cases expected with
      | none => exact fits
      | some state =>
          exact ⟨fits.node, fits.id, fun wrong => known (congrArg some wrong), fits.specification⟩
  | some given =>
      have sorted := ordered given rfl
      cases expected with
      | none => exact ⟨fits.node, fits.id, fits.expected, sorted⟩
      | some state =>
          exact ⟨fits.node, fits.id, fun wrong => known (congrArg some wrong), sorted⟩

/-- An update of the ledger that was accepted. -/
theorem announce_update (request : Request) (master : Master)
    (specification : Option Specification) (expected : Option Failure.State) (answer : Failure)
    (ordered : ∀ given ∈ specification, given.Ordered) (known : expected ≠ some .unknown)
    (old : request.isCreate = false)
    (effect : ∀ failure, request.effect failure = failure.map (revised specification expected))
    (accepted : (master.announce .updated
      (master.ledger.update request.node request.id specification expected)).answer = .ok answer) :
    request.Done master (master.announce .updated
      (master.ledger.update request.node request.id specification expected)).master := by
  obtain ⟨ledger, updated, same⟩ := master.announce_ok .updated _ answer accepted
  have modified : master.ledger.modify request.node request.id (revised specification expected) =
      .ok (answer, ledger) := updated
  obtain ⟨failure, found, changed, _⟩ := Ledger.modify_eq_ok _ _ _ _ _ _ modified
  rw [same]
  refine ⟨rfl, by simp [found, old], fun other key => ?_, fun sound => ?_⟩
  · rw [effect, found, Option.map_some, ← changed]
    exact Ledger.modify_get? _ _ _ _ _ _ modified other key
  · exact Ledger.modify_sound _ _ _ _ _ _ modified sound fun failure fits =>
      revised_fits _ _ specification expected failure ordered known fits

theorem announce_create (node id : String) (specification : OrderedSpecification)
    (expected : Failure.State) (master : Master) (answer : Failure)
    (known : expected ≠ .unknown) :
    let failure : Failure := ⟨node, id, specification.1, .unknown, expected, 0⟩
    let reply := master.announce .created ((master.ledger.create failure).map (failure, ·))
    reply.answer = .ok answer →
      (create node id specification expected).Done master reply.master := by
  intro failure reply accepted
  obtain ⟨ledger, written, same⟩ := master.announce_ok .created _ answer accepted
  obtain ⟨_, created, paired⟩ := (map_eq_ok _ _ _).mp written
  obtain ⟨_, rfl⟩ := Prod.mk.inj paired
  obtain ⟨absent, rfl⟩ := Ledger.create_eq_ok _ _ _ created
  have fresh : master.ledger.get? node id = none := absent
  rw [same]
  refine ⟨rfl, by simp [Request.node, Request.id, fresh, isCreate], ?_, fun sound => ?_⟩
  · intro other key
    exact Ledger.put_get? _ _ other key
  · exact Ledger.put_entry_sound _ node id _ sound ⟨rfl, rfl, known, specification.2⟩

theorem announce_delete (node id : String) (master : Master) (answer : Failure)
    (accepted : (master.announce .deleted (master.ledger.delete node id)).answer = .ok answer) :
    (delete node id).Done master (master.announce .deleted (master.ledger.delete node id)).master
    := by
  obtain ⟨ledger, deleted, same⟩ := master.announce_ok .deleted _ answer accepted
  rw [same]
  refine ⟨rfl, ?_, fun other key => ?_, fun sound => ?_⟩
  · unfold Ledger.delete at deleted
    split at deleted
    · cases deleted
    next found => simp [Request.node, Request.id, found, isCreate]
  · exact Ledger.delete_get? _ _ _ _ _ deleted other key
  · exact Ledger.delete_sound _ _ _ _ _ deleted sound

/-- An update that gives neither a specification nor a state only looks whether there is a
failure. -/
theorem update_nothing (node id : String) (master : Master) (answer : Failure)
    (accepted : (master.getFailure node id) = .ok answer) :
    (update node id none none).Done master master := by
  have present : ∃ failure, master.ledger.get? node id = some failure := by
    cases found : master.ledger.get? node id with
    | none => simp [Master.getFailure, Ledger.get, found] at accepted
    | some failure => exact ⟨failure, rfl⟩
  obtain ⟨failure, found⟩ := present
  refine ⟨rfl, by simp [Request.node, Request.id, found, isCreate], ?_, fun sound => sound⟩
  intro other key
  have same : (update node id none none).effect (master.ledger.get? node id) =
      master.ledger.get? node id := by simp [effect, found, revised]
  simp only [Request.node, Request.id, same]
  split
  next here => rw [here.1, here.2]
  next => rfl

theorem reply_error (request : Request) (master : Master) (error : Error)
    (refused : (request.reply master).answer = .error error) :
    (request.reply master).master = master := by
  cases request with
  | create node id specification expected =>
      simp only [reply, Master.createFailure] at refused ⊢
      split at refused
      · rfl
      · exact master.announce_error _ _ error refused
  | apply node id => exact master.announce_error _ _ error refused
  | revert node id => exact master.announce_error _ _ error refused
  | update node id specification expected =>
      simp only [reply, Master.updateFailure] at refused ⊢
      split at refused
      · rfl
      · split at refused
        · rfl
        · split at refused
          next nothing => rw [if_pos nothing]
          next something =>
            rw [if_neg something]
            exact master.announce_error _ _ error refused
  | delete node id => exact master.announce_error _ _ error refused

theorem reply_ok (request : Request) (master : Master) (answer : Failure)
    (accepted : (request.reply master).answer = .ok answer) :
    request.Done master (request.reply master).master := by
  cases request with
  | create node id specification expected =>
      simp only [reply, Master.createFailure] at accepted ⊢
      split at accepted
      · cases accepted
      next failure made =>
        obtain ⟨rfl, known⟩ := Master.newFailure_eq_ok node id specification.1 expected failure made
        exact announce_create node id specification expected master answer known accepted
  | apply node id =>
      exact announce_update (apply node id) master none (some .enabled) answer
        (fun _ impossible => nomatch impossible) (by simp) rfl (fun _ => rfl) accepted
  | revert node id =>
      exact announce_update (revert node id) master none (some .disabled) answer
        (fun _ impossible => nomatch impossible) (by simp) rfl (fun _ => rfl) accepted
  | update node id specification expected =>
      simp only [reply, Master.updateFailure] at accepted ⊢
      split at accepted
      · cases accepted
      next asked desired =>
        obtain ⟨rfl, known⟩ := Master.desired?_eq_ok expected asked desired
        split at accepted
        · cases accepted
        next given rendered =>
          cases Master.deliverable?_eq_ok _ given rendered
          -- an update without a specification and a state is answered like a lookup
          split at accepted
          next nothing =>
            rw [if_pos nothing]
            obtain ⟨unspecified, unasked⟩ := Bool.and_eq_true_iff.mp nothing
            cases Option.map_eq_none_iff.mp (Option.isNone_iff_eq_none.mp unspecified)
            cases Option.isNone_iff_eq_none.mp unasked
            exact update_nothing node id master answer accepted
          next something =>
            rw [if_neg something]
            have ordered : ∀ given ∈ specification.map (·.1), given.Ordered := by
              intro given member
              obtain ⟨whole, _, rfl⟩ := Option.map_eq_some_iff.mp member
              exact whole.2
            exact announce_update (update node id specification asked) master _ asked answer ordered
              known rfl (fun _ => rfl) accepted
  | delete node id => exact announce_delete node id master answer accepted

/-! What requests make of failures -/

theorem revised_generation (specification : Option Specification)
    (expected : Option Failure.State) (failure : Failure) :
    (revised specification expected failure).generation =
      if expected = some .enabled then failure.generation + 1 else failure.generation := by
  cases specification <;> cases expected <;> simp [revised, Ledger.expect]

theorem next_generation (generation : UInt64) (few : generation.toNat + 1 < UInt64.size) :
    (generation + 1).toNat = generation.toNat + 1 := by
  rw [UInt64.toNat_add]
  exact Nat.mod_eq_of_lt few

theorem revised_grows (specification : Option Specification) (expected : Option Failure.State)
    (failure : Failure) (few : failure.generation.toNat + 1 < UInt64.size) :
    failure.generation.toNat ≤ (revised specification expected failure).generation.toNat ∧
      (revised specification expected failure).generation.toNat ≤
        failure.generation.toNat + 1 := by
  have next := next_generation failure.generation few
  rw [revised_generation]
  split <;> omega

theorem revised_expected (specification : Option Specification)
    (expected : Option Failure.State) (state : Failure.State) (failure : Failure)
    (given : expected = some state) :
    (revised specification expected failure).expected = state := by
  subst given
  cases specification <;> rfl

/-- A failure that is made is new: no request to enable it is counted yet. -/
theorem Done.makes {request : Request} {before after : Master} (done : request.Done before after)
    (absent : before.ledger.get? request.node request.id = none) :
    ∃ failure, after.ledger.get? request.node request.id = some failure ∧
      failure.generation = 0 ∧ (request.asksEnabled = true → failure.expected = .enabled) := by
  have created := done.found
  have made := done.ledger request.node request.id
  rw [absent] at created
  rw [if_pos ⟨rfl, rfl⟩] at made
  cases request with
  | create node id specification expected => exact ⟨_, made, rfl, of_decide_eq_true⟩
  | apply node id | revert node id | update node id specification expected | delete node id =>
      cases created

/-- A failure that is there is deleted or revised. -/
theorem Done.revises {request : Request} {before after : Master}
    (done : request.Done before after) (failure : Failure)
    (stored : before.ledger.get? request.node request.id = some failure) :
    request = .delete request.node request.id ∨ ∃ specification expected,
      request.asksEnabled = decide (expected = some .enabled) ∧
        after.ledger.get? request.node request.id =
          some (revised specification expected failure) := by
  have created := done.found
  have left := done.ledger request.node request.id
  rw [stored] at created left
  rw [if_pos ⟨rfl, rfl⟩] at left
  cases request with
  | create node id specification expected => cases created
  | apply node id => exact Or.inr ⟨none, some .enabled, rfl, left⟩
  | revert node id => exact Or.inr ⟨none, some .disabled, rfl, left⟩
  | update node id specification expected =>
      exact Or.inr ⟨_, expected, rfl, left⟩
  | delete node id => exact Or.inl rfl

end Request

end FaultInjection
