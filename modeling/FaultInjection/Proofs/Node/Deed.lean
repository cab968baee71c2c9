import FaultInjection.Proofs.Node.Run

/-!
Whose attacks an agent touches, and what it says. A turn only touches the attacks of its own
failure, and so does an engine that is given up; each turn is followed by one report, which is
about the assignment that the turn has taken up.
-/

namespace FaultInjection

variable {α σ : Type}

def DoneTo (id : String) (deeds : List Deed) : Prop := ∀ deed ∈ deeds, deed.1 = id

theorem doneTo_nil (id : String) : DoneTo id [] := fun _ impossible => nomatch impossible

theorem doneTo_append (id : String) (earlier later : List Deed) :
    DoneTo id (earlier ++ later) ↔ DoneTo id earlier ∧ DoneTo id later :=
  List.forall_mem_append

theorem doneTo_deedsOf (id : String) (uses : List AttackUse) : DoneTo id (deedsOf id uses) := by
  intro deed member
  obtain ⟨use, _, rfl⟩ := List.mem_map.mp member
  rfl

namespace Agent

variable [Attack α]

theorem retire_deeds (agent : Agent α) (id : String) : DoneTo id (agent.retire id).deeds := by
  unfold retire
  split
  · exact doneTo_nil id
  · exact doneTo_deedsOf id _

omit [Attack α] in
theorem install_deeds (agent : Agent α) (failure : Failure) :
    (agent.install failure).deeds = [] := by
  unfold install
  split <;> rfl

theorem prepare_deeds (agent : Agent α) (failure : Failure) :
    DoneTo failure.id (agent.prepare failure).deeds := by
  unfold prepare
  split
  · rw [install_deeds]
    exact doneTo_nil _
  · split
    · exact doneTo_nil _
    · dsimp only
      rw [install_deeds, List.append_nil]
      exact agent.retire_deeds failure.id

theorem enable_deeds (agent : Agent α) (now : Nat) (failure : Failure) (slot : Slot α) :
    DoneTo failure.id (agent.enable now failure slot).deeds := by
  unfold enable
  split
  · exact doneTo_nil _
  · exact doneTo_deedsOf _ _

theorem drive_deeds (agent : Agent α) (now : Nat) (failure : Failure) :
    DoneTo failure.id (agent.drive now failure).deeds := by
  have prepared := agent.prepare_deeds failure
  unfold drive
  dsimp only
  split
  · refine (doneTo_append _ _ _).mpr ⟨prepared, ?_⟩
    split
    · exact enable_deeds _ now failure _
    · exact doneTo_deedsOf _ _
    · exact doneTo_nil _
  · exact prepared

theorem reconcile_deeds (agent : Agent α) (now : Nat) (assignment : Wire.Assignment) :
    DoneTo assignment.id (agent.reconcile now assignment).1.deeds := by
  unfold reconcile
  split
  · exact doneTo_nil _
  next failure read =>
    rw [← (ofAssignment_eq_ok assignment failure read).1]
    exact agent.drive_deeds now failure

def reportOn (agent : Agent α) (now : Nat) (assignment : Wire.Assignment) : Call :=
  .report agent.node { assignment with current := (agent.reconcile now assignment).2.code }

theorem visit_own [Link σ] (clock : Clock) (progress : SyncProgress (Overheard σ) α)
    (assignment : Wire.Assignment) (own : assignment.node = progress.agent.node) :
    (visit clock progress assignment).agent =
        (progress.agent.reconcile clock.now assignment).1.agent ∧
      (visit clock progress assignment).deeds =
        progress.deeds ++ (progress.agent.reconcile clock.now assignment).1.deeds ∧
      (visit clock progress assignment).far.calls =
        progress.far.calls ++ [progress.agent.reportOn clock.now assignment] := by
  have same := (progress.agent.reconcile_elsewhere clock.now assignment).node
  simp only [visit, own, ne_eq, not_true_eq_false, ↓reduceIte, reportOn, ← same, true_and]
  rfl

theorem visit_foreign [Link σ] (clock : Clock) (progress : SyncProgress σ α)
    (assignment : Wire.Assignment) (foreign : assignment.node ≠ progress.agent.node) :
    visit clock progress assignment = progress := by
  simp [visit, foreign]

/-- A pass whose pull is answered follows the answer. -/
theorem sync_answered [Link σ] (agent : Agent α) (clock : Clock) (far : σ) (calls : List Call)
    (answer : CallAnswer)
    (answered : (Link.ask far clock.instant (.pull agent.node)).1 = .ok answer) :
    let heard : Overheard σ :=
      ⟨(Link.ask far clock.instant (.pull agent.node)).2, calls ++ [.pull agent.node]⟩
    let after := agent.follow clock heard answer.toList
    agent.sync clock (⟨far, calls⟩ : Overheard σ) =
      ⟨.ok after.report, after.far, after.agent, after.deeds⟩ := by
  intro heard after
  have asked : Link.ask (⟨far, calls⟩ : Overheard σ) clock.instant (.pull agent.node) =
      (.ok answer, heard) := by
    rw [← answered]
    rfl
  simp only [sync, asked, after]

/-- A pass starts with a pull. If that is answered, the pass follows the answer. -/
theorem sync_overheard [Link σ] (agent : Agent α) (clock : Clock) (far : σ) (calls : List Call) :
    let pulled := Link.ask far clock.instant (.pull agent.node)
    let heard : Overheard σ := ⟨pulled.2, calls ++ [.pull agent.node]⟩
    let outcome := agent.sync clock (⟨far, calls⟩ : Overheard σ)
    (∃ error, pulled.1 = .error error ∧ outcome = ⟨.error error, heard, agent, []⟩) ∨
    (∃ answer, pulled.1 = .ok answer ∧
      outcome.agent = (agent.follow clock heard answer.toList).agent ∧
      outcome.deeds = (agent.follow clock heard answer.toList).deeds ∧
      outcome.far = (agent.follow clock heard answer.toList).far) := by
  intro pulled heard outcome
  cases answered : pulled.1 with
  | error error =>
      have asked : Link.ask (⟨far, calls⟩ : Overheard σ) clock.instant (.pull agent.node) =
          (.error error, heard) := by
        rw [← answered]
        rfl
      refine Or.inl ⟨error, rfl, ?_⟩
      simp only [outcome, sync, asked]
  | ok answer =>
      have followed := agent.sync_answered clock far calls answer answered
      refine Or.inr ⟨answer, rfl, ?_⟩
      simp only [outcome, followed, heard, pulled, and_self]

end Agent

end FaultInjection
