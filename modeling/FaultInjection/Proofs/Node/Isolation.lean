import FaultInjection.Master.Rehearsal
import FaultInjection.Proofs.Node.Alike
import FaultInjection.Proofs.Node.Deed

/-!
Two passes of one agent over different lists. What a pass does about a failure is what it would do
if the failure stood alone in the list, whatever becomes of the others. Two lists with the same
entries in another order differ in nothing but the order of what is done.
-/

namespace FaultInjection

variable {α σ : Type}

def deedsOn (id : String) (deeds : List Deed) : List Deed := deeds.filter fun deed => deed.1 = id

def Call.reportsOn (id : String) : Call → Bool
  | .report _ assignment => assignment.id = id
  | _ => false

def reportsOn (id : String) (calls : List Call) : List Call := calls.filter (·.reportsOn id)

/-- Steps that concern others may be left out, as far as a relation to one of them goes. -/
theorem foldl_alone {state item : Type} (step : state → item → state) (key : item → String)
    (id : String) (same : state → state → Prop)
    (own : ∀ first second item, key item = id → same first second →
      same (step first item) (step second item))
    (other : ∀ first second item, key item ≠ id → same first second →
      same (step first item) second)
    (items : List item) (first second : state) (start : same first second) :
    same (items.foldl step first) ((items.filter fun item => key item = id).foldl step second) := by
  induction items generalizing first second with
  | nil => exact start
  | cons item rest ih =>
      by_cases hit : key item = id
      · rw [List.filter_cons_of_pos (by simp [hit])]
        exact ih _ _ (own first second item hit start)
      · rw [List.filter_cons_of_neg (by simp [hit])]
        exact ih _ _ (other first second item hit start)

theorem deedsOn_append (id : String) (earlier later : List Deed) :
    deedsOn id (earlier ++ later) = deedsOn id earlier ++ deedsOn id later :=
  List.filter_append _ _

theorem reportsOn_append (id : String) (earlier later : List Call) :
    reportsOn id (earlier ++ later) = reportsOn id earlier ++ reportsOn id later :=
  List.filter_append _ _

theorem deedsOn_other {id other : String} {deeds : List Deed} (done : DoneTo other deeds)
    (different : other ≠ id) : deedsOn id deeds = [] := by
  apply List.filter_eq_nil_iff.mpr
  intro deed member hit
  exact different ((done deed member).symm.trans (of_decide_eq_true hit))

namespace Agent

theorem listed_alone (agent : Agent α) (assignments : List Wire.Assignment) (id : String) :
    (agent.listed assignments).contains id =
      (agent.listed (assignments.filter fun assignment => assignment.id = id)).contains id := by
  rw [Bool.eq_iff_iff, List.contains_iff_mem, List.contains_iff_mem]
  simp only [listed, List.mem_map, List.mem_filter, decide_eq_true_eq]
  constructor
  · rintro ⟨assignment, ⟨member, own⟩, hit⟩
    exact ⟨assignment, ⟨⟨member, hit⟩, own⟩, hit⟩
  · rintro ⟨assignment, ⟨⟨member, _⟩, own⟩, hit⟩
    exact ⟨assignment, ⟨member, own⟩, hit⟩

/-- The only assignment of a failure. -/
theorem alone_of_mem (assignments : List Wire.Assignment) (assignment : Wire.Assignment)
    (member : assignment ∈ assignments) (distinct : (assignments.map (·.id)).Nodup) :
    (assignments.filter fun other => other.id = assignment.id) = [assignment] := by
  obtain ⟨earlier, later, rfl⟩ := List.append_of_mem member
  obtain ⟨before, behind⟩ := apart_of_distinct earlier later assignment distinct
  have nothing : ∀ others : List Wire.Assignment, assignment.id ∉ others.map (·.id) →
      (others.filter fun other => other.id = assignment.id) = [] := by
    intro others absent
    apply List.filter_eq_nil_iff.mpr
    intro other found hit
    exact absent (of_decide_eq_true hit ▸ List.mem_map_of_mem found)
  rw [List.filter_append, nothing earlier before, List.nil_append,
    List.filter_cons_of_pos (by simp), nothing later behind]

theorem alone_eq {assignments others : List Wire.Assignment} (id : String)
    (distinct : (assignments.map (·.id)).Nodup) (otherDistinct : (others.map (·.id)).Nodup)
    (same : ∀ assignment : Wire.Assignment, assignment.id = id →
      (assignment ∈ assignments ↔ assignment ∈ others)) :
    (assignments.filter fun assignment => assignment.id = id) =
      others.filter fun assignment => assignment.id = id := by
  by_cases present : ∃ assignment ∈ assignments, assignment.id = id
  · obtain ⟨assignment, member, rfl⟩ := present
    rw [alone_of_mem assignments assignment member distinct,
      alone_of_mem others assignment ((same assignment rfl).mp member) otherDistinct]
  · have missing : ∀ assignment ∈ assignments, assignment.id ≠ id :=
      fun assignment member hit => present ⟨assignment, member, hit⟩
    have absent : ∀ assignment ∈ others, assignment.id ≠ id :=
      fun assignment member hit => missing assignment ((same assignment hit).mpr member) hit
    rw [List.filter_eq_nil_iff.mpr (by simpa using missing),
      List.filter_eq_nil_iff.mpr (by simpa using absent)]

/-! Two passes side by side -/

structure SameFor (id : String) (first second : SyncProgress (Overheard σ) α) : Prop where
  agent : Alike id first.agent second.agent
  deeds : deedsOn id first.deeds = deedsOn id second.deeds
  reports : reportsOn id first.far.calls = reportsOn id second.far.calls

theorem SameFor.refl (id : String) (progress : SyncProgress (Overheard σ) α) :
    SameFor id progress progress :=
  ⟨Alike.refl id _, rfl, rfl⟩

theorem SameFor.symm {id : String} {first second : SyncProgress (Overheard σ) α}
    (same : SameFor id first second) : SameFor id second first :=
  ⟨same.agent.symm, same.deeds.symm, same.reports.symm⟩

theorem SameFor.trans {id : String} {first second third : SyncProgress (Overheard σ) α}
    (start : SameFor id first second) (finish : SameFor id second third) : SameFor id first third :=
  ⟨start.agent.trans finish.agent, start.deeds.trans finish.deeds,
    start.reports.trans finish.reports⟩

/-- Two passes that differ at most in the order of what they have done. -/
structure Reordered (first second : SyncProgress (Overheard σ) α) : Prop where
  agent : ∀ id, Alike id first.agent second.agent
  report : first.report = second.report
  calls : first.far.calls.Perm second.far.calls
  deeds : first.deeds.Perm second.deeds

theorem Reordered.refl (progress : SyncProgress (Overheard σ) α) : Reordered progress progress :=
  ⟨fun id => Alike.refl id _, rfl, .refl _, .refl _⟩

theorem Reordered.trans {first second third : SyncProgress (Overheard σ) α}
    (start : Reordered first second) (finish : Reordered second third) : Reordered first third :=
  ⟨fun id => (start.agent id).trans (finish.agent id), start.report.trans finish.report,
    start.calls.trans finish.calls, start.deeds.trans finish.deeds⟩

structure Share where
  calls : List Call
  deeds : List Deed
  reconciled : Nat
  errors : Nat

variable [Attack α]

def share (agent : Agent α) (now : Nat) (assignment : Wire.Assignment) : Share :=
  if assignment.node = agent.node then
    let outcome := (agent.reconcile now assignment).1
    ⟨[agent.reportOn now assignment], outcome.deeds, 1, faultCount outcome.result⟩
  else ⟨[], [], 0, 0⟩

theorem share_alike {assignment : Wire.Assignment} {first second : Agent α}
    (alike : Alike assignment.id first second) (now : Nat) :
    first.share now assignment = second.share now assignment := by
  obtain ⟨same, reached⟩ := reconcile_alike alike now
  simp only [share, reportOn, alike.node, same.result, same.deeds, reached]

theorem share_reports (agent : Agent α) (now : Nat) (assignment : Wire.Assignment) {id : String}
    (different : assignment.id ≠ id) :
    reportsOn id (agent.share now assignment).calls = [] := by
  unfold share
  split
  · simp [reportsOn, reportOn, Call.reportsOn, different]
  · rfl

theorem share_deeds (agent : Agent α) (now : Nat) (assignment : Wire.Assignment) :
    DoneTo assignment.id (agent.share now assignment).deeds := by
  unfold share
  split
  · exact agent.reconcile_deeds now assignment
  · exact doneTo_nil _

theorem visit_adds [Link σ] (clock : Clock) (progress : SyncProgress (Overheard σ) α)
    (assignment : Wire.Assignment) :
    let added := progress.agent.share clock.now assignment
    let after := visit clock progress assignment
    after.far.calls = progress.far.calls ++ added.calls ∧
      after.deeds = progress.deeds ++ added.deeds ∧
      after.report = { progress.report with
        reconciled := progress.report.reconciled + added.reconciled
        errors := progress.report.errors + added.errors } := by
  by_cases own : assignment.node = progress.agent.node
  · obtain ⟨_, deeds, calls⟩ := visit_own clock progress assignment own
    simp only [share, own, ↓reduceIte]
    refine ⟨calls, deeds, ?_⟩
    simp [visit, own]
  · rw [visit_foreign clock progress assignment own]
    simp [share, own]

/-! Engines that are given up -/

theorem discard_apart (progress : SyncProgress σ α) (id : String) :
    Apart id progress.agent (discard progress id).agent := by
  have retired := progress.agent.retire_apart id
  refine { retired with armed := ?_ }
  intro other different
  simp [discard, Table.get?_erase, Ne.symm different]

theorem discard_alike {id : String} {first second : SyncProgress σ α}
    (alike : Alike id first.agent second.agent) (other : String) :
    Alike id (discard first other).agent (discard second other).agent := by
  by_cases same : other = id
  · subst same
    have retired := (retire_alike alike).agent
    refine ⟨retired.node, retired.catalogue, retired.stopped, retired.engine, ?_⟩
    simp [discard, Table.get?_erase]
  · exact alike.beside (Ne.symm same) (discard_apart first other) (discard_apart second other)

variable {id : String} {first second : SyncProgress (Overheard σ) α}

theorem discard_same (same : SameFor id first second) :
    SameFor id (discard first id) (discard second id) := by
  refine ⟨discard_alike same.agent id, ?_, same.reports⟩
  simp only [discard, deedsOn_append, same.deeds, (retire_alike same.agent).deeds]

theorem discard_other (other : String) (different : other ≠ id) (same : SameFor id first second) :
    SameFor id (discard first other) second := by
  have apart := discard_apart first other
  refine ⟨(apart.alike different.symm).symm.trans same.agent, ?_, same.reports⟩
  simp only [discard, deedsOn_append, deedsOn_other (first.agent.retire_deeds other) different,
    List.append_nil, same.deeds]

theorem discards_alone (ids : List String) (same : SameFor id first second) :
    SameFor id (ids.foldl discard first)
      ((ids.filter fun other => other = id).foldl discard second) := by
  apply foldl_alone discard (fun other => other) id (SameFor id)
  case own =>
    rintro one two other rfl alike
    exact discard_same alike
  case other => exact fun one two other => discard_other other
  case start => exact same

theorem discards_reordered (ids : List String) (same : Reordered first second) :
    Reordered (ids.foldl discard first) (ids.foldl discard second) := by
  induction ids generalizing first second with
  | nil => exact same
  | cons id rest ih =>
      have retired := retire_alike (same.agent id)
      refine ih ⟨fun other => discard_alike (same.agent other) id, ?_, same.calls, ?_⟩
      · simp only [discard, same.report, retired.result]
      · simp only [discard, retired.deeds]
        exact same.deeds.append_right _

variable [DiscreetAttack α] [Link σ]

theorem visit_apart (clock : Clock) (progress : SyncProgress σ α) (assignment : Wire.Assignment) :
    Apart assignment.id progress.agent (visit clock progress assignment).agent := by
  by_cases own : assignment.node = progress.agent.node
  · rw [visit_agent clock progress assignment own]
    exact progress.agent.reconcile_apart clock.now assignment
  · rw [visit_foreign clock progress assignment own]
    exact Apart.refl _ _

theorem visit_alike {id : String} {first second : SyncProgress σ α}
    (alike : Alike id first.agent second.agent) (clock : Clock) (assignment : Wire.Assignment) :
    Alike id (visit clock first assignment).agent (visit clock second assignment).agent := by
  by_cases same : assignment.id = id
  · subst same
    by_cases own : assignment.node = first.agent.node
    · rw [visit_agent clock first assignment own,
        visit_agent clock second assignment (own.trans alike.node)]
      exact (reconcile_alike alike clock.now).1.agent
    · rw [visit_foreign clock first assignment own,
        visit_foreign clock second assignment (alike.node ▸ own)]
      exact alike
  · exact alike.beside (Ne.symm same) (visit_apart clock first assignment)
      (visit_apart clock second assignment)

/-- Visits leave the order of the failures that they are not about. -/
theorem visits_keys (clock : Clock) (progress : SyncProgress σ α)
    (assignments : List Wire.Assignment) (keep : String → Bool)
    (dropped : ∀ assignment ∈ assignments, assignment.node = progress.agent.node →
      keep assignment.id = false) :
    (visits clock progress assignments).agent.slots.keys.filter keep =
      progress.agent.slots.keys.filter keep := by
  induction assignments generalizing progress with
  | nil => rfl
  | cons assignment rest ih =>
      have apart := visit_apart clock progress assignment
      have later : ∀ other ∈ rest,
          other.node = (visit clock progress assignment).agent.node → keep other.id = false := by
        intro other member own
        exact dropped other (List.mem_cons_of_mem _ member) (own.trans apart.node)
      rw [visits, List.foldl_cons, ← visits, ih _ later]
      by_cases own : assignment.node = progress.agent.node
      · exact apart.keys keep (dropped assignment List.mem_cons_self own)
      · rw [visit_foreign clock progress assignment own]

theorem stale_eq (agent : Agent α) (clock : Clock) (far : σ) (assignments : List Wire.Assignment) :
    agent.stale clock far assignments =
      agent.slots.keys.filter fun id => !(agent.listed assignments).contains id := by
  apply visits_keys
  intro assignment member own
  simpa using agent.mem_listed assignments assignment member own

/-! One failure among others -/

theorem visit_same (clock : Clock) (assignment : Wire.Assignment)
    (same : SameFor assignment.id first second) :
    SameFor assignment.id (visit clock first assignment) (visit clock second assignment) := by
  obtain ⟨calls, deeds, _⟩ := visit_adds clock first assignment
  obtain ⟨otherCalls, otherDeeds, _⟩ := visit_adds clock second assignment
  have shares := share_alike same.agent clock.now
  refine ⟨visit_alike same.agent clock assignment, ?_, ?_⟩
  · rw [deeds, otherDeeds, deedsOn_append, deedsOn_append, same.deeds, shares]
  · rw [calls, otherCalls, reportsOn_append, reportsOn_append, same.reports, shares]

theorem visit_other (clock : Clock) (assignment : Wire.Assignment) (different : assignment.id ≠ id)
    (same : SameFor id first second) : SameFor id (visit clock first assignment) second := by
  obtain ⟨calls, deeds, _⟩ := visit_adds clock first assignment
  have apart := visit_apart clock first assignment
  refine ⟨(apart.alike different.symm).symm.trans same.agent, ?_, ?_⟩
  · rw [deeds, deedsOn_append, deedsOn_other (share_deeds _ _ _) different, List.append_nil,
      same.deeds]
  · rw [calls, reportsOn_append, share_reports _ _ _ different, List.append_nil, same.reports]

/-- For one failure, visits come to what the visit of its own assignment alone comes to. -/
theorem visits_alone (clock : Clock) (assignments : List Wire.Assignment)
    (same : SameFor id first second) :
    SameFor id (visits clock first assignments)
      (visits clock second (assignments.filter fun assignment => assignment.id = id)) := by
  apply foldl_alone (visit clock) (·.id) id (SameFor id)
  case own =>
    rintro one two assignment rfl alike
    exact visit_same clock assignment alike
  case other => exact fun one two assignment different => visit_other clock assignment different
  case start => exact same

/-- For one failure, a pass comes to what a pass over its own assignment alone comes to. -/
theorem follow_alone (agent : Agent α) (clock : Clock) (far other : Overheard σ)
    {assignments others : List Wire.Assignment}
    (heard : reportsOn id far.calls = reportsOn id other.calls)
    (alone : (assignments.filter fun assignment => assignment.id = id) =
      others.filter fun assignment => assignment.id = id) :
    SameFor id (agent.follow clock far assignments) (agent.follow clock other others) := by
  have start : SameFor id (⟨far, agent, ⟨0, 0, 0⟩, []⟩ : SyncProgress (Overheard σ) α)
      ⟨other, agent, ⟨0, 0, 0⟩, []⟩ := ⟨Alike.refl id agent, rfl, heard⟩
  have passed : SameFor id (agent.passed clock far assignments)
      (agent.passed clock other others) := by
    have visited := visits_alone clock assignments start
    rw [alone] at visited
    exact visited.trans (visits_alone clock others (SameFor.refl id _)).symm
  have listed : (agent.listed assignments).contains id = (agent.listed others).contains id := by
    rw [listed_alone, alone, ← listed_alone]
  -- whether the failure is given up depends on its own assignment and on the agent at the start
  have stale : ((agent.stale clock far assignments).filter fun key => key = id) =
      (agent.stale clock other others).filter fun key => key = id := by
    rw [stale_eq, stale_eq, List.filter_filter, List.filter_filter]
    apply List.filter_congr
    intro key _
    by_cases hit : key = id
    · rw [hit, listed]
    · simp [hit]
  have discarded := discards_alone (agent.stale clock far assignments) passed
  rw [stale] at discarded
  exact discarded.trans (discards_alone _ (SameFor.refl id _)).symm

/-! Lists in another order -/

theorem visit_reordered (clock : Clock) (assignment : Wire.Assignment)
    (same : Reordered first second) :
    Reordered (visit clock first assignment) (visit clock second assignment) := by
  obtain ⟨calls, deeds, report⟩ := visit_adds clock first assignment
  obtain ⟨otherCalls, otherDeeds, otherReport⟩ := visit_adds clock second assignment
  have shares := share_alike (same.agent assignment.id) clock.now
  refine ⟨fun id => visit_alike (same.agent id) clock assignment, ?_, ?_, ?_⟩
  · rw [report, otherReport, same.report, shares]
  · rw [calls, otherCalls, shares]
    exact same.calls.append_right _
  · rw [deeds, otherDeeds, shares]
    exact same.deeds.append_right _

/-- Visits of different failures may change places. -/
theorem visit_swapped (clock : Clock) (assignment other : Wire.Assignment)
    (different : assignment.id ≠ other.id) (progress : SyncProgress (Overheard σ) α) :
    Reordered (visit clock (visit clock progress assignment) other)
      (visit clock (visit clock progress other) assignment) := by
  have apart := visit_apart clock progress assignment
  have apartOther := visit_apart clock progress other
  -- a visit adds the same share before and after a visit of another failure
  have share := share_alike (apartOther.alike different) clock.now
  have shareOther := share_alike (apart.alike different.symm) clock.now
  obtain ⟨calls, deeds, report⟩ := visit_adds clock progress assignment
  obtain ⟨callsOther, deedsOther, reportOther⟩ := visit_adds clock progress other
  obtain ⟨laterCalls, laterDeeds, laterReport⟩ :=
    visit_adds clock (visit clock progress assignment) other
  obtain ⟨laterCallsOther, laterDeedsOther, laterReportOther⟩ :=
    visit_adds clock (visit clock progress other) assignment
  refine ⟨fun id => ?_, ?_, ?_, ?_⟩
  · have last := visit_apart clock (visit clock progress assignment) other
    have lastOther := visit_apart clock (visit clock progress other) assignment
    by_cases hit : id = assignment.id
    · subst hit
      exact (last.alike different).symm.trans
        (visit_alike (apartOther.alike different) clock assignment)
    · exact (visit_alike (apart.alike hit).symm clock other).trans (lastOther.alike hit)
  · rw [laterReport, laterReportOther, report, reportOther, ← share, ← shareOther]
    simp only [SyncReport.mk.injEq, and_true]
    omega
  · rw [laterCalls, laterCallsOther, calls, callsOther, ← share, ← shareOther, List.append_assoc,
      List.append_assoc]
    exact List.perm_append_comm.append_left _
  · rw [laterDeeds, laterDeedsOther, deeds, deedsOther, ← share, ← shareOther, List.append_assoc,
      List.append_assoc]
    exact List.perm_append_comm.append_left _

theorem visits_reordered (clock : Clock) (assignments : List Wire.Assignment)
    (same : Reordered first second) :
    Reordered (visits clock first assignments) (visits clock second assignments) := by
  induction assignments generalizing first second with
  | nil => exact same
  | cons assignment rest ih => exact ih (visit_reordered clock assignment same)

theorem visits_permuted (clock : Clock) (progress : SyncProgress (Overheard σ) α)
    {assignments others : List Wire.Assignment} (order : assignments.Perm others)
    (distinct : (assignments.map (·.id)).Nodup) :
    Reordered (visits clock progress assignments) (visits clock progress others) := by
  induction order generalizing progress with
  | nil => exact Reordered.refl progress
  | cons assignment _ ih =>
      exact ih (visit clock progress assignment) (List.nodup_cons.mp distinct).2
  | swap later earlier rest =>
      have different : earlier.id ≠ later.id := by
        intro same
        apply (List.nodup_cons.mp distinct).1
        simp [same]
      exact visits_reordered clock rest (visit_swapped clock earlier later different progress)
  | trans swaps _ start finish =>
      exact (start progress distinct).trans
        (finish progress ((swaps.map (·.id)).nodup_iff.mp distinct))

theorem follow_permuted (agent : Agent α) (clock : Clock) (far other : Overheard σ)
    {assignments others : List Wire.Assignment} (heard : far.calls.Perm other.calls)
    (order : assignments.Perm others) (distinct : (assignments.map (·.id)).Nodup) :
    Reordered (agent.follow clock far assignments) (agent.follow clock other others) := by
  have start : Reordered (⟨far, agent, ⟨0, 0, 0⟩, []⟩ : SyncProgress (Overheard σ) α)
      ⟨other, agent, ⟨0, 0, 0⟩, []⟩ := ⟨fun id => Alike.refl id agent, rfl, heard, .refl _⟩
  have passed : Reordered (agent.passed clock far assignments)
      (agent.passed clock other others) :=
    (visits_reordered clock assignments start).trans (visits_permuted clock _ order distinct)
  have listed : (agent.listed assignments).Perm (agent.listed others) := (order.filter _).map _
  have stale : agent.stale clock far assignments = agent.stale clock other others := by
    rw [stale_eq, stale_eq]
    apply List.filter_congr
    intro key _
    rw [listed.contains_eq]
  rw [follow_eq, follow_eq, stale]
  exact discards_reordered _ passed

/-! Two passes of one agent -/

/-- Failures do not influence each other. Two passes whose lists have the same assignment of a
failure, or none, come to the same for it, whatever else is listed. Two lists with the same
assignments in another order only change the order of what is done. -/
theorem sync_isolates (agent : Agent α) (clock : Clock) (far other : σ)
    (assignments others : List Wire.Assignment)
    (pulled : (Link.ask far clock.instant (.pull agent.node)).1 = .ok (.assignments assignments))
    (otherPulled : (Link.ask other clock.instant (.pull agent.node)).1 = .ok (.assignments others))
    (distinct : (assignments.map (·.id)).Nodup) (otherDistinct : (others.map (·.id)).Nodup) :
    let one := agent.sync clock (⟨far, []⟩ : Overheard σ)
    let two := agent.sync clock (⟨other, []⟩ : Overheard σ)
    (∀ id, (∀ assignment : Wire.Assignment, assignment.id = id →
        (assignment ∈ assignments ↔ assignment ∈ others)) →
      one.agent.engine? id = two.agent.engine? id ∧
      one.agent.armed.get? id = two.agent.armed.get? id ∧
      deedsOn id one.deeds = deedsOn id two.deeds ∧
      reportsOn id one.far.calls = reportsOn id two.far.calls) ∧
    (assignments.Perm others →
      one.result = two.result ∧ (∀ id, Alike id one.agent two.agent) ∧
      one.deeds.Perm two.deeds ∧ one.far.calls.Perm two.far.calls) := by
  have followed := agent.sync_answered clock far [] _ pulled
  have otherFollowed := agent.sync_answered clock other [] _ otherPulled
  dsimp only [CallAnswer.toList] at followed otherFollowed
  let heard (far : σ) : Overheard σ :=
    ⟨(Link.ask far clock.instant (.pull agent.node)).2, [.pull agent.node]⟩
  intro one two
  simp only [one, two, followed, otherFollowed]
  constructor
  · intro id same
    obtain ⟨alike, deeds, reports⟩ := agent.follow_alone clock (heard far) (heard other) rfl
      (alone_eq id distinct otherDistinct same)
    exact ⟨alike.engine, alike.armed, deeds, reports⟩
  · intro order
    obtain ⟨alike, report, calls, deeds⟩ := agent.follow_permuted clock (heard far) (heard other)
      (.refl _) order distinct
    exact ⟨congrArg Except.ok report, alike, deeds, calls⟩

/-- A machine on which only small blocks can be had. -/
local instance tightHost : Host where
  cores := 1
  coresPositive := Nat.one_pos
  blockFault _ size := if 1000 ≤ size then some "out of memory" else none
  threadFault _ _ := none

def blockText (size : String) : String := "attacks:\n- memory_allocation:\n    size: " ++ size

def crowdedAgent : Agent BuiltIn :=
  ((ofNode "node" BuiltIn.catalogue).sync ⟨0, 0⟩ (⟨[⟨"held", "node", blockText "1", 0, 1, 0⟩,
    ⟨"gone", "node", blockText "1", 0, 1, 0⟩], [], []⟩ : ScriptedMaster)).agent

/-- A failure that is asked for anew, among foreign ones and such as cannot be read, built or
applied. -/
def crowdedAssignments : List Wire.Assignment :=
  [⟨"unread", "node", "attacks", 0, 1, 0⟩,
    ⟨"unbuilt", "node", "attacks:\n- no_such_kind:\n", 0, 1, 0⟩,
    ⟨"held", "node", blockText "2", 1, 1, 5⟩,
    ⟨"heavy", "node", blockText "2000", 0, 1, 0⟩,
    ⟨"far", "elsewhere", blockText "1", 0, 1, 0⟩]

def sparseAssignments : List Wire.Assignment :=
  [⟨"heavy", "node", blockText "3", 0, 1, 0⟩, ⟨"held", "node", blockText "2", 1, 1, 5⟩]

theorem sync_isolates_crowded :
    let among (list : List Wire.Assignment) := crowdedAgent.sync ⟨0, 0⟩
      (⟨⟨list, [.report], []⟩, []⟩ : Overheard ScriptedMaster)
    let crowded := among crowdedAssignments
    let sparse := among sparseAssignments
    let reversed := among crowdedAssignments.reverse
    crowded.result.toOption = some ⟨4, 3, 1⟩ ∧ sparse.result.toOption = some ⟨2, 0, 1⟩ ∧
      deedsOn "held" crowded.deeds = [("held", .revert 0), ("held", .apply 0)] ∧
      crowded.agent.engine? "held" = sparse.agent.engine? "held" ∧
      reportsOn "held" crowded.far.calls = reportsOn "held" sparse.far.calls ∧
      crowded.result = reversed.result ∧ crowded.far.calls.Perm reversed.far.calls := by
  obtain ⟨each, _⟩ := sync_isolates crowdedAgent ⟨0, 0⟩
    (⟨crowdedAssignments, [.report], []⟩ : ScriptedMaster) ⟨sparseAssignments, [.report], []⟩
    crowdedAssignments sparseAssignments rfl rfl (by decide) (by decide)
  obtain ⟨_, whole⟩ := sync_isolates crowdedAgent ⟨0, 0⟩
    (⟨crowdedAssignments, [.report], []⟩ : ScriptedMaster)
    ⟨crowdedAssignments.reverse, [.report], []⟩
    crowdedAssignments crowdedAssignments.reverse rfl rfl (by decide) (by decide)
  obtain ⟨engine, _, _, reports⟩ := each "held" (by
    intro assignment hit
    simp only [crowdedAssignments, sparseAssignments, List.mem_cons, List.not_mem_nil, or_false]
    grind)
  obtain ⟨result, _, _, calls⟩ := whole (List.reverse_perm _).symm
  exact ⟨by decide +kernel, by decide +kernel, by decide +kernel, engine, reports, result, calls⟩

end Agent

end FaultInjection
