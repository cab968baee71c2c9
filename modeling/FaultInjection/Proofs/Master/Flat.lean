import FaultInjection.Proofs.Master.View

/-!
Writes into a single map from nodes and ids to failures. A write into a ledger, which keeps failures
by node and then by id, is answered in the same way and does the same to what is found.
-/

namespace FaultInjection

namespace Contents

def set (contents : Contents) (node id : String) (entry : Option Failure) : Contents :=
  fun other key => if node = other ∧ id = key then entry else contents other key

def find (contents : Contents) (node id : String) : Except Error Failure :=
  match contents node id with
  | some failure => .ok failure
  | none => .error (.failureNotFound node id)

def create (contents : Contents) (failure : Failure) : Except Error (Failure × Contents) :=
  match contents failure.node failure.id with
  | some _ => .error (.duplicateFailure failure.node failure.id)
  | none => .ok (failure, contents.set failure.node failure.id (some failure))

def revise (contents : Contents) (node id : String) (change : Failure → Failure) :
    Except Error (Failure × Contents) :=
  (contents.find node id).map fun failure =>
    (change failure, contents.set node id (some (change failure)))

def report (contents : Contents) (reporter node id : String) (state : Failure.State) :
    Except Error (Failure.State × Failure × Contents) :=
  if reporter = node then
    (contents.find node id).map fun failure =>
      let updated := { failure with current := state }
      (failure.current, updated, contents.set node id (some updated))
  else .error (.notOwner reporter node id)

def delete (contents : Contents) (node id : String) : Except Error (Failure × Contents) :=
  (contents.find node id).map fun failure => (failure, contents.set node id none)

/-- A failure stands in the map under its own node and id. -/
def Holds (contents : Contents) (failure : Failure) : Prop :=
  contents failure.node failure.id = some failure

end Contents

namespace Ledger

/-! The same writes into a ledger -/

/-- What came of a write, with the ledger seen as a single map. -/
def flat {α : Type} (done : α × Ledger) : α × Contents := (done.1, done.2.get?)

theorem find_contents (ledger : Ledger) (node id : String) :
    Contents.find ledger.get? node id = ledger.get node id := rfl

theorem put_contents (ledger : Ledger) (failure : Failure) :
    (ledger.put failure).get? =
      Contents.set ledger.get? failure.node failure.id (some failure) := by
  funext node id
  exact ledger.put_get? failure node id

theorem create_contents (ledger : Ledger) (failure : Failure) :
    Contents.create ledger.get? failure =
      (ledger.create failure).map fun after => (failure, after.get?) := by
  rw [Contents.create, create]
  cases ledger.get? failure.node failure.id with
  | some _ => rfl
  | none =>
      rw [← put_contents]
      rfl

theorem modify_contents (ledger : Ledger) (node id : String) (change : Failure → Failure) :
    Contents.revise ledger.get? node id change =
      (ledger.modify node id change).map flat := by
  rw [Contents.revise, find_contents, get]
  cases modified : ledger.modify node id change with
  | error error =>
      unfold modify at modified
      split at modified
      next absent =>
        cases modified
        rw [absent]
        rfl
      next => cases modified
  | ok done =>
      obtain ⟨changed, after⟩ := done
      obtain ⟨failure, found, rfl, _⟩ := ledger.modify_eq_ok node id change changed after modified
      have contents : after.get? = Contents.set ledger.get? node id (some (change failure)) := by
        funext other key
        exact ledger.modify_get? node id change _ after modified other key
      simp only [found, Except.map, flat, contents]

theorem report_contents (ledger : Ledger) (reporter node id : String) (state : Failure.State) :
    Contents.report ledger.get? reporter node id state =
      (ledger.report reporter node id state).map fun (previous, done) => (previous, flat done) := by
  rw [Contents.report, report]
  by_cases owner : reporter = node
  · -- the state before is read first; what is written is a revision like any other
    have noted := ledger.modify_contents node id fun failure => { failure with current := state }
    rw [Contents.revise, find_contents] at noted
    rw [if_pos owner, if_neg (not_not.mpr owner), find_contents]
    cases known : ledger.get node id with
    | error error => rfl
    | ok failure =>
        rw [known] at noted
        cases written : ledger.modify node id fun failure => { failure with current := state } with
        | error error =>
            rw [written] at noted
            cases noted
        | ok done =>
            rw [written] at noted
            exact congrArg (Except.map (Prod.mk failure.current)) noted
  · rw [if_neg owner, if_pos owner]
    rfl

theorem delete_contents (ledger : Ledger) (node id : String) :
    Contents.delete ledger.get? node id = (ledger.delete node id).map flat := by
  rw [Contents.delete, find_contents, get]
  cases deleted : ledger.delete node id with
  | error error =>
      unfold delete at deleted
      split at deleted
      next absent =>
        cases deleted
        rw [absent]
        rfl
      next => cases deleted
  | ok done =>
      obtain ⟨failure, after⟩ := done
      have contents : after.get? = Contents.set ledger.get? node id none := by
        funext other key
        exact ledger.delete_get? node id failure after deleted other key
      rw [ledger.delete_stored node id failure after deleted, ← contents]
      rfl

/-! One write after the other -/

inductive Write where
  | create (failure : Failure)
  | update (node id : String) (specification : Option Specification)
      (expected : Option Failure.State)
  | expect (node id : String) (state : Failure.State)
  | report (reporter node id : String) (state : Failure.State)
  | delete (node id : String)

/-- The answer to a write that was accepted: the failure, and if its state was reported, the state
before. -/
structure Receipt where
  failure : Failure
  previous : Option Failure.State

namespace Write

variable {σ : Type}

def acknowledge (written : Except Error (Failure × σ)) : Except Error (Receipt × σ) :=
  written.map fun (failure, after) => (⟨failure, none⟩, after)

def acknowledgeReport (written : Except Error (Failure.State × Failure × σ)) :
    Except Error (Receipt × σ) :=
  written.map fun (previous, failure, after) => (⟨failure, some previous⟩, after)

/-- The answers to some writes, and what is stored in the end. A write that is refused leaves what
is stored as it was. -/
def run (write? : σ → Write → Except Error (Receipt × σ)) :
    σ → List Write → List (Except Error Receipt) × σ
  | stored, [] => ([], stored)
  | stored, write :: rest =>
      match write? stored write with
      | .error error =>
          let later := run write? stored rest
          (.error error :: later.1, later.2)
      | .ok (receipt, after) =>
          let later := run write? after rest
          (.ok receipt :: later.1, later.2)

end Write

def write? (ledger : Ledger) : Write → Except Error (Receipt × Ledger)
  | .create failure =>
      Write.acknowledge ((ledger.create failure).map fun after => (failure, after))
  | .update node id specification expected =>
      Write.acknowledge (ledger.update node id specification expected)
  | .expect node id state => Write.acknowledge (ledger.setExpected node id state)
  | .report reporter node id state =>
      Write.acknowledgeReport (ledger.report reporter node id state)
  | .delete node id => Write.acknowledge (ledger.delete node id)

end Ledger

def Contents.write? (contents : Contents) :
    Ledger.Write → Except Error (Ledger.Receipt × Contents)
  | .create failure => Ledger.Write.acknowledge (contents.create failure)
  | .update node id specification expected =>
      Ledger.Write.acknowledge
        (contents.revise node id (Request.revised specification expected))
  | .expect node id state =>
      Ledger.Write.acknowledge (contents.revise node id (Ledger.expect · state))
  | .report reporter node id state =>
      Ledger.Write.acknowledgeReport (contents.report reporter node id state)
  | .delete node id => Ledger.Write.acknowledge (contents.delete node id)

namespace Ledger

theorem update_eq_modify (ledger : Ledger) (node id : String)
    (specification : Option Specification) (expected : Option Failure.State) :
    ledger.update node id specification expected =
      ledger.modify node id (Request.revised specification expected) := rfl

theorem setExpected_eq_modify (ledger : Ledger) (node id : String) (state : Failure.State) :
    ledger.setExpected node id state = ledger.modify node id (expect · state) := rfl

/-- Each write into a ledger is the same write into a single map. -/
theorem write?_contents (ledger : Ledger) (write : Write) :
    Contents.write? ledger.get? write = (ledger.write? write).map flat := by
  cases write with
  | create failure =>
      rw [Contents.write?, create_contents, write?]
      cases ledger.create failure <;> rfl
  | update node id specification expected =>
      rw [Contents.write?, modify_contents, write?, update_eq_modify]
      cases ledger.modify node id (Request.revised specification expected) <;> rfl
  | expect node id state =>
      rw [Contents.write?, modify_contents, write?, setExpected_eq_modify]
      cases ledger.modify node id (expect · state) <;> rfl
  | report reporter node id state =>
      rw [Contents.write?, report_contents, write?]
      cases ledger.report reporter node id state <;> rfl
  | delete node id =>
      rw [Contents.write?, delete_contents, write?]
      cases ledger.delete node id <;> rfl

end Ledger

end FaultInjection
