import PulseAgent.Concurrent.Pool
import PulseAgent.Recovery.Approval
import PulseAgent.Stabilization.Record

/-!
# What recovery calls on its surroundings

One `Environment` answers each call; a transaction that fails to commit leaves no trace.
-/

namespace PulseAgent.Recovery

open Go Contract Concurrent

structure ExecutionState where
  target : ServiceTarget := {}
  policySnapshot : Policy.Snapshot := {}
  policyInput : Policy.Input := {}

/-- One reading of health and metrics of a target. -/
structure Sample where
  healthy : Bool
  metrics : Std.ExtTreeMap Bytes Float64

/-- The methods of the lifecycle publisher, with their arguments. -/
inductive Publication where
  | analysisUnavailable (incidentID idempotencyKey reason : Bytes)
  | policyDenied (incidentID idempotencyKey reason : Bytes)
  | approvalRequested (command : RecoveryCommand)
  | recoveryStarted (command : RecoveryCommand)

inductive Transaction where
  | persistPending (record : JournalRecord)
  | deny (key : Bytes)
  | expire (key : Bytes)
  | approve (key : Bytes)
  | startExecution (key : Bytes)
  | finishExecution (key : Bytes) (next : RecoveryCommandState)
  | completeStabilization (key : Bytes) (next : RecoveryCommandState)
  | markVerifyAndNotify (key : Bytes) (snapshot : Docker.Snapshot) (verified : Bool) (now : Time)
  | reconcilableRecords
  | findRecord (commandID : Bytes)
  | decide (request : ApprovalDecisionRequest) (approvalID : Bytes) (now : Time)
  | recordRejected (request : ApprovalDecisionRequest) (reason : Bytes)
  | loadApproval (commandID : Bytes)
  | loadResult (commandID : Bytes) (attempt : Int64)
  | putResult (commandID : Bytes) (attempt : Int64) (document : Bytes)

namespace Transaction

def Out : Transaction → Type
  | persistPending _ => JournalRecord × Bool
  | deny _ | expire _ | approve _ | startExecution _ => JournalRecord
  | finishExecution .. | completeStabilization .. | markVerifyAndNotify .. => JournalRecord
  | reconcilableRecords => List StoredRecord
  | findRecord _ => Option StoredRecord
  | decide .. => Except Error ApprovalDecisionResult
  | recordRejected .. => Unit
  | loadApproval _ => Option Approval
  | loadResult .. => Option Stabilization.ResultRecord
  | putResult .. => Unit

def body (inputs : AuditInputs) : (t : Transaction) → Tx t.Out
  | persistPending record => Recovery.persistPending record
  | deny key => Recovery.deny key
  | expire key => Recovery.expire key
  | approve key => Recovery.approve key
  | startExecution key => Recovery.startExecution key
  | finishExecution key next => Recovery.finishExecution key next
  | completeStabilization key next => Recovery.completeStabilization key next
  | markVerifyAndNotify key snapshot verified now =>
    Recovery.markVerifyAndNotify key snapshot verified now
  | reconcilableRecords => Recovery.reconcilableRecords
  | findRecord commandID => findRecordByCommandID commandID
  | decide request approvalID now => decideApproval request approvalID now inputs
  | recordRejected request reason => auditRejected request reason inputs
  | loadApproval commandID => Recovery.loadApproval commandID
  | loadResult commandID attempt => Stabilization.loadResult commandID attempt
  | putResult commandID attempt document => Stabilization.putResult commandID attempt document

/-- The context each caller puts in front of an error. -/
def wrap : Transaction → Error → Error
  | persistPending _, e => .wrap "persist recovery command: " e ""
  | deny _, e | expire _, e | approve _, e | startExecution _, e | finishExecution .., e
  | completeStabilization .., e | markVerifyAndNotify .., e =>
      .wrap "update recovery command: " e ""
  | reconcilableRecords, e => .wrap "read recovery journal: " e ""
  | findRecord _, e => .wrap "read recovery command: " e ""
  | loadResult .., e => .wrap "load stabilization result: " e ""
  | putResult .., e => .wrap "persist stabilization result: " e ""
  | decide .., e | recordRejected .., e | loadApproval _, e => e

/-- With a fault the transaction does not commit. -/
def run (t : Transaction) (fault : Option Error) (inputs : AuditInputs) (s : Store) :
    Except Error t.Out × Store :=
  match fault, t.body inputs s with
  | none, .ok (a, s') => (.ok a, s')
  | none, .error e | some e, _ => (.error (t.wrap e), s)

theorem run_ok {t : Transaction} {fault : Option Error} {inputs : AuditInputs} {s : Store}
    {a : t.Out} (h : (t.run fault inputs s).1 = .ok a) :
    t.body inputs s = .ok (a, (t.run fault inputs s).2) := by
  unfold run at h ⊢
  split at h
  case h_1 b s' hbody =>
    cases h
    exact hbody
  case h_2 => cases h
  case h_3 => cases h

theorem run_error {t : Transaction} {fault : Option Error} {inputs : AuditInputs} {s : Store}
    {e : Error} (h : (t.run fault inputs s).1 = .error e) : (t.run fault inputs s).2 = s := by
  unfold run at h ⊢
  split at h
  case h_1 => cases h
  case h_2 => rfl
  case h_3 => rfl

theorem run_state (t : Transaction) (fault : Option Error) (inputs : AuditInputs) (s : Store) :
    (t.run fault inputs s).2 = s ∨ ∃ a, t.body inputs s = .ok (a, (t.run fault inputs s).2) := by
  unfold run
  split
  case h_1 b s' hbody => exact .inr ⟨b, hbody⟩
  case h_2 => exact .inl rfl
  case h_3 => exact .inl rfl

end Transaction

inductive Op where
  | clock
  | newCommandID
  | newApprovalID
  | load (command : RecoveryCommand)
  | validateAction (target : ServiceTarget) (action : TypedAction)
  /-- The adapter sees target and action; the command is the one they are executed for. -/
  | execute (command : RecoveryCommand) (target : ServiceTarget) (action : TypedAction)
  | verify (target : ServiceTarget)
  | publish (publication : Publication)
  | observe (target : ServiceTarget)
  | loadRetryState (command : RecoveryCommand)
  | tx (t : Transaction)

def Op.Res : Op → Type
  | clock => Time
  | newCommandID | newApprovalID => Except Error Bytes
  | load _ | loadRetryState _ => Except Error ExecutionState
  | validateAction .. | execute .. | publish _ => Except Error Unit
  | verify _ => Except Error Docker.Snapshot
  | observe _ => Except Error Sample
  | tx t => Except Error t.Out

/-- Everything a single call may be answered with. -/
structure Environment where
  now : Time
  id : Except Error Bytes
  state : Except Error ExecutionState
  done : Except Error Unit
  snapshot : Except Error Docker.Snapshot
  sample : Except Error Sample
  fault : Option Error
  audit : AuditInputs

def perform : (o : Op) → Environment → Store → o.Res × Store
  | .clock, env, s => (env.now, s)
  | .newCommandID, env, s | .newApprovalID, env, s => (env.id, s)
  | .load _, env, s | .loadRetryState _, env, s => (env.state, s)
  | .validateAction .., env, s | .execute .., env, s | .publish _, env, s => (env.done, s)
  | .verify _, env, s => (env.snapshot, s)
  | .observe _, env, s => (env.sample, s)
  | .tx t, env, s => t.run env.fault env.audit s

def interface : Interface Store where
  Op := Op
  Res := Op.Res
  Answer := fun _ => Environment
  perform := perform

abbrev Prog := Concurrent.Prog interface

def call (o : Op) : Prog o.Res := Concurrent.Prog.call (I := interface) o

def commit (t : Transaction) : Prog (Except Error t.Out) := call (.tx t)

end PulseAgent.Recovery
