import PulseAgent.Recovery.Record
import PulseAgent.Store

/-!
# Transactions of the command journal

`updateRecord` is the common shape of the changes to an existing record: load it, change it, store
it under the same key.
-/

namespace PulseAgent.Recovery

open Go Go.Json Contract

structure StoredRecord where
  key : Bytes
  record : JournalRecord

def checkedRecord (key document : Bytes) : Except Error JournalRecord :=
  match decodeRecord document with
  | .error e => .error e
  | .ok record => if recordKey record.command = key then .ok record else .error errCorruptJournal

def loadRecord (key : Bytes) : Tx (Option JournalRecord) := do
  match ← Tx.get .commandJournal key with
  | none => pure none
  | some document => some <$> Tx.liftExcept (checkedRecord key document)

def putRecord (key : Bytes) (record : JournalRecord) : Tx Unit := do
  Tx.require (recordKey record.command = key ∧ (validateRecord record).isOk) errCorruptJournal
  let document ← Tx.liftExcept (encode JournalRecord.codec "encode recovery command: " record)
  Tx.put .commandJournal key document

/-- The stored record and whether it was there before. -/
def persistPending (record : JournalRecord) : Tx (JournalRecord × Bool) := do
  let key := recordKey record.command
  let indexKey := idempotencyIndexKey record.command.idempotencyKey
  match ← Tx.get .commandJournal indexKey with
  | some indexedRecordKey =>
    Tx.require (indexedRecordKey = key) errIdempotencyConflict
    match ← loadRecord key with
    | none => throw errCorruptJournal
    | some existing => pure (existing, true)
  | none =>
    match ← loadRecord key with
    | some existing =>
      Tx.put .commandJournal indexKey key
      pure (existing, true)
    | none =>
      putRecord key record
      Tx.put .commandJournal indexKey key
      pure (record, false)

def updateRecord (key : Bytes) (update : JournalRecord → Except Error JournalRecord) :
    Tx JournalRecord := do
  match ← loadRecord key with
  | none => throw errCorruptJournal
  | some record =>
    let updated ← Tx.liftExcept (update record)
    putRecord key updated
    pure updated

/-! ## Changes of one record -/

/-- Moves the command to `next` if the state machine allows it. -/
def transition (record : JournalRecord) (next : RecoveryCommandState) (phase : JournalPhase) :
    Except Error JournalRecord := do
  record.command.state.validateTransition next
  pure { record with command := { record.command with state := next }, phase := phase }

def undecided (record : JournalRecord) : Bool :=
  (record.phase = .pending || record.phase = .awaitingApproval) && record.command.state = .pending

def transitionToDenied (record : JournalRecord) : Except Error JournalRecord :=
  if undecided record then transition record .denied .completed else .error errCommandNotExecutable

def transitionToExpired (record : JournalRecord) : Except Error JournalRecord :=
  if undecided record then transition record .expired .completed else .error errCommandNotExecutable

def approveRecord (record : JournalRecord) : Except Error JournalRecord :=
  if !undecided record then .error errCommandNotExecutable
  else if record.phase = .awaitingApproval && record.command.approvalID = [] then
    .error errCommandNotExecutable
  else transition record .approved .approved

def startRecord (record : JournalRecord) : Except Error JournalRecord :=
  if record.phase = .approved && record.command.state = .approved then
    transition record .executing .executing
  else .error errCommandNotExecutable

def finishRecord (next : RecoveryCommandState) (record : JournalRecord) :
    Except Error JournalRecord :=
  if record.phase = .executing && record.command.state = .executing then
    transition record next (if next = .stabilizing then .stabilizing else .completed)
  else .error errCommandNotExecutable

/-- Repeating a terminal result changes nothing. -/
def completeRecord (next : RecoveryCommandState) (record : JournalRecord) :
    Except Error JournalRecord :=
  if record.phase = .completed && record.command.state = next then .ok record
  else if record.phase = .stabilizing && record.command.state = .stabilizing then
    transition record next .completed
  else .error errCommandNotExecutable

/-- A snapshot of another target does not count as verified. -/
def verifyRecord (snapshot : Docker.Snapshot) (verified : Bool) (now : Time)
    (record : JournalRecord) : Except Error JournalRecord :=
  if isReconcilablePhase record.phase then
    let foreign := verified && snapshot.targetID ≠ record.command.targetID
    .ok { record with
      phase := .verifyAndNotify
      reconciliation := some
        { observedAt := now, verified := verified && !foreign
          snapshot := if foreign then {} else snapshot } }
  else .error errCommandNotExecutable

def deny (key : Bytes) : Tx JournalRecord := updateRecord key transitionToDenied

def expire (key : Bytes) : Tx JournalRecord := updateRecord key transitionToExpired

def approve (key : Bytes) : Tx JournalRecord := updateRecord key approveRecord

def startExecution (key : Bytes) : Tx JournalRecord := updateRecord key startRecord

def finishExecution (key : Bytes) (next : RecoveryCommandState) : Tx JournalRecord :=
  updateRecord key (finishRecord next)

def completeStabilization (key : Bytes) (next : RecoveryCommandState) : Tx JournalRecord :=
  updateRecord key (completeRecord next)

def markVerifyAndNotify (key : Bytes) (snapshot : Docker.Snapshot) (verified : Bool) (now : Time) :
    Tx JournalRecord :=
  updateRecord key (verifyRecord snapshot verified now)

/-! ## Scans -/

def isRecordKey (key : Bytes) : Bool := journalRecordPrefix.isPrefixOf key

def scanReconcilable (records : List StoredRecord) (key document : Bytes) :
    Except Error (List StoredRecord) :=
  if isRecordKey key then
    match checkedRecord key document with
    | .error e => .error e
    | .ok record =>
      .ok (if isReconcilablePhase record.phase then records ++ [⟨key, record⟩] else records)
  else .ok records

def reconcilableRecords : Tx (List StoredRecord) :=
  Tx.forEach .commandJournal [] scanReconcilable

def scanCommandID (commandID : Bytes) (found : Option StoredRecord) (key document : Bytes) :
    Except Error (Option StoredRecord) :=
  if isRecordKey key then
    match checkedRecord key document with
    | .error e => .error e
    | .ok record =>
      if record.command.commandID ≠ commandID then .ok found
      else if found.isSome then .error errCorruptJournal
      else .ok (some ⟨key, record⟩)
  else .ok found

def findRecordByCommandID (commandID : Bytes) : Tx (Option StoredRecord) :=
  Tx.forEach .commandJournal none (scanCommandID commandID)

end PulseAgent.Recovery
