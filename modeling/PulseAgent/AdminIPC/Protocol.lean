import PulseAgent.Audit.Registration
import PulseAgent.Runbook.Pair
import PulseAgent.Target.Registry

/-!
# Administrative messages

Which of its optional payloads a request may carry depends on its operation.
-/

namespace PulseAgent.AdminIPC

open Go Go.Json Contract

def maxRequestIDBytes : Nat := 96
def maxReasonCodeBytes : Nat := 96

def errMalformedRequest : Error := .new "malformed administrative request"
def errMalformedResponse : Error := .new "malformed administrative response"

/-! ## Messages -/

def Operation.names : List Bytes :=
  [lit "status", lit "backup", lit "target.register", lit "runbook.register",
    lit "approval.grant", lit "approval.deny", lit "incident.list", lit "incident.show"]

inductive Operation where
  | status
  | backup
  | targetRegister
  | runbookRegister
  | approvalGrant
  | approvalDeny
  | incidentList
  | incidentShow
  | other (text : Bytes) (unnamed : text ∉ Operation.names)
deriving DecidableEq

namespace Operation

def unset : Operation := other [] (by decide)

def text : Operation → Bytes
  | status => lit "status"
  | backup => lit "backup"
  | targetRegister => lit "target.register"
  | runbookRegister => lit "runbook.register"
  | approvalGrant => lit "approval.grant"
  | approvalDeny => lit "approval.deny"
  | incidentList => lit "incident.list"
  | incidentShow => lit "incident.show"
  | other s _ => s

def ofText : Bytes → Operation :=
  ofTable [(status.text, status), (backup.text, backup), (targetRegister.text, targetRegister),
    (runbookRegister.text, runbookRegister), (approvalGrant.text, approvalGrant),
    (approvalDeny.text, approvalDeny), (incidentList.text, incidentList),
    (incidentShow.text, incidentShow)] fun s h => other s h

def codec : Codec Operation := .named text ofText

end Operation

structure ApprovalRequest where
  commandID : Bytes := []
  decision : ApprovalDecision := .unset
  expiresAt : Time := 0
deriving DecidableEq

def ApprovalRequest.fields : List (Member ApprovalRequest) :=
  [.of (lit "command_id") .string (·.commandID) fun x s => { s with commandID := x },
   .of (lit "decision") ApprovalDecision.codec (·.decision) fun x s => { s with decision := x },
   .of (lit "expires_at") .time (·.expiresAt) fun x s => { s with expiresAt := x }]

def ApprovalRequest.codec : Codec ApprovalRequest :=
  .struct ApprovalRequest.fields {} (by decide +kernel) (by decide +kernel) fun _ => by
    repeat' constructor

structure ApprovalResult where
  schemaVersion : Bytes := []
  approvalID : Bytes := []
  commandID : Bytes := []
  decision : ApprovalDecision := .unset
  commandState : RecoveryCommandState := .unset
  expiresAt : Time := 0
deriving DecidableEq

def ApprovalResult.fields : List (Member ApprovalResult) :=
  [.of (lit "schema_version") .string (·.schemaVersion) fun x s => { s with schemaVersion := x },
   .of (lit "approval_id") .string (·.approvalID) fun x s => { s with approvalID := x },
   .of (lit "command_id") .string (·.commandID) fun x s => { s with commandID := x },
   .of (lit "decision") ApprovalDecision.codec (·.decision) fun x s => { s with decision := x },
   .of (lit "command_state") RecoveryCommandState.codec (·.commandState)
     fun x s => { s with commandState := x },
   .of (lit "expires_at") .time (·.expiresAt) fun x s => { s with expiresAt := x }]

def ApprovalResult.codec : Codec ApprovalResult :=
  .struct ApprovalResult.fields {} (by decide +kernel) (by decide +kernel) fun _ => by
    repeat' constructor

structure Filter where
  state : IncidentState := .unset
  «from» : Time := 0
  «to» : Time := 0
  pageSize : Int64 := 0
  offset : Int64 := 0
deriving DecidableEq

-- the option `omitempty` of the two times has no effect, a time is never empty
def Filter.fields : List (Member Filter) :=
  [.omitEmpty (lit "state") IncidentState.codec (·.state) (fun x s => { s with state := x })
     (fun x => x.text.isEmpty)
     (fun _ h => congrArg (IncidentState.ofText <| Utf8.toValidUTF8 ·) (List.isEmpty_iff.mp h))
     (fun _ => rfl),
   .of (lit "from") .time (·.from) fun x s => { s with «from» := x },
   .of (lit "to") .time (·.to) fun x s => { s with «to» := x },
   .of (lit "page_size") .int64 (·.pageSize) fun x s => { s with pageSize := x },
   .of (lit "offset") .int64 (·.offset) fun x s => { s with offset := x }]

def Filter.codec : Codec Filter :=
  .struct Filter.fields {} (by decide +kernel) (by decide +kernel) fun _ => by
    repeat' constructor

structure Page where
  incidents : Option (List Incident) := none
  nextOffset : Int64 := 0
deriving DecidableEq

def Page.fields : List (Member Page) :=
  [.of (lit "incidents") (.slice Incident.codec) (·.incidents) fun x s => { s with incidents := x },
   .of (lit "next_offset") .int64 (·.nextOffset) fun x s => { s with nextOffset := x }]

def Page.codec : Codec Page :=
  .struct Page.fields {} (by decide +kernel) (by decide +kernel) fun _ => by
    repeat' constructor

structure Status where
  schemaVersion : Bytes := []
  state : Bytes := []
  capabilities : Option (List Bytes) := none
  warnings : Option (List Bytes) := none
  unsupported : Option (List Bytes) := none
deriving DecidableEq

def Status.fields : List (Member Status) :=
  [.of (lit "schema_version") .string (·.schemaVersion) fun x s => { s with schemaVersion := x },
   .of (lit "state") .string (·.state) fun x s => { s with state := x },
   .of (lit "capabilities") (.slice .string) (·.capabilities) fun x s =>
     { s with capabilities := x },
   .of (lit "warnings") (.slice .string) (·.warnings) fun x s => { s with warnings := x },
   .of (lit "unsupported") (.slice .string) (·.unsupported) fun x s => { s with unsupported := x }]

def Status.codec : Codec Status :=
  .struct Status.fields {} (by decide +kernel) (by decide +kernel) fun _ => by
    repeat' constructor

def targetResultFields : List (Member Target.RegistrationResult) :=
  [.of (lit "schema_version") .string (·.schemaVersion) fun x s => { s with schemaVersion := x },
   .of (lit "version") .uint64 (·.version) fun x s => { s with version := x },
   .of (lit "target_id") .string (·.targetID) fun x s => { s with targetID := x }]

def targetResultCodec : Codec Target.RegistrationResult :=
  .struct targetResultFields {} (by decide +kernel) (by decide +kernel) fun _ => by
    repeat' constructor

def runbookResultFields : List (Member Runbooks.RegistrationResult) :=
  [.of (lit "schema_version") .string (·.schemaVersion) fun x s => { s with schemaVersion := x },
   .of (lit "runbook_id") .string (·.runbookID) fun x s => { s with runbookID := x },
   .of (lit "digest") .string (·.digest) fun x s => { s with digest := x }]

def runbookResultCodec : Codec Runbooks.RegistrationResult :=
  .struct runbookResultFields {} (by decide +kernel) (by decide +kernel) fun _ => by
    repeat' constructor

/-- A pointer to a structure with the `omitempty` option. -/
def optional {σ τ : Type} (name : Bytes) (c : Codec τ)
    (hnull : ∀ a v, c.encode a = some v → v.clean ≠ .null) (get : σ → Option τ)
    (set : Option τ → σ → σ) (hset : ∀ b, set (get b) b = b) : Member σ :=
  .omitEmpty name (.pointer c hnull) get set Option.isNone
    (fun _ h => by rw [Option.isNone_iff_eq_none.mp h]; rfl) hset

structure Request where
  schemaVersion : Bytes := []
  requestID : Bytes := []
  operation : Operation := .unset
  reasonCode : Bytes := []
  target : Option ServiceTarget := none
  runbook : Option Runbook := none
  approval : Option ApprovalRequest := none
  incidentFilter : Option Filter := none
  incidentID : Bytes := []
deriving DecidableEq

def Request.fields : List (Member Request) :=
  [.of (lit "schema_version") .string (·.schemaVersion) fun x s => { s with schemaVersion := x },
   .of (lit "request_id") .string (·.requestID) fun x s => { s with requestID := x },
   .of (lit "operation") Operation.codec (·.operation) fun x s => { s with operation := x },
   .of (lit "reason_code") .string (·.reasonCode) fun x s => { s with reasonCode := x },
   optional (lit "target") ServiceTarget.codec Codec.struct_ne_null (·.target)
     (fun x s => { s with target := x }) fun _ => rfl,
   optional (lit "runbook") Runbook.codec Codec.struct_ne_null (·.runbook)
     (fun x s => { s with runbook := x }) fun _ => rfl,
   optional (lit "approval") ApprovalRequest.codec Codec.struct_ne_null (·.approval)
     (fun x s => { s with approval := x }) fun _ => rfl,
   optional (lit "incident_filter") Filter.codec Codec.struct_ne_null (·.incidentFilter)
     (fun x s => { s with incidentFilter := x }) fun _ => rfl,
   .omitEmpty (lit "incident_id") .string (·.incidentID) (fun x s => { s with incidentID := x })
     List.isEmpty (fun _ => string_norm_eq_zero) fun _ => rfl]

def Request.codec : Codec Request :=
  .struct Request.fields {} (by decide +kernel) (by decide +kernel) fun _ => by
    repeat' constructor

structure Response where
  schemaVersion : Bytes := []
  requestID : Bytes := []
  result : Bytes := []
  errorCode : Bytes := []
  status : Option Status := none
  backupSize : Int64 := 0
  targetResult : Option Target.RegistrationResult := none
  runbookResult : Option Runbooks.RegistrationResult := none
  approvalResult : Option ApprovalResult := none
  incidentPage : Option Page := none
  incident : Option Incident := none
deriving DecidableEq

def Response.fields : List (Member Response) :=
  [.of (lit "schema_version") .string (·.schemaVersion) fun x s => { s with schemaVersion := x },
   .omitEmpty (lit "request_id") .string (·.requestID) (fun x s => { s with requestID := x })
     List.isEmpty (fun _ => string_norm_eq_zero) fun _ => rfl,
   .of (lit "result") .string (·.result) fun x s => { s with result := x },
   .omitEmpty (lit "error_code") .string (·.errorCode) (fun x s => { s with errorCode := x })
     List.isEmpty (fun _ => string_norm_eq_zero) fun _ => rfl,
   optional (lit "status") Status.codec Codec.struct_ne_null (·.status)
     (fun x s => { s with status := x }) fun _ => rfl,
   .omitEmpty (lit "backup_size") .int64 (·.backupSize) (fun x s => { s with backupSize := x })
     (· == 0) (fun _ => beq_iff_eq.mp) fun _ => rfl,
   optional (lit "target_result") targetResultCodec Codec.struct_ne_null (·.targetResult)
     (fun x s => { s with targetResult := x }) fun _ => rfl,
   optional (lit "runbook_result") runbookResultCodec Codec.struct_ne_null (·.runbookResult)
     (fun x s => { s with runbookResult := x }) fun _ => rfl,
   optional (lit "approval_result") ApprovalResult.codec Codec.struct_ne_null (·.approvalResult)
     (fun x s => { s with approvalResult := x }) fun _ => rfl,
   optional (lit "incident_page") Page.codec Codec.struct_ne_null (·.incidentPage)
     (fun x s => { s with incidentPage := x }) fun _ => rfl,
   optional (lit "incident") Incident.codec Codec.struct_ne_null (·.incident)
     (fun x s => { s with incident := x }) fun _ => rfl]

def Response.codec : Codec Response :=
  .struct Response.fields {} (by decide +kernel) (by decide +kernel) fun _ => by
    repeat' constructor

/-! ## Checks -/

/-- The characters are those of an audit field. -/
def validCode (value : Bytes) (maximum : Nat) : Bool :=
  value ≠ [] && value.length ≤ maximum && (Utf8.runes value).all Audit.safeRune

def validRequestID (value : Bytes) : Bool := validCode value maxRequestIDBytes
def validReasonCode (value : Bytes) : Bool := validCode value maxReasonCodeBytes

def validOperation : Operation → Bool
  | .other _ _ => false
  | _ => true

def validApprovalRequest (request : Option ApprovalRequest) (decision : ApprovalDecision) : Bool :=
  match request with
  | none => false
  | some request =>
    validCode request.commandID maxRequestIDBytes && request.decision = decision &&
      !request.expiresAt.isZero

def validIncidentFilter (filter : Filter) : Bool :=
  0 ≤ filter.offset && 0 ≤ filter.pageSize && filter.pageSize ≤ 100 &&
    (filter.state = .unset || filter.state = .opened || filter.state = .analyzing ||
      filter.state = .awaitingApproval || filter.state = .recovering ||
      filter.state = .stabilizing || filter.state = .closed || filter.state = .failed) &&
    (filter.from.isZero || filter.to.isZero || !decide (filter.to < filter.from))

/-- Whether the payloads are those of the operation. -/
def Request.payloads (r : Request) : Bool :=
  match r.operation with
  | .targetRegister =>
    (r.target.any fun target => target.schemaVersion = schemaVersionV1) && r.runbook.isNone &&
      r.approval.isNone && r.incidentFilter.isNone && r.incidentID = []
  | .runbookRegister =>
    (r.runbook.any fun runbook => runbook.schemaVersion = schemaVersionV1) && r.target.isNone &&
      r.approval.isNone && r.incidentFilter.isNone && r.incidentID = []
  | .approvalGrant =>
    validApprovalRequest r.approval .granted && r.target.isNone && r.runbook.isNone &&
      r.incidentFilter.isNone && r.incidentID = []
  | .approvalDeny =>
    validApprovalRequest r.approval .denied && r.target.isNone && r.runbook.isNone &&
      r.incidentFilter.isNone && r.incidentID = []
  | .incidentList =>
    r.incidentFilter.any validIncidentFilter && r.incidentID = [] && r.target.isNone &&
      r.runbook.isNone && r.approval.isNone
  | .incidentShow =>
    r.incidentID ≠ [] && r.incidentFilter.isNone && r.target.isNone && r.runbook.isNone &&
      r.approval.isNone
  | _ =>
    r.target.isNone && r.runbook.isNone && r.approval.isNone && r.incidentFilter.isNone &&
      r.incidentID = []

def Request.validate (r : Request) : Except Error Unit :=
  if r.schemaVersion ≠ schemaVersionV1 || !validRequestID r.requestID ||
      !validOperation r.operation || !validReasonCode r.reasonCode then .error errMalformedRequest
  else if r.payloads then .ok () else .error errMalformedRequest

def Status.valid (s : Status) : Bool :=
  s.schemaVersion = schemaVersionV1 && s.state = lit "running" &&
    (elems s.capabilities).length ≠ 0 &&
    (elems s.capabilities).all (validCode · maxReasonCodeBytes) &&
    (elems s.warnings).all (validCode · maxReasonCodeBytes) &&
    (elems s.unsupported).all (validCode · maxReasonCodeBytes)

def validTargetResult (result : Target.RegistrationResult) : Bool :=
  result.schemaVersion = schemaVersionV1 && result.version ≠ 0 && result.targetID ≠ []

def validRunbookResult (result : Runbooks.RegistrationResult) : Bool :=
  result.schemaVersion = schemaVersionV1 && result.runbookID ≠ [] && result.digest ≠ []

def validApprovalResult (result : ApprovalResult) : Bool :=
  result.schemaVersion = schemaVersionV1 && validCode result.approvalID maxRequestIDBytes &&
    validCode result.commandID maxRequestIDBytes &&
    (result.decision = .granted || result.decision = .denied) &&
    (result.commandState = .pending || result.commandState = .denied) && !result.expiresAt.isZero

def validIncidentPage (page : Page) : Bool :=
  0 ≤ page.nextOffset && (elems page.incidents).length ≤ 100 &&
    (elems page.incidents).all fun value => value.validate.isOk

def Response.payloadCount (r : Response) : Nat :=
  ([r.status.isSome, r.backupSize ≠ 0, r.targetResult.isSome, r.runbookResult.isSome,
    r.approvalResult.isSome, r.incidentPage.isSome, r.incident.isSome].filter id).length

def Response.validate (r : Response) : Except Error Unit :=
  if r.schemaVersion ≠ schemaVersionV1 || (r.requestID ≠ [] && !validRequestID r.requestID) then
    .error errMalformedResponse
  else if !(if r.result = lit "success" then r.errorCode = [] && r.payloadCount = 1
      else r.result = lit "failure" && validReasonCode r.errorCode && r.payloadCount = 0) then
    .error errMalformedResponse
  else if !r.status.all Status.valid then .error errMalformedResponse
  else if r.backupSize < 0 || !r.targetResult.all validTargetResult ||
      !r.runbookResult.all validRunbookResult || !r.approvalResult.all validApprovalResult ||
      !r.incidentPage.all validIncidentPage || !r.incident.all (fun i => i.validate.isOk) then
    .error errMalformedResponse
  else .ok ()

/-! ## Documents -/

def requestOptions : DecodeOptions Request := ⟨maxDocumentBytes, schemaVersionV1, Request.validate⟩
def responseOptions : DecodeOptions Response :=
  ⟨maxDocumentBytes, schemaVersionV1, Response.validate⟩

def decodeRequest (document : Bytes) : Except Error Request :=
  match decode Request.codec requestOptions document with
  | .error _ => .error errMalformedRequest
  | .ok request => .ok request

def decodeResponse (document : Bytes) : Except Error Response :=
  match decode Response.codec responseOptions document with
  | .error _ => .error errMalformedResponse
  | .ok response => .ok response

def requestDocument : Document Request where
  codec := Request.codec
  version := Request.schemaVersion
  header := header_of_members (by decide +kernel)

def responseDocument : Document Response where
  codec := Response.codec
  version := Response.schemaVersion
  header := header_of_members (by decide +kernel)

end PulseAgent.AdminIPC
