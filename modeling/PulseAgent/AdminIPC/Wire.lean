import PulseAgent.AdminIPC.Protocol
import PulseAgent.Contract.Strings
import PulseAgent.Go.Bufio
import PulseAgent.Go.JsonLine

/-!
# Messages on the wire

A message is a JSON document ended by a newline. What is written and fits is read back as the same
message.
-/

namespace PulseAgent.AdminIPC

open Go Go.Json Contract

def maxWireLineBytes : Nat := maxDocumentBytes + 1

def errShortWrite : Error := .new "short write"

/-! ## Writing -/

/-- The loop of `writeMessage`: the bytes that reach the destination, and the error. The answers of
the destination say how many bytes it takes; when they are used up it takes the rest at once. -/
def writeAll : List (Nat × Option Error) → Bytes → Bytes × Option Error
  | [], document => (document, none)
  | (written, err) :: answers, document =>
    if document = [] then ([], none)
    else
      match err with
      | some e => (document.take written, some e)
      | none =>
        if written = 0 then ([], some errShortWrite)
        else
          let rest := writeAll answers (document.drop written)
          (document.take written ++ rest.1, rest.2)

def writeMessage {α : Type} (c : Codec α) (value : α) (answers : List (Nat × Option Error)) :
    Bytes × Option Error :=
  match c.marshal value with
  | none => ([], some errMalformedResponse)
  | some document =>
    if maxDocumentBytes < document.length then ([], some errMalformedResponse)
    else writeAll answers (document ++ [10])

theorem writeAll_partial {answers : List (Nat × Option Error)}
    (h : ∀ answer ∈ answers, 0 < answer.1 ∧ answer.2 = none) (document : Bytes) :
    writeAll answers document = (document, none) := by
  induction answers generalizing document with
  | nil => rfl
  | cons answer answers ih =>
    obtain ⟨written, err⟩ := answer
    obtain ⟨⟨hpos, rfl⟩, hrest⟩ := List.forall_mem_cons.mp h
    rw [writeAll]
    split_ifs with hempty hzero
    · rw [hempty]
    · exact absurd hzero (Nat.ne_of_gt hpos)
    · simp only [ih hrest, List.take_append_drop]

/-! ## Reading -/

def bufioReader (source : Bufio.Source) : Bufio.Reader :=
  Bufio.newReaderSize source maxWireLineBytes

/-- `bytes.TrimSuffix` with a newline. -/
def trimNewline (document : Bytes) : Bytes :=
  if document.getLast? = some 10 then document.dropLast else document

def readMessage (reader : Bufio.Reader) : Except Error Bytes × Bufio.Reader :=
  match reader.readSlice 10 with
  | (_, some _, reader) => (.error errMalformedRequest, reader)
  | (document, none, reader) =>
    if document = [] ∨ maxWireLineBytes < document.length then (.error errMalformedRequest, reader)
    else if trimNewline document = [] ∨ maxDocumentBytes < (trimNewline document).length then
      (.error errMalformedRequest, reader)
    else (.ok (trimNewline document), reader)

theorem readMessage_line {document rest : Bytes} (hline : 10 ∉ document) (hempty : document ≠ [])
    (hsize : document.length ≤ maxDocumentBytes) {reader : Bufio.Reader} (hflows : reader.Flows)
    (hreader : reader.size = maxWireLineBytes)
    (hpending : reader.pending = document ++ 10 :: rest) :
    ∃ reader', readMessage reader = (.ok document, reader') ∧ reader'.Flows ∧
      reader'.size = maxWireLineBytes ∧ reader'.pending = rest := by
  have hroom : document.length < reader.size := by
    rw [hreader]
    exact Nat.lt_succ_of_le hsize
  obtain ⟨reader', hslice, hflows', hrest, hsize'⟩ := hflows.readSlice hline hpending hroom
  have htrim : trimNewline (document ++ [10]) = document := by
    rw [trimNewline, List.getLast?_concat, if_pos rfl, List.dropLast_concat]
  refine ⟨reader', ?_, hflows', hsize'.trans hreader, hrest⟩
  have hlong : ¬(document ++ [10] = [] ∨ maxWireLineBytes < (document ++ [10]).length) := by
    rw [List.length_append, List.length_singleton, maxWireLineBytes, not_or]
    exact ⟨by simp, by omega⟩
  have hshort : ¬(document = [] ∨ maxDocumentBytes < document.length) :=
    not_or.mpr ⟨hempty, Nat.not_lt.mpr hsize⟩
  unfold readMessage
  rw [hslice]
  simp only [htrim, if_neg hlong, if_neg hshort]

/-! ## Messages -/

theorem Operation.ofText_text (operation : Operation) : ofText operation.text = operation := by
  cases operation with
  | other s h => exact ofTable_of_not_mem h
  | _ => rfl

def ApprovalRequest.strings (approval : ApprovalRequest) : List Bytes :=
  [approval.commandID, approval.decision.text]

theorem ApprovalRequest.norm_eq {approval : ApprovalRequest} (h : Valid approval.strings) :
    ApprovalRequest.codec.norm approval = approval := by
  simp only [strings, valid_cons] at h
  have hsplit : ApprovalRequest.codec.norm approval =
      { approval with
        commandID := Codec.string.norm approval.commandID
        decision := ApprovalDecision.codec.norm approval.decision } := rfl
  rw [hsplit, string_norm h.1, ApprovalDecision.codec,
    named_norm (ApprovalDecision.ofText_text _) h.2.1]

theorem Filter.norm_eq {filter : Filter} (h : Valid [filter.state.text]) :
    Filter.codec.norm filter = filter := by
  have hsplit : Filter.codec.norm filter =
      { filter with state := IncidentState.codec.norm filter.state } := rfl
  rw [hsplit, IncidentState.codec, named_norm (IncidentState.ofText_text _) (valid_cons.mp h).1]

def Request.strings (r : Request) : List Bytes :=
  [r.schemaVersion, r.requestID, r.operation.text, r.reasonCode, r.incidentID] ++
    r.target.elim [] ServiceTarget.strings ++ r.runbook.elim [] Runbook.strings ++
    r.approval.elim [] ApprovalRequest.strings ++ r.incidentFilter.elim [] fun f => [f.state.text]

theorem Request.norm_eq {r : Request} (h : Valid r.strings) : Request.codec.norm r = r := by
  simp only [strings, valid_append, valid_cons] at h
  obtain ⟨⟨⟨⟨⟨hversion, hid, hoperation, hreason, hincident, -⟩, htarget⟩, hrunbook⟩, happroval⟩,
    hfilter⟩ := h
  have hsplit : Request.codec.norm r =
      { schemaVersion := Codec.string.norm r.schemaVersion
        requestID := Codec.string.norm r.requestID
        operation := Operation.codec.norm r.operation
        reasonCode := Codec.string.norm r.reasonCode
        target := r.target.map ServiceTarget.codec.norm
        runbook := r.runbook.map Runbook.codec.norm
        approval := r.approval.map ApprovalRequest.codec.norm
        incidentFilter := r.incidentFilter.map Filter.codec.norm
        incidentID := Codec.string.norm r.incidentID } := rfl
  have hoperation' : Operation.codec.norm r.operation = r.operation :=
    named_norm (Operation.ofText_text _) hoperation
  rw [hsplit, string_norm hversion, string_norm hid, hoperation', string_norm hreason,
    string_norm hincident, map_norm htarget fun _ => ServiceTarget.norm_eq,
    map_norm hrunbook fun _ => Runbook.norm_eq, map_norm happroval fun _ => ApprovalRequest.norm_eq,
    map_norm hfilter fun _ => Filter.norm_eq]

def Status.strings (status : Status) : List Bytes :=
  [status.schemaVersion, status.state] ++ elems status.capabilities ++ elems status.warnings ++
    elems status.unsupported

theorem Status.norm_eq {status : Status} (h : Valid status.strings) :
    Status.codec.norm status = status := by
  simp only [strings, valid_append, valid_cons] at h
  obtain ⟨⟨⟨⟨hversion, hstate, -⟩, hcapabilities⟩, hwarnings⟩, hunsupported⟩ := h
  have hsplit : Status.codec.norm status =
      ⟨Codec.string.norm status.schemaVersion, Codec.string.norm status.state,
        Codec.string.slice.norm status.capabilities, Codec.string.slice.norm status.warnings,
        Codec.string.slice.norm status.unsupported⟩ := rfl
  rw [hsplit, string_norm hversion, string_norm hstate, strings_norm hcapabilities,
    strings_norm hwarnings, strings_norm hunsupported]

def targetResultStrings (result : Target.RegistrationResult) : List Bytes :=
  [result.schemaVersion, result.targetID]

theorem targetResult_norm_eq {result : Target.RegistrationResult}
    (h : Valid (targetResultStrings result)) :
    targetResultCodec.norm result = result := by
  simp only [targetResultStrings, valid_cons] at h
  have hsplit : targetResultCodec.norm result =
      ⟨Codec.string.norm result.schemaVersion, result.version,
        Codec.string.norm result.targetID⟩ := rfl
  rw [hsplit, string_norm h.1, string_norm h.2.1]

def runbookResultStrings (result : Runbooks.RegistrationResult) : List Bytes :=
  [result.schemaVersion, result.runbookID, result.digest]

theorem runbookResult_norm_eq {result : Runbooks.RegistrationResult}
    (h : Valid (runbookResultStrings result)) : runbookResultCodec.norm result = result := by
  simp only [runbookResultStrings, valid_cons] at h
  have hsplit : runbookResultCodec.norm result =
      ⟨Codec.string.norm result.schemaVersion, Codec.string.norm result.runbookID,
        Codec.string.norm result.digest⟩ := rfl
  rw [hsplit, string_norm h.1, string_norm h.2.1, string_norm h.2.2.1]

def ApprovalResult.strings (result : ApprovalResult) : List Bytes :=
  [result.schemaVersion, result.approvalID, result.commandID, result.decision.text,
    result.commandState.text]

theorem ApprovalResult.norm_eq {result : ApprovalResult} (h : Valid result.strings) :
    ApprovalResult.codec.norm result = result := by
  simp only [strings, valid_cons] at h
  obtain ⟨hversion, hid, hcommand, hdecision, hstate, -⟩ := h
  have hsplit : ApprovalResult.codec.norm result =
      ⟨Codec.string.norm result.schemaVersion, Codec.string.norm result.approvalID,
        Codec.string.norm result.commandID, ApprovalDecision.codec.norm result.decision,
        RecoveryCommandState.codec.norm result.commandState, result.expiresAt⟩ := rfl
  rw [hsplit, string_norm hversion, string_norm hid, string_norm hcommand, ApprovalDecision.codec,
    named_norm (ApprovalDecision.ofText_text _) hdecision, RecoveryCommandState.codec,
    named_norm (RecoveryCommandState.ofText_text _) hstate]

def Page.strings (page : Page) : List Bytes := (elems page.incidents).flatMap Incident.strings

theorem Page.norm_eq {page : Page} (h : Valid page.strings) : Page.codec.norm page = page := by
  rw [strings, valid_flatMap] at h
  have hsplit : Page.codec.norm page =
    ⟨Incident.codec.slice.norm page.incidents, page.nextOffset⟩ := rfl
  rw [hsplit, slice_norm fun incident hincident => Incident.norm_eq (h incident hincident)]

def Response.strings (r : Response) : List Bytes :=
  [r.schemaVersion, r.requestID, r.result, r.errorCode] ++ r.status.elim [] Status.strings ++
    r.targetResult.elim [] targetResultStrings ++ r.runbookResult.elim [] runbookResultStrings ++
    r.approvalResult.elim [] ApprovalResult.strings ++ r.incidentPage.elim [] Page.strings ++
    r.incident.elim [] Incident.strings

theorem Response.norm_eq {r : Response} (h : Valid r.strings) : Response.codec.norm r = r := by
  simp only [strings, valid_append, valid_cons] at h
  obtain ⟨⟨⟨⟨⟨⟨⟨hversion, hid, hresult, herror, -⟩, hstatus⟩, htarget⟩, hrunbook⟩,
    happroval⟩, hpage⟩,
    hincident⟩ := h
  have hsplit : Response.codec.norm r =
      { schemaVersion := Codec.string.norm r.schemaVersion
        requestID := Codec.string.norm r.requestID
        result := Codec.string.norm r.result
        errorCode := Codec.string.norm r.errorCode
        status := r.status.map Status.codec.norm
        backupSize := r.backupSize
        targetResult := r.targetResult.map targetResultCodec.norm
        runbookResult := r.runbookResult.map runbookResultCodec.norm
        approvalResult := r.approvalResult.map ApprovalResult.codec.norm
        incidentPage := r.incidentPage.map Page.codec.norm
        incident := r.incident.map Incident.codec.norm } := rfl
  rw [hsplit, string_norm hversion, string_norm hid, string_norm hresult, string_norm herror,
    map_norm hstatus fun _ => Status.norm_eq, map_norm htarget fun _ => targetResult_norm_eq,
    map_norm hrunbook fun _ => runbookResult_norm_eq,
    map_norm happroval fun _ => ApprovalResult.norm_eq, map_norm hpage fun _ => Page.norm_eq,
    map_norm hincident fun _ => Incident.norm_eq]

theorem Request.schemaVersion_of_validate {r : Request} (h : r.validate = .ok ()) :
    r.schemaVersion = schemaVersionV1 := by
  unfold Request.validate at h
  split at h
  case isTrue => cases h
  case isFalse hchecks =>
    by_contra hversion
    exact hchecks (by simp [hversion])

theorem Response.schemaVersion_of_validate {r : Response} (h : r.validate = .ok ()) :
    r.schemaVersion = schemaVersionV1 := by
  unfold Response.validate at h
  split at h
  case isTrue => cases h
  case isFalse hchecks =>
    by_contra hversion
    exact hchecks (by simp [hversion])

theorem decodeRequest_marshal {r : Request} (htext : Valid r.strings) (hvalid : r.validate = .ok ())
    {document : Bytes} (hdocument : Request.codec.marshal r = some document)
    (hsize : document.length ≤ maxDocumentBytes) : decodeRequest document = .ok r := by
  have hdecode := decode_marshal requestDocument requestOptions hdocument ⟨by decide, by decide⟩
    (Int.ofNat_le.mpr hsize) (by
      change Utf8.toValidUTF8 r.schemaVersion = _
      rw [Request.schemaVersion_of_validate hvalid]
      decide)
  have hnorm : requestDocument.codec.norm r = r := Request.norm_eq htext
  rw [hnorm] at hdecode
  change _ = r.validate.map _ at hdecode
  rw [hvalid] at hdecode
  unfold decodeRequest
  change decode Request.codec requestOptions document = _ at hdecode
  rw [hdecode]
  rfl

theorem decodeResponse_marshal {r : Response} (hvalid : (Response.codec.norm r).validate = .ok ())
    {document : Bytes} (hdocument : Response.codec.marshal r = some document)
    (hsize : document.length ≤ maxDocumentBytes) :
    decodeResponse document = .ok (Response.codec.norm r) := by
  have hdecode := decode_marshal responseDocument responseOptions hdocument ⟨by decide, by decide⟩
    (Int.ofNat_le.mpr hsize) (Response.schemaVersion_of_validate hvalid)
  change _ = (Response.codec.norm r).validate.map fun _ => Response.codec.norm r at hdecode
  rw [hvalid] at hdecode
  unfold decodeResponse
  change decode Response.codec responseOptions document = _ at hdecode
  rw [hdecode]
  rfl

/-! ## Round trip -/

inductive Message where
  | request (r : Request)
  | response (r : Response)

namespace Message

def strings : Message → List Bytes
  | request r => r.strings
  | response r => r.strings

def validate : Message → Except Error Unit
  | request r => r.validate
  | response r => r.validate

def marshal : Message → Option Bytes
  | request r => Request.codec.marshal r
  | response r => Response.codec.marshal r

def write (answers : List (Nat × Option Error)) : Message → Bytes × Option Error
  | request r => writeMessage Request.codec r answers
  | response r => writeMessage Response.codec r answers

def decode (m : Message) (document : Bytes) : Except Error Message :=
  match m with
  | request _ => (decodeRequest document).map request
  | response _ => (decodeResponse document).map response

variable {m : Message} {document : Bytes} (hdocument : m.marshal = some document)
include hdocument

theorem write_eq (answers : List (Nat × Option Error)) : m.write answers =
    if maxDocumentBytes < document.length then ([], some errMalformedResponse)
    else writeAll answers (document ++ [10]) := by
  cases m <;> simp only [write, writeMessage, show Codec.marshal _ _ = some document from hdocument]

theorem line_of_marshal : document ≠ [] ∧ 10 ∉ document := by
  obtain ⟨v, rfl⟩ : ∃ v, document = render v := by
    cases m <;> obtain ⟨v, -, hv⟩ := Option.map_eq_some_iff.mp hdocument <;> exact ⟨v, hv.symm⟩
  refine ⟨fun hempty => ?_, fun hmem => absurd (printable_render v 10 hmem) (by decide)⟩
  have hparse := parse_render v
  rw [hempty] at hparse
  cases hparse

theorem decode_marshal (htext : Valid m.strings) (hvalid : m.validate = .ok ())
    (hsize : document.length ≤ maxDocumentBytes) : m.decode document = .ok m := by
  cases m with
  | request r =>
    exact congrArg (Except.map request) (decodeRequest_marshal htext hvalid hdocument hsize)
  | response r =>
    have hnorm : Response.codec.norm r = r := Response.norm_eq htext
    have hdecode := decodeResponse_marshal (hnorm.symm ▸ hvalid) hdocument hsize
    rw [hnorm] at hdecode
    exact congrArg (Except.map response) hdecode

end Message

/-- A message that fits is received as it was sent, however the writes and the reads are cut; of a
longer one not a byte is sent. -/
theorem message_round_trip {m : Message} (htext : Valid m.strings) (hvalid : m.validate = .ok ())
    {document : Bytes} (hdocument : m.marshal = some document) {writes reads : List Nat}
    (hwrites : ∀ n ∈ writes, 0 < n) (hreads : ∀ n ∈ reads, 0 < n) (rest : Bytes) :
    (document.length ≤ maxDocumentBytes →
      ∃ wire received reader, m.write (writes.map (·, none)) = (wire, none) ∧
        readMessage (bufioReader ⟨wire ++ rest, reads⟩) = (.ok received, reader) ∧
        m.decode received = .ok m ∧ reader.Flows ∧ reader.pending = rest) ∧
    (maxDocumentBytes < document.length →
      ∀ answers, m.write answers = ([], some errMalformedResponse)) := by
  obtain ⟨hempty, hline⟩ := Message.line_of_marshal hdocument
  refine ⟨fun hsize => ?_, fun hlong answers => ?_⟩
  · have hwire : m.write (writes.map (·, none)) = (document ++ [10], none) := by
      rw [Message.write_eq hdocument, if_neg (Nat.not_lt.mpr hsize)]
      refine writeAll_partial (fun answer hanswer => ?_) _
      obtain ⟨n, hn, rfl⟩ := List.mem_map.mp hanswer
      exact ⟨hwrites n hn, rfl⟩
    have hflows : (bufioReader ⟨document ++ [10] ++ rest, reads⟩).Flows :=
      Bufio.flows_newReaderSize hreads _
    have hpending : (bufioReader ⟨document ++ [10] ++ rest, reads⟩).pending =
      document ++ 10 :: rest :=
      List.append_assoc _ _ _
    obtain ⟨reader, hread, hflows', -, hrest⟩ :=
      readMessage_line hline hempty hsize hflows rfl hpending
    exact ⟨_, document, reader, hwire, hread, Message.decode_marshal hdocument htext hvalid hsize,
      hflows', hrest⟩
  · rw [Message.write_eq hdocument, if_pos hlong]

def exampleRequest : Request where
  schemaVersion := schemaVersionV1
  requestID := lit "req_1"
  operation := .status
  reasonCode := lit "operator_requested"

/-- A request that is written in three pieces and read byte by byte at first. -/
theorem example_round_trip : ∃ wire received reader,
    (Message.request exampleRequest).write [(1, none), (20, none)] = (wire, none) ∧
      readMessage (bufioReader ⟨wire ++ [], [1, 1, 1]⟩) = (.ok received, reader) ∧
      (Message.request exampleRequest).decode received = .ok (.request exampleRequest) ∧
      reader.Flows ∧ reader.pending = [] := by
  have hshort : ((Message.request exampleRequest).marshal.any
      fun document => document.length ≤ maxDocumentBytes) = true := by decide +kernel
  cases hdocument : (Message.request exampleRequest).marshal with
  | none =>
    rw [hdocument] at hshort
    cases hshort
  | some document =>
    rw [hdocument] at hshort
    have htext : Valid (Message.request exampleRequest).strings := by decide +kernel
    have hvalid : (Message.request exampleRequest).validate = .ok () := by decide +kernel
    have hwrites : ∀ n ∈ [1, 20], 0 < n := by decide
    exact (message_round_trip htext hvalid hdocument hwrites (by decide) []).1
      (of_decide_eq_true hshort)

end PulseAgent.AdminIPC
