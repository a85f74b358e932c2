import PulseAgent.Concurrent.Sequential
import PulseAgent.Delivery.Effect
import PulseAgent.Report.Publisher

/-!
# The delivery system

All calls that work on the queue of one store. The rest of the daemon may replace the content of any
other bucket at any time, and a crash loses the calls in flight.
-/

namespace PulseAgent.Delivery

open Go Contract Concurrent

inductive Call where
  | enqueue (d : Dispatcher) (request : EnqueueRequest)
  | enqueueWithMutation (d : Dispatcher) (request : EnqueueRequest) (mutation : TxProg Unit)
  | deliverDue (d : Dispatcher)
  | publish (p : Lifecycle.Publisher) (input : Lifecycle.Input)
  | publishTerminal (p : Report.Publisher) (input : Report.Input)

inductive Returned where
  | enqueued (item : Except Error Item)
  | passed (results : List Result) (err : Option Error)
  | published (result : Except Error Lifecycle.Result)
  | reported (result : Except Error Report.Result)

def program [UnicodeTables] : Call → Prog Returned
  | .enqueue d request => do
    let item ← d.enqueue request none
    pure (.enqueued item)
  | .enqueueWithMutation d request mutation => do
    let item ← d.enqueue request (some mutation)
    pure (.enqueued item)
  | .deliverDue d => do
    let (results, err) ← d.deliverDue
    pure (.passed results err)
  | .publish p input => do
    let result ← p.publish input
    pure (.published result)
  | .publishTerminal p input => do
    let result ← p.publishTerminal input
    pure (.reported result)

/-- The buckets only these calls write. -/
def owned : Bucket → Bool
  | .deliveryQueue | .audit | .lifecycleEvents | .incidentReports => true
  | _ => false

structure Move where
  bucket : Bucket
  content : Collection
  foreign : owned bucket = false

abbrev system [UnicodeTables] : System Store where
  interface := interface
  Call := Call
  Out := Returned
  program := program
  Move := Move
  move m s := Function.update s m.bucket m.content

abbrev run [UnicodeTables] (s : Store) (actions : List (Action system)) : World system :=
  Concurrent.run s actions

abbrev History := List (Occurrence interface)

theorem move_owned [UnicodeTables] (m : Move) (s : Store) {bucket : Bucket}
    (h : owned bucket = true) : (system.move m s) bucket = s bucket := by
  refine Function.update_of_ne ?_ _ _
  rintro rfl
  rw [m.foreign] at h
  cases h

/-! ## What the calls do before they write

`Allowed` says what a call has behind it, in its own history, when it writes to the queue: `D` are
the dispatchers that enqueue, `E` those that pass over the queue, and `M` the requests that are
enqueued, with their mutations. -/

def Generated (o : Op) (id : Bytes) (h : History) : Prop :=
  ∃ env s, (⟨o, env, s⟩ : Occurrence interface) ∈ h ∧ env.id = .ok id

theorem Generated.cons {o : Op} {id : Bytes} {h : History} (hid : Generated o id h)
    (e : Occurrence interface) : Generated o id (e :: h) := by
  obtain ⟨env, s, hmem, henv⟩ := hid
  exact ⟨env, s, List.mem_cons_of_mem e hmem, henv⟩

def Reading (now : Time) (h : History) : Prop :=
  ∃ env s, (⟨.clock, env, s⟩ : Occurrence interface) ∈ h ∧ env.now = now

theorem Reading.mono {now : Time} {h h' : History} (hreading : Reading now h) (hsuffix : h <:+ h') :
    Reading now h' := by
  obtain ⟨env, s, hmem, henv⟩ := hreading
  exact ⟨env, s, hsuffix.mem hmem, henv⟩

/-- The item was made for the request, under identifiers the call was given. -/
structure Offered (d : Dispatcher) (request : EnqueueRequest) (item : Item) (h : History) :
    Prop where
  valid : d.validateEnqueueRequest request = true
  made : ∃ now, now ≠ 0 ∧ now < request.expiresAt ∧
    (∃ headers, d.keyring.sign item.webhookID now [] = .ok headers) ∧
    item = Dispatcher.newItem request item.deliveryID item.webhookID now
  deliveryID : validToken item.deliveryID maxPayloadRefLength = true
  deliveryGenerated : Generated .newDeliveryID item.deliveryID h
  webhookGenerated : Generated .newWebhookID item.webhookID h

section Allowed

variable (D E : Dispatcher → Prop) (M : EnqueueRequest → Option (TxProg Unit) → Prop)

def Allowed (h : History) : Op → Prop
  | .tx (.enqueue maxQueueItems item mutation) =>
    ∃ d request, D d ∧ maxQueueItems = d.maxQueueItems ∧ M request mutation ∧
      Offered d request item h
  | .tx (.scheduleRetry _ nextAttempt _) => ∃ d, E d ∧ nextAttempt < d.maxAttempts
  | .tx (.markDelivered ..) | .tx (.markTerminal ..) => ∃ d, E d
  | .send _ now _ => Reading now h ∧ ∃ d, E d
  | _ => True

/-- What a publication of the event enqueues. -/
def Publishes [UnicodeTables] (p : Lifecycle.Publisher) (input : Lifecycle.Input) : Prop :=
  D p.queue ∧ ∀ event document, Lifecycle.event input = .ok event →
    LifecycleEvent.codec.marshal event = some document →
    M (p.enqueueRequest event) (some (Lifecycle.storePayload .lifecycleEvents
      (Lifecycle.recordKey event.eventID) document Lifecycle.errEventExists))

def Call.Within [UnicodeTables] : Call → Prop
  | .enqueue d request => D d ∧ M request none
  | .enqueueWithMutation d request mutation => D d ∧ M request (some mutation)
  | .deliverDue d => E d
  | .publish p input => Publishes D M p input
  | .publishTerminal p input => D p.queue ∧
    ∀ occurredAt report event, Report.composeAt input occurredAt = .ok (report, event) →
      Publishes D M p.lifecycle event ∧
      ∀ document, IncidentReport.codec.marshal report = some document →
        M (p.enqueueRequest report event.occurredAt) (some (Lifecycle.storePayload .incidentReports
          (Report.reportRecordKey report.reportID) document Report.errReportExists))

variable {D E M} {h : History} {α β : Type}

theorem sat_bind {p : Prog α} {f : α → Prog β} {Q : History → β → Prop}
    (hp : p.Sat (Allowed D E M) (fun _ _ => True) h)
    (hf : ∀ h' a, h <:+ h' → (f a).Sat (Allowed D E M) Q h') : (p >>= f).Sat (Allowed D E M) Q h :=
  hp.extends.bind fun h' a hsuffix => hf h' a hsuffix.2

theorem sat_now : Dispatcher.now.Sat (Allowed D E M) (fun h result => ∀ now, result = .ok now →
    now ≠ 0 ∧ Reading now h) h := by
  refine .call_bind trivial fun env s => ?_
  change ∀ now, (if env.now.isZero then Except.error errInvalidOptions else .ok env.now) = .ok now →
    now ≠ 0 ∧ Reading now (⟨.clock, env, s⟩ :: h)
  intro now hnow
  split at hnow
  case isTrue => cases hnow
  case isFalse hzero =>
    cases hnow
    exact ⟨fun heq => hzero (beq_iff_eq.mpr heq), env, s, List.mem_cons_self, rfl⟩

theorem sat_newIDs (d : Dispatcher) (now : Time) :
    (d.newIDs now).Sat (Allowed D E M) (fun h result => ∀ deliveryID webhookID,
      result = .ok (deliveryID, webhookID) →
      validToken deliveryID maxPayloadRefLength = true ∧
      (∃ headers, d.keyring.sign webhookID now [] = .ok headers) ∧
      Generated .newDeliveryID deliveryID h ∧ Generated .newWebhookID webhookID h) h := by
  refine .call_bind trivial fun env s => ?_
  split
  case h_1 => exact fun _ _ h => by cases h
  case h_2 deliveryID hdelivery =>
    have hgenerated : Generated .newDeliveryID deliveryID (⟨.newDeliveryID, env, s⟩ :: h) :=
      ⟨env, s, List.mem_cons_self, hdelivery⟩
    refine .ite (fun _ _ _ h => by cases h) fun htoken => ?_
    refine .call_bind trivial fun env' s' => ?_
    split
    case h_1 => exact fun _ _ h => by cases h
    case h_2 webhookID hwebhook =>
      split
      case h_1 => exact fun _ _ h => by cases h
      case h_2 headers hsign =>
        rintro _ _ heq
        cases heq
        exact ⟨by simpa using htoken, ⟨headers, hsign⟩, hgenerated.cons _, env', s',
          List.mem_cons_self, hwebhook⟩

theorem sat_enqueue {d : Dispatcher} {request : EnqueueRequest} {mutation : Option (TxProg Unit)}
    (hd : D d) (hm : M request mutation) :
    (d.enqueue request mutation).Sat (Allowed D E M) (fun _ _ => True) h := by
  refine .ite (fun _ => trivial) fun hvalid => ?_
  refine sat_now.bind fun h reading hreading => ?_
  cases reading with
  | error e => trivial
  | ok now =>
    refine .ite (fun _ => trivial) fun hexpires => ?_
    refine (sat_newIDs d now).bind fun h ids hids => ?_
    cases ids with
    | error e => trivial
    | ok ids =>
      obtain ⟨deliveryID, webhookID⟩ := ids
      obtain ⟨htoken, hsign, hdelivery, hwebhook⟩ := hids deliveryID webhookID rfl
      refine .call_bind ⟨d, request, hd, rfl, hm, ?_⟩ fun env s => ?_
      · exact ⟨by simpa using hvalid,
          ⟨now, (hreading now rfl).1, by simpa using hexpires, hsign, rfl⟩,
          htoken, hdelivery, hwebhook⟩
      · split <;> trivial

theorem sat_markTerminal {d : Dispatcher} (hd : E d) (stored : StoredItem) (now : Time)
    (ending : Ending) (reason : Bytes) :
    (Dispatcher.markTerminal stored now ending reason).Sat (Allowed D E M) (fun _ _ => True) h := by
  refine .call_bind trivial fun env s => ?_
  split
  case h_1 => trivial
  case h_2 =>
    refine .ite (fun _ => trivial) fun _ => ?_
    refine .call_bind ⟨d, hd⟩ fun env' s' => ?_
    split <;> trivial

theorem sat_retryOrFail {d : Dispatcher} (hd : E d) (stored : StoredItem) (now : Time)
    (reason : Bytes) :
    (d.retryOrFail stored now reason).Sat (Allowed D E M) (fun _ _ => True) h := by
  refine .ite (fun _ => sat_markTerminal hd _ _ _ _) fun hattempts => ?_
  refine .ite (fun _ => sat_markTerminal hd _ _ _ _) fun _ => ?_
  refine .call_bind ⟨d, hd, Int64.not_le.mp hattempts⟩ fun env s => ?_
  split <;> trivial

theorem sat_deliverOne {d : Dispatcher} (hd : E d) (stored : StoredItem) {now : Time}
    (hreading : Reading now h) :
    (d.deliverOne stored now).Sat (Allowed D E M) (fun _ _ => True) h := by
  refine .call_bind trivial fun env s => ?_
  refine .call_bind trivial fun env' s' => ?_
  split
  case h_1 => trivial
  case h_2 =>
    split
    case h_1 => exact sat_retryOrFail hd _ _ _
    case h_2 =>
      split
      case h_1 => trivial
      case h_2 =>
        refine .call_bind ⟨hreading.mono
          ((List.suffix_cons _ _).trans (List.suffix_cons _ _)), d, hd⟩
          fun env2 s2 => ?_
        refine .call_bind trivial fun env3 s3 => ?_
        split
        case h_1 => trivial
        case h_2 =>
          refine .ite (fun _ => ?_) fun _ => sat_retryOrFail hd _ _ _
          refine .call_bind ⟨d, hd⟩ fun env4 s4 => ?_
          split <;> trivial

theorem sat_process {d : Dispatcher} (hd : E d) {now : Time} (hreading : Reading now h)
    (stored : StoredItem) :
    (d.process now stored).Sat (Allowed D E M) (fun _ _ => True) h := by
  refine .ite (fun _ => ?_) fun _ => .ite (fun _ => trivial) fun _ => ?_
  · refine sat_bind (sat_markTerminal hd _ _ _ _) fun h result _ => ?_
    cases result <;> trivial
  · refine sat_bind (sat_deliverOne hd _ hreading) fun h result _ => ?_
    cases result <;> trivial

theorem sat_deliverItems {d : Dispatcher} (hd : E d) {now : Time} (hreading : Reading now h)
    (pending : List StoredItem) (results : List Result) :
    (d.deliverItems now pending results).Sat (Allowed D E M) (fun _ _ => True) h := by
  induction pending generalizing results h with
  | nil => trivial
  | cons stored rest ih =>
    refine Prog.Sat.call_bind trivial fun env s => ?_
    split
    case h_1 => trivial
    case h_2 =>
      have hnow := hreading.mono (List.suffix_cons ⟨.ctxErr, env, s⟩ h)
      refine sat_bind (sat_process hd hnow stored) fun h' result hsuffix => ?_
      cases result with
      | error e => trivial
      | ok result => exact ih (hnow.mono hsuffix) _

theorem sat_deliverDue {d : Dispatcher} (hd : E d) :
    d.deliverDue.Sat (Allowed D E M) (fun _ _ => True) h := by
  refine sat_now.bind fun h reading hreading => ?_
  cases reading with
  | error e => trivial
  | ok now =>
    refine .call_bind trivial fun env s => ?_
    split
    case h_1 => trivial
    case h_2 => exact sat_deliverItems hd ((hreading now rfl).2.mono (List.suffix_cons _ _)) _ _

/-! The publishers write through `enqueue` only. -/

section Publishers

variable [UnicodeTables]

theorem sat_loadEvent (eventID : Bytes) :
    (Lifecycle.Publisher.load eventID).Sat (Allowed D E M) (fun _ _ => True) h := by
  refine .call_bind trivial fun env s => ?_
  split <;> trivial

theorem sat_publishLost (event : LifecycleEvent) :
    (Lifecycle.Publisher.publishLost event).Sat (Allowed D E M) (fun _ _ => True) h := by
  refine sat_bind (sat_loadEvent _) fun h found _ => ?_
  split
  case h_1 => trivial
  case h_2 => trivial
  case h_3 => exact .ite (fun _ => trivial) fun _ => trivial

theorem sat_publish {p : Lifecycle.Publisher} {input : Lifecycle.Input}
    (hp : Publishes D M p input) :
    (p.publish input).Sat (Allowed D E M) (fun _ _ => True) h := by
  refine .call_bind trivial fun env s => ?_
  split
  case h_1 => trivial
  case h_2 =>
    split
    case h_1 => trivial
    case h_2 event hevent =>
      split
      case h_1 => trivial
      case h_2 document hdocument =>
        refine sat_bind (sat_loadEvent _) fun h found _ => ?_
        split
        case h_1 => trivial
        case h_2 => exact .ite (fun _ => trivial) fun _ => trivial
        case h_3 =>
          have hm := hp.2 event document hevent (encode_ok.mp hdocument)
          refine sat_bind (sat_enqueue hp.1 hm) fun h item _ => ?_
          cases item with
          | ok item => trivial
          | error e => exact .ite (fun _ => sat_publishLost event) fun _ => trivial

theorem sat_loadReport (reportID : Bytes) :
    (Report.Publisher.load reportID).Sat (Allowed D E M) (fun _ _ => True) h := by
  refine .call_bind trivial fun env s => ?_
  split <;> trivial

theorem sat_reportLost (report : IncidentReport) :
    (Report.Publisher.reportLost report).Sat (Allowed D E M) (fun _ _ => True) h := by
  refine sat_bind (sat_loadReport _) fun h found _ => ?_
  split
  case h_1 => trivial
  case h_2 => trivial
  case h_3 => exact .ite (fun _ => trivial) fun _ => trivial

theorem sat_publishReport {p : Report.Publisher} {report : IncidentReport} {document : Bytes}
    {occurredAt : Time} (hd : D p.queue)
    (hm : M (p.enqueueRequest report occurredAt) (some (Lifecycle.storePayload .incidentReports
      (Report.reportRecordKey report.reportID) document Report.errReportExists))) :
    (p.publishReport report document occurredAt).Sat (Allowed D E M) (fun _ _ => True) h := by
  refine sat_bind (sat_loadReport _) fun h found _ => ?_
  split
  case h_1 => trivial
  case h_2 => exact .ite (fun _ => trivial) fun _ => trivial
  case h_3 =>
    refine sat_bind (sat_enqueue hd hm) fun h item _ => ?_
    cases item with
    | ok item => trivial
    | error e => exact .ite (fun _ => sat_reportLost report) fun _ => trivial

theorem sat_compose (input : Report.Input) :
    (Report.Publisher.compose input).Sat (Allowed D E M)
      (fun _ result => ∃ occurredAt, result = Report.composeAt input occurredAt) h := by
  refine .ite (fun _ => ?_) fun _ => ⟨_, rfl⟩
  exact .call_bind trivial fun env s => ⟨env.now, rfl⟩

theorem sat_publishTerminal {p : Report.Publisher} {input : Report.Input}
    (hp : (Call.publishTerminal p input).Within D E M) :
    (p.publishTerminal input).Sat (Allowed D E M) (fun _ _ => True) h := by
  refine .call_bind trivial fun env s => ?_
  split
  case h_1 => trivial
  case h_2 =>
    refine (sat_compose input).bind fun h composed hcomposed => ?_
    obtain ⟨occurredAt, rfl⟩ := hcomposed
    split
    case h_1 => trivial
    case h_2 report event hcompose =>
      obtain ⟨hevent, hreport⟩ := hp.2 occurredAt report event hcompose
      split
      case h_1 => trivial
      case h_2 document hdocument =>
        refine sat_bind (sat_publishReport hp.1 (hreport document (encode_ok.mp hdocument)))
          fun h result _ => ?_
        split
        case h_1 => trivial
        case h_2 =>
          refine sat_bind (sat_publish hevent) fun h published _ => ?_
          cases published <;> trivial

theorem sat_program {call : Call} (hcall : call.Within D E M) :
    (program call).Sat (Allowed D E M) (fun _ _ => True) [] := by
  cases call with
  | enqueue d request => exact sat_bind (sat_enqueue hcall.1 hcall.2) fun _ _ _ => trivial
  | enqueueWithMutation d request mutation =>
    exact sat_bind (sat_enqueue hcall.1 hcall.2) fun _ _ _ => trivial
  | deliverDue d => exact sat_bind (sat_deliverDue hcall) fun _ _ _ => trivial
  | publish p input => exact sat_bind (sat_publish hcall) fun _ _ _ => trivial
  | publishTerminal p input => exact sat_bind (sat_publishTerminal hcall) fun _ _ _ => trivial

/-- The run lemma: in every interleaving each event was allowed by the history of its call. -/
theorem allowed_of_run (s : Store) (actions : List (Action system))
    (hcalls : ∀ call, Action.spawn call ∈ actions → call.Within D E M) :
    ∀ later e earlier, (run s actions).log = later ++ e :: earlier →
      Allowed D E M (history e.thread earlier) e.op :=
  (sat_of_run (Q := fun _ _ _ => True) s actions fun call hcall =>
    sat_program (hcalls call hcall)).events

end Publishers

end Allowed

end PulseAgent.Delivery
