import PulseAgent.Audit.Acceptance
import PulseAgent.Target.Restart

/-!
# Which registrations are recorded

The audit chain refuses what looks like a secret or a phone number. A target ID that the
configuration allows may look like that, and then the registration fails.
-/

namespace PulseAgent.Target

open Go Go.Json Contract Audit

def PlainWord (word : Bytes) : Prop := word ≠ [] ∧ ∀ b ∈ word, 97 ≤ b ∧ b ≤ 122

/-- The target passes the checks, is not stored yet, and the limit is not reached. -/
def Admissible (r : Registry) (registration : Registration) (s : Store) : Prop :=
  r.validateTarget registration.target = .ok () ∧
    (s .serviceTargets)[registration.target.targetID]? = none ∧
    r.snapshot.targets.length < r.maxTargets.toInt

/-- The error that names the reason of a rejection. -/
def rejection (r : Registry) (registration : Registration) (s : Store) : Error :=
  match r.validateTarget registration.target with
  | .error e => e
  | .ok _ =>
    if (s .serviceTargets)[registration.target.targetID]?.isSome then errDuplicateTarget
    else errTargetLimit

/-- An admissible target is stored, and any other is rejected with its reason and one audit event
that says so. -/
structure Registers (r : Registry) (answers : Answers) (registration : Registration) (s : Store) :
    Prop where
  accepted : Admissible r registration s → (r.register answers registration s).error = none ∧
    ∃ document, PersistedTarget.codec.marshal
        ⟨schemaVersionV1, r.snapshot.version + 1, registration.target⟩ = some document ∧
      (r.register answers registration s).store .serviceTargets =
        (s .serviceTargets).insert registration.target.targetID document
  rejected : ¬Admissible r registration s →
    (r.register answers registration s).error = some (rejection r registration s) ∧
    ∃ event, log (r.register answers registration s).store = log s ++ [event] ∧
      event.result = lit "rejected"

/-- The chain takes the event of the registration. -/
structure Recordable (r : Registry) (answers : Answers) (registration : Registration) (s : Store) :
    Prop where
  context : validRegistrationContext registration = true
  targetID : validIdentifier registration.target.targetID = true →
    Redaction.containsSensitive registration.target.targetID = false
  actorIdentity : Redaction.containsSensitive registration.actorIdentity = false
  reasonCode : Admissible r registration s →
    Redaction.containsSensitive registration.reasonCode = false
  clock : ∃ text, answers.now.format = some text
  capacity : (log s).length ≠ maxUint64

/-! ## The fields of the event -/

theorem safe_of_ascii {value : Bytes} (hascii : ∀ b ∈ value, b < 128)
    (hsafe : ∀ b ∈ value, safeRune b.toNat = true) : (Utf8.runes value).all safeRune = true := by
  rw [Utf8.runes_ascii hascii, List.all_map, List.all_eq_true]
  exact hsafe

theorem PlainWord.safe {word : Bytes} (h : PlainWord word) :
    (Utf8.runes word).all safeRune = true := by
  refine safe_of_ascii (fun b hb => UInt8.lt_of_le_of_lt (h.2 b hb).2 (by decide)) fun b hb => ?_
  have hletter : 97 ≤ b.toNat ∧ b.toNat ≤ 122 :=
    ⟨UInt8.le_iff_toNat_le.mp (h.2 b hb).1, UInt8.le_iff_toNat_le.mp (h.2 b hb).2⟩
  simp [safeRune, hletter]

theorem PlainWord.validAuditValue_iff {word : Bytes} (h : PlainWord word) :
    validAuditValue word = true ↔ word.length ≤ 128 := by
  simp [validAuditValue, h.1, h.safe]

theorem PlainWord.validAuditField_iff {word : Bytes} (h : PlainWord word)
    (hlength : word.length ≤ 128) :
    validAuditField word = true ↔ Redaction.containsSensitive word = false := by
  simp [validAuditField, h.1, h.safe, maxFieldBytes, hlength]

theorem safe_of_identifierByte {b : UInt8} (h : identifierByte b = true) :
    safeRune b.toNat = true := by
  simp only [identifierByte, alphanumeric, Bool.or_eq_true, Bool.and_eq_true, decide_eq_true_eq,
    UInt8.le_iff_toNat_le, UInt8.reduceToNat] at h
  simp only [safeRune, Bool.or_eq_true, Bool.and_eq_true, decide_eq_true_eq]
  rcases h with ((((h | h) | h) | rfl) | rfl) | rfl
  · exact .inl (.inl (.inr h))
  · exact .inl (.inl (.inl h))
  · exact .inl (.inr h)
  all_goals decide

theorem ne_nil_of_validIdentifier {value : Bytes} (h : validIdentifier value = true) :
    value ≠ [] := by
  rintro rfl
  cases h

theorem validAuditField_identifier {value : Bytes} (h : validIdentifier value = true) :
    validAuditField value = true ↔ Redaction.containsSensitive value = false := by
  obtain ⟨hplain, hlength⟩ := plain_of_validIdentifier h
  simp only [validIdentifier, Bool.and_eq_true] at h
  have hshape := h.1.2
  cases value with
  | nil => cases hshape
  | cons b rest =>
    simp only [matchesIdentifier, Bool.and_eq_true, decide_eq_true_eq] at hshape
    have hbytes : ∀ c ∈ b :: rest, identifierByte c = true := by
      refine List.forall_mem_cons.mpr ⟨?_, fun c hc => List.all_eq_true.mp hshape.2 c hc⟩
      simp [identifierByte, hshape.1.1]
    have hascii : ∀ c ∈ b :: rest, c < 128 := by
      intro c hc
      have hc' := List.all_eq_true.mp hplain c hc
      simp only [plainByte, Bool.and_eq_true, decide_eq_true_eq] at hc'
      exact hc'.1.1.1.1.1.2
    have hsafe := safe_of_ascii hascii fun c hc => safe_of_identifierByte (hbytes c hc)
    have hshort : (b :: rest).length ≤ maxFieldBytes := le_trans hlength (by decide)
    simp only [validAuditField, hsafe, hshort, ne_eq, reduceCtorEq, not_false_eq_true, decide_true,
      Bool.true_and, Bool.and_true, Bool.not_eq_true']

theorem validAuditField_aggregateID (targetID : Bytes) :
    validAuditField (auditAggregateID targetID) = true ↔
      (validIdentifier targetID = true → Redaction.containsSensitive targetID = false) := by
  unfold auditAggregateID
  split
  case isTrue hid => simp [validAuditField_identifier hid, hid]
  case isFalse hid =>
    have hunknown : validAuditField (lit "target-unknown") = true := by decide +kernel
    simp [hunknown, hid]

/-! ## Recording -/

section

variable {r : Registry} {answers : Answers} {registration : Registration} {s : Store} {id : Bytes}

/-- What the environment answers to a registration: a fresh ID that the chain takes, a clock that is
set, and no failing commit. -/
structure Served (answers : Answers) (s : Store) (id : Bytes) : Prop where
  newID : answers.newID = .ok id
  safe : validAuditField id = true
  fresh : id ∉ (log s).map AuditEvent.eventID
  now : answers.now.isZero = false
  fault : answers.fault = none

theorem validateEventFields_auditEvent {aggregateID result reason : Bytes} {now : Time}
    (hid : validAuditField id = true) (hnow : now.isZero = false)
    (hresult : validAuditField result = true) :
    validateEventFields (auditEvent registration aggregateID result reason id now) = .ok () ↔
      validAuditField aggregateID = true ∧ validAuditField registration.actorIdentity = true ∧
        validAuditField reason = true := by
  have htype : validAuditField (lit "service_target") = true := by decide +kernel
  have haction : validAuditField (lit "target.register") = true := by decide +kernel
  rw [validateEventFields_ok]
  simp [auditEvent, auditFields, hid, hnow, hresult, htype, haction]

theorem appendAudit_accepted_iff {aggregateID result reason : Bytes} {change : Option Mutation}
    {s1 : Store} (hserved : Served answers s id) (hchain : Chain s (log s))
    (hchange : Changes change s s1) (hresult : validAuditField result = true) :
    (∃ s', appendAudit answers registration aggregateID result reason change s = .ok ((), s')) ↔
      (validAuditField aggregateID = true ∧ validAuditField registration.actorIdentity = true ∧
        validAuditField reason = true) ∧ (∃ text, answers.now.format = some text) ∧
        (log s).length ≠ maxUint64 := by
  have hnew : (auditEvent registration aggregateID result reason id
    answers.now).previousDigest = [] ∧
      (auditEvent registration aggregateID result reason id answers.now).digest = [] := ⟨rfl, rfl⟩
  have haccepted := append_accepted_iff hchain hnew hchange
  rw [validateEventFields_auditEvent hserved.safe hserved.now hresult] at haccepted
  refine Iff.trans ?_ haccepted
  constructor
  · rintro ⟨s', h⟩
    obtain ⟨_, appended, hid, -, happend⟩ := Answers.appendAudit_ok.mp h
    cases hserved.newID.symm.trans hid
    exact ⟨appended, s', happend⟩
  · rintro ⟨appended, s', happend⟩
    exact ⟨s', Answers.appendAudit_ok.mpr ⟨id, appended, hserved.newID, hserved.now, happend⟩⟩

theorem log_of_appendAudit {aggregateID result reason : Bytes} {change : Option Mutation}
    {s1 s' : Store} (hserved : Served answers s id) (hchain : Chain s (log s))
    (hchange : Changes change s s1)
    (h : appendAudit answers registration aggregateID result reason change s = .ok ((), s')) :
    ∃ event, log s' = log s ++ [event] ∧ event.result = result := by
  obtain ⟨_, appended, hid, -, happend⟩ := Answers.appendAudit_ok.mp h
  cases hserved.newID.symm.trans hid
  obtain ⟨hchain', -, previousDigest, digest, heq⟩ :=
    append_recorded hchain hchange hserved.fresh happend
  exact ⟨appended, hchain'.log_eq, by rw [heq]; rfl⟩

theorem Registers.of_rejected (hnot : ¬Admissible r registration s)
    (herror : (r.register answers registration s).error = some (rejection r registration s))
    (hlog : ∃ event, log (r.register answers registration s).store = log s ++ [event] ∧
      event.result = lit "rejected") : Registers r answers registration s :=
  ⟨fun h => absurd h hnot, fun _ => ⟨herror, hlog⟩⟩

theorem not_registers_of_failed (herror : (r.register answers registration s).error ≠ none)
    (hstore : (r.register answers registration s).store = s) :
    ¬Registers r answers registration s := by
  intro h
  by_cases hadmissible : Admissible r registration s
  · exact herror (h.accepted hadmissible).1
  · obtain ⟨-, event, hlog, -⟩ := h.rejected hadmissible
    rw [hstore] at hlog
    exact absurd (congrArg List.length hlog) (by simp)

theorem recordable_iff {reason : Bytes} (hcontext : validRegistrationContext registration = true)
    (hactor : PlainWord registration.actorIdentity)
    (hreason : validAuditField reason = true ↔ (Admissible r registration s →
      Redaction.containsSensitive registration.reasonCode = false)) :
    Recordable r answers registration s ↔
      (validAuditField (auditAggregateID registration.target.targetID) = true ∧
        validAuditField registration.actorIdentity = true ∧ validAuditField reason = true) ∧
        (∃ text, answers.now.format = some text) ∧ (log s).length ≠ maxUint64 := by
  have hcontext' := hcontext
  simp only [validRegistrationContext, Bool.and_eq_true] at hcontext'
  have hlength := hactor.validAuditValue_iff.mp hcontext'.1.1
  rw [validAuditField_aggregateID, hactor.validAuditField_iff hlength, hreason]
  constructor
  · intro h
    exact ⟨⟨h.targetID, h.actorIdentity, h.reasonCode⟩, h.clock, h.capacity⟩
  · rintro ⟨⟨htarget, hactor', hreason'⟩, hclock, hcapacity⟩
    exact ⟨hcontext, htarget, hactor', hreason', hclock, hcapacity⟩

theorem registers_iff_of_rejected {reason : Bytes} (hserved : Served answers s id)
    (hchain : Chain s (log s)) (hcontext : validRegistrationContext registration = true)
    (hactor : PlainWord registration.actorIdentity) (hreason : validAuditField reason = true)
    (hnot : ¬Admissible r registration s)
    (hrecorded : ∀ s', appendAudit answers registration
      (auditAggregateID registration.target.targetID)
        (lit "rejected") reason none s = .ok ((), s') →
      (r.register answers registration s).error = some (rejection r registration s) ∧
        (r.register answers registration s).store = s')
    (hfailed : (¬∃ s', appendAudit answers registration
      (auditAggregateID registration.target.targetID)
        (lit "rejected") reason none s = .ok ((), s')) →
      (r.register answers registration s).error ≠ none ∧
        (r.register answers registration s).store = s) :
    Registers r answers registration s ↔ Recordable r answers registration s := by
  have hchange : Changes none s s := .inl ⟨rfl, rfl⟩
  have hresult : validAuditField (lit "rejected") = true := by decide +kernel
  have hcond : validAuditField reason = true ↔ (Admissible r registration s →
      Redaction.containsSensitive registration.reasonCode = false) := by simp [hreason, hnot]
  rw [recordable_iff hcontext hactor hcond,
    ← appendAudit_accepted_iff hserved hchain hchange hresult]
  constructor
  · intro h
    by_contra hnone
    exact not_registers_of_failed (hfailed hnone).1 (hfailed hnone).2 h
  · rintro ⟨s', happend⟩
    obtain ⟨herror, hstore⟩ := hrecorded s' happend
    refine .of_rejected hnot herror ?_
    rw [hstore]
    exact log_of_appendAudit hserved hchain hchange happend

theorem register_of_invalid {e : Error} (hserved : Served answers s id) (hchain : Chain s (log s))
    (hcontext : validRegistrationContext registration = true)
    (hactor : PlainWord registration.actorIdentity)
    (hinvalid : r.validateTarget registration.target = .error e) :
    Registers r answers registration s ↔ Recordable r answers registration s := by
  have hnot : ¬Admissible r registration s := by
    rintro ⟨hok, -⟩
    cases hinvalid.symm.trans hok
  refine registers_iff_of_rejected hserved hchain hcontext hactor
    (by decide +kernel : validAuditField (lit "invalid_target") = true) hnot ?_ ?_
  · intro s' happend
    have hcommit := Answers.commit_ok.mpr ⟨hserved.fault, happend⟩
    simp [Registry.register, hcontext, hinvalid, hcommit, rejection]
  · intro hnone
    obtain ⟨e', hcommit⟩ := answers.commit_of_failed fun ⟨_, s', happend⟩ => hnone ⟨s', happend⟩
    simp [Registry.register, hcontext, hinvalid, hcommit]

theorem register_of_refused {reason : Bytes} (hserved : Served answers s id)
    (hchain : Chain s (log s)) (hcontext : validRegistrationContext registration = true)
    (hactor : PlainWord registration.actorIdentity)
    (hvalid : r.validateTarget registration.target = .ok ())
    (hreason : validAuditField reason = true)
    (hnot : ¬Admissible r registration s)
    (hbranch : ∀ out s', r.registerTx answers registration s = .ok (out, s') ↔
      out = some (rejection r registration s) ∧ appendAudit answers registration
        (auditAggregateID registration.target.targetID) (lit "rejected") reason none s =
          .ok ((), s')) :
    Registers r answers registration s ↔ Recordable r answers registration s := by
  refine registers_iff_of_rejected hserved hchain hcontext hactor hreason hnot ?_ ?_
  · intro s' happend
    have hcommit := Answers.commit_ok.mpr ⟨hserved.fault, (hbranch _ s').mpr ⟨rfl, happend⟩⟩
    simp [Registry.register, hcontext, hvalid, hcommit]
  · intro hnone
    have hfails : ¬∃ out s', r.registerTx answers registration s = .ok (out, s') := by
      rintro ⟨out, s', hrun⟩
      exact hnone ⟨s', ((hbranch out s').mp hrun).2⟩
    obtain ⟨e, hcommit⟩ := answers.commit_of_failed hfails
    simp [Registry.register, hcontext, hvalid, hcommit]

theorem register_of_inadmissible (hserved : Served answers s id) (hchain : Chain s (log s))
    (hcontext : validRegistrationContext registration = true)
    (hactor : PlainWord registration.actorIdentity)
    (hvalid : r.validateTarget registration.target = .ok ())
    (hnot : ¬Admissible r registration s) :
    Registers r answers registration s ↔ Recordable r answers registration s := by
  have hkey := ne_nil_of_validIdentifier (valid_of_validateTarget hvalid).targetID
  cases hstored : (s .serviceTargets)[registration.target.targetID]? with
  | some document =>
    refine register_of_refused hserved hchain hcontext hactor hvalid
      (by decide +kernel : validAuditField (lit "duplicate_target") = true) hnot fun out s' => ?_
    simp [registerTx_ok, hkey, hstored, rejection, hvalid]
  | none =>
    have hlimit : r.maxTargets.toInt ≤ r.snapshot.targets.length :=
      not_lt.mp fun hlt => hnot ⟨hvalid, hstored, hlt⟩
    refine register_of_refused hserved hchain hcontext hactor hvalid
      (by decide +kernel : validAuditField (lit "target_limit_reached") = true) hnot
        fun out s' => ?_
    simp [registerTx_ok, hkey, hstored, rejection, hvalid, hlimit, not_lt.mpr hlimit]

theorem register_of_admissible (hserved : Served answers s id) (hchain : Chain s (log s))
    (hcontext : validRegistrationContext registration = true)
    (hactor : PlainWord registration.actorIdentity) (hreason : PlainWord registration.reasonCode)
    (hadmissible : Admissible r registration s) :
    Registers r answers registration s ↔ Recordable r answers registration s := by
  obtain ⟨hvalid, habsent, hlimit⟩ := hadmissible
  have htarget := valid_of_validateTarget hvalid
  have hkey := ne_nil_of_validIdentifier htarget.targetID
  obtain ⟨document, hmarshal⟩ := htarget.marshal (r.snapshot.version + 1)
  have hmarshal' := hmarshal
  rw [← htarget.cloneTarget_eq] at hmarshal'
  have hbranch : ∀ out s', r.registerTx answers registration s = .ok (out, s') ↔ out = none ∧
      appendAudit answers registration (auditAggregateID registration.target.targetID)
        (lit "accepted") registration.reasonCode
        (some (.put .serviceTargets registration.target.targetID document .ret)) s =
          .ok ((), s') := by
    intro out s'
    simp [registerTx_ok, hkey, habsent, hlimit, not_le.mpr hlimit, hmarshal']
  have hput : Tx.put .serviceTargets registration.target.targetID document s = .ok ((),
      Function.update s .serviceTargets
        ((s .serviceTargets).insert registration.target.targetID document)) :=
    Tx.put_ok.mpr ⟨by decide, hkey, rfl⟩
  have hchange : Changes (some (.put .serviceTargets registration.target.targetID document .ret)) s
      (Function.update s .serviceTargets
        ((s .serviceTargets).insert registration.target.targetID document)) := by
    refine .inr ⟨_, rfl, ?_, Function.update_of_ne (by decide) _ _⟩
    simp only [TxProg.run, TxProg.step, hput, Except.map]
  have hresult : validAuditField (lit "accepted") = true := by decide +kernel
  have hlength : registration.reasonCode.length ≤ 128 := by
    simp only [validRegistrationContext, Bool.and_eq_true] at hcontext
    exact hreason.validAuditValue_iff.mp hcontext.2
  have hcond : validAuditField registration.reasonCode = true ↔ (Admissible r registration s →
      Redaction.containsSensitive registration.reasonCode = false) := by
    rw [hreason.validAuditField_iff hlength]
    exact ⟨fun h _ => h, fun h => h ⟨hvalid, habsent, hlimit⟩⟩
  rw [recordable_iff hcontext hactor hcond,
    ← appendAudit_accepted_iff hserved hchain hchange hresult]
  constructor
  · intro h
    by_contra hnone
    have hfails : ¬∃ out s', r.registerTx answers registration s = .ok (out, s') := by
      rintro ⟨out, s', hrun⟩
      exact hnone ⟨s', ((hbranch out s').mp hrun).2⟩
    obtain ⟨e, hcommit⟩ := answers.commit_of_failed hfails
    refine not_registers_of_failed ?_ ?_ h <;> simp [Registry.register, hcontext, hvalid, hcommit]
  · rintro ⟨s', happend⟩
    have hcommit := Answers.commit_ok.mpr ⟨hserved.fault, (hbranch none s').mpr ⟨rfl, happend⟩⟩
    refine ⟨fun _ => ?_, fun hnot => absurd ⟨hvalid, habsent, hlimit⟩ hnot⟩
    have hregister : r.register answers registration s =
        ⟨r.snapshot.add registration.target, none,
          { r with snapshot := r.snapshot.add registration.target }, s'⟩ := by
      simp [Registry.register, hcontext, hvalid, hcommit]
    rw [hregister]
    exact ⟨rfl, document, hmarshal, targets_of_accepted happend hkey⟩

end

/-- With plain words in the context and an environment that serves the registration, a target is
stored or rejected with its reason exactly when the chain takes the event: no target ID looks like a
secret or a phone number, nor do the actor and the reason, the time has a text and the key space has
room. -/
theorem registration_recorded_iff (r : Registry) (answers : Answers) (registration : Registration)
    (s : Store) (id : Bytes) (hactor : PlainWord registration.actorIdentity)
    (hreason : PlainWord registration.reasonCode)
    (hvalid : validateChain s = .ok ((), s)) (hserved : Served answers s id) :
    Registers r answers registration s ↔ Recordable r answers registration s := by
  obtain ⟨events, hchain, -⟩ := validateChain_ok.mp hvalid
  obtain rfl := hchain.log_eq
  cases hcontext : validRegistrationContext registration with
  | false =>
    have hregister : r.register answers registration s = ⟨{}, some errInvalidOptions, r, s⟩ := by
      simp [Registry.register, hcontext]
    refine iff_of_false (not_registers_of_failed ?_ ?_) fun h => ?_
    · simp [hregister]
    · rw [hregister]
    · cases hcontext.symm.trans h.context
  | true =>
    by_cases hadmissible : Admissible r registration s
    · exact register_of_admissible hserved hchain hcontext hactor hreason hadmissible
    · cases hvalidate : r.validateTarget registration.target with
      | error e => exact register_of_invalid hserved hchain hcontext hactor hvalidate
      | ok _ => exact register_of_inadmissible hserved hchain hcontext hactor hvalidate hadmissible

def registrationOf (targetID : Bytes) : Registration :=
  ⟨{ exampleTarget with targetID := targetID }, lit "operator", lit "request", lit "setup"⟩

def registryAllowing (targetID : Bytes) : Registry :=
  ⟨[(targetID, lit "docker")], 2, 1024, emptySnapshot⟩

theorem plainWord_of_all {word : Bytes} (hne : word ≠ [])
    (h : word.all (fun b => 97 ≤ b && b ≤ 122) = true) : PlainWord word :=
  ⟨hne, fun b hb => by simpa using List.all_eq_true.mp h b hb⟩

theorem served_exampleAnswers : Served exampleAnswers Store.empty (lit "target-1") :=
  ⟨rfl, by decide +kernel, by decide +kernel, by decide, rfl⟩

theorem registration_recorded_api :
    Served exampleAnswers Store.empty (lit "target-1") ∧
      (Registers (registryAllowing (lit "api")) exampleAnswers (registrationOf (lit "api"))
          Store.empty ↔
        Recordable (registryAllowing (lit "api")) exampleAnswers (registrationOf (lit "api"))
          Store.empty) :=
  ⟨served_exampleAnswers, registration_recorded_iff _ _ _ _ _
    (plainWord_of_all (by decide) (by decide)) (plainWord_of_all (by decide) (by decide))
    (validateChain_ok.mpr ⟨[], chain_empty, rfl⟩) served_exampleAnswers⟩

/-- A date in the target ID looks like a phone number: the target is admissible, the chain refuses
its event, and nothing is stored. -/
theorem dated_target_not_registered :
    Admissible (registryAllowing (lit "api-2024-1101")) (registrationOf (lit "api-2024-1101"))
        Store.empty ∧
      Served exampleAnswers Store.empty (lit "target-1") ∧
      ((registryAllowing (lit "api-2024-1101")).register exampleAnswers
        (registrationOf (lit "api-2024-1101")) Store.empty).error = some errInvalidEvent ∧
      ¬Registers (registryAllowing (lit "api-2024-1101")) exampleAnswers
        (registrationOf (lit "api-2024-1101")) Store.empty := by
  have hadmissible : Admissible (registryAllowing (lit "api-2024-1101"))
      (registrationOf (lit "api-2024-1101")) Store.empty :=
    ⟨by decide +kernel, by decide +kernel, by decide +kernel⟩
  have herror : ((registryAllowing (lit "api-2024-1101")).register exampleAnswers
      (registrationOf (lit "api-2024-1101")) Store.empty).error = some errInvalidEvent := by
    decide +kernel
  refine ⟨hadmissible, served_exampleAnswers, herror, fun h => ?_⟩
  exact absurd (h.accepted hadmissible).1 (by rw [herror]; nofun)

end PulseAgent.Target
