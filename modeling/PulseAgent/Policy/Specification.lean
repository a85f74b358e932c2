import PulseAgent.Policy

/-!
# What an authorization decision means

`Eligible` says, without the order of the checks, what a request has to meet before an approval is
looked at; `Approved` and `Unattended` are the two ways an eligible request is allowed.
-/

namespace PulseAgent.Policy

open Go Contract

/-! ## Well-formed snapshots -/

structure WellFormedAction (action : TypedAction) : Prop where
  actionType : action.actionType = .dockerContainerRestart ∨
    action.actionType = .dockerComposeServiceRestart
  targetSelector : action.targetSelector ≠ []
  stopTimeout : 0 < action.stopTimeout.toInt
  cooldown : 0 ≤ action.cooldown.toInt

structure WellFormed (registered : RegisteredRunbook) : Prop where
  targetID : registered.targetID ≠ []
  schemaVersion : registered.runbook.schemaVersion = schemaVersionV1
  runbookID : registered.runbook.runbookID ≠ []
  digest : registered.runbook.digest ≠ []
  typedActions : elems registered.runbook.typedActions ≠ []
  maxAttempts : 1 ≤ registered.runbook.retryPolicy.maxAttempts.toInt
  riskTier : registered.runbook.riskTier = .low ∨ registered.runbook.riskTier = .medium ∨
    registered.runbook.riskTier = .high
  actions : ∀ action ∈ elems registered.runbook.typedActions, WellFormedAction action

structure Snapshot.Valid (snapshot : Snapshot) : Prop where
  runbooks : snapshot.runbooks ≠ []
  wellFormed : ∀ registered ∈ snapshot.runbooks, WellFormed registered
  distinct : (snapshot.runbooks.map fun registered => registered.runbook.runbookID).Nodup
  approvers : [] ∉ snapshot.authorizedApprovers
  distinctApprovers : snapshot.authorizedApprovers.Nodup

theorem uniqueNonEmpty_iff {values : List Bytes} :
    uniqueNonEmpty values = true ↔ [] ∉ values ∧ values.Nodup := by
  simp only [uniqueNonEmpty, Bool.and_eq_true, List.all_eq_true, decide_eq_true_eq, ne_eq]
  refine and_congr_left fun _ => ⟨fun h hmem => h [] hmem rfl, fun h x hx hnil => h (hnil ▸ hx)⟩

theorem validTypedAction_iff {action : TypedAction} :
    validTypedAction action = true ↔ WellFormedAction action := by
  simp only [validTypedAction, Bool.and_eq_true, Bool.or_eq_true, decide_eq_true_eq, ne_eq,
    Int64.lt_iff_toInt_lt, Int64.le_iff_toInt_le]
  constructor
  · rintro ⟨⟨⟨htype, hselector⟩, hstop⟩, hcooldown⟩
    exact ⟨htype, hselector, hstop, hcooldown⟩
  · intro h
    exact ⟨⟨⟨h.actionType, h.targetSelector⟩, h.stopTimeout⟩, h.cooldown⟩

theorem validRegistration_iff {registered : RegisteredRunbook} :
    validRegistration registered = true ↔ WellFormed registered := by
  simp only [validRegistration, Bool.and_eq_true, Bool.or_eq_true, decide_eq_true_eq, ne_eq,
    List.all_eq_true, validTypedAction_iff, Int64.le_iff_toInt_le, List.length_eq_zero_iff]
  constructor
  · rintro ⟨⟨⟨⟨⟨⟨⟨htarget, hversion⟩, hid⟩, hdigest⟩, hactions⟩, hattempts⟩, hrisk⟩, hall⟩
    exact ⟨htarget, hversion, hid, hdigest, hactions, hattempts, or_assoc.mp hrisk, hall⟩
  · intro h
    exact ⟨⟨⟨⟨⟨⟨⟨h.targetID, h.schemaVersion⟩, h.runbookID⟩, h.digest⟩, h.typedActions⟩,
      h.maxAttempts⟩, or_assoc.mpr h.riskTier⟩, h.actions⟩

theorem validSnapshot_iff {snapshot : Snapshot} :
    validSnapshot snapshot = true ↔ snapshot.Valid := by
  simp only [validSnapshot, Bool.and_eq_true, decide_eq_true_eq, ne_eq, List.all_eq_true,
    validRegistration_iff, uniqueNonEmpty_iff, List.length_eq_zero_iff]
  constructor
  · rintro ⟨⟨⟨hnonempty, hall⟩, hdistinct⟩, hempty, hnodup⟩
    exact ⟨hnonempty, hall, hdistinct, hempty, hnodup⟩
  · intro h
    exact ⟨⟨⟨h.runbooks, h.wellFormed⟩, h.distinct⟩, h.approvers, h.distinctApprovers⟩

/-! ## Approvals -/

/-- The approval is an unrevoked grant of the input's command that has not run out. -/
structure Approved (authorized : List Bytes) (input : Input) (a : Approval) : Prop where
  unrevoked : input.approvalRevoked = false
  approver : a.approverIdentity ∈ authorized
  schemaVersion : a.schemaVersion = schemaVersionV1
  approvalID : a.approvalID ≠ []
  granted : a.decision = .granted
  command : a.commandID = input.commandID
  createdAt : a.createdAt ≠ 0
  expiresAt : a.expiresAt ≠ 0
  period : a.createdAt < a.expiresAt
  now : input.now ≠ 0
  unexpired : input.now < a.expiresAt

theorem approval_of_none {authorized : List Bytes} {input : Input} (h : input.approval = none) :
    approval authorized input = {} := by
  unfold approval
  rw [h]

theorem approval_of_some {authorized : List Bytes} {input : Input} {a : Approval}
    (h : input.approval = some a) :
    (Approved authorized input a ∧ approval authorized input = ⟨.allow, .allowed⟩) ∨
      (¬Approved authorized input a ∧
        ∃ reason, reason ≠ .unset ∧ approval authorized input = deny reason) := by
  unfold approval
  rw [h]
  dsimp only
  split
  case isTrue hrevoked =>
    refine .inr ⟨fun happroved => ?_, .approvalRevoked, by decide, rfl⟩
    rw [happroved.unrevoked, contains_iff.mpr happroved.approver] at hrevoked
    cases hrevoked
  case isFalse hrevoked =>
    split
    case isTrue hdenied =>
      refine .inr ⟨fun happroved => ?_, .approvalDenied, by decide, rfl⟩
      rw [happroved.granted] at hdenied
      cases hdenied
    case isFalse =>
      simp only [Bool.or_eq_true, Bool.not_eq_true', not_or, Bool.not_eq_true,
        Bool.not_eq_false, contains_iff] at hrevoked
      split
      case isTrue hinvalid =>
        refine .inr ⟨fun happroved => ?_, .approvalExpired, by decide, rfl⟩
        simp [happroved.schemaVersion, happroved.approvalID, happroved.granted, happroved.command,
          Time.isZero, happroved.createdAt, happroved.expiresAt, happroved.period, happroved.now,
          happroved.unexpired] at hinvalid
      case isFalse hvalid =>
        simp only [Bool.or_eq_true, not_or, Bool.not_eq_true', decide_eq_true_eq, Time.isZero,
          decide_eq_false_iff_not, not_not, ne_eq, beq_iff_eq] at hvalid
        obtain ⟨⟨⟨⟨⟨⟨⟨⟨hversion, hid⟩, hgranted⟩, hcommand⟩, hcreated⟩, hexpires⟩, hperiod⟩, hset⟩,
          hnow⟩ := hvalid
        exact .inl ⟨⟨hrevoked.1, hrevoked.2, hversion, hid, hgranted, hcommand, hcreated, hexpires,
          hperiod, hset, hnow⟩, rfl⟩

/-! ## Requests -/

/-- No attempt came before, or the last one is at least the cooldown ago. -/
def Rested (cooldown : Duration) (previous now : Time) : Prop :=
  previous = 0 ∨ now ≠ 0 ∧ previous ≤ now ∧ previous + cooldown.toInt ≤ now

theorem le_sub_iff {cooldown : Duration} {previous now : Time} (h : previous ≤ now) :
    cooldown ≤ now.sub previous ↔ previous + cooldown.toInt ≤ now := by
  have hnow : (0 : Int) ≤ now - previous := Int.sub_nonneg_of_le h
  have hiff : previous + cooldown.toInt ≤ now ↔ cooldown.toInt ≤ (now - previous : Int) := by
    constructor
    · intro hle
      exact Int.le_sub_left_of_add_le hle
    · intro hle
      exact Int.add_le_of_le_sub_left hle
  rw [hiff, Int64.le_iff_toInt_le]
  have hlow : (-2 ^ 63 : Int) ≤ now - previous := Int.le_trans (by decide) hnow
  unfold Time.sub
  rw [if_neg (Int.not_lt.mpr hlow)]
  split
  case isTrue hlarge =>
    have hmax := cooldown.toInt_lt
    have hvalue : Int64.maxValue.toInt = 2 ^ 63 - 1 := by decide
    rw [hvalue]
    constructor
    · intro _
      exact Int.le_trans (Int.le_of_lt hmax) hlarge
    · intro _
      exact Int.le_sub_one_of_lt hmax
  case isFalse hsmall =>
    rw [Int64.toInt_ofInt_of_le hlow (Int.not_le.mp hsmall)]

theorem cooldownElapsed_iff {cooldown : Duration} {previous now : Time}
    (h : 0 ≤ cooldown.toInt) :
    cooldownElapsed cooldown previous now = true ↔ Rested cooldown previous now := by
  have hcooldown : (0 : Duration) ≤ cooldown := Int64.le_iff_toInt_le.mpr h
  have hnot : ¬cooldown < 0 := by
    rw [Int64.lt_iff_toInt_lt]
    exact Int.not_lt.mpr h
  unfold cooldownElapsed Rested
  by_cases hprevious : previous = 0
  · simp [hprevious, Time.isZero, hcooldown]
  · rw [if_neg (by simp [hnot, Time.isZero, hprevious])]
    simp only [hprevious, false_or, Bool.and_eq_true, Bool.not_eq_true', decide_eq_true_eq,
      decide_eq_false_iff_not, Time.isZero, beq_eq_false_iff_ne, ne_eq, and_assoc]
    refine and_congr_right fun _ => ?_
    constructor
    · rintro ⟨hle, hsub⟩
      exact ⟨Int.not_lt.mp hle, (le_sub_iff (Int.not_lt.mp hle)).mp hsub⟩
    · rintro ⟨hle, hsub⟩
      exact ⟨Int.not_lt.mpr hle, (le_sub_iff hle).mpr hsub⟩

/-- What a request meets before an approval is looked at: it names an action of the one
registration with its runbook ID, and the facts of the moment permit the action. -/
structure Eligible (snapshot : Snapshot) (input : Input) (registered : RegisteredRunbook)
    (action : TypedAction) : Prop where
  valid : snapshot.Valid
  runbookID : input.runbookID ≠ []
  runbookDigest : input.runbookDigest ≠ []
  targetID : input.targetID ≠ []
  commandID : input.commandID ≠ []
  mem : registered ∈ snapshot.runbooks
  named : registered.runbook.runbookID = input.runbookID
  only : ∀ other ∈ snapshot.runbooks, other.runbook.runbookID = input.runbookID →
    other = registered
  digest : input.runbookDigest = registered.runbook.digest
  target : input.targetID = registered.targetID
  index : 0 ≤ input.actionIndex.toInt
  selected : (elems registered.runbook.typedActions)[input.actionIndex.toInt.toNat]? = some action
  analysis : registered.analysisRequired = true →
    input.analysisAvailable = true ∧ input.runbookID ∈ input.analysisCandidateIDs
  preconditions : [] ∉ elems registered.runbook.preconditions
  distinct : (elems registered.runbook.preconditions).Nodup
  observed : ∀ condition ∈ elems registered.runbook.preconditions,
    input.preconditions condition = true
  rested : Rested action.cooldown input.lastAttemptAt input.now
  attempts : 0 ≤ input.attemptCount.toInt
  remaining : input.attemptCount.toInt < registered.runbook.retryPolicy.maxAttempts.toInt
  samples : 1 ≤ registered.runbook.stabilizationPolicy.recoverySamples.toInt
  window : 0 < registered.runbook.stabilizationPolicy.window.toInt

/-- The runbook may run without a person's word. -/
structure Unattended (runbook : Runbook) : Prop where
  riskTier : runbook.riskTier = .low
  autoExecute : runbook.autoExecute = true
  approval : runbook.approvalPolicy.required = false

theorem needsApproval_eq_false_iff {runbook : Runbook} :
    needsApproval runbook = false ↔ Unattended runbook := by
  simp only [needsApproval, Bool.or_eq_false_iff, decide_eq_false_iff_not, ne_eq, not_not,
    Bool.not_eq_false']
  constructor
  · rintro ⟨⟨hrisk, happroval⟩, hauto⟩
    exact ⟨hrisk, hauto, happroval⟩
  · intro h
    exact ⟨⟨h.riskTier, h.approval⟩, h.autoExecute⟩

/-! ## Decisions -/

theorem find?_of_nodup {α β : Type} [BEq β] [LawfulBEq β] {key : α → β} {values : List α}
    (h : (values.map key).Nodup) {k : β} {x : α} :
    values.find? (fun y => key y == k) = some x ↔ x ∈ values ∧ key x = k := by
  constructor
  · intro hfind
    have hkey := List.find?_some hfind
    exact ⟨List.mem_of_find?_eq_some hfind, beq_iff_eq.mp hkey⟩
  · rintro ⟨hmem, rfl⟩
    induction values with
    | nil => cases hmem
    | cons y values ih =>
      rw [List.map_cons, List.nodup_cons] at h
      rw [List.find?_cons]
      rcases List.mem_cons.mp hmem with rfl | hmem
      · rw [beq_self_eq_true]
      · have hne : (key y == key x) = false := by
          rw [beq_eq_false_iff_ne]
          intro heq
          exact h.1 (heq ▸ List.mem_map_of_mem hmem)
        rw [hne]
        exact ih h.2 hmem

theorem registeredRunbook_ok_iff {snapshot : Snapshot} {input : Input}
    {registered : RegisteredRunbook} :
    registeredRunbook snapshot input = .ok registered ↔
      (snapshot.Valid ∧ input.runbookID ≠ [] ∧ input.runbookDigest ≠ [] ∧ input.targetID ≠ [] ∧
        input.commandID ≠ []) ∧
        registered ∈ snapshot.runbooks ∧ registered.runbook.runbookID = input.runbookID := by
  have hguard : (!validSnapshot snapshot || decide (input.runbookID = []) ||
      decide (input.runbookDigest = []) || decide (input.targetID = []) ||
        decide (input.commandID = [])) = false ↔
      snapshot.Valid ∧ input.runbookID ≠ [] ∧ input.runbookDigest ≠ [] ∧ input.targetID ≠ [] ∧
        input.commandID ≠ [] := by
    simp only [Bool.or_eq_false_iff, Bool.not_eq_false', validSnapshot_iff,
      decide_eq_false_iff_not, and_assoc, ne_eq]
  unfold registeredRunbook
  rw [← hguard]
  split
  case isTrue hrefused =>
    rw [hrefused]
    simp
  case isFalse haccepted =>
    have hfalse := Bool.not_eq_true _ ▸ haccepted
    have hvalid := (hguard.mp hfalse).1
    rw [and_iff_right hfalse, ← find?_of_nodup hvalid.distinct]
    split
    case h_1 found hfound =>
      rw [hfound]
      simp
    case h_2 hnone =>
      rw [hnone]
      simp

theorem analysis_iff {registered : RegisteredRunbook} {input : Input}
    (h : registered.runbook.runbookID = input.runbookID) :
    (¬(registered.analysisRequired && !input.analysisAvailable) = true ∧
      ¬(registered.analysisRequired &&
        !contains input.analysisCandidateIDs registered.runbook.runbookID) = true) ↔
      (registered.analysisRequired = true →
        input.analysisAvailable = true ∧ input.runbookID ∈ input.analysisCandidateIDs) := by
  rw [h, ← contains_iff]
  cases registered.analysisRequired
  · simp
  · simp

theorem preconditionsMet_iff {required : List Bytes} {observed : Bytes → Bool} :
    preconditionsMet required observed = true ↔
      ([] ∉ required ∧ required.Nodup) ∧ ∀ condition ∈ required, observed condition = true := by
  rw [preconditionsMet, Bool.and_eq_true, uniqueNonEmpty_iff, List.all_eq_true]

/-- What is left to decide about an eligible request. -/
def outcome (snapshot : Snapshot) (input : Input) (runbook : Runbook) : Decision :=
  let approvalDecision := approval snapshot.authorizedApprovers input
  if approvalDecision.reasonCode ≠ .unset then approvalDecision
  else if needsApproval runbook then ⟨.awaitApproval, .approvalRequired⟩
  else ⟨.allow, .allowed⟩

theorem evaluate_of_eligible {snapshot : Snapshot} {input : Input}
    {registered : RegisteredRunbook} {action : TypedAction}
    (h : Eligible snapshot input registered action) :
    evaluate snapshot input = outcome snapshot input registered.runbook := by
  have hregistered : registeredRunbook snapshot input = .ok registered :=
    registeredRunbook_ok_iff.mpr ⟨⟨h.valid, h.runbookID, h.runbookDigest, h.targetID, h.commandID⟩,
      h.mem, h.named⟩
  have hindex : ¬input.actionIndex < 0 := by
    rw [Int64.lt_iff_toInt_lt]
    exact Int.not_lt.mpr h.index
  have hanalysis := (analysis_iff h.named).mpr h.analysis
  have hmet := preconditionsMet_iff.mpr ⟨⟨h.preconditions, h.distinct⟩, h.observed⟩
  have hcooldown := ((h.valid.wellFormed _ h.mem).actions _
    (List.mem_of_getElem? h.selected)).cooldown
  have hrested := (cooldownElapsed_iff hcooldown).mpr h.rested
  have hattempts : ¬(input.attemptCount < 0 ||
      registered.runbook.retryPolicy.maxAttempts ≤ input.attemptCount) = true := by
    simp only [Bool.or_eq_true, decide_eq_true_eq, not_or, Int64.lt_iff_toInt_lt,
      Int64.le_iff_toInt_le]
    exact ⟨Int.not_lt.mpr h.attempts, Int.not_le.mpr h.remaining⟩
  have hstable : ¬(registered.runbook.stabilizationPolicy.recoverySamples < 1 ||
      registered.runbook.stabilizationPolicy.window ≤ 0) = true := by
    simp only [Bool.or_eq_true, decide_eq_true_eq, not_or, Int64.lt_iff_toInt_lt,
      Int64.le_iff_toInt_le]
    exact ⟨Int.not_lt.mpr h.samples, Int.not_le.mpr h.window⟩
  unfold evaluate
  rw [hregistered]
  dsimp only
  rw [if_neg (not_not.mpr h.digest), if_neg (not_not.mpr h.target), if_neg hindex, h.selected]
  dsimp only
  rw [if_neg hanalysis.1, if_neg hanalysis.2, hmet, hrested, if_neg (by decide),
    if_neg (by decide), if_neg hattempts, if_neg hstable]
  rfl

theorem verdict_of_ite {c : Prop} [Decidable c] {reason : ReasonCode} {x : Decision}
    (h : (if c then deny reason else x).verdict ≠ .deny) : ¬c ∧ x.verdict ≠ .deny := by
  split at h
  case isTrue => exact absurd rfl h
  case isFalse hc => exact ⟨hc, h⟩

theorem eligible_of_not_deny {snapshot : Snapshot} {input : Input}
    (h : (evaluate snapshot input).verdict ≠ .deny) :
    ∃ registered action, Eligible snapshot input registered action := by
  unfold evaluate at h
  split at h
  case h_1 => exact absurd rfl h
  case h_2 registered hregistered =>
    obtain ⟨⟨hvalid, hid, hrequested, htargeted, hcommand⟩, hmem, hnamed⟩ :=
      registeredRunbook_ok_iff.mp hregistered
    obtain ⟨hdigest, h⟩ := verdict_of_ite h
    obtain ⟨htarget, h⟩ := verdict_of_ite h
    obtain ⟨hindex, h⟩ := verdict_of_ite h
    split at h
    case h_1 => exact absurd rfl h
    case h_2 action haction =>
      obtain ⟨havailable, h⟩ := verdict_of_ite h
      obtain ⟨hlisted, h⟩ := verdict_of_ite h
      obtain ⟨hmet, h⟩ := verdict_of_ite h
      obtain ⟨helapsed, h⟩ := verdict_of_ite h
      obtain ⟨hattempts, h⟩ := verdict_of_ite h
      obtain ⟨hstable, -⟩ := verdict_of_ite h
      simp only [Bool.not_eq_true', Bool.not_eq_false] at hmet helapsed
      simp only [Bool.or_eq_true, decide_eq_true_eq, not_or, Int64.lt_iff_toInt_lt,
        Int64.le_iff_toInt_le, Int.not_lt, Int.not_le] at hindex hattempts hstable
      have hcooldown := ((hvalid.wellFormed _ hmem).actions _
        (List.mem_of_getElem? haction)).cooldown
      obtain ⟨⟨hnonempty, hdistinct⟩, hobserved⟩ := preconditionsMet_iff.mp hmet
      have honly : ∀ other ∈ snapshot.runbooks, other.runbook.runbookID = input.runbookID →
          other = registered := by
        intro other hother hsame
        have hfirst := (find?_of_nodup hvalid.distinct).mpr ⟨hmem, hnamed⟩
        have hsecond := (find?_of_nodup hvalid.distinct).mpr ⟨hother, hsame⟩
        exact Option.some.inj (hsecond.symm.trans hfirst)
      exact ⟨registered, action, hvalid, hid, hrequested, htargeted, hcommand, hmem, hnamed, honly,
        not_not.mp hdigest, not_not.mp htarget, hindex, haction,
        (analysis_iff hnamed).mp ⟨havailable, hlisted⟩, hnonempty, hdistinct, hobserved,
        (cooldownElapsed_iff hcooldown).mp helapsed, hattempts.1, hattempts.2, hstable.1, hstable.2⟩

/-- An eligible request is allowed by an approval, or without one where the runbook may run
unattended; it waits when it needs an approval and has none, and is denied by a failing one. -/
theorem outcome_iff {snapshot : Snapshot} {input : Input} {runbook : Runbook} :
    (outcome snapshot input runbook = ⟨.allow, .allowed⟩ ↔
      (∃ a, input.approval = some a ∧ Approved snapshot.authorizedApprovers input a) ∨
        input.approval = none ∧ Unattended runbook) ∧
    (outcome snapshot input runbook = ⟨.awaitApproval, .approvalRequired⟩ ↔
      input.approval = none ∧ ¬Unattended runbook) ∧
    (outcome snapshot input runbook = ⟨.allow, .allowed⟩ ∨
      outcome snapshot input runbook = ⟨.awaitApproval, .approvalRequired⟩ ∨
      (outcome snapshot input runbook).verdict = .deny) := by
  unfold outcome
  cases happroval : input.approval with
  | none =>
    rw [approval_of_none happroval, ← needsApproval_eq_false_iff]
    cases needsApproval runbook
    · simp
    · simp
  | some a =>
    rcases @approval_of_some snapshot.authorizedApprovers _ _ happroval with
      ⟨happroved, heq⟩ | ⟨hnot, reason, hreason, heq⟩
    · rw [heq]
      simp [happroved]
    · rw [heq]
      simp [deny, hreason, hnot]

theorem verdict_ne_deny_iff {snapshot : Snapshot} {input : Input} {d : Decision}
    (hd : d.verdict ≠ .deny) :
    evaluate snapshot input = d ↔ ∃ registered action,
      Eligible snapshot input registered action ∧
        outcome snapshot input registered.runbook = d := by
  constructor
  · rintro rfl
    obtain ⟨registered, action, heligible⟩ := eligible_of_not_deny hd
    exact ⟨registered, action, heligible, (evaluate_of_eligible heligible).symm⟩
  · rintro ⟨registered, action, heligible, houtcome⟩
    rw [evaluate_of_eligible heligible, houtcome]

/-- The decision is allow exactly for an eligible request that is approved or needs no approval,
it is to await an approval exactly for an eligible request that has none and needs one, and every
other request is denied. -/
theorem evaluate_specified (snapshot : Snapshot) (input : Input) :
    (evaluate snapshot input = ⟨.allow, .allowed⟩ ↔ ∃ registered action,
      Eligible snapshot input registered action ∧
        ((∃ a, input.approval = some a ∧ Approved snapshot.authorizedApprovers input a) ∨
          input.approval = none ∧ Unattended registered.runbook)) ∧
    (evaluate snapshot input = ⟨.awaitApproval, .approvalRequired⟩ ↔ ∃ registered action,
      Eligible snapshot input registered action ∧
        input.approval = none ∧ ¬Unattended registered.runbook) ∧
    (evaluate snapshot input = ⟨.allow, .allowed⟩ ∨
      evaluate snapshot input = ⟨.awaitApproval, .approvalRequired⟩ ∨
      (evaluate snapshot input).verdict = .deny) := by
  refine ⟨?_, ?_, ?_⟩
  · rw [verdict_ne_deny_iff (by decide)]
    simp only [outcome_iff.1]
  · rw [verdict_ne_deny_iff (by decide)]
    simp only [outcome_iff.2.1]
  · by_cases hdeny : (evaluate snapshot input).verdict = .deny
    · exact .inr (.inr hdeny)
    · obtain ⟨registered, action, heligible⟩ := eligible_of_not_deny hdeny
      rw [evaluate_of_eligible heligible]
      exact outcome_iff.2.2

theorem approval_of_awaitApproval {snapshot : Snapshot} {input : Input}
    (h : (evaluate snapshot input).verdict = .awaitApproval) : input.approval = none := by
  obtain ⟨registered, action, heligible⟩ :=
    @eligible_of_not_deny snapshot input (by rw [h]; decide)
  rw [evaluate_of_eligible heligible] at h
  rcases @outcome_iff snapshot input registered.runbook with ⟨-, hawait, hallow | hwaits | hdeny⟩
  · rw [hallow] at h
    cases h
  · exact (hawait.mp hwaits).1
  · rw [hdeny] at h
    cases h

end PulseAgent.Policy
