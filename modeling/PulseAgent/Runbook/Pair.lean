import PulseAgent.Contract.Accepted
import PulseAgent.Go.JsonRaw
import PulseAgent.Go.Regexp
import PulseAgent.Go.Sha256

/-!
# Runbook pairs

The digest of a runbook is that of its document with the members in order and without the digest
itself.
-/

namespace PulseAgent.Runbooks

open Go Go.Json Contract

def errInvalidPair : Error := .new "invalid runbook pair"

structure Pair where
  runbook : Runbook
  digest : Bytes
deriving DecidableEq

/-! ## Metadata -/

def code : Nat → Bool := fun r =>
  Regexp.upper r || Regexp.lower r || Regexp.digit r || Regexp.chars "._-" r

def metadataPattern : Regexp :=
  .seqs [.many (.class Regexp.space), .group 1 (.alt (.literal "runbook_id") (.literal "version")),
    .many (.class Regexp.space), .literal ":", .many (.class Regexp.space),
    .group 2 (.some1 (.class code)), .many (.class Regexp.space), .endText]

/-- The name and the value of a metadata line; both groups match ASCII only. -/
def metadataLine (line : Bytes) : Option (Bytes × Bytes) :=
  (metadataPattern.submatch line).map fun captures =>
    let group := fun index => ((captures.lookup index).getD []).map UInt8.ofNat
    (group 1, group 2)

/-- The loop over the lines after the first. -/
def metadataLines (values : List (Bytes × Bytes)) : List Bytes → Option (List (Bytes × Bytes))
  | [] => none
  | line :: lines =>
    if Strings.trimSpace line = lit "---" then some values
    else
      match metadataLine line with
      | none => metadataLines values lines
      | some (name, value) =>
        if (values.lookup name).isSome then none
        else metadataLines ((name, value) :: values) lines

def markdownMetadata (markdown : Bytes) : Option (List (Bytes × Bytes)) :=
  let lines := markdown.splitOn 10
  if lines.length < 4 || Strings.trimSpace (lines.headD []) ≠ lit "---" then none
  else metadataLines [] lines.tail

/-! ## Checks -/

def validCode (value : Bytes) : Bool :=
  value ≠ [] && value.length ≤ 128 && !decide (lit ".." <:+: value)

def validAction (action : TypedAction) : Bool :=
  (action.actionType = .dockerContainerRestart ||
    action.actionType = .dockerComposeServiceRestart) &&
  ((lit "container:").isPrefixOf action.targetSelector ||
    (lit "compose_service:").isPrefixOf action.targetSelector) &&
  !decide (lit ".." <:+: action.targetSelector) && 0 < action.stopTimeout && 0 ≤ action.cooldown

def validateRunbook (value : Runbook) : Except Error Unit :=
  if value.schemaVersion ≠ schemaVersionV1 || !validCode value.runbookID ||
      !validCode value.version || value.adapterType ≠ lit "docker" ||
      (elems value.typedActions).length = 0 || 64 < (elems value.typedActions).length ||
      (value.riskTier ≠ .low && value.riskTier ≠ .medium && value.riskTier ≠ .high) ||
      value.retryPolicy.maxAttempts < 1 || 10 < value.retryPolicy.maxAttempts then
    .error errInvalidPair
  else if (elems value.typedActions).all validAction then .ok ()
  else .error errInvalidPair

/-! ## Digests -/

def canonicalDigest (document : Bytes) : Except Error Bytes :=
  match unmarshalRaw document with
  | none => .error errInvalidPair
  | some object =>
    .ok (Hex.encode (Sha256.sum256 (marshalRaw (object.map (·.erase (lit "digest"))))))

def digest (value : Runbook) : Except Error Bytes :=
  match Runbook.codec.marshal { value with digest := [] } with
  | none => .error errInvalidPair
  | some document => canonicalDigest document

/-! ## Decoding -/

def decodeOptions : DecodeOptions Runbook := ⟨maxDocumentBytes, schemaVersionV1, validateRunbook⟩

def decode (markdown document : Bytes) : Except Error Pair :=
  if markdown.length = 0 || maxDocumentBytes < markdown.length || document.length = 0 ||
      maxDocumentBytes < document.length then .error errInvalidPair
  else
    match Contract.decode Runbook.codec decodeOptions document with
    | .error _ => .error errInvalidPair
    | .ok runbook =>
      match markdownMetadata markdown with
      | none => .error errInvalidPair
      | some metadata =>
        if (metadata.lookup (lit "runbook_id")).getD [] ≠ runbook.runbookID ||
            (metadata.lookup (lit "version")).getD [] ≠ runbook.version then .error errInvalidPair
        else
          match digest runbook with
          | .error _ => .error errInvalidPair
          | .ok digest =>
            if runbook.digest ≠ [] && runbook.digest ≠ digest then .error errInvalidPair
            else .ok ⟨{ runbook with digest := digest }, digest⟩

/-! ## What is accepted -/

/-- The fields that `validateRunbook` looks at. -/
structure Valid (value : Runbook) : Prop where
  schemaVersion : value.schemaVersion = schemaVersionV1
  runbookID : validCode value.runbookID = true
  version : validCode value.version = true
  adapterType : value.adapterType = lit "docker"
  nonempty : elems value.typedActions ≠ []
  bounded : (elems value.typedActions).length ≤ 64
  riskTier : value.riskTier = .low ∨ value.riskTier = .medium ∨ value.riskTier = .high
  minAttempts : 1 ≤ value.retryPolicy.maxAttempts
  maxAttempts : value.retryPolicy.maxAttempts ≤ 10
  actions : ∀ action ∈ elems value.typedActions, validAction action = true

theorem validateRunbook_ok {value : Runbook} {u : Unit} :
    validateRunbook value = .ok u ↔ Valid value := by
  unfold validateRunbook
  constructor
  · intro h
    split at h
    case isTrue => cases h
    case isFalse hfields =>
      split at h
      case isFalse => cases h
      case isTrue hactions =>
        simp only [Bool.or_eq_true, Bool.and_eq_true, Bool.not_eq_true', decide_eq_true_eq, not_or,
          not_and, not_not, ne_eq, Bool.not_eq_false, Int64.not_lt, Nat.not_lt,
          List.length_eq_zero_iff] at hfields
        obtain ⟨⟨⟨⟨⟨⟨⟨⟨hschema, hid⟩, hversion⟩, hadapter⟩, hnonempty⟩, hbounded⟩, hrisk⟩, hmin⟩,
          hmax⟩ := hfields
        refine ⟨hschema, hid, hversion, hadapter, hnonempty, hbounded, ?_, hmin, hmax,
          List.all_eq_true.mp hactions⟩
        by_cases hlow : value.riskTier = .low
        · exact .inl hlow
        · by_cases hmedium : value.riskTier = .medium
          · exact .inr (.inl hmedium)
          · exact .inr (.inr (hrisk ⟨hlow, hmedium⟩))
  · intro h
    have hactions : (elems value.typedActions).all validAction = true :=
      List.all_eq_true.mpr h.actions
    have hrisk : ¬(value.riskTier ≠ .low ∧ value.riskTier ≠ .medium ∧ value.riskTier ≠ .high) := by
      rintro ⟨hlow, hmedium, hhigh⟩
      rcases h.riskTier with heq | heq | heq
      · exact hlow heq
      · exact hmedium heq
      · exact hhigh heq
    rw [if_neg, if_pos hactions]
    simp only [Bool.or_eq_true, Bool.and_eq_true, Bool.not_eq_true', decide_eq_true_eq, not_or,
      ne_eq, Bool.not_eq_false, Int64.not_lt, Nat.not_lt, List.length_eq_zero_iff, and_assoc]
    exact ⟨not_not.mpr h.schemaVersion, h.runbookID, h.version, not_not.mpr h.adapterType,
      h.nonempty, h.bounded, hrisk, h.minAttempts, h.maxAttempts⟩

theorem encode_runbook (value : Runbook) : ∃ ms, Runbook.codec.encode value = some (.obj ms) ∧
    Member.encodeMembers value Runbook.fields = some ms := by
  obtain ⟨constraints, hconstraints⟩ : (Codec.slice TargetConstraint.codec).Writes
      value.targetConstraints := Codec.writes_slice fun _ _ => ⟨_, rfl⟩
  obtain ⟨actions, hactions⟩ : (Codec.slice TypedAction.codec).Writes value.typedActions :=
    Codec.writes_slice fun _ _ => ⟨_, rfl⟩
  obtain ⟨preconditions, hpreconditions⟩ : (Codec.slice .string).Writes value.preconditions :=
    Codec.writes_slice fun _ _ => ⟨_, rfl⟩
  have hwrites : ∃ ms, Member.encodeMembers value Runbook.fields = some ms := by
    simp only [Runbook.fields, Member.encodeMembers, Member.of, hconstraints, hactions,
      hpreconditions, Option.map_some]
    exact ⟨_, rfl⟩
  obtain ⟨ms, hms⟩ := hwrites
  exact ⟨ms, congrArg (Option.map Value.obj) hms, hms⟩

theorem digest_eq {value : Runbook} {ms : List (Bytes × Value)}
    (h : Member.encodeMembers { value with digest := [] } Runbook.fields = some ms) :
    digest value = .ok (Hex.encode (Sha256.sum256
      (renderRaw ((Std.ExtTreeMap.ofList (rawOf ms)).erase (lit "digest")).toList))) := by
  have hdocument : Runbook.codec.marshal { value with digest := [] } = some (render (.obj ms)) :=
    congrArg (Option.map render) (congrArg (Option.map Value.obj) h)
  simp only [digest, hdocument, canonicalDigest, unmarshalRaw_render, Option.map_some, marshalRaw]

theorem exists_digest (value : Runbook) : ∃ d, digest value = .ok d := by
  obtain ⟨ms, -, hms⟩ := encode_runbook { value with digest := [] }
  exact ⟨_, digest_eq hms⟩

theorem digest_ne_nil {value : Runbook} {d : Bytes} (h : digest value = .ok d) : d ≠ [] := by
  obtain ⟨ms, -, hms⟩ := encode_runbook { value with digest := [] }
  rw [digest_eq hms] at h
  obtain rfl := Except.ok.inj h
  intro hnil
  have hlength := congrArg List.length hnil
  rw [Hex.encode_length, Sha256.sum256_length] at hlength
  cases hlength

/-- The metadata block names the runbook and its version. -/
def Describes (markdown : Bytes) (runbook : Runbook) : Prop :=
  ∃ metadata, markdownMetadata markdown = some metadata ∧
    (metadata.lookup (lit "runbook_id")).getD [] = runbook.runbookID ∧
    (metadata.lookup (lit "version")).getD [] = runbook.version

theorem decode_ok {markdown document : Bytes} {pair : Pair} :
    decode markdown document = .ok pair ↔
      (markdown.length ≠ 0 ∧ markdown.length ≤ maxDocumentBytes) ∧
      (document.length ≠ 0 ∧ document.length ≤ maxDocumentBytes) ∧
      ∃ runbook, Contract.decode Runbook.codec decodeOptions document = .ok runbook ∧
        Describes markdown runbook ∧ digest runbook = .ok pair.digest ∧
        (runbook.digest = [] ∨ runbook.digest = pair.digest) ∧
        pair.runbook = { runbook with digest := pair.digest } := by
  unfold decode
  constructor
  · intro h
    split_ifs at h with hsizes
    simp only [Bool.or_eq_true, decide_eq_true_eq, not_or, Nat.not_lt] at hsizes
    obtain ⟨⟨hmarkdown, hempty⟩, hsize⟩ := hsizes
    split at h
    case h_1 => cases h
    case h_2 runbook hrunbook =>
      split at h
      case h_1 => cases h
      case h_2 metadata hmetadata =>
        split_ifs at h with hnames
        simp only [Bool.or_eq_true, decide_eq_true_eq, not_or, ne_eq, not_not] at hnames
        split at h
        case h_1 => cases h
        case h_2 d hdigest =>
          split_ifs at h with hgiven
          cases h
          refine ⟨hmarkdown, ⟨hempty, hsize⟩, runbook, hrunbook, ⟨metadata, hmetadata, hnames⟩,
            hdigest, ?_, rfl⟩
          simpa [or_iff_not_imp_left] using hgiven
  · rintro ⟨hmarkdown, ⟨hempty, hsize⟩, runbook, hrunbook, ⟨metadata, hmetadata, hnames⟩, hdigest,
      hgiven, hpair⟩
    have hsizes : ¬(markdown.length = 0 || maxDocumentBytes < markdown.length ||
        document.length = 0 || maxDocumentBytes < document.length) = true := by
      simp only [Bool.or_eq_true, decide_eq_true_eq, not_or, Nat.not_lt]
      exact ⟨⟨hmarkdown, hempty⟩, hsize⟩
    have hcarried : ¬(runbook.digest ≠ [] && runbook.digest ≠ pair.digest) = true := by
      simpa [or_iff_not_imp_left] using hgiven
    rw [if_neg hsizes]
    simp only [hrunbook, hmetadata, hnames.1, hnames.2, hdigest, ne_eq, not_true_eq_false,
      decide_false, Bool.or_self, Bool.false_eq_true, if_false]
    rw [if_neg hcarried, ← hpair]

/-- What a registration answers. -/
structure RegistrationResult where
  schemaVersion : Bytes := []
  runbookID : Bytes := []
  digest : Bytes := []
deriving DecidableEq

end PulseAgent.Runbooks
