import PulseAgent.Contract.Codecs

/-!
# Strict decoding of one versioned document

A `Document` is a record type whose first member is its schema version. Decoding what was marshalled
comes down to the size limit and the validation of the cleaned value.
-/

namespace PulseAgent.Contract

open Go Go.Json

def maxDocumentBytes : Nat := 64 * 1024

def errDocumentTooLarge : Error := .new "JSON document exceeds size limit"
def errDuplicateField : Error := .new "duplicate JSON field"
def errUnknownField : Error := .new "unknown JSON field"
def errTrailingData : Error := .new "trailing JSON data"
def errUnsupportedSchemaVersion : Error := .new "unsupported schema version"
def errInvalidJSON : Error := .new "invalid JSON document"
def errInvalidDecodeOptions : Error := .new "invalid JSON decoder options"

structure DecodeOptions (α : Type) where
  maxBytes : Int
  schemaVersion : Bytes
  validate : α → Except Error Unit

def DecodeOptions.limit {α : Type} (options : DecodeOptions α) : Int :=
  if options.maxBytes = 0 then maxDocumentBytes else options.maxBytes

/-- One complete value without repeated member names. -/
def scanDocument (document : Bytes) : Except Error Value :=
  match parseValue (document.length + 1) document with
  | none => .error errInvalidJSON
  | some (v, rest) =>
    if v.distinct then
      match skipSpace rest with
      | [] => .ok v
      | b :: more =>
        -- any token after the value is trailing data, anything else is malformed
        if b = 91 || b = 123 || (parseValue (document.length + 1) (b :: more)).isSome then
          .error errTrailingData
        else .error errInvalidJSON
    else .error errDuplicateField

structure Header where
  schemaVersion : Bytes := []
deriving DecidableEq

def Header.member : Member Header :=
  .of (lit "schema_version") .string (·.schemaVersion) fun x s => { s with schemaVersion := x }

def Header.codec : Codec Header :=
  .struct [Header.member] {} (by decide +kernel) (by decide +kernel) fun _ => by
    repeat' constructor

def decodeValue {α : Type} (c : Codec α) (options : DecodeOptions α) (v : Value) :
    Except Error α :=
  match Header.codec.read false v with
  | .error _ => .error errInvalidJSON
  | .ok header =>
    if header.schemaVersion = options.schemaVersion then
      match c.read true v with
      | .error .unknownField => .error errUnknownField
      | .error .mismatch => .error (.wrap "" errInvalidJSON ": ")
      | .ok value => (options.validate value).map fun _ => value
    else .error errUnsupportedSchemaVersion

def decode {α : Type} (c : Codec α) (options : DecodeOptions α) (document : Bytes) :
    Except Error α :=
  if options.limit < 0 ∨ options.schemaVersion = [] then .error errInvalidDecodeOptions
  else if options.limit < document.length then .error errDocumentTooLarge
  else
    match scanDocument document with
    | .error e => .error e
    | .ok v => decodeValue c options v

/-- The value a document spells, whatever its size and version. -/
def content {α : Type} (c : Codec α) (document : Bytes) : Option α :=
  match scanDocument document with
  | .error _ => none
  | .ok v => (c.read true v).toOption

theorem content_of_decode {α : Type} {c : Codec α} {options : DecodeOptions α} {document : Bytes}
    {a : α} (h : decode c options document = .ok a) :
    content c document = some a ∧ options.validate a = .ok () ∧
      (document.length : Int) ≤ options.limit := by
  unfold decode at h
  split_ifs at h with hoptions hsize
  cases hscan : scanDocument document with
  | error e => simp only [hscan, reduceCtorEq] at h
  | ok v =>
    simp only [hscan, decodeValue] at h
    cases hheader : Header.codec.read false v with
    | error e => simp only [hheader, reduceCtorEq] at h
    | ok header =>
      simp only [hheader] at h
      split_ifs at h
      cases hread : c.read true v with
      | error fault => cases fault <;> simp only [hread, reduceCtorEq] at h
      | ok value =>
        simp only [hread] at h
        cases hvalidate : options.validate value with
        | error e => simp [hvalidate, Except.map] at h
        | ok u =>
          simp only [hvalidate, Except.map, Except.ok.injEq] at h
          subst h
          exact ⟨by simp only [content, hscan, hread, Except.toOption], hvalidate, by omega⟩

/-- `json.Marshal`, its error under a context. -/
def encode {α : Type} (c : Codec α) (context : String) (a : α) : Except Error Bytes :=
  match c.marshal a with
  | some document => .ok document
  | none => .error (.wrap context (.new "json: unsupported value") "")

theorem encode_ok {α : Type} {c : Codec α} {context : String} {a : α} {document : Bytes} :
    encode c context a = .ok document ↔ c.marshal a = some document := by
  unfold encode
  cases c.marshal a <;> simp

structure Document (α : Type) where
  codec : Codec α
  version : α → Bytes
  header : ∀ a v, codec.encode a = some v →
    Header.codec.read false v.clean = .ok ⟨Utf8.toValidUTF8 (version a)⟩

theorem decodeMembers_header_skip {σ : Type} {a : σ} : ∀ {fs : List (Member σ)}
    {ms : List (Bytes × Value)} (h : Header), Member.encodeMembers a fs = some ms →
    (∀ f ∈ fs, Utf8.validString f.name = true ∧
      Member.foldName f.name ≠ Member.foldName (lit "schema_version")) →
    Member.decodeMembers false [Header.member] (cleanMembers ms) h = some (h, none)
  | [], ms, h, hms, _ => by
    cases hms
    rfl
  | f :: fs, ms, h, hms, hfs => by
    obtain ⟨hvalid, hfold⟩ := hfs f (by simp)
    obtain ⟨rest, hrest, ⟨_, rfl⟩ | ⟨v, _, rfl⟩⟩ := Member.encodeMembers_cons hms
    · exact decodeMembers_header_skip h hrest fun g hg => hfs g (by simp [hg])
    · have ih := decodeMembers_header_skip h hrest fun g hg => hfs g (by simp [hg])
      have hname : lit "schema_version" ≠ f.name := fun heq => hfold (by rw [heq])
      have hlookup : Member.lookup [Header.member] f.name = none := by
        simp [Member.lookup, Header.member, Member.of, hname, Ne.symm hfold]
      simp only [cleanMembers, Utf8.toValidUTF8_of_valid hvalid, Member.decodeMembers, hlookup, ih,
        Option.map_some, Bool.false_eq_true, if_false]

theorem header_of_members {σ : Type} {get : σ → Bytes} {set : Bytes → σ → σ}
    {rest : List (Member σ)}
    (hrest : ∀ f ∈ rest, Utf8.validString f.name = true ∧
      Member.foldName f.name ≠ Member.foldName (lit "schema_version")) (a : σ) (v : Value)
    (h : (Member.encodeMembers a (.of (lit "schema_version") .string get set :: rest)).map .obj =
      some v) : Header.codec.read false v.clean = .ok ⟨Utf8.toValidUTF8 (get a)⟩ := by
  obtain ⟨ms, hms, rfl⟩ := Option.map_eq_some_iff.mp h
  obtain ⟨others, hothers, ⟨homit, _⟩ | ⟨w, hw, rfl⟩⟩ := Member.encodeMembers_cons hms
  · cases homit
  · cases hw
    have hskip := decodeMembers_header_skip ⟨Utf8.toValidUTF8 (get a)⟩ hothers hrest
    have hname : Utf8.toValidUTF8 (lit "schema_version") = lit "schema_version" := by decide +kernel
    have hdecode : Header.codec.decode false
        (Value.clean (.obj ((lit "schema_version", .str (get a)) :: others))) Header.codec.zero =
        some (⟨Utf8.toValidUTF8 (get a)⟩, none) := by
      simp only [Value.clean, cleanMembers, hname]
      exact congrArg (Option.map fun r : Header × Option Fault => (r.1, Option.none.or r.2)) hskip
    exact Header.codec.read_of_decode hdecode

theorem scanDocument_render {α : Type} {c : Codec α} {a : α} {v : Value}
    (h : c.encode a = some v) : scanDocument (render v) = .ok v.clean := by
  have hparse := parseValue_render v ((render v).length + 1) [] (by omega) numberEnds_nil
  rw [List.append_nil] at hparse
  simp only [scanDocument, hparse, c.distinct a v h, if_true]
  rfl

theorem content_marshal {α : Type} {c : Codec α} {a : α} {document : Bytes}
    (h : c.marshal a = some document) : content c document = some (c.norm a) := by
  obtain ⟨v, hv, rfl⟩ := Option.map_eq_some_iff.mp h
  simp only [content, scanDocument_render hv, c.read_clean true hv, Except.toOption]

theorem decode_marshal {α : Type} (d : Document α) (options : DecodeOptions α) {a : α}
    {document : Bytes} (h : d.codec.marshal a = some document)
    (hoptions : 0 ≤ options.limit ∧ options.schemaVersion ≠ [])
    (hsize : (document.length : Int) ≤ options.limit)
    (hversion : Utf8.toValidUTF8 (d.version a) = options.schemaVersion) :
    decode d.codec options document =
      (options.validate (d.codec.norm a)).map fun _ => d.codec.norm a := by
  obtain ⟨v, hv, rfl⟩ := Option.map_eq_some_iff.mp h
  have hscan := scanDocument_render hv
  have hinvalid : ¬(options.limit < 0 ∨ options.schemaVersion = []) := by
    rintro (hlimit | hempty)
    · omega
    · exact hoptions.2 hempty
  simp only [decode, hinvalid, if_false, not_lt.mpr hsize, hscan, decodeValue, d.header a v hv,
    hversion, if_true, d.codec.read_clean true hv]

end PulseAgent.Contract
