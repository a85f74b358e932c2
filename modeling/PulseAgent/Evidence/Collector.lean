import PulseAgent.Contract.Types
import PulseAgent.Go.Lines
import PulseAgent.Go.Sha256
import PulseAgent.Go.Sort
import PulseAgent.Redaction

/-!
# The evidence collector

A record inside the time range becomes one line of its allowed fields, and the loop ends at the
first line that would exceed a bound.
-/

namespace PulseAgent.Evidence

open Go Contract Redaction

def errInvalidOptions : Error := .new "invalid evidence collector options"
def errRedactionFailed : Error := .new "evidence redaction failed"

structure Record where
  «at» : Time
  fields : Std.ExtTreeMap Bytes Bytes

structure Options where
  allowedFields : List Bytes
  maxLines : Int64
  maxBytes : Int64
  retention : Duration

/-- A collector `NewCollector` has accepted; the allowed fields are a set. -/
structure Collector where
  allowed : List Bytes
  maxLines : Int64
  maxBytes : Int64
  retention : Duration
  distinct : allowed.Nodup
  ne_nil : allowed ≠ []
  named : [] ∉ allowed
  maxLines_pos : 1 ≤ maxLines
  maxBytes_pos : 1 ≤ maxBytes
  retention_min : 60000000000 ≤ retention

def newCollector (options : Options) : Except Error Collector :=
  if h : options.allowedFields ≠ [] ∧ 1 ≤ options.maxLines ∧ 1 ≤ options.maxBytes ∧
      60000000000 ≤ options.retention ∧ [] ∉ options.allowedFields then
    .ok
      { allowed := options.allowedFields.dedup
        maxLines := options.maxLines
        maxBytes := options.maxBytes
        retention := options.retention
        distinct := List.nodup_dedup _
        ne_nil := fun hnil => h.1 ((List.dedup_eq_nil _).mp hnil)
        named := fun hmem => h.2.2.2.2 (List.mem_dedup.mp hmem)
        maxLines_pos := h.2.1
        maxBytes_pos := h.2.2.1
        retention_min := h.2.2.2.1 }
  else .error errInvalidOptions

structure Result where
  reference : EvidenceRef
  content : Bytes

namespace Collector

/-- The fields of a record a collector may look at. -/
def present (c : Collector) (fields : Std.ExtTreeMap Bytes Bytes) : List (Bytes × Bytes) :=
  c.allowed.filterMap fun key => fields[key]?.map (key, ·)

def redactField (field : Bytes × Bytes) : Option Bytes :=
  (redact field.2).map fun redacted => field.1 ++ lit "=" ++ redacted

def redactRecord (c : Collector) (fields : Std.ExtTreeMap Bytes Bytes) : Option Bytes :=
  ((c.present fields).mapM redactField).map fun values => Strings.join (lit " ") (sortBy id values)

/-- One pass of the loop over the records: the lines so far and their size, or the end of the loop
with its lines, or a failed redaction. -/
def collectStep (c : Collector) (start «end» : Time) (acc : List Bytes × Nat) (record : Record) :
    Except (Option (List Bytes)) (List Bytes × Nat) :=
  if record.at < start || «end» < record.at then .ok acc
  else if (acc.1.length : Int) = c.maxLines.toInt then .error (some acc.1)
  else
    match c.redactRecord record.fields with
    | none => .error none
    | some line =>
      if line = [] then .ok acc
      else
        let additionalBytes := line.length + if 0 < acc.1.length then 1 else 0
        if c.maxBytes.toInt < acc.2 + additionalBytes then .error (some acc.1)
        else .ok (acc.1 ++ [line], acc.2 + additionalBytes)

def collectLines (c : Collector) (start «end» : Time) (records : List Record) :
    Option (List Bytes) :=
  match records.foldlM (c.collectStep start «end») ([], 0) with
  | .ok (lines, _) => some lines
  | .error lines => lines

/-- `newID` and `now` are what the identifier source and the clock answer. -/
def collect (c : Collector) (newID : Option Bytes) (now : Time) (source profile : Bytes)
    (start «end» : Time) (records : List Record) : Except Error Result :=
  if source = [] || profile = [] || containsSensitive source || containsSensitive profile ||
      start.isZero || «end».isZero || «end» < start then .error errInvalidOptions
  else
    match c.collectLines start «end» records with
    | none => .error errRedactionFailed
    | some lines =>
      match newID with
      | none => .error errInvalidOptions
      | some id =>
        let content := Strings.join (lit "\n") lines
        if id = [] || containsSensitive id then .error errInvalidOptions
        else if now.isZero then .error errInvalidOptions
        else .ok
          { reference :=
              { schemaVersion := schemaVersionV1
                evidenceID := id
                sourceType := source
                collectorID := lit "local"
                start
                «end»
                redactionProfile := profile
                digest := Hex.encode (Sha256.sum256 content)
                byteCount := Int64.ofNat content.length
                retentionUntil := now.add c.retention }
            content }

end Collector

end PulseAgent.Evidence
