import PulseAgent.Go.Base64
import PulseAgent.Go.Duration
import PulseAgent.Go.Errors
import PulseAgent.Go.Regexp
import PulseAgent.Go.Sha256
import PulseAgent.Go.Time

/-!
# Signed webhooks

A sender signs message ID, Unix seconds and raw body with its current secret and, during a rotation,
the previous one. A receiver accepts any of its own secrets while the timestamp is at most five
minutes away, in either direction.
-/

namespace PulseAgent.Webhook

open Go

def secretPrefix : Bytes := lit "whsec_"
def signatureVersionV1 : Bytes := lit "v1"
def minimumSecretBytes : Nat := 24
def maximumSecretBytes : Nat := 64
def maximumMessageID : Nat := 256

/-- Five minutes. -/
def defaultTolerance : Duration := 5 * 60 * 1000000000

def errInvalidSecret : Error := .new "invalid webhook secret"
def errInvalidHeaders : Error := .new "invalid webhook headers"
def errUnsupportedSignatureVersion : Error := .new "unsupported webhook signature version"
def errTimestampOutsideTolerance : Error := .new "webhook timestamp outside tolerance"
def errInvalidTolerance : Error := .new "invalid webhook timestamp tolerance"
def errSignatureMismatch : Error := .new "webhook signature mismatch"

structure Headers where
  id : Bytes
  timestamp : Bytes
  signature : Bytes
deriving DecidableEq

abbrev Secret :=
  { secret : Bytes // minimumSecretBytes ≤ secret.length ∧ secret.length ≤ maximumSecretBytes }

structure Keyring where
  current : Secret
  previous : Option Secret

def Keyring.secrets (k : Keyring) : List Bytes :=
  k.current.val :: (k.previous.map Subtype.val).toList

def parseSecret (serialized : Bytes) : Except Error Secret :=
  if secretPrefix.isPrefixOf serialized then
    match Base64.decode (serialized.drop secretPrefix.length) with
    | none => .error errInvalidSecret
    | some secret =>
      if h : minimumSecretBytes ≤ secret.length ∧ secret.length ≤ maximumSecretBytes then
        .ok ⟨secret, h⟩
      else .error errInvalidSecret
  else .error errInvalidSecret

def newKeyring : List Bytes → Except Error Keyring
  | [current] => do
    let current ← parseSecret current
    return ⟨current, none⟩
  | [current, previous] => do
    let current ← parseSecret current
    let previous ← parseSecret previous
    return ⟨current, some previous⟩
  | _ => .error errInvalidSecret

def validMessageID (id : Bytes) : Bool :=
  id ≠ [] && id.length ≤ maximumMessageID && !id.contains 46 &&
    (Utf8.runes id).all fun r => 32 < r && r != 0x7f

def signingContent (id timestamp rawBody : Bytes) : Bytes :=
  id ++ 46 :: timestamp ++ 46 :: rawBody

def signatureValue (secret content : Bytes) : Bytes :=
  signatureVersionV1 ++ 44 :: Base64.encode (Sha256.hmac secret content)

def Keyring.sign (k : Keyring) (id : Bytes) (timestamp : Time) (rawBody : Bytes) :
    Except Error Headers :=
  if validMessageID id && 0 ≤ timestamp.unix then
    let timestampValue := Decimal.formatInt timestamp.unix
    let content := signingContent id timestampValue rawBody
    .ok { id := id
          timestamp := timestampValue
          signature := Strings.join [32]
            (k.secrets.map fun secret => signatureValue secret content) }
  else .error errInvalidHeaders

theorem Keyring.sign_isOk {k : Keyring} {id : Bytes} {timestamp : Time} {rawBody : Bytes} :
    (∃ headers, k.sign id timestamp rawBody = .ok headers) ↔
      validMessageID id = true ∧ 0 ≤ timestamp.unix := by
  unfold Keyring.sign
  split <;> simp_all

theorem length_of_validMessageID {id : Bytes} (h : validMessageID id = true) :
    id.length ≤ maximumMessageID := by
  simp only [validMessageID, Bool.and_eq_true, decide_eq_true_eq] at h
  exact h.1.1.2

def parseTimestamp (value : Bytes) : Except Error Int :=
  -- `ParseInt` refuses what does not fit a signed 64-bit integer
  if value ≠ [] && value.all Decimal.isDigit && Decimal.value value < 2 ^ 63 then
    .ok (Decimal.value value)
  else .error errInvalidHeaders

/-- `Time.Unix` as a machine integer. -/
def unix64 (t : Time) : Int64 := Int64.ofInt t.unix

def withinTolerance (timestamp now toleranceSeconds : Int64) : Bool :=
  if timestamp ≤ now then now - timestamp ≤ toleranceSeconds
  else timestamp - now ≤ toleranceSeconds

/-- One entry of the signature header. -/
def parseSignature (part : Bytes) : Except Error Bytes :=
  let version := part.takeWhile (· != 44)
  match part.dropWhile (· != 44) with
  | [] => .error errInvalidHeaders
  | _ :: encoded =>
    if version = [] ∨ encoded = [] ∨ encoded.contains 44 then .error errInvalidHeaders
    else if version ≠ signatureVersionV1 then .error errUnsupportedSignatureVersion
    else
      match Base64.decode encoded with
      | none => .error errInvalidHeaders
      | some signature =>
        if signature.length = 32 then .ok signature else .error errInvalidHeaders

def parseSignatures (value : Bytes) : Except Error (List Bytes) :=
  if value = [] ∨ value.head? = some 32 ∨ value.getLast? = some 32 ∨
      (value.any fun b => b == 9 || b == 13 || b == 10) then .error errInvalidHeaders
  else (value.splitOn 32).mapM parseSignature

def Keyring.verifyWithTolerance (k : Keyring) (headers : Headers) (rawBody : Bytes) (now : Time)
    (tolerance : Duration) : Except Error Unit := do
  if !validMessageID headers.id then throw errInvalidHeaders
  if tolerance < 1000000000 || unix64 now < 0 then throw errInvalidTolerance
  let timestamp ← parseTimestamp headers.timestamp
  if !withinTolerance (Int64.ofInt timestamp) (unix64 now) (tolerance / 1000000000) then
    throw errTimestampOutsideTolerance
  let signatures ← parseSignatures headers.signature
  let content := signingContent headers.id headers.timestamp rawBody
  if (k.secrets.any fun secret => signatures.contains (Sha256.hmac secret content)) then return ()
  else throw errSignatureMismatch

def Keyring.verify (k : Keyring) (headers : Headers) (rawBody : Bytes) (now : Time) :
    Except Error Unit :=
  k.verifyWithTolerance headers rawBody now defaultTolerance

end PulseAgent.Webhook
