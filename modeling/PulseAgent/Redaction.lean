import PulseAgent.Go.Json
import PulseAgent.Go.Regexp

/-!
# Detection and redaction of sensitive values

The patterns are spelled with the combinators of `Go.Regexp`, in the order of their source text.
-/

namespace PulseAgent.Redaction

open Go Go.Regexp

/-- `[a-z0-9_-]` -/
def labelChar : Nat → Bool := fun r => lower r || digit r || chars "_-" r

/-- `[A-Z0-9_-]` -/
def tokenChar : Nat → Bool := fun r => upper r || digit r || chars "_-" r

/-- `[A-Z0-9]` -/
def alnum : Nat → Bool := fun r => upper r || digit r

/-- `[_-]?` -/
def joiner : Regexp := opt (.class (chars "_-"))

def spaces : Regexp := many (.class space)

/-- `[^\s,;]+` -/
def bareValue : Regexp := some1 (.class fun r => !(space r || chars ",;" r))

def separator : Regexp := .class (chars ":=")

def sensitiveLabel : Regexp :=
  alts
    [seqs [.star false (anyCase labelChar),
      alts [seqs [text "api", joiner, text "key"], text "token", text "password", text "secret",
        text "credential", seqs [text "private", joiner, text "key"]]],
     seqs [text "customer", joiner,
      alts [text "id", text "name", text "email", text "phone"]]]

def labeledValuePattern : Regexp :=
  seqs [.wordBoundary, .group 1 sensitiveLabel, .wordBoundary, spaces, .group 2 separator, spaces,
    .group 3 bareValue]

def emptyLabelPattern : Regexp :=
  seqs [.wordBoundary, sensitiveLabel, .wordBoundary, spaces, separator, spaces,
    .alt .endText (.class (chars ",;"))]

def authorizationPattern : Regexp :=
  seqs [.wordBoundary, text "authorization", spaces, separator, spaces,
    .group 1 (opt (seqs [text "bearer", some1 (.class space)])), .group 2 bareValue]

def emailPattern : Regexp :=
  seqs [.wordBoundary, some1 (anyCase fun r => alnum r || chars "._%+-" r), .class (chars "@"),
    some1 (anyCase fun r => alnum r || chars ".-" r), .class (chars "."),
    atLeast (anyCase upper) 2, .wordBoundary]

def phonePattern : Regexp :=
  let d := Regexp.class digit
  let gap := opt (.class (chars " -"))
  seqs [.wordBoundary, opt (seqs [opt (.class (chars "+")), times d 2 1, gap]),
    opt (seqs [times d 2 2, gap]), times d 1 3, .class (chars " -"), times d 0 4, .wordBoundary]

def opaqueTokenPattern : Regexp :=
  seqs [.wordBoundary,
    alts
      [seqs [text "ghp_", atLeast (anyCase alnum) 20],
       seqs [text "github_pat_", atLeast (anyCase fun r => alnum r || chars "_" r) 20],
       seqs [text "xox", anyCase (chars "baprs"), text "-",
        atLeast (anyCase fun r => alnum r || chars "-" r) 10],
       seqs [text "sk", .class (chars "-_"), atLeast (anyCase tokenChar) 8],
       seqs [text "AKIA", times (anyCase alnum) 0 16],
       seqs [text "AIza", atLeast (anyCase tokenChar) 20],
       seqs [text "whsec_", atLeast (anyCase fun r => alnum r || chars "_+/=-" r) 16]],
    .wordBoundary]

def unknownTokenPattern : Regexp :=
  seqs [.wordBoundary, anyCase upper, times (anyCase tokenChar) 22 2, .class (chars ".~"),
    atLeast (anyCase tokenChar) 20, .wordBoundary]

def markers : List (List Nat) :=
  ["[REDACTED]", "[REDACTED_EMAIL]", "[REDACTED_PHONE]", "[REDACTED_TOKEN]"].map fun m =>
    Utf8.runes (lit m)

def isMarker (value : List Nat) : Bool := markers.contains value

/-- Whether a text is malformed or contains a raw secret, personal or token-like value. -/
def containsSensitive (value : Bytes) : Bool :=
  !Utf8.validString value || value.contains 0 || emptyLabelPattern.matchString value ||
    (labeledValuePattern.findAllGroup 3 value).any (fun m => !isMarker m) ||
    (authorizationPattern.findAllGroup 2 value).any (fun m => !isMarker m) ||
    emailPattern.matchString value || phonePattern.matchString value ||
    opaqueTokenPattern.matchString value || unknownTokenPattern.matchString value

theorem validString_of_not_containsSensitive {value : Bytes} (h : containsSensitive value = false) :
    Utf8.validString value = true := by
  simp only [containsSensitive, Bool.or_eq_false_iff, Bool.not_eq_false'] at h
  exact h.1.1.1.1.1.1.1.1

def marker (text : String) : List Nat := Utf8.runes (lit text)

/-- The replacements of `Redact`, one after the other. -/
def replaceSensitive (value : Bytes) : Bytes :=
  let redacted := authorizationPattern.replaceAll
    (fun group => marker "Authorization: " ++ group 1 ++ marker "[REDACTED]") (Utf8.runes value)
  let redacted := labeledValuePattern.replaceAll
    (fun group => group 1 ++ group 2 ++ marker "[REDACTED]") redacted
  let redacted := emailPattern.replaceAll (fun _ => marker "[REDACTED_EMAIL]") redacted
  let redacted := phonePattern.replaceAll (fun _ => marker "[REDACTED_PHONE]") redacted
  let redacted := opaqueTokenPattern.replaceAll (fun _ => marker "[REDACTED_TOKEN]") redacted
  redacted.flatMap Json.encodeRune

/-- The text with recognised secrets and personal data replaced, unless it is malformed or something
sensitive is left. -/
def redact (value : Bytes) : Option Bytes :=
  if !Utf8.validString value || value.contains 0 || emptyLabelPattern.matchString value then none
  else if containsSensitive (replaceSensitive value) then none
  else some (replaceSensitive value)

theorem not_containsSensitive_of_redact {value redacted : Bytes}
    (h : redact value = some redacted) :
    containsSensitive redacted = false := by
  unfold redact at h
  split_ifs at h with hmalformed hsensitive
  rw [← Option.some.inj h]
  exact Bool.eq_false_iff.mpr hsensitive

example : redact (lit "password: hunter2, mail a@b.io") =
    some (lit "password:[REDACTED], mail [REDACTED_EMAIL]") := by decide +kernel

example : containsSensitive (lit "incident-1") = false := by decide +kernel

example : containsSensitive (lit "db_password=x") = true := by decide +kernel

end PulseAgent.Redaction
