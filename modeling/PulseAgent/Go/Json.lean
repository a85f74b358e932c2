import PulseAgent.Go.Text

/-!
# JSON text as `encoding/json` writes and reads it

`render` is compact and HTML-escaped. Object members keep their order and their repetitions, because
a strict decoder looks at both.
-/

namespace Go.Json

/-- A number literal; `frac` is empty when there is no decimal point. -/
structure Number where
  neg : Bool
  int : Nat
  frac : List (Fin 10)
  exp : Option Int
  deriving DecidableEq, Repr

inductive Value where
  | null
  | bool (b : Bool)
  | num (n : Number)
  | str (s : Bytes)
  | arr (items : List Value)
  | obj (members : List (Bytes × Value))

/-! ## Writing -/

def unicodeEscape (n : Nat) : Bytes :=
  [92, 117, Hex.digit (n / 4096 % 16), Hex.digit (n / 256 % 16), Hex.digit (n / 16 % 16),
   Hex.digit (n % 16)]

/-- The short escapes of a string literal. -/
def shortEscape (b : UInt8) : Option UInt8 :=
  if b = 34 then some 34
  else if b = 92 then some 92
  else if b = 8 then some 98
  else if b = 12 then some 102
  else if b = 10 then some 110
  else if b = 13 then some 114
  else if b = 9 then some 116
  else none

def escapeAscii (b : UInt8) : Bytes :=
  match shortEscape b with
  | some e => [92, e]
  | none => if b < 32 || b = 60 || b = 62 || b = 38 then unicodeEscape b.toNat else [b]

def escapePiece : Utf8.Piece → Bytes
  | .bad _ => unicodeEscape 0xFFFD
  | .rune [b] => escapeAscii b
  | .rune bytes =>
    if bytes = [0xE2, 0x80, 0xA8] then unicodeEscape 0x2028
    else if bytes = [0xE2, 0x80, 0xA9] then unicodeEscape 0x2029
    else bytes

def escape (s : Bytes) : Bytes := (Utf8.pieces s).flatMap escapePiece

def quote (s : Bytes) : Bytes := 34 :: (escape s ++ [34])

def renderFrac : List (Fin 10) → Bytes
  | [] => []
  | d :: ds => 46 :: (d :: ds).map fun d => Decimal.digit d.val

def renderExp : Option Int → Bytes
  | none => []
  | some e => 101 :: (if e < 0 then 45 else 43) :: Decimal.formatNat e.natAbs

def Number.render (n : Number) : Bytes :=
  (if n.neg then [45] else []) ++
    (Decimal.formatNat n.int ++ (renderFrac n.frac ++ renderExp n.exp))

mutual
def render : Value → Bytes
  | .null => lit "null"
  | .bool true => lit "true"
  | .bool false => lit "false"
  | .num n => n.render
  | .str s => quote s
  | .arr [] => [91, 93]
  | .arr (v :: vs) => 91 :: (render v ++ renderItems vs)
  | .obj [] => [123, 125]
  | .obj ((k, v) :: ms) => 123 :: (quote k ++ 58 :: (render v ++ renderMembers ms))

def renderItems : List Value → Bytes
  | [] => [93]
  | v :: vs => 44 :: (render v ++ renderItems vs)

def renderMembers : List (Bytes × Value) → Bytes
  | [] => [125]
  | (k, v) :: ms => 44 :: (quote k ++ 58 :: (render v ++ renderMembers ms))
end

mutual
/-- The tree a reader gets back: invalid bytes of strings and member names are replaced. -/
def Value.clean : Value → Value
  | .null => .null
  | .bool b => .bool b
  | .num n => .num n
  | .str s => .str (Utf8.toValidUTF8 s)
  | .arr vs => .arr (cleanItems vs)
  | .obj ms => .obj (cleanMembers ms)

def cleanItems : List Value → List Value
  | [] => []
  | v :: vs => v.clean :: cleanItems vs

def cleanMembers : List (Bytes × Value) → List (Bytes × Value)
  | [] => []
  | (k, v) :: ms => (Utf8.toValidUTF8 k, v.clean) :: cleanMembers ms
end

/-! ## Reading -/

def isSpace (b : UInt8) : Bool := b = 32 || b = 9 || b = 10 || b = 13

def skipSpace (s : Bytes) : Bytes := s.dropWhile isSpace

def hexVal (b : UInt8) : Option Nat :=
  if 48 ≤ b && b ≤ 57 then some (b.toNat - 48)
  else if 97 ≤ b && b ≤ 102 then some (b.toNat - 87)
  else if 65 ≤ b && b ≤ 70 then some (b.toNat - 55)
  else none

def hex4 (a b c d : UInt8) : Option Nat :=
  match hexVal a, hexVal b, hexVal c, hexVal d with
  | some a, some b, some c, some d => some (a * 4096 + b * 256 + c * 16 + d)
  | _, _, _, _ => none

/-- `utf8.EncodeRune` for a code point that is no surrogate. -/
def encodeRune (r : Nat) : Bytes :=
  if r < 0x80 then [UInt8.ofNat r]
  else if r < 0x800 then [UInt8.ofNat (0xC0 + r / 64), UInt8.ofNat (0x80 + r % 64)]
  else if r < 0x10000 then
    [UInt8.ofNat (0xE0 + r / 4096), UInt8.ofNat (0x80 + r / 64 % 64), UInt8.ofNat (0x80 + r % 64)]
  else
    [UInt8.ofNat (0xF0 + r / 262144), UInt8.ofNat (0x80 + r / 4096 % 64),
     UInt8.ofNat (0x80 + r / 64 % 64), UInt8.ofNat (0x80 + r % 64)]

def isSurrogate (r : Nat) : Bool := 0xD800 ≤ r && r < 0xE000

/-- `utf16.DecodeRune`. -/
def decodeSurrogates (hi lo : Nat) : Option Nat :=
  if 0xD800 ≤ hi ∧ hi < 0xDC00 ∧ 0xDC00 ≤ lo ∧ lo < 0xE000 then
    some ((hi - 0xD800) * 1024 + (lo - 0xDC00) + 0x10000)
  else none

def unescape (e : UInt8) : Option UInt8 :=
  if e = 34 then some 34
  else if e = 92 then some 92
  else if e = 47 then some 47
  else if e = 98 then some 8
  else if e = 102 then some 12
  else if e = 110 then some 10
  else if e = 114 then some 13
  else if e = 116 then some 9
  else none

def pushBytes (s : Bytes) (p : Bytes × Bytes) : Bytes × Bytes := (s ++ p.1, p.2)

/-- What a pending high surrogate turns into when no low surrogate follows it. -/
def flush : Option Nat → Bytes
  | none => []
  | some _ => Utf8.replacement

/-- The body of a string literal up to its closing quote, escapes expanded, and what follows.
`hi` is a high surrogate read just before. -/
def expand (hi : Option Nat) : Bytes → Option (Bytes × Bytes)
  | [] => none
  | b :: rest =>
    if b = 34 then some (flush hi, rest)
    else if b = 92 then
      match rest with
      | [] => none
      | e :: rest =>
        if e = 117 then
          match rest with
          | a :: b :: c :: d :: rest =>
            match hex4 a b c d with
            | none => none
            | some r =>
              match hi.bind (decodeSurrogates · r) with
              | some r => (expand none rest).map (pushBytes (encodeRune r))
              | none =>
                if 0xD800 ≤ r ∧ r < 0xDC00 then (expand (some r) rest).map (pushBytes (flush hi))
                else if isSurrogate r then
                  (expand none rest).map (pushBytes (flush hi ++ Utf8.replacement))
                else (expand none rest).map (pushBytes (flush hi ++ encodeRune r))
          | _ => none
        else
          match unescape e with
          | some c => (expand none rest).map (pushBytes (flush hi ++ [c]))
          | none => none
    else if b < 32 then none
    else (expand none rest).map (pushBytes (flush hi ++ [b]))

def parseString (s : Bytes) : Option (Bytes × Bytes) :=
  (expand none s).map fun p => (Utf8.toValidUTF8 p.1, p.2)

def toDigit (b : UInt8) : Fin 10 := Fin.ofNat 10 (Decimal.digitVal b)

def parseInteger : Bytes → Option (Nat × Bytes)
  | [] => none
  | b :: rest =>
    if b = 48 then some (0, rest)
    else if Decimal.isDigit b then
      some (Decimal.value (b :: rest.takeWhile Decimal.isDigit), rest.dropWhile Decimal.isDigit)
    else none

def parseFrac : Bytes → Option (List (Fin 10) × Bytes)
  | [] => some ([], [])
  | b :: rest =>
    if b = 46 then
      match rest.takeWhile Decimal.isDigit with
      | [] => none
      | digits => some (digits.map toDigit, rest.dropWhile Decimal.isDigit)
    else some ([], b :: rest)

def parseExpDigits (neg : Bool) (s : Bytes) : Option (Option Int × Bytes) :=
  match s.takeWhile Decimal.isDigit with
  | [] => none
  | digits =>
    let e := Int.ofNat (Decimal.value digits)
    some (some (if neg then -e else e), s.dropWhile Decimal.isDigit)

def parseExp : Bytes → Option (Option Int × Bytes)
  | [] => some (none, [])
  | b :: rest =>
    if b = 101 || b = 69 then
      match rest with
      | [] => none
      | c :: rest' =>
        if c = 43 then parseExpDigits false rest'
        else if c = 45 then parseExpDigits true rest'
        else parseExpDigits false (c :: rest')
    else some (none, b :: rest)

def parseUnsigned (neg : Bool) (s : Bytes) : Option (Number × Bytes) := do
  let (int, s) ← parseInteger s
  let (frac, s) ← parseFrac s
  let (exp, s) ← parseExp s
  return (⟨neg, int, frac, exp⟩, s)

def parseNumber : Bytes → Option (Number × Bytes)
  | [] => none
  | b :: rest => if b = 45 then parseUnsigned true rest else parseUnsigned false (b :: rest)

def keyword (word s : Bytes) (v : Value) : Option (Value × Bytes) :=
  if word.isPrefixOf s then some (v, s.drop word.length) else none

mutual
def parseValue : Nat → Bytes → Option (Value × Bytes)
  | 0, _ => none
  | fuel + 1, s =>
    match skipSpace s with
    | [] => none
    | b :: rest =>
      if b = 34 then (parseString rest).map fun p => (.str p.1, p.2)
      else if b = 91 then
        match skipSpace rest with
        | [] => none
        | c :: rest' =>
          if c = 93 then some (.arr [], rest')
          else (parseItems fuel (c :: rest')).map fun p => (.arr p.1, p.2)
      else if b = 123 then
        match skipSpace rest with
        | [] => none
        | c :: rest' =>
          if c = 125 then some (.obj [], rest')
          else (parseMembers fuel (c :: rest')).map fun p => (.obj p.1, p.2)
      else if b = 110 then keyword (lit "ull") rest .null
      else if b = 116 then keyword (lit "rue") rest (.bool true)
      else if b = 102 then keyword (lit "alse") rest (.bool false)
      else (parseNumber (b :: rest)).map fun p => (.num p.1, p.2)

def parseItems : Nat → Bytes → Option (List Value × Bytes)
  | 0, _ => none
  | fuel + 1, s =>
    match parseValue fuel s with
    | none => none
    | some (v, s) =>
      match skipSpace s with
      | [] => none
      | b :: rest =>
        if b = 93 then some ([v], rest)
        else if b = 44 then (parseItems fuel rest).map fun p => (v :: p.1, p.2)
        else none

def parseMembers : Nat → Bytes → Option (List (Bytes × Value) × Bytes)
  | 0, _ => none
  | fuel + 1, s =>
    match skipSpace s with
    | [] => none
    | q :: s =>
      if q = 34 then
        match parseString s with
        | none => none
        | some (k, s) =>
          match skipSpace s with
          | [] => none
          | colon :: s =>
            if colon = 58 then
              match parseValue fuel s with
              | none => none
              | some (v, s) =>
                match skipSpace s with
                | [] => none
                | b :: rest =>
                  if b = 125 then some ([(k, v)], rest)
                  else if b = 44 then (parseMembers fuel rest).map fun p => ((k, v) :: p.1, p.2)
                  else none
            else none
      else none
end

/-- One complete document: a value with nothing but white space around it. -/
def parse (s : Bytes) : Option Value :=
  match parseValue (s.length + 1) s with
  | some (v, rest) => if skipSpace rest = [] then some v else none
  | none => none

end Go.Json
