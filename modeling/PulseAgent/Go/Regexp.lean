import PulseAgent.Go.Utf8

/-!
# Regular expressions

Leftmost-first matching: alternatives in order, repetition greedy or lazy. A matcher gets the text
still to read, the rune before it for word boundaries, and a continuation, so that backtracking is
trying the next alternative.
-/

namespace Go

namespace Utf8

def decodeRune : Bytes → Nat
  | [a] => a.toNat
  | [a, b] => (a.toNat - 0xC0) * 64 + (b.toNat - 0x80)
  | [a, b, c] => (a.toNat - 0xE0) * 4096 + (b.toNat - 0x80) * 64 + (c.toNat - 0x80)
  | [a, b, c, d] =>
    (a.toNat - 0xF0) * 262144 + (b.toNat - 0x80) * 4096 + (c.toNat - 0x80) * 64 + (d.toNat - 0x80)
  | _ => 0xFFFD

def Piece.codePoint : Piece → Nat
  | .rune bytes => decodeRune bytes
  | .bad _ => 0xFFFD

def runes (s : Bytes) : List Nat := (pieces s).map Piece.codePoint

end Utf8

inductive Regexp where
  | empty
  /-- One rune of a class. -/
  | class (p : Nat → Bool)
  | seq (a b : Regexp)
  | alt (a b : Regexp)
  | star (greedy : Bool) (a : Regexp)
  /-- A capturing group. -/
  | group (index : Nat) (a : Regexp)
  | wordBoundary
  | endText

namespace Regexp

structure Cursor where
  prev : Option Nat
  rest : List Nat
  captures : List (Nat × List Nat) := []

def isWord (r : Nat) : Bool :=
  (48 ≤ r && r ≤ 57) || (65 ≤ r && r ≤ 90) || (97 ≤ r && r ≤ 122) || r == 95

def atBoundary (c : Cursor) : Bool :=
  c.prev.any isWord != c.rest.head?.any isWord

variable {α : Type}

/-- Repetitions of a matcher, each of which has to consume something. -/
def repeated (greedy : Bool) (body : Cursor → (Cursor → Option α) → Option α) :
    Nat → Cursor → (Cursor → Option α) → Option α
  | 0, c, k => k c
  | fuel + 1, c, k =>
    let more := fun (_ : Unit) => body c fun c' =>
      if c'.rest.length < c.rest.length then repeated greedy body fuel c' k else none
    if greedy then (more ()).or (k c) else (k c).or (more ())

def run : Regexp → Cursor → (Cursor → Option α) → Option α
  | .empty, c, k => k c
  | .class p, c, k =>
    match c.rest with
    | [] => none
    | r :: rest => if p r then k { c with prev := some r, rest := rest } else none
  | .seq a b, c, k => a.run c fun c => b.run c k
  | .alt a b, c, k => (a.run c k).or (b.run c k)
  | .star greedy a, c, k => repeated greedy (fun c k => a.run c k) c.rest.length c k
  | .group i a, c, k =>
    a.run c fun c' =>
      k { c' with captures := (i, c.rest.take (c.rest.length - c'.rest.length)) :: c'.captures }
  | .wordBoundary, c, k => if atBoundary c then k c else none
  | .endText, c, k => if c.rest.isEmpty then k c else none

def matchAt (re : Regexp) (c : Cursor) : Option Cursor :=
  re.run { c with captures := [] } some

/-- Successive leftmost matches, for patterns that never match the empty text. -/
def findAll (re : Regexp) : Nat → Cursor → List Cursor
  | 0, _ => []
  | fuel + 1, c =>
    match re.matchAt c with
    | some c' => c' :: findAll re fuel c'
    | none =>
      match c.rest with
      | [] => []
      | r :: rest => findAll re fuel { c with prev := some r, rest := rest }

def search (re : Regexp) : Nat → Cursor → Bool
  | 0, c => (re.matchAt c).isSome
  | fuel + 1, c =>
    (re.matchAt c).isSome ||
      match c.rest with
      | [] => false
      | r :: rest => search re fuel { c with prev := some r, rest := rest }

def matchString (re : Regexp) (s : Bytes) : Bool :=
  re.search (Utf8.runes s).length { prev := none, rest := Utf8.runes s }

/-- The groups of the match of a pattern that is anchored at the start, as `FindStringSubmatch`
returns them. -/
def submatch (re : Regexp) (s : Bytes) : Option (List (Nat × List Nat)) :=
  (re.matchAt { prev := none, rest := Utf8.runes s }).map Cursor.captures

/-- One captured group of every match, as `FindAllStringSubmatch` lists them. -/
def findAllGroup (re : Regexp) (index : Nat) (s : Bytes) : List (List Nat) :=
  (re.findAll ((Utf8.runes s).length + 1) { prev := none, rest := Utf8.runes s }).map fun c =>
    (c.captures.lookup index).getD []

/-- The text from the cursor on with every match replaced. -/
def replaceFrom (re : Regexp) (template : (Nat → List Nat) → List Nat) : Nat → Cursor → List Nat
  | 0, c => c.rest
  | fuel + 1, c =>
    match re.matchAt c with
    | some c' =>
      template (fun index => (c'.captures.lookup index).getD []) ++ replaceFrom re template fuel c'
    | none =>
      match c.rest with
      | [] => []
      | r :: rest => r :: replaceFrom re template fuel { c with prev := some r, rest := rest }

/-- `ReplaceAllString`, on the runes of a valid text and with the template as a function of the
captured groups, for patterns that never match the empty text. -/
def replaceAll (re : Regexp) (template : (Nat → List Nat) → List Nat) (runes : List Nat) :
    List Nat :=
  re.replaceFrom template (runes.length + 1) { prev := none, rest := runes }

/-! ## Building patterns -/

/-- The runes that fold to the same one as `r`, for ASCII letters. -/
def folds (r : Nat) : List Nat :=
  if r == 0x212A then [75, 107]
  else if r == 0x17F then [83, 115]
  else if 65 ≤ r && r ≤ 90 then [r + 32]
  else if 97 ≤ r && r ≤ 122 then [r - 32]
  else []

def anyCase (p : Nat → Bool) : Regexp := .class fun r => p r || (folds r).any p

def chars (s : String) : Nat → Bool := fun r => (lit s).any fun b => b.toNat == r

def between (lo hi : Nat) : Nat → Bool := fun r => lo ≤ r && r ≤ hi

def digit : Nat → Bool := between 48 57
def upper : Nat → Bool := between 65 90
def lower : Nat → Bool := between 97 122
def space : Nat → Bool := fun r => r == 9 || r == 10 || r == 12 || r == 13 || r == 32

def text (s : String) : Regexp :=
  (lit s).foldr (fun b re => .seq (anyCase (· == b.toNat)) re) .empty

def literal (s : String) : Regexp :=
  (lit s).foldr (fun b re => .seq (.class (· == b.toNat)) re) .empty

def seqs : List Regexp → Regexp
  | [] => .empty
  | [a] => a
  | a :: rest => .seq a (seqs rest)

def alts : List Regexp → Regexp
  | [] => .class fun _ => false
  | [a] => a
  | a :: rest => .alt a (alts rest)

def opt (a : Regexp) : Regexp := .alt a .empty
def many (a : Regexp) : Regexp := .star true a
def some1 (a : Regexp) : Regexp := .seq a (many a)

def atLeast (a : Regexp) : Nat → Regexp
  | 0 => many a
  | n + 1 => .seq a (atLeast a n)

def atMost (a : Regexp) : Nat → Regexp
  | 0 => .empty
  | n + 1 => opt (.seq a (atMost a n))

/-- At least `n` and at most `n + extra` times. -/
def times (a : Regexp) (extra : Nat) : Nat → Regexp
  | 0 => atMost a extra
  | n + 1 => .seq a (times a extra n)

end Regexp
end Go
