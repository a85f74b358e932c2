import PulseAgent.Go.Text

/-!
# SHA-256 and HMAC-SHA256

The message schedule is a sliding window of the words `w[t-16], …, w[t-1]`: every round consumes its
head and appends the next word.
-/

namespace Go.Sha256

def add32 (a b : Nat) : Nat := (a + b) % 4294967296

def rotr (x n : Nat) : Nat := (x >>> n) ||| ((x <<< (32 - n)) % 4294967296)

def smallSigma0 (x : Nat) : Nat := rotr x 7 ^^^ rotr x 18 ^^^ (x >>> 3)
def smallSigma1 (x : Nat) : Nat := rotr x 17 ^^^ rotr x 19 ^^^ (x >>> 10)
def bigSigma0 (x : Nat) : Nat := rotr x 2 ^^^ rotr x 13 ^^^ rotr x 22
def bigSigma1 (x : Nat) : Nat := rotr x 6 ^^^ rotr x 11 ^^^ rotr x 25
def choose (x y z : Nat) : Nat := (x &&& y) ^^^ ((4294967295 - x) &&& z)
def majority (x y z : Nat) : Nat := (x &&& y) ^^^ (x &&& z) ^^^ (y &&& z)

def roundConstants : List Nat :=
  [0x428a2f98, 0x71374491, 0xb5c0fbcf, 0xe9b5dba5, 0x3956c25b, 0x59f111f1, 0x923f82a4, 0xab1c5ed5,
   0xd807aa98, 0x12835b01, 0x243185be, 0x550c7dc3, 0x72be5d74, 0x80deb1fe, 0x9bdc06a7, 0xc19bf174,
   0xe49b69c1, 0xefbe4786, 0x0fc19dc6, 0x240ca1cc, 0x2de92c6f, 0x4a7484aa, 0x5cb0a9dc, 0x76f988da,
   0x983e5152, 0xa831c66d, 0xb00327c8, 0xbf597fc7, 0xc6e00bf3, 0xd5a79147, 0x06ca6351, 0x14292967,
   0x27b70a85, 0x2e1b2138, 0x4d2c6dfc, 0x53380d13, 0x650a7354, 0x766a0abb, 0x81c2c92e, 0x92722c85,
   0xa2bfe8a1, 0xa81a664b, 0xc24b8b70, 0xc76c51a3, 0xd192e819, 0xd6990624, 0xf40e3585, 0x106aa070,
   0x19a4c116, 0x1e376c08, 0x2748774c, 0x34b0bcb5, 0x391c0cb3, 0x4ed8aa4a, 0x5b9cca4f, 0x682e6ff3,
   0x748f82ee, 0x78a5636f, 0x84c87814, 0x8cc70208, 0x90befffa, 0xa4506ceb, 0xbef9a3f7, 0xc67178f2]

structure Working where
  a : Nat
  b : Nat
  c : Nat
  d : Nat
  e : Nat
  f : Nat
  g : Nat
  h : Nat

def initial : Working :=
  ⟨0x6a09e667, 0xbb67ae85, 0x3c6ef372, 0xa54ff53a, 0x510e527f, 0x9b05688c, 0x1f83d9ab, 0x5be0cd19⟩

def round (k w : Nat) (s : Working) : Working :=
  let t1 := add32 (add32 (add32 s.h (bigSigma1 s.e)) (add32 (choose s.e s.f s.g) k)) w
  let t2 := add32 (bigSigma0 s.a) (majority s.a s.b s.c)
  ⟨add32 t1 t2, s.a, s.b, s.c, add32 s.d t1, s.e, s.f, s.g⟩

def nextWord (window : List Nat) : Nat :=
  add32 (add32 (smallSigma1 (window.getD 14 0)) (window.getD 9 0))
    (add32 (smallSigma0 (window.getD 1 0)) (window.getD 0 0))

def rounds : List Nat → List Nat → Working → Working
  | [], _, s => s
  | k :: ks, window, s =>
    rounds ks (window.tail ++ [nextWord window]) (round k (window.getD 0 0) s)

def compress (s : Working) (block : List Nat) : Working :=
  let r := rounds roundConstants block s
  ⟨add32 s.a r.a, add32 s.b r.b, add32 s.c r.c, add32 s.d r.d,
   add32 s.e r.e, add32 s.f r.f, add32 s.g r.g, add32 s.h r.h⟩

def words : Bytes → List Nat
  | b0 :: b1 :: b2 :: b3 :: rest =>
    (b0.toNat * 16777216 + b1.toNat * 65536 + b2.toNat * 256 + b3.toNat) :: words rest
  | _ => []

/-- Most significant byte first, in `n` bytes. -/
def bigEndian : Nat → Nat → Bytes
  | 0, _ => []
  | n + 1, x => bigEndian n (x / 256) ++ [UInt8.ofNat (x % 256)]

/-- The message, a one bit, zeros to 56 bytes modulo 64 and the bit length in 64 bits. -/
def padded (s : Bytes) : Bytes :=
  s ++ 0x80 :: (List.replicate ((119 - s.length % 64) % 64) 0 ++ bigEndian 8 (8 * s.length))

def blocks : Nat → List Nat → Working → Working
  | 0, _, s => s
  | n + 1, ws, s => blocks n (ws.drop 16) (compress s (ws.take 16))

/-- `sha256.Sum256`. -/
def sum256 (s : Bytes) : Bytes :=
  let message := padded s
  let r := blocks (message.length / 64) (words message) initial
  [r.a, r.b, r.c, r.d, r.e, r.f, r.g, r.h].flatMap (bigEndian 4)

@[simp] theorem bigEndian_length (n x : Nat) : (bigEndian n x).length = n := by
  induction n generalizing x with
  | zero => rfl
  | succ n ih => simp [bigEndian, ih]

@[simp] theorem sum256_length (s : Bytes) : (sum256 s).length = 32 := by
  simp [sum256]

example : Hex.encode (sum256 (lit "abc")) =
    lit "ba7816bf8f01cfea414140de5dae2223b00361a396177a9cb410ff61f20015ad" := by decide +kernel

/-- `hmac.New(sha256.New, key)` over one message. -/
def hmac (key message : Bytes) : Bytes :=
  let key := if key.length ≤ 64 then key else sum256 key
  let key := key ++ List.replicate (64 - key.length) 0
  sum256 (key.map (· ^^^ 0x5C) ++ sum256 (key.map (· ^^^ 0x36) ++ message))

@[simp] theorem hmac_length (key message : Bytes) : (hmac key message).length = 32 := by
  simp [hmac]

end Go.Sha256
