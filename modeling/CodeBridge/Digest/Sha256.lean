/-! # SHA-256

The digest of a message of bytes. A block of sixteen words is mixed into eight state words in 64 rounds; the
message schedule is a window of sixteen words that moves by one in each round. -/

namespace CodeBridge.Digest

/-- The eight words that the rounds mix. -/
structure Chain where
  a : UInt32
  b : UInt32
  c : UInt32
  d : UInt32
  e : UInt32
  f : UInt32
  g : UInt32
  h : UInt32
deriving DecidableEq

namespace Chain

def initial : Chain :=
  ⟨0x6a09e667, 0xbb67ae85, 0x3c6ef372, 0xa54ff53a, 0x510e527f, 0x9b05688c, 0x1f83d9ab, 0x5be0cd19⟩

def add (x y : Chain) : Chain :=
  ⟨x.a + y.a, x.b + y.b, x.c + y.c, x.d + y.d, x.e + y.e, x.f + y.f, x.g + y.g, x.h + y.h⟩

def words (x : Chain) : List UInt32 :=
  [x.a, x.b, x.c, x.d, x.e, x.f, x.g, x.h]

end Chain

def roundConstants : List UInt32 :=
  [0x428a2f98, 0x71374491, 0xb5c0fbcf, 0xe9b5dba5, 0x3956c25b, 0x59f111f1, 0x923f82a4, 0xab1c5ed5,
    0xd807aa98, 0x12835b01, 0x243185be, 0x550c7dc3, 0x72be5d74, 0x80deb1fe, 0x9bdc06a7, 0xc19bf174,
    0xe49b69c1, 0xefbe4786, 0x0fc19dc6, 0x240ca1cc, 0x2de92c6f, 0x4a7484aa, 0x5cb0a9dc, 0x76f988da,
    0x983e5152, 0xa831c66d, 0xb00327c8, 0xbf597fc7, 0xc6e00bf3, 0xd5a79147, 0x06ca6351, 0x14292967,
    0x27b70a85, 0x2e1b2138, 0x4d2c6dfc, 0x53380d13, 0x650a7354, 0x766a0abb, 0x81c2c92e, 0x92722c85,
    0xa2bfe8a1, 0xa81a664b, 0xc24b8b70, 0xc76c51a3, 0xd192e819, 0xd6990624, 0xf40e3585, 0x106aa070,
    0x19a4c116, 0x1e376c08, 0x2748774c, 0x34b0bcb5, 0x391c0cb3, 0x4ed8aa4a, 0x5b9cca4f, 0x682e6ff3,
    0x748f82ee, 0x78a5636f, 0x84c87814, 0x8cc70208, 0x90befffa, 0xa4506ceb, 0xbef9a3f7, 0xc67178f2]

def rotate (x n : UInt32) : UInt32 :=
  (x >>> n) ||| (x <<< (32 - n))

/-- One round with the sum of its constant and its word of the schedule. -/
def round (s : Chain) (word : UInt32) : Chain :=
  let t₁ := s.h + (rotate s.e 6 ^^^ rotate s.e 11 ^^^ rotate s.e 25) + ((s.e &&& s.f) ^^^ (~~~s.e &&& s.g)) + word
  let t₂ := (rotate s.a 2 ^^^ rotate s.a 13 ^^^ rotate s.a 22) + ((s.a &&& s.b) ^^^ (s.a &&& s.c) ^^^ (s.b &&& s.c))
  ⟨t₁ + t₂, s.a, s.b, s.c, s.d + t₁, s.e, s.f, s.g⟩

/-- The word that follows sixteen words of the schedule. -/
def nextWord (w₀ w₁ w₉ w₁₄ : UInt32) : UInt32 :=
  w₀ + (rotate w₁ 7 ^^^ rotate w₁ 18 ^^^ (w₁ >>> 3)) + w₉ + (rotate w₁₄ 17 ^^^ rotate w₁₄ 19 ^^^ (w₁₄ >>> 10))

/-- The rounds for the given constants, starting with the sixteen words of a window. -/
def rounds : List UInt32 → List UInt32 → Chain → Chain
  | k :: ks, [w₀, w₁, w₂, w₃, w₄, w₅, w₆, w₇, w₈, w₉, w₁₀, w₁₁, w₁₂, w₁₃, w₁₄, w₁₅], s =>
    rounds ks [w₁, w₂, w₃, w₄, w₅, w₆, w₇, w₈, w₉, w₁₀, w₁₁, w₁₂, w₁₃, w₁₄, w₁₅, nextWord w₀ w₁ w₉ w₁₄]
      (round s (k + w₀))
  | _, _, s => s

/-- Bytes as words, four to a word, the highest first. -/
def wordsOf : List UInt8 → List UInt32
  | a :: b :: c :: d :: rest =>
    ((a.toUInt32 <<< 24) ||| (b.toUInt32 <<< 16) ||| (c.toUInt32 <<< 8) ||| d.toUInt32) :: wordsOf rest
  | _ => []

def bytesOf (w : UInt32) : List UInt8 :=
  [(w >>> 24).toUInt8, (w >>> 16).toUInt8, (w >>> 8).toUInt8, w.toUInt8]

/-- Mixes the blocks of sixteen words into the chain; words left over count for nothing. -/
def absorb (s : Chain) : List UInt32 → Chain
  | w₀ :: w₁ :: w₂ :: w₃ :: w₄ :: w₅ :: w₆ :: w₇ :: w₈ :: w₉ :: w₁₀ :: w₁₁ :: w₁₂ :: w₁₃ :: w₁₄ :: w₁₅ :: rest =>
    absorb (s.add (rounds roundConstants
      [w₀, w₁, w₂, w₃, w₄, w₅, w₆, w₇, w₈, w₉, w₁₀, w₁₁, w₁₂, w₁₃, w₁₄, w₁₅] s)) rest
  | _ => s

/-- What follows a message of `n` bytes: a set bit, zeros up to a block's end, and the number of bits. -/
def padding (n : Nat) : List UInt8 :=
  let bits := UInt64.ofNat (8 * n)
  let zeros := (119 - n % 64) % 64
  0x80 :: (List.replicate zeros (0 : UInt8) ++ bytesOf (bits >>> 32).toUInt32 ++ bytesOf bits.toUInt32)

def sha256 (message : List UInt8) : List UInt8 :=
  (absorb Chain.initial (wordsOf (message ++ padding message.length))).words.flatMap bytesOf

end CodeBridge.Digest
