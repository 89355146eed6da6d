/-
# SHA-384 and SHA-512

The secure hashes on words of 64 bits: blocks of 128 octets, 80 rounds. The
shorter one starts from other words and leaves the last ones out.

Key definitions: `Sha512.digest`, `Sha512.digest384`.
-/
import WorkloadIdentity.Text.Hex

namespace WorkloadIdentity
namespace Sha512

/-- The eight words that a hash is computed in. -/
structure State where
  a : UInt64
  b : UInt64
  c : UInt64
  d : UInt64
  e : UInt64
  f : UInt64
  g : UInt64
  h : UInt64

/-- The constant of each round: the fraction of a prime's cube root. -/
def roundConstants : Array UInt64 :=
  #[0x428a2f98d728ae22, 0x7137449123ef65cd, 0xb5c0fbcfec4d3b2f, 0xe9b5dba58189dbbc,
    0x3956c25bf348b538, 0x59f111f1b605d019, 0x923f82a4af194f9b, 0xab1c5ed5da6d8118,
    0xd807aa98a3030242, 0x12835b0145706fbe, 0x243185be4ee4b28c, 0x550c7dc3d5ffb4e2,
    0x72be5d74f27b896f, 0x80deb1fe3b1696b1, 0x9bdc06a725c71235, 0xc19bf174cf692694,
    0xe49b69c19ef14ad2, 0xefbe4786384f25e3, 0x0fc19dc68b8cd5b5, 0x240ca1cc77ac9c65,
    0x2de92c6f592b0275, 0x4a7484aa6ea6e483, 0x5cb0a9dcbd41fbd4, 0x76f988da831153b5,
    0x983e5152ee66dfab, 0xa831c66d2db43210, 0xb00327c898fb213f, 0xbf597fc7beef0ee4,
    0xc6e00bf33da88fc2, 0xd5a79147930aa725, 0x06ca6351e003826f, 0x142929670a0e6e70,
    0x27b70a8546d22ffc, 0x2e1b21385c26c926, 0x4d2c6dfc5ac42aed, 0x53380d139d95b3df,
    0x650a73548baf63de, 0x766a0abb3c77b2a8, 0x81c2c92e47edaee6, 0x92722c851482353b,
    0xa2bfe8a14cf10364, 0xa81a664bbc423001, 0xc24b8b70d0f89791, 0xc76c51a30654be30,
    0xd192e819d6ef5218, 0xd69906245565a910, 0xf40e35855771202a, 0x106aa07032bbd1b8,
    0x19a4c116b8d2d0c8, 0x1e376c085141ab53, 0x2748774cdf8eeb99, 0x34b0bcb5e19b48a8,
    0x391c0cb3c5c95a63, 0x4ed8aa4ae3418acb, 0x5b9cca4f7763e373, 0x682e6ff3d6b2b8a3,
    0x748f82ee5defb2fc, 0x78a5636f43172f60, 0x84c87814a1f0ab72, 0x8cc702081a6439ec,
    0x90befffa23631e28, 0xa4506cebde82bde9, 0xbef9a3f7b2c67915, 0xc67178f2e372532b,
    0xca273eceea26619c, 0xd186b8c721c0c207, 0xeada7dd6cde0eb1e, 0xf57d4f7fee6ed178,
    0x06f067aa72176fba, 0x0a637dc5a2c898a6, 0x113f9804bef90dae, 0x1b710b35131c471b,
    0x28db77f523047d84, 0x32caab7b40c72493, 0x3c9ebe0a15c9bebc, 0x431d67c49c100d4c,
    0x4cc5d4becb3e42b6, 0x597f299cfc657e2a, 0x5fcb6fab3ad6faec, 0x6c44198c4a475817]

/-- The first state: the fractions of the first eight primes' square roots. -/
def start : State :=
  ⟨0x6a09e667f3bcc908, 0xbb67ae8584caa73b, 0x3c6ef372fe94f82b, 0xa54ff53a5f1d36f1,
    0x510e527fade682d1, 0x9b05688c2b3e6c1f, 0x1f83d9abfb41bd6b, 0x5be0cd19137e2179⟩

/-- The first state of the shorter hash: those of the next eight primes. -/
def start384 : State :=
  ⟨0xcbbb9d5dc1059ed8, 0x629a292a367cd507, 0x9159015a3070dd17, 0x152fecd8f70e5939,
    0x67332667ffc00b31, 0x8eb44a8768581511, 0xdb0c2e0d64f98fa7, 0x47b5481dbefa4fa4⟩

/-- A word turned right. -/
def turn (x : UInt64) (n : UInt64) : UInt64 := (x >>> n) ||| (x <<< (64 - n))

/-- The word of 8 octets, the first the most significant. -/
def word (octets : Bytes) : UInt64 :=
  octets.foldl (fun w b => (w <<< 8) ||| b.toUInt64) 0

/-- The octets of a word. -/
def octets (w : UInt64) : Bytes :=
  (List.range 8).map fun i => (w >>> (UInt64.ofNat (8 * (8 - 1 - i)))).toUInt8

/-- The text with a one, zeros, and its length in bits, up to a whole number of
blocks. -/
def pad (message : Bytes) : Bytes :=
  let length := message.length
  let zeros := (128 - (length + 1 + 16) % 128) % 128
  message ++ 0x80 :: List.replicate zeros 0 ++
    (List.range 16).map fun i => UInt8.ofNat (8 * length / Nat.pow 256 (16 - 1 - i))

/-- The words of a text, each of 8 octets. -/
def words : Nat → Bytes → List UInt64
  | 0, _ => []
  | count + 1, bytes => word (bytes.take 8) :: words count (bytes.drop 8)

/-- The next word of a block's schedule after the words `w`. -/
def nextWord (w : Array UInt64) (i : Nat) : UInt64 :=
  let x := w.getD (i - 15) 0
  let y := w.getD (i - 2) 0
  w.getD (i - 16) 0 + (turn x 1 ^^^ turn x 8 ^^^ (x >>> 7)) + w.getD (i - 7) 0 +
    (turn y 19 ^^^ turn y 61 ^^^ (y >>> 6))

/-- A block's words and those made from them, one for each round. -/
def schedule (block : List UInt64) : Array UInt64 :=
  (List.range' 16 64).foldl (fun w i => w.push (nextWord w i)) block.toArray

/-- One round. -/
def round (s : State) (k w : UInt64) : State :=
  let choice := (s.e &&& s.f) ^^^ (~~~s.e &&& s.g)
  let majority := (s.a &&& s.b) ^^^ (s.a &&& s.c) ^^^ (s.b &&& s.c)
  let x := s.h + (turn s.e 14 ^^^ turn s.e 18 ^^^ turn s.e 41) + choice + k + w
  let y := (turn s.a 28 ^^^ turn s.a 34 ^^^ turn s.a 39) + majority
  ⟨x + y, s.a, s.b, s.c, s.d + x, s.e, s.f, s.g⟩

/-- The state after a block. -/
def compress (s : State) (block : List UInt64) : State :=
  let w := schedule block
  let t := (List.range 80).foldl (fun t i => round t (roundConstants.getD i 0) (w.getD i 0)) s
  ⟨s.a + t.a, s.b + t.b, s.c + t.c, s.d + t.d, s.e + t.e, s.f + t.f, s.g + t.g, s.h + t.h⟩

/-- The state after so many blocks. -/
def absorb : Nat → State → List UInt64 → State
  | 0, s, _ => s
  | blocks + 1, s, w => absorb blocks (compress s (w.take 16)) (w.drop 16)

/-- The octets of a state. -/
def State.octets (s : State) : Bytes :=
  [s.a, s.b, s.c, s.d, s.e, s.f, s.g, s.h].flatMap Sha512.octets

/-- The hash of a text from a first state on. -/
def run (start : State) (message : Bytes) : Bytes :=
  let padded := pad message
  (absorb (padded.length / 128) start (words (padded.length / 8) padded)).octets

/-- The hash of 512 bits. -/
def digest (message : Bytes) : Bytes := run start message

/-- The hash of 384 bits. -/
def digest384 (message : Bytes) : Bytes := (run start384 message).take 48

end Sha512
end WorkloadIdentity
