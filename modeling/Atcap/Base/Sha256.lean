import Atcap.Base.Text

/-!
# SHA-256 and HMAC

Library `Base`. The functions behind `hashlib.sha256` and `hmac.new(key, message, sha256)`,
over byte lists. The developments that use them rely on the digest length only; absence of
collisions is always a hypothesis about the strings at hand.
-/

namespace Atcap.Base

namespace Sha256

/-- Round constants. -/
def roundConstants : List UInt32 :=
  [0x428a2f98, 0x71374491, 0xb5c0fbcf, 0xe9b5dba5, 0x3956c25b, 0x59f111f1, 0x923f82a4, 0xab1c5ed5,
   0xd807aa98, 0x12835b01, 0x243185be, 0x550c7dc3, 0x72be5d74, 0x80deb1fe, 0x9bdc06a7, 0xc19bf174,
   0xe49b69c1, 0xefbe4786, 0x0fc19dc6, 0x240ca1cc, 0x2de92c6f, 0x4a7484aa, 0x5cb0a9dc, 0x76f988da,
   0x983e5152, 0xa831c66d, 0xb00327c8, 0xbf597fc7, 0xc6e00bf3, 0xd5a79147, 0x06ca6351, 0x14292967,
   0x27b70a85, 0x2e1b2138, 0x4d2c6dfc, 0x53380d13, 0x650a7354, 0x766a0abb, 0x81c2c92e, 0x92722c85,
   0xa2bfe8a1, 0xa81a664b, 0xc24b8b70, 0xc76c51a3, 0xd192e819, 0xd6990624, 0xf40e3585, 0x106aa070,
   0x19a4c116, 0x1e376c08, 0x2748774c, 0x34b0bcb5, 0x391c0cb3, 0x4ed8aa4a, 0x5b9cca4f, 0x682e6ff3,
   0x748f82ee, 0x78a5636f, 0x84c87814, 0x8cc70208, 0x90befffa, 0xa4506ceb, 0xbef9a3f7, 0xc67178f2]

/-- The eight working words. -/
structure Words where
  a : UInt32
  b : UInt32
  c : UInt32
  d : UInt32
  e : UInt32
  f : UInt32
  g : UInt32
  h : UInt32

/-- The initial hash value. -/
def initialWords : Words :=
  ⟨0x6a09e667, 0xbb67ae85, 0x3c6ef372, 0xa54ff53a, 0x510e527f, 0x9b05688c, 0x1f83d9ab, 0x5be0cd19⟩

/-- Rotate a word to the right. -/
def rotateRight (x : UInt32) (n : Nat) : UInt32 :=
  (x >>> UInt32.ofNat n) ||| (x <<< UInt32.ofNat (32 - n))

/-- One compression round. -/
def round (w : Words) (kw : UInt32) : Words :=
  let s1 := rotateRight w.e 6 ^^^ rotateRight w.e 11 ^^^ rotateRight w.e 25
  let ch := (w.e &&& w.f) ^^^ ((~~~ w.e) &&& w.g)
  let t1 := w.h + s1 + ch + kw
  let s0 := rotateRight w.a 2 ^^^ rotateRight w.a 13 ^^^ rotateRight w.a 22
  let maj := (w.a &&& w.b) ^^^ (w.a &&& w.c) ^^^ (w.b &&& w.c)
  ⟨t1 + (s0 + maj), w.a, w.b, w.c, w.d + t1, w.e, w.f, w.g⟩

/-- Big-endian bytes of a word. -/
def wordBytes (x : UInt32) : Bytes :=
  [(x >>> 24).toUInt8, (x >>> 16).toUInt8, (x >>> 8).toUInt8, x.toUInt8]

/-- Big-endian words of a byte list. -/
def toWords : Bytes → List UInt32
  | p :: q :: r :: s :: rest =>
    ((p.toUInt32 <<< 24) ||| (q.toUInt32 <<< 16) ||| (r.toUInt32 <<< 8) ||| s.toUInt32) ::
      toWords rest
  | _ => []

/-- Extend the last sixteen schedule words, newest first, by `n` further words. -/
def extend : Nat → List UInt32 → List UInt32
  | 0, w => w
  | n + 1, w =>
    let w2 := w.getD 1 0
    let w15 := w.getD 14 0
    let s0 := rotateRight w15 7 ^^^ rotateRight w15 18 ^^^ (w15 >>> 3)
    let s1 := rotateRight w2 17 ^^^ rotateRight w2 19 ^^^ (w2 >>> 10)
    extend n ((w.getD 15 0 + s0 + w.getD 6 0 + s1) :: w)

/-- Compress one block of sixteen words. -/
def compress (s : Words) (block : List UInt32) : Words :=
  let schedule := (extend 48 block.reverse).reverse
  let w := (List.zipWith (· + ·) roundConstants schedule).foldl round s
  ⟨s.a + w.a, s.b + w.b, s.c + w.c, s.d + w.d, s.e + w.e, s.f + w.f, s.g + w.g, s.h + w.h⟩

/-- Compress every block of sixteen words, at most `n` of them. -/
def blocks : Nat → Words → List UInt32 → Words
  | 0, s, _ => s
  | n + 1, s, w => if w.isEmpty then s else blocks n (compress s (w.take 16)) (w.drop 16)

/-- Padding to a multiple of 64 bytes, with the bit length in the last eight. -/
def pad (m : Bytes) : Bytes :=
  m ++ 0x80 :: List.replicate ((119 - m.length % 64) % 64) 0 ++
    (List.range 8).map (fun i ↦ UInt8.ofNat (8 * m.length / 256 ^ (7 - i)))

/-- Big-endian bytes of the working words. -/
def Words.toBytes (w : Words) : Bytes :=
  [w.a, w.b, w.c, w.d, w.e, w.f, w.g, w.h].flatMap wordBytes

end Sha256

/-- `hashlib.sha256(m).digest()`. -/
def sha256 (m : Bytes) : Bytes :=
  (Sha256.blocks (m.length / 64 + 2) Sha256.initialWords (Sha256.toWords (Sha256.pad m))).toBytes

/-- A SHA-256 digest has 32 bytes. -/
@[simp] theorem length_sha256 (m : Bytes) : (sha256 m).length = 32 := rfl

/-- The key block of HMAC: a long key is hashed, a short one padded with zeros. -/
def hmacKey (key : Bytes) : Bytes :=
  let k := if 64 < key.length then sha256 key else key
  k ++ List.replicate (64 - k.length) 0

/-- `hmac.new(key, m, sha256).digest()`. -/
def hmacSha256 (key m : Bytes) : Bytes :=
  let k := hmacKey key
  sha256 (k.map (· ^^^ 0x5c) ++ sha256 (k.map (· ^^^ 0x36) ++ m))

/-- An HMAC-SHA-256 tag has 32 bytes. -/
@[simp] theorem length_hmacSha256 (key m : Bytes) : (hmacSha256 key m).length = 32 :=
  length_sha256 _

end Atcap.Base
