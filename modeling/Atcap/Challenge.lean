import Atcap.Effects

/-!
# Clock-injected challenge tokens

`src/atcap/challenge.py`: `v1.<expiry>.<random>.<HMAC-SHA256>` at an explicit time, checked
by the released verifier before it is returned.
-/

namespace Atcap

open Base

/-- The first three fields of a token, joined by dots. -/
def authenticatedPart (expiry : Int) (randomHex : Text) : Text :=
  text "v1." ++ decimal expiry ++ text "." ++ randomHex

/-- The token over a random field: its authenticated part and the HMAC of that part. -/
def challengeToken (secret : Bytes) (expiry : Int) (randomHex : Text) : Text :=
  authenticatedPart expiry randomHex ++ text "." ++
    hex (hmacSha256 secret (utf8 (authenticatedPart expiry randomHex)))

/-- A token over hexadecimal digits has a UTF-8 encoding. -/
theorem encodable_challengeToken (secret : Bytes) (expiry : Int) {randomHex : Text}
    (h : randomHex.encodable = true) :
    (challengeToken secret expiry randomHex).encodable = true := by
  simp [challengeToken, authenticatedPart, h]

/-- `issue_ca2a_challenge_at`: the token and its expiry. -/
def issueCa2aChallengeAt {L : Type} (secret : Bytes) (now ttlSeconds : Int) :
    Py L (Text × Int) := do
  Body.raiseIf (ttlSeconds ≤ 0) (.value "challenge TTL must be positive")
  Body.raiseIf (now < 0) (.value "challenge time must be non-negative")
  let expiry := now + ttlSeconds
  let randomHex ← Body.perform (.tokenHex 16)
  -- the f-string spells the expiry with `str`
  Body.raiseIf (str? expiry = none)
    (.value "Exceeds the limit (4300 digits) for integer string conversion")
  let token := challengeToken secret expiry randomHex
  callLib (.verifyChallenge secret token now)
  return (token, expiry)

end Atcap
