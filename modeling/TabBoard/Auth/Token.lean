import TabBoard.Auth.Claims
import TabBoard.Crypto.Rsa
import TabBoard.Decimal.Binary64

/-!
# Checking access tokens

A token has three parts between full stops: a header, the claims, and a signature of the first two
as they stand. A validator holds one key and accepts the one algorithm that belongs to it.

The checks run in this order, and the first that fails names the fault: three parts; header; its
algorithm; signature; claims; `exp` there and not past; `nbf` a time and not in the future; no
audience; subject. Times may be off by half a minute. No audience is known here, so a token made for
one is refused.
-/

namespace TabBoard.Auth

open Text.Utf8 (Octets)

/-- The algorithms that a header may name. -/
inductive Algorithm where
  | hs256
  | hs384
  | hs512
  | es256
  | es384
  | rs256
  | rs384
  | rs512
  | ps256
  | ps384
  | ps512
  | edDsa
  deriving Repr, DecidableEq, Inhabited

def Algorithm.table : List (String × Algorithm) :=
  [("HS256", .hs256), ("HS384", .hs384), ("HS512", .hs512), ("ES256", .es256), ("ES384", .es384),
    ("RS256", .rs256), ("RS384", .rs384), ("RS512", .rs512), ("PS256", .ps256), ("PS384", .ps384),
    ("PS512", .ps512), ("EdDSA", .edDsa)]

inductive Key where
  | secret (octets : Octets)
  | rsa (key : Crypto.RsaKey)
  deriving Repr, DecidableEq, Inhabited

namespace Key

def algorithm : Key → Algorithm
  | .secret _ => .hs256
  | .rsa _ => .rs256

def algorithmName : Key → String
  | .secret _ => "HS256"
  | .rsa _ => "RS256"

/-- The signature is one of the message under the key. -/
def verifies (k : Key) (message signature : Octets) : Bool :=
  match k with
  | .secret octets => Crypto.hmac octets message = signature
  | .rsa key => key.verifies message signature

end Key

structure Validator where
  key : Key
  deriving Repr, DecidableEq, Inhabited

namespace Validator

def ofSecret (secret : String) : Validator := ⟨.secret (Text.Utf8.encode secret)⟩

/-- A validator for tokens signed by the owner of an RSA key. -/
def ofPublicKey (text : String) : Except Error Validator :=
  match Crypto.RsaKey.ofText? text with
  | some key => .ok ⟨.rsa key⟩
  | none => .error .invalidKey

end Validator

/-! ## The parts of a token -/

/-- A token at its last two full stops. -/
structure Parts where
  header : String
  payload : String
  signature : String
  deriving Repr, DecidableEq, Inhabited

namespace Parts

def ofToken? (token : String) : Option Parts :=
  match (Text.splitAll '.' token.toList).reverse with
  | signature :: payload :: h :: hs =>
    some {
      header := String.ofList (List.intercalate ['.'] (h :: hs).reverse)
      payload := String.ofList payload
      signature := String.ofList signature }
  | _ => none

def signed (p : Parts) : Octets := Text.Utf8.encode (p.header ++ "." ++ p.payload)

end Parts

/-! ## The header -/

def headerTexts : List String :=
  ["typ", "cty", "jku", "kid", "x5u", "x5t", "x5t#S256", "url", "nonce", "enc", "zip"]

def headerLists : List String := ["x5c", "crit"]

/-- The members that a key in the header has to have, by its kind. -/
def headerKeyMembers : List (String × List String) :=
  [("RSA", ["n", "e"]), ("EC", ["crv", "x", "y"]), ("oct", ["k"]), ("OKP", ["crv", "x"])]

def headerKey : Json.Decoder Unit := fun depth j => do
  let kind := (j.member? "kty").bind Json.text?
  match kind.bind fun k => headerKeyMembers.lookup k with
  | some names =>
    if names.all fun n => ((j.member? n).bind Json.text?).isSome then
      let _ ← Json.Decoder.value depth j
    else throw .mismatch
  | none => throw .mismatch

/-- A member of a header. Those that a header does not know have to be texts. -/
def headerMember (depth : Nat) (name : String) (j : Json) : Except Json.Fault Unit :=
  if headerTexts.contains name then (Json.Decoder.text.nullable depth j).map fun _ => ()
  else if headerLists.contains name then
    ((Json.Decoder.list .text).nullable depth j).map fun _ => ()
  else if name = "jwk" then (headerKey.nullable depth j).map fun _ => ()
  else (Json.Decoder.text depth j).map fun _ => ()

/-- The algorithm that a header names. No member of a header may appear twice, unknown ones
apart. -/
def headerDecoder : Json.Decoder Algorithm
  | depth + 1, .object members => do
    let known := "alg" :: "jwk" :: headerTexts ++ headerLists
    let _ ← Json.pick known [] members
    for (name, value) in members do
      match name with
      | some name => if name ≠ "alg" then headerMember depth name value
      | none => throw .malformed
    match members.lookup (some "alg") with
    | some value => Json.Decoder.oneOf Algorithm.table depth value
    | none => throw .mismatch
  | _, j => .error (Json.blame j)

/-! ## The claims that are checked -/

/-- A point in time that a claim names. -/
inductive TimeClaim where
  | absent
  | at (seconds : Nat)
  /-- There is something, but no time. -/
  | unusable
  deriving Repr, DecidableEq, Inhabited

/-- The fraction that a number is. Powers of ten beyond all doubles are cut off. -/
def ratioOf (n : Json.Number) : Decimal.Ratio :=
  let scale := max (-800) n.scale
  if scale < 0 then ⟨n.digits, Nat.pow 10 scale.natAbs⟩ else ⟨n.digits * Nat.pow 10 scale.toNat, 1⟩

/-- The number as a time: the nearest whole second, a half counted up. -/
def TimeClaim.ofNumber (n : Json.Number) : TimeClaim :=
  match n.int? with
  | some i => if 0 ≤ i ∧ i.toNat ≤ Decimal.max64 then .at i.toNat else .unusable
  | none =>
    if !n.isDouble || (n.negative && n.digits != 0) then .unusable
    else
      let x := Decimal.nearest (ratioOf n)
      let seconds := (2 * x.num + x.den) / (2 * x.den)
      if x.num < (Decimal.max64 + 1) * x.den then .at seconds else .unusable

/-- A claim that should be a time. Only numbers are; what holds further values breaks the reading of
the claims. -/
def TimeClaim.decoder : Json.Decoder TimeClaim
  | _, .number n => .ok (.ofNumber n)
  | _, .string none => .error .malformed
  | _, .broken => .error .malformed
  | _, .array (_ :: _) => .error .malformed
  | _, .object (_ :: _) => .error .malformed
  | _, _ => .ok .unusable

/-- A claim that names an audience: a text or a list of texts. -/
def namesAudience : Json → Bool
  | .string (some _) => true
  | .array items => items.all fun i => i.text?.isSome
  | _ => false

structure Checked where
  notBefore : TimeClaim
  audience : Bool
  deriving Repr, DecidableEq, Inhabited

/-- Reads what the checks look at, from an object. -/
def Checked.decoder : Json.Decoder Checked := fun depth j => do
  match j with
  | .object _ =>
    let r ← Json.record ["exp", "nbf", "sub", "iss", "aud"] depth j
    let notBefore ← r.getD "nbf" .absent TimeClaim.decoder
    let _ ← r.getD "iss" .null .value
    let audience ← r.getD "aud" .null .value
    return { notBefore, audience := namesAudience audience }
  | j => throw (Json.blame j)

/-! ## Validating -/

/-- By how many seconds clocks may differ. -/
def leeway : Nat := 30

def decodePart {α : Type} (d : Json.Decoder α) (part : String) : Except TokenFault α :=
  match Crypto.Base64.decodeWeb part with
  | none => .error .base64
  | some octets =>
    match (Json.Document.ofOctets octets).decode d with
    | .ok a => .ok a
    | .error _ => .error .json

/-- The times and the audience of a genuine token, checked at the time `now`. -/
def checkTimes (now : Nat) (claims : Claims) (checked : Checked) : Except Error Unit :=
  if claims.expires < 0 then .error (.undecodable (.missingClaim "exp"))
  else if claims.expires + leeway < now then .error .expired
  else
    match checked.notBefore with
    | .unusable => .error (.undecodable (.invalidFormat "nbf"))
    | .at seconds =>
      if now + leeway < seconds then .error (.undecodable .immature)
      else if checked.audience then .error (.undecodable .invalidAudience)
      else .ok ()
    | .absent => if checked.audience then .error (.undecodable .invalidAudience) else .ok ()

def Validator.genuine (v : Validator) (token : String) : Except TokenFault Parts := do
  match Parts.ofToken? token with
  | none => throw .invalidToken
  | some parts =>
    let algorithm ← decodePart headerDecoder parts.header
    if algorithm ≠ v.key.algorithm then throw .invalidAlgorithm
    match Crypto.Base64.decodeWeb parts.signature with
    | none => throw .base64
    | some signature =>
      if v.key.verifies parts.signed signature then return parts else throw .invalidSignature

/-- The claims of a token that is accepted at the time `now`, in seconds since 1970. -/
def Validator.validate (v : Validator) (now : Nat) (token : String) : Except Error Claims := do
  let parts ← (v.genuine token).mapError .undecodable
  let claims ← (decodePart Claims.decoder parts.payload).mapError .undecodable
  let checked ← (decodePart Checked.decoder parts.payload).mapError .undecodable
  checkTimes now claims checked
  claims.check

end TabBoard.Auth
