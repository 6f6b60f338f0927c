/-!
# Refusals of an access token

Each has a code for programs and a message. `InvalidClaim` and `Expired` are about what a genuine
token says; the others are about the token or the key. For a part that is not JSON or not base64url
the message ends before the cause, which the program adds in the words of a library.
-/

namespace TabBoard.Auth

/-- What is wrong with a token that cannot be decoded. -/
inductive TokenFault where
  | invalidToken
  | invalidSignature
  | invalidAlgorithm
  | invalidAudience
  | immature
  | missingClaim (name : String)
  | invalidFormat (name : String)
  /-- A part is not JSON of the expected form. -/
  | json
  /-- A part is not base64url. -/
  | base64
  deriving Repr, DecidableEq, Inhabited

def TokenFault.message : TokenFault → String
  | .invalidToken => "InvalidToken"
  | .invalidSignature => "InvalidSignature"
  | .invalidAlgorithm => "InvalidAlgorithm"
  | .invalidAudience => "InvalidAudience"
  | .immature => "ImmatureSignature"
  | .missingClaim name => s!"Missing required claim: {name}"
  | .invalidFormat name => s!"Invalid format for claim: {name}"
  | .json => "JSON error"
  | .base64 => "Base64 error"

/-- Why a token, or a key to check tokens with, was refused. -/
inductive Error where
  /-- The key is no RSA public key. -/
  | invalidKey
  | expired
  | missingToken
  | undecodable (fault : TokenFault)
  | emptySubject
  | longSubject
  deriving Repr, DecidableEq, Inhabited

namespace Error

def code : Error → String
  | .invalidKey => "INVALID_TOKEN"
  | .expired => "TOKEN_EXPIRED"
  | .missingToken => "MISSING_TOKEN"
  | .undecodable _ => "JWT_DECODE_FAILED"
  | .emptySubject => "INVALID_CLAIM"
  | .longSubject => "INVALID_CLAIM"

def message : Error → String
  | .invalidKey => "Invalid token: Invalid RSA public key: InvalidKeyFormat"
  | .expired => "Token expired"
  | .missingToken => "No access token in forwarded headers"
  | .undecodable fault => s!"JWT decode failed: {fault.message}"
  | .emptySubject => "Invalid claim 'sub': sub cannot be empty"
  | .longSubject => "Invalid claim 'sub': sub exceeds maximum length"

end Error

end TabBoard.Auth
