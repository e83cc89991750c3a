import ForkAgent.Python.Json
import ForkAgent.Text.Patterns
import Mathlib.Data.List.Infix

/-!
# Privacy redaction

Private blocks and common secrets are redacted from a text, one pattern after the other, and the values
of sensitive keys from metadata.
-/

namespace ForkAgent.Redaction

open Text

section Characters

/-- The lower case that patterns compare letters in when they ignore case: four letters beyond ASCII are
taken for one of ASCII. -/
def fold (c : Char) : Char :=
  if c.toNat = 0x130 ∨ c.toNat = 0x131 then 'i'
  else if c.toNat = 0x17f then 's'
  else if c.toNat = 0x212a then 'k'
  else c.toLower

theorem fold_eq_less {c : Char} : fold c = '<' ↔ c = '<' := by
  constructor
  · intro h
    unfold fold at h
    split_ifs at h
    · exact absurd h (by decide)
    · exact absurd h (by decide)
    · exact absurd h (by decide)
    · unfold Char.toLower at h
      split_ifs at h with hupper
      · have hlow : 65 ≤ c.val.toNat := UInt32.le_iff_toNat_le.mp hupper.1
        have hhigh : c.val.toNat ≤ 90 := UInt32.le_iff_toNat_le.mp hupper.2
        have hval : (c.val.toNat + 32) % 2 ^ 32 = 60 := congrArg (fun d : Char => d.val.toNat) h
        omega
      · exact h
  · rintro rfl
    decide

def sameFolded (c d : Char) : Bool := fold c == fold d

def sameExactly (c d : Char) : Bool := c == d

/-- A quotation mark or an apostrophe. -/
def isQuote (c : Char) : Bool := c.toNat == 0x22 || c.toNat == 0x27

/-- `[A-Za-z0-9_\-]`, whatever the case. -/
def isKeyChar (c : Char) : Bool := (fold c).isLower || c.isDigit || c == '_' || c == '-'

/-- `[A-Za-z0-9_\-\.]`, whatever the case. -/
def isTokenChar (c : Char) : Bool := isKeyChar c || c == '.'

/-- What a password is made of: neither white space nor quotation marks. -/
def isPasswordChar (c : Char) : Bool := !isSpace c && !isQuote c

end Characters

section Patterns

/-- A word in any case. -/
def anyCase (w : String) : Pattern := .word sameFolded w.toList

def exact (w : String) : Pattern := .word sameExactly w.toList

def optionalQuote : Pattern := .opt (.one isQuote)

/-- A colon or an equals sign between white space, and a quotation mark. -/
def assignment : Pattern :=
  .seq (.many isSpace 0) (.seq (.one fun c => c == ':' || c == '=') (.seq (.many isSpace 0) optionalQuote))

/-- A secret that is assigned to a name, and may be quoted. -/
def assigned (name : Pattern) (p : Char → Bool) (least : Nat) (h : 0 < least) : Rule where
  before := .seq name assignment
  secret := .many p least
  after := optionalQuote
  replacement := "[REDACTED]".toList
  consumes := by
    simp only [Pattern.least]
    omega

def privateTag : Delimiters where
  same := sameFolded
  first := '<'
  opening := "private>".toList
  closing := "/private>".toList
  only _ h := fold_eq_less.mp (beq_iff_eq.mp h).symm

def privateTagRe : Rule := privateTag.hideBlocks "[REDACTED]".toList

def apiKey : Rule :=
  assigned (.seq (anyCase "api") (.seq (.opt (.one fun c => c == '_' || c == '-')) (anyCase "key")))
    isKeyChar 20 (by decide)

def bearer : Rule where
  before := .seq (anyCase "Bearer") (.many isSpace 1)
  secret := .many isTokenChar 20
  after := .empty
  replacement := "[REDACTED]".toList
  consumes := by decide

def token : Rule := assigned (anyCase "token") isTokenChar 20 (by decide)

def secret : Rule := assigned (anyCase "secret") isTokenChar 20 (by decide)

def password : Rule := assigned (anyCase "password") isPasswordChar 8 (by decide)

def awsKey : Rule where
  before := .empty
  secret := .seq (exact "AKIA") (.exactly (fun c => c.isUpper || c.isDigit) 16)
  after := .empty
  replacement := "[REDACTED_AWS_KEY]".toList
  consumes := by decide

/-- The kinds of private keys that have a name of their own. -/
def keyKind : Pattern := .opt (.alt (exact "RSA ") (.alt (exact "EC ") (exact "DSA ")))

def privateKey : Rule where
  before := .empty
  secret := .seq (exact "-----BEGIN ") (.seq keyKind (.seq (exact "PRIVATE KEY-----")
    (.seq (.few (fun _ => true) 0) (.seq (exact "-----END ") (.seq keyKind (exact "PRIVATE KEY-----"))))))
  after := .empty
  replacement := "[REDACTED_PRIVATE_KEY]".toList
  consumes := by decide

def secretPatterns : List Rule := [apiKey, bearer, token, secret, password, awsKey, privateKey]

end Patterns

section Service

/-- One substitution; the text and whether anything was redacted so far. -/
def substitute (state : List Char × Bool) (rule : Rule) : List Char × Bool :=
  let (newContent, count) := rule.subn state.1
  if 0 < count then (newContent, true) else state

def redactContent (content : String) : String × Bool :=
  let redacted := secretPatterns.foldl substitute (substitute (content.toList, false) privateTagRe)
  (String.ofList redacted.1, redacted.2)

def sensitiveKeys : List String :=
  ["password", "secret", "token", "api_key", "apikey", "auth", "credential", "private_key", "access_token",
    "refresh_token", "session_token", "Authorization"]

/-- `any(s in key_lower for s in _SENSITIVE_KEYS)`. -/
def isSensitive (lower : String → String) (key : String) : Bool :=
  sensitiveKeys.any fun s => s.toList <:+: (lower key).toList

mutual

def redactValue (lower : String → String) : Json → Json × Bool
  | .str value =>
    let redacted := redactContent value
    (.str redacted.1, redacted.2)
  | .obj fields =>
    let redacted := redactMetadata lower fields
    (.obj redacted.1, redacted.2)
  | value => (value, false)

/-- `redact_metadata`, for a given `str.lower`. -/
def redactMetadata (lower : String → String) : List (String × Json) → List (String × Json) × Bool
  | [] => ([], false)
  | (key, value) :: fields =>
    let rest := redactMetadata lower fields
    if isSensitive lower key then ((key, .str "[REDACTED]") :: rest.1, true)
    else
      let redacted := redactValue lower value
      ((key, redacted.1) :: rest.1, redacted.2 || rest.2)

end

def redactObservationData (lower : String → String) (content : String) (metadata : Option JsonObject) :
    String × Option JsonObject × Bool :=
  let redacted := redactContent content
  match metadata with
  | some (field :: fields) =>
    let redactedMetadata := redactMetadata lower (field :: fields)
    (redacted.1, some redactedMetadata.1, redacted.2 || redactedMetadata.2)
  | _ => (redacted.1, metadata, redacted.2)

end Service

end ForkAgent.Redaction
