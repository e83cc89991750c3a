import ForkAgent.Python.JsonText

/-!
# Output caps

The observations of a response are kept in order until a budget of characters is spent. One that does not
fit in what is left is kept with a part of its content, and the response ends there; it is passed over
where it does not fit even without its content.
-/

namespace ForkAgent.Output

section Caps

def charsPerToken : Nat := 4

def defaultMaxTokens : Int := 8000

def truncationMarker : List Char := "\n[... truncated, use memory_get with id for full content]".toList

def estimateTokens (text : List Char) : Nat := text.length / charsPerToken

/-- A serialised observation, whose content is a string. -/
structure ObservationDict where
  fields : JsonObject
  text : ∃ s, fields.lookup "content" = some (.str s)

/-- `len(json.dumps(obs))`. -/
def size (fields : JsonObject) : Nat := (Json.dumps (.obj fields)).length

namespace ObservationDict

variable (obs : ObservationDict)

def content : List Char :=
  match obs.fields.getD "content" (.str "") with
  | .str s => s.toList
  | _ => []

/-- A copy that says that it is truncated, and of how many tokens the whole is. -/
def annotated : JsonObject :=
  ((obs.fields.setdefault "content" (.str "")).set "_truncated" (.bool true)).set "_full_content_tokens"
    (.int (size obs.fields / charsPerToken : Nat))

def capped (content : List Char) : JsonObject := obs.annotated.set "content" (.str (String.ofList content))

/-- The size without any content. -/
def overhead : Nat := size (obs.capped [])

/-- As much of the content as may fit, before the escapes are counted. -/
def firstTry (safeContentChars : Nat) : List Char :=
  if obs.content.length + truncationMarker.length ≤ safeContentChars then obs.content ++ truncationMarker
  else if truncationMarker.length ≤ safeContentChars then
    obs.content.take (safeContentChars - truncationMarker.length) ++ truncationMarker
  else obs.content.take safeContentChars

/-- What is left of a content that is too long when its escapes are counted. -/
def shrunk (safeContentChars remainingChars : Nat) (current : List Char) : List Char :=
  let excess := size (obs.capped current) - remainingChars
  let shorter := current.take (current.length - max (excess + 4) (current.length / 4))
  let hard := obs.content.take (safeContentChars - truncationMarker.length)
  if size (obs.capped current) ≤ remainingChars then current
  else if size (obs.capped shorter) ≤ remainingChars then shorter
  else if size (obs.capped hard) ≤ remainingChars then hard
  else []

/-- The content that is kept in what is left of the budget; two characters of it are not used. -/
def cut (remainingChars : Nat) : List Char :=
  let safeContentChars := remainingChars - obs.overhead - 2
  if safeContentChars = 0 then []
  else obs.shrunk safeContentChars remainingChars (obs.firstTry safeContentChars)

end ObservationDict

/-- The loop of `cap_response`. -/
def capFrom : List ObservationDict → Nat → List JsonObject
  | [], _ => []
  | obs :: observations, remainingChars =>
    if remainingChars = 0 then []
    else if size obs.fields ≤ remainingChars then
      obs.fields.setdefault "content" (.str "") :: capFrom observations (remainingChars - size obs.fields)
    else if remainingChars ≤ obs.overhead then capFrom observations remainingChars
    else
      let capped := obs.capped (obs.cut remainingChars)
      if size capped ≤ remainingChars then [capped] else []

def capResponse (observations : List ObservationDict) (maxTokens : Int) : List JsonObject :=
  if maxTokens ≤ 0 ∨ observations.isEmpty then [] else capFrom observations (maxTokens.toNat * charsPerToken)

def dumpsList (observations : List JsonObject) : List Char := Json.dumps (.arr (observations.map .obj))

/-- `_cap_json_response`, of a list. -/
def capJsonResponse (data : List ObservationDict) (maxTokens : Option Int) : List Char :=
  let rawJson := dumpsList (data.map (·.fields))
  let effectiveMax := maxTokens.getD defaultMaxTokens
  if effectiveMax < estimateTokens rawJson then dumpsList (capResponse data effectiveMax) else rawJson

/-- `_cap_json_response`, of a dict: it stays one. -/
def capJsonObject (data : ObservationDict) (maxTokens : Option Int) : List Char :=
  let rawJson := Json.dumps (.obj data.fields)
  let effectiveMax := maxTokens.getD defaultMaxTokens
  if effectiveMax < estimateTokens rawJson then
    Json.dumps (.obj ((capResponse [data] effectiveMax).head?.getD []))
  else rawJson

end Caps

end ForkAgent.Output
