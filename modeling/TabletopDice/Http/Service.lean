import TabletopDice.CommandLine.Report
import TabletopDice.Json.Encoding
import TabletopDice.Json.Parser
import TabletopDice.Preset.Store
import TabletopDice.Roller.Grammar
import TabletopDice.Roller.Roll

/-!
The HTTP service. It rolls specifications and presets, explains secret rolls, and
tells the grammar and the presets. Every request has a roller of its own; the
random source goes from one request to the next.
-/

namespace TabletopDice.Http

structure Request where
  method : Text
  path : Text
  body : Text

structure Service where
  files : Files := []
  presetFile : Text := "presets.dice".toList
  /-- The most characters that a specification may have. -/
  maxLength : Int := 1024

inductive BodyFault
  | invalidJson
  | missing
  | notAnObject
  | notText
  | brokenText
  | tooShort
  | tooLong
  deriving DecidableEq, Repr

def BodyFault.name : BodyFault → String
  | invalidJson => "json_invalid"
  | missing => "missing"
  | notAnObject => "model_attributes_type"
  | notText => "string_type"
  | brokenText => "string_unicode"
  | tooShort => "string_too_short"
  | tooLong => "value_error"

structure BodyProblem where
  /-- The way to the place at fault. -/
  location : List Text
  fault : BodyFault
  /-- The value at fault, which clients are told; for a missing field the whole body. -/
  value : Json

inductive Response
  | answer (status : Nat) (body : Json)
  | refusal (problems : List BodyProblem)
  /-- The path with slashes too many at its end; `path` is the one to ask for. -/
  | redirect (path : Text)

inductive Route
  | roll
  | rollOnce
  | rollSecret
  | grammar
  | presets
  | presetRoll (name : Text)
  | page
  deriving DecidableEq, Repr

namespace Route

def pages : List (List Text) :=
  [["docs".toList], ["docs".toList, "oauth2-redirect".toList], ["redoc".toList],
    ["openapi.json".toList]]

def ofSteps? (steps : List Text) : Option Route :=
  if pages.contains steps then some page
  else match steps with
    | [first] =>
        if first = "roll".toList then some roll
        else if first = "syntax".toList then some grammar
        else if first = "presets".toList then some presets
        else none
    | [first, second] =>
        if first ≠ "roll".toList then none
        else if second = "once".toList then some rollOnce
        else if second = "secret".toList then some rollSecret
        else none
    | [first, name, last] =>
        if first = "presets".toList ∧ last = "roll".toList ∧ name ≠ [] then some (presetRoll name)
        else none
    | _ => none

/-- The route of a path. One line feed at its end is passed over. -/
def ofPath? (path : Text) : Option Route :=
  match if path.getLast? = some '\n' then path.dropLast else path with
  | '/' :: rest => ofSteps? (Text.splitOn '/' rest)
  | _ => none

/-- The path without the slashes at its end, if it has any there and names a route without
them. -/
def redirection? (path : Text) : Option Text :=
  let shorter := Text.dropTrailing (· == '/') path
  if path.getLast? = some '/' ∧ (ofPath? shorter).isSome then some shorter else none

def methods : Route → List Text
  | grammar | presets => ["GET".toList]
  | page => ["GET".toList, "HEAD".toList]
  | _ => ["POST".toList]

end Route

def detail (status : Nat) (message : Text) : Response :=
  .answer status (.object [("detail".toList, .string message)])

def failed (kind : String) (message : Text) : Response :=
  .answer 400 (.object
    [("detail".toList, .string message), ("error".toList, .string kind.toList)])

def internalError : Response := detail 500 "Internal server error".toList

/-- The answer to a body with problems. As it tells the values at fault, all of these have to be
values that can be sent. -/
def Response.ofProblems (problems : List BodyProblem) : Response :=
  if problems.all fun problem => problem.value.isSendable then .refusal problems
  else internalError

def bodyStep : Text := "body".toList

def problemAt (name : Text) (fault : BodyFault) (value : Json) : BodyProblem :=
  { location := [bodyStep, name], fault, value }

/-- The specification: text, not empty, and within the length. -/
def readSpecification (service : Service) (members : List (Text × Json)) :
    Except BodyProblem Text :=
  let name := "spec".toList
  match Json.member? name members with
  | none => .error (problemAt name .missing (.object members))
  | some (.string []) => .error (problemAt name .tooShort (.string []))
  | some (.string value) =>
      if service.maxLength < value.length then .error (problemAt name .tooLong (.string value))
      else .ok value
  | some .brokenString => .error (problemAt name .brokenText .brokenString)
  | some value => .error (problemAt name .notText value)

/-- The notice, or the usual one where it is missing. A broken string is accepted as a notice,
but it is no text. -/
def readNotice (members : List (Text × Json)) : Except BodyProblem (Option Text) :=
  let name := "notice".toList
  match Json.member? name members with
  | none => .ok (some "secret roll".toList)
  | some (.string value) => .ok (some value)
  | some .brokenString => .ok none
  | some value => .error (problemAt name .notText value)

def bounds : Json.Bounds := { depth := 960, longDecimals := true }

def unreadableBody : Response := detail 400 "There was an error parsing the body".toList

/-- The members of a body, or the answer to a body that has none. -/
def readBody (body : Text) : Except Response (List (Text × Json)) :=
  if body.isEmpty then
    .error (.ofProblems [{ location := [bodyStep], fault := .missing, value := .null }])
  else match (Json.decode? body).map (Json.parse bounds) with
    | none | some (.error .beyondBounds) => .error unreadableBody
    | some (.error .malformed) =>
        .error (.ofProblems [{ location := [], fault := .invalidJson, value := .object [] }])
    | some (.ok (.object members)) => .ok members
    | some (.ok value) =>
        .error (.ofProblems [{ location := [bodyStep], fault := .notAnObject, value }])

/-- Carries out a call in a session of its own and answers with its result. -/
def perform {Value : Type} (call : SessionM Value) (answer : Value → Response)
    (source : Source) : Response × Source :=
  let (result, session) := call.run.run { source }
  let response := match result with
    | .ok value => answer value
    | .error (.dice error) => failed error.kind.name error.message.toList
    | .error (.number _) => internalError
  (response, session.source)

def titledResults (set : ResultSet) : Response :=
  .answer 200 (.object [
    ("title".toList, .string set.1),
    ("results".toList, .array (set.2.map RollResult.toJson))])

def titledResult (set : Text × RollResult) : Response :=
  .answer 200 (.object [("title".toList, .string set.1), ("result".toList, set.2.toJson)])

/-- Explains a secret roll. The explanation tells the notice, so it cannot be sent where the
notice is no text; a specification that is refused is told all the same. -/
def explain (text : Text) (notice : Option Text) (source : Source) : Response × Source :=
  match notice with
  | some notice => perform (SessionM.explainSecret text notice) titledResult source
  | none => perform (SessionM.explainSecret text []) (fun _ => internalError) source

def withSpecification (service : Service) (body : Text) (source : Source)
    (answer : Text → Response × Source) : Response × Source :=
  match readBody body with
  | .error response => (response, source)
  | .ok members =>
      match readSpecification service members with
      | .error problem => (.ofProblems [problem], source)
      | .ok text => answer text

def withNotice (service : Service) (body : Text) (source : Source)
    (answer : Text → Option Text → Response × Source) : Response × Source :=
  match readBody body with
  | .error response => (response, source)
  | .ok members =>
      match readSpecification service members, readNotice members with
      | .ok text, .ok notice => answer text notice
      | .error problem, .ok _ => (.ofProblems [problem], source)
      | .ok _, .error problem => (.ofProblems [problem], source)
      | .error first, .error second => (.ofProblems [first, second], source)

def loadPresets (service : Service) : Except Response PresetFile :=
  match PresetFile.load service.files (Files.plainPath service.presetFile) with
  | .ok file => .ok file
  | .error (.file .missing) => .error (detail 404 "Preset file not found".toList)
  | .error (.file _) => .error internalError
  | .error (.content (.format error)) => .error (failed error.kindName error.fullMessage)
  | .error (.content .unreadableNumber) => .error internalError

def presetToJson (preset : Preset) : Json :=
  .object [
    ("name".toList, .string preset.name),
    ("description".toList, .string preset.description),
    ("spec".toList, .string preset.specification)]

def presetsToJson (file : PresetFile) : Json :=
  .object [
    ("presets".toList, .array (file.presets.map presetToJson)),
    ("comment".toList, .string file.metadata.comment)]

/-- Answers a request whose method is one of its route. A page holds no data. -/
def respond (service : Service) (route : Route) (body : Text) (source : Source) :
    Response × Source :=
  match route with
  | .roll => withSpecification service body source fun text =>
      perform (SessionM.roll text) titledResults source
  | .rollOnce => withSpecification service body source fun text =>
      perform (SessionM.rollOnce text) titledResult source
  | .rollSecret => withNotice service body source fun text notice =>
      explain text notice source
  | .page => (.answer 200 .null, source)
  | .grammar => (.answer 200 (.object [("syntax".toList, .string grammarText)]), source)
  | .presets =>
      match loadPresets service with
      | .error response => (response, source)
      | .ok file => (.answer 200 (presetsToJson file), source)
  | .presetRoll name =>
      match loadPresets service with
      | .error response => (response, source)
      | .ok file =>
          match file.find? name with
          | none => (detail 404 ("No preset named ".toList ++ Text.quote name), source)
          | some preset => perform (SessionM.roll preset.specification) titledResults source

/-- Answers a request and gives the random source for the next one. -/
def handle (service : Service) (request : Request) (source : Source) : Response × Source :=
  match Route.ofPath? request.path with
  | none =>
      match Route.redirection? request.path with
      | some path => (.redirect path, source)
      | none => (detail 404 "Not Found".toList, source)
  | some route =>
      if route.methods.contains request.method then respond service route request.body source
      else (detail 405 "Method Not Allowed".toList, source)

end TabletopDice.Http
