import SpringArm.Build
import SpringArm.Exchange.Export

/-!
# Service

Requests for expansions, networks and tables. The fields of a request come as values of any shape;
they are checked all together, and a request that fails is answered with everything that is wrong
with it. The answers to requests that were checked stand on their own: they do not know how a
request was checked, and where the draws of a seed come from is left to the caller. An answer is a
value; how it is written out, which not every number can be, comes later.
-/

namespace SpringArm.Service

/-- A value in a request. -/
inductive Value where
  | null
  | flag (value : Bool)
  | integer (value : Int)
  | real (value : Float)
  | text (value : List Char)
  /-- A list or an object. -/
  | compound

/-- The fields of a request. Other fields are not looked at. -/
structure Fields where
  grammar : Option Value
  initialisation : Option Value
  seed : Option Value

/-- What is wrong with a field, or with a request as a whole. -/
inductive Violation where
  | missing
  | notText
  | notInteger
  | unreadableInteger
  | oversizedInteger
  | fractional
  | notFinite
  | negative
  | notObject
deriving DecidableEq

/-- The name of a violation. -/
def Violation.name : Violation → String
  | .missing => "missing"
  | .notText => "string_type"
  | .notInteger => "int_type"
  | .unreadableInteger => "int_parsing"
  | .oversizedInteger => "int_parsing_size"
  | .fractional => "int_from_float"
  | .notFinite => "finite_number"
  | .negative => "greater_than_equal"
  | .notObject => "model_type"

/-- Everything that is wrong with a request: the names of fields with their violations. -/
structure Invalid where
  violations : List (String × Violation)
deriving DecidableEq

/-- The text of an invalid request: its violations in alphabetical order. -/
def Invalid.message (invalid : Invalid) : String :=
  let entries := invalid.violations.map fun (field, violation) => field ++ ":" ++ violation.name
  String.intercalate ";" (entries.mergeSort fun first second => !decide (second < first))

/-- The text of a field, which may have a default. -/
def checkText (field : Option Value) (default : Option (List Char)) :
    Except Violation (List Char) :=
  match field with
  | some (.text text) => .ok text
  | some _ => .error .notText
  | none =>
    match default with
    | some text => .ok text
    | none => .error .missing

/-- An integer spelt without a sign: digits, single underscores between them, and a point with
nothing but zeros behind it. -/
def readSpeltDigits? (text : List Char) : Option (List Char) :=
  let whole := text.takeWhile (· != '.')
  let fraction := (text.dropWhile (· != '.')).drop 1
  if whole.isEmpty || fraction.any (· != '0') then none
  else
    match Decimal.withoutSeparators? whole with
    | some digits => if digits.all Char.isDigit then some digits else none
    | none => none

/-- A text without the sign in front of it, and whether that sign is a minus. -/
def splitSpeltSign : List Char → Bool × List Char
  | '-' :: rest => (true, rest)
  | '+' :: rest => (false, rest)
  | rest => (false, rest)

/-- The integer that a text spells. A minus sign may not stand in front of a leading zero; elsewhere
leading zeros mean nothing and do not count towards the size. -/
def readSpeltInteger (text : List Char) : Except Violation Int :=
  let (negative, unsigned) := splitSpeltSign (Text.trimNumber text)
  match readSpeltDigits? unsigned with
  | none => .error .unreadableInteger
  | some digits =>
    if negative && digits.head? = some '0' && 1 < digits.length then .error .unreadableInteger
    else if Decimal.integerDigitLimit < (digits.dropWhile (· == '0')).length then
      .error .oversizedInteger
    else
      let number : Int := Decimal.natOfPlain digits
      .ok (if negative then -number else number)

/-- The integer that a number stands for. -/
def integerOfReal (value : Float) : Except Violation Int :=
  if value.isNaN || value.isInf then .error .notFinite
  else if value.floor != value then .error .fractional
  else if value.abs < 9223372036854775808.0 then .ok value.toInt64.toInt
  else .error .oversizedInteger

/-- The integer of a value. -/
def checkInteger : Value → Except Violation Int
  | .integer value => .ok value
  | .flag value => .ok (if value then 1 else 0)
  | .real value => integerOfReal value
  | .text text => readSpeltInteger text
  | .null => .error .notInteger
  | .compound => .error .notInteger

/-- The seed of a field: an integer that is not negative. -/
def checkSeed (field : Option Value) : Except Violation Nat :=
  match field with
  | none => .ok ({} : Limits).defaultSeed.toNat
  | some value => do
    let seed ← checkInteger value
    if seed < 0 then .error .negative else return seed.toNat

/-- The violation of a field that has one, under its name. -/
def violationOf {α : Type} (name : String) : Except Violation α → List (String × Violation)
  | .ok _ => []
  | .error violation => [(name, violation)]

/-- A request to grow a network. -/
structure GrowthRequest where
  description : List Char
  initialisation : List Char
  seed : Nat
deriving DecidableEq

/-- A request to expand a seed. -/
structure ExpansionRequest where
  description : List Char
  initialisation : List Char
deriving DecidableEq

/-- A request that has no fields at all. -/
def notObject : Invalid := ⟨[("", .notObject)]⟩

/-- The request to grow a network that fields make. -/
def growthRequest (fields : Option Fields) : Except Invalid GrowthRequest :=
  match fields with
  | none => .error notObject
  | some fields =>
    let grammar := checkText fields.grammar none
    let initialisation := checkText fields.initialisation (some [])
    let seed := checkSeed fields.seed
    match grammar, initialisation, seed with
    | .ok grammar, .ok initialisation, .ok seed => .ok ⟨grammar, initialisation, seed⟩
    | _, _, _ =>
      .error ⟨violationOf "grammar" grammar ++ violationOf "initialisation" initialisation
        ++ violationOf "seed" seed⟩

/-- The request to expand a seed that fields make. -/
def expansionRequest (fields : Option Fields) : Except Invalid ExpansionRequest :=
  match fields with
  | none => .error notObject
  | some fields =>
    let grammar := checkText fields.grammar (some [])
    let initialisation := checkText fields.initialisation none
    match grammar, initialisation with
    | .ok grammar, .ok initialisation => .ok ⟨grammar, initialisation⟩
    | _, _ =>
      .error ⟨violationOf "grammar" grammar ++ violationOf "initialisation" initialisation⟩

/-- Why a request is not answered. -/
inductive ServiceFault where
  | invalid (found : Invalid)
  | description (fault : Decimal.IntegerFault)
  | expansion (fault : Expansion.ExpansionFault)
  | build (fault : BuildFault)
  | graph (fault : GraphFault)
deriving DecidableEq

/-- The text of a service fault. -/
def ServiceFault.message : ServiceFault → String
  | .invalid found => found.message
  | .description fault => fault.message
  | .expansion fault => fault.message
  | .build fault => fault.message
  | .graph fault => fault.message

/-- What the health of the service is reported as. -/
structure Health where
  status : String
  service : String

/-- The health of the service. -/
def health : Health := ⟨"ok", "Reservoir Arm API"⟩

/-- A spring of an answer: its key and its connection. -/
structure SpringEntry where
  key : SortKey
  connection : Connection
deriving DecidableEq

/-- The answer to a request to grow a network. -/
structure GrowthAnswer where
  construction : List Char
  masses : List Mass
  springs : List SpringEntry
  descriptionProblems : List ProblemReport
  seedProblems : List ProblemReport
  constructionProblems : List ProblemReport

/-- A table with the type of its text. -/
structure TableAnswer where
  mediaType : String
  text : List Char

/-- Checks a request and answers it. -/
def respond {β ρ α : Type} (check : β → Except Invalid ρ) (endpoint : ρ → Except ServiceFault α)
    (body : β) : Except ServiceFault α := do
  let request ← (check body).mapError .invalid
  endpoint request

/-- The answer that describes a build. -/
def describe (build : Build) : Except ServiceFault GrowthAnswer := do
  let sorted ← build.blueprint.graph.sortedWithKeys.mapError .graph
  return {
    construction := build.construction
    masses := build.blueprint.graph.masses
    springs := sorted.map fun (key, spring) => ⟨key, spring.connection⟩
    descriptionProblems := build.descriptionProblems.map Problem.report
    seedProblems := build.seedProblems.map Problem.report
    constructionProblems := build.constructionProblems.map Problem.report }

/-- The type of the text of a table. -/
def tableType : String := "text/csv"

/-- Expands a seed with the rules of a description. -/
def expand (request : ExpansionRequest) : Except ServiceFault Expansion.Expanded := do
  let (blueprint, _) ←
    (Blueprint.read (some request.description)).value.mapError .description
  (Expansion.expand blueprint.rules {} (some request.initialisation)).value.mapError .expansion

section Growths

variable {γ : Type} [Draws γ] (seeded : Nat → γ)

/-- The build that a request asks for, with the draws of its seed. -/
def buildFor (request : GrowthRequest) : Except ServiceFault Build :=
  (buildNetwork {} (some request.description) (some request.initialisation)
    (seeded request.seed)).value.mapError .build

/-- Grows a network and describes it. -/
def develop (request : GrowthRequest) : Except ServiceFault GrowthAnswer := do
  describe (← buildFor seeded request)

/-- Grows a network and writes its masses table. -/
def exportMasses (request : GrowthRequest) : Except ServiceFault TableAnswer := do
  let build ← buildFor seeded request
  return ⟨tableType, Exchange.massesTable build.blueprint.graph⟩

/-- Grows a network and writes its connection table. -/
def exportConnections (request : GrowthRequest) : Except ServiceFault TableAnswer := do
  let build ← buildFor seeded request
  let table ← (Exchange.connectionsTable build.blueprint.graph).mapError .graph
  return ⟨tableType, table⟩

end Growths

end SpringArm.Service
