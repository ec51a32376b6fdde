import SpringArm.Decimal.Reading
import SpringArm.Limits

/-!
# Arguments

The arguments of the command line: a description file, a seed or the name of a file with one, and
options. Long options may be shortened as far as they stay unique and may carry their value behind
an equals sign. Behind two dashes everything is positional, and so is whatever looks like a
negative number, holds a space or is a single dash.
-/

namespace SpringArm.CommandLine

/-- The options. -/
inductive Flag where
  | help
  | seed
  | out
  | plot
  | verbose
deriving DecidableEq

namespace Flag

/-- All options. -/
def all : List Flag := [help, seed, out, plot, verbose]

/-- The long spelling of an option. -/
def spelling : Flag → String
  | help => "--help"
  | seed => "--seed"
  | out => "--out"
  | plot => "--plot"
  | verbose => "--verbose"

/-- An option goes with a value. -/
def takesValue : Flag → Bool
  | help => false
  | seed => true
  | out => true
  | plot => false
  | verbose => false

/-- The options whose long spelling starts with a text. -/
def startingWith (text : List Char) : List Flag :=
  all.filter fun flag => text.isPrefixOf flag.spelling.toList

end Flag

/-- What an argument is by its looks. -/
inductive Shape where
  | positional (text : List Char)
  /-- An option, with the value behind its equals sign if there is one. -/
  | option (flag : Flag) (value : Option (List Char))
  /-- Two dashes. -/
  | separator
  /-- An option that does not exist. -/
  | unknown
deriving DecidableEq

/-- The arguments make no sense. -/
inductive UsageFault where
  | ambiguousOption
  | missingValue
  | unwantedValue
  | badSeed
  | unknownArgument
  | missingArgument
deriving DecidableEq

/-- A text looks like a negative number: digits behind a dash, with at most one point before the
last of them. -/
def looksNegative : List Char → Bool
  | '-' :: unsigned =>
    let isDigit (character : Char) : Bool := (Text.digitValue? character).isSome
    match unsigned.dropWhile isDigit with
    | [] => !unsigned.isEmpty
    | '.' :: fraction => !fraction.isEmpty && fraction.all isDigit
    | _ => false
  | _ => false

/-- A text before and behind its first equals sign, if it has one. -/
def splitEquals (text : List Char) : List Char × Option (List Char) :=
  match text.dropWhile (· != '=') with
  | _ :: value => (text.takeWhile (· != '='), some value)
  | [] => (text, none)

/-- The shape of an argument with two dashes in front. Its spelling may be shortened. -/
def longShape (text : List Char) : Except UsageFault Shape :=
  let (spelling, value) := splitEquals text
  match Flag.all.find? fun flag => flag.spelling.toList = spelling with
  | some flag => .ok (.option flag value)
  | none =>
    match Flag.startingWith spelling with
    | [] => .ok (if text.contains ' ' then .positional text else .unknown)
    | [flag] => .ok (.option flag value)
    | _ => .error .ambiguousOption

/-- The shape of an argument with one dash in front. The only short option is the one for help,
whose letter may be repeated. Help needs no more than its letter, so other letters behind it mean
nothing; an equals sign gives a value, and so does a further dash. -/
def shortShape (text : List Char) : Shape :=
  match text with
  | '-' :: 'h' :: more =>
    match more.dropWhile (· == 'h') with
    | '=' :: value => .option .help (some value)
    | '-' :: value => .option .help (some value)
    | _ => .option .help none
  | _ => if looksNegative text || text.contains ' ' then .positional text else .unknown

/-- The shape of an argument. -/
def shapeOf (text : List Char) : Except UsageFault Shape :=
  match text with
  | ['-', '-'] => .ok .separator
  | '-' :: '-' :: _ => longShape text
  | '-' :: _ :: _ => .ok (shortShape text)
  | _ => .ok (.positional text)

/-- The shapes of arguments. Behind two dashes everything is positional. -/
def shapesOf : List (List Char) → Except UsageFault (List Shape)
  | [] => .ok []
  | text :: rest => do
    let shape ← shapeOf text
    if shape = .separator then
      return .separator :: rest.map .positional
    else
      return shape :: (← shapesOf rest)

/-- What was asked for so far. -/
structure Collected where
  positionals : List (List Char) := []
  seed : Int := ({} : Limits).defaultSeed
  out : List Char := "artifacts".toList
  plot : Bool := false
  verbose : Bool := false
  /-- Some argument has no meaning. -/
  strays : Bool := false
  /-- The last argument was a positional one. -/
  afterPositional : Bool := false
deriving DecidableEq

/-- Takes a positional argument. -/
def Collected.put (collected : Collected) (text : List Char) : Collected :=
  { collected with positionals := collected.positionals ++ [text], afterPositional := true }

/-- Takes an option with its value. -/
def Collected.take (before : Collected) (flag : Flag) (value : List Char) :
    Except UsageFault Collected :=
  let collected := { before with afterPositional := false }
  match flag with
  | .help => .ok collected
  | .seed =>
    match Decimal.readInteger? value with
    | some seed => .ok { collected with seed }
    | none => .error .badSeed
  | .out => .ok { collected with out := value }
  | .plot => .ok { collected with plot := true }
  | .verbose => .ok { collected with verbose := true }

/-- What the arguments ask for. -/
inductive Request where
  /-- To be told about the program. -/
  | help
  /-- To build a network. -/
  | build (description seed : List Char) (collected : Collected)
deriving DecidableEq

/-- Goes through the shapes of the arguments. At the end there must be two positional ones and no
argument without a meaning; two dashes at the very end have one only behind a positional argument.
Help is given as soon as it is asked for. -/
def interpret (collected : Collected) : List Shape → Except UsageFault Request
  | [] =>
    match collected.positionals with
    | [description, seed] =>
      if collected.strays then .error .unknownArgument
      else .ok (.build description seed collected)
    | _ :: _ :: _ => .error .unknownArgument
    | _ => .error .missingArgument
  | .positional text :: rest => interpret (collected.put text) rest
  | .separator :: rest =>
    let stray := rest.isEmpty && !collected.afterPositional
    interpret { collected with strays := collected.strays || stray } rest
  | .unknown :: rest => interpret { collected with strays := true } rest
  | .option .help none :: _ => .ok .help
  | .option flag (some value) :: rest =>
    if flag.takesValue then do
      interpret (← collected.take flag value) rest
    else
      .error .unwantedValue
  | .option flag none :: rest =>
    if flag.takesValue then
      match rest with
      | .positional value :: behind => do
        interpret (← collected.take flag value) behind
      | _ => .error .missingValue
    else do
      interpret (← collected.take flag []) rest

/-- What arguments ask for. -/
def Request.ofArguments (arguments : List (List Char)) : Except UsageFault Request := do
  interpret {} (← shapesOf arguments)

end SpringArm.CommandLine
