import SpringArm.Decimal.Layout

/-!
# Notice

The remarks that reading, expansion and growth leave for a log. A notice is a cause with its
numbers; its channel, its level and its wording follow from the cause. A computation that leaves
notices returns them beside its value.
-/

namespace SpringArm

/-- How much a notice matters. -/
inductive Level where
  | debug
  | info
  | warning
  | error
  | critical
deriving DecidableEq

namespace Level

/-- The rank of a level. Higher ranks matter more. -/
def rank : Level → Nat
  | debug => 10
  | info => 20
  | warning => 30
  | error => 40
  | critical => 50

/-- The name of a level. -/
def name : Level → String
  | debug => "DEBUG"
  | info => "INFO"
  | warning => "WARNING"
  | error => "ERROR"
  | critical => "CRITICAL"

end Level

/-- The remarks that are made while a network is built. -/
inductive Notice where
  /-- A log has been set up. -/
  | logReady
  /-- An options line names no known switch. -/
  | unknownSwitch (word : List Char)
  /-- The upper arm segment needs exactly two inputs. -/
  | noUpperSegment (inputs : Nat)
  /-- The lower arm segment needs exactly two inputs. -/
  | noLowerSegment (inputs : Nat)
  /-- A description has been read. -/
  | descriptionRead (masses springs rules problems : Nat)
  /-- An expansion has become longer than its limit. -/
  | expansionStopped (limit : Int)
  /-- There is no input to grow from. -/
  | nothingToDevelop
  /-- Random masses need a shoulder and a hand. -/
  | randomMassesSkipped (count : Int)
  /-- Random masses have been added. -/
  | randomMassesAdded (count : Int)
  /-- The attempts were used up before all random springs were added. -/
  | randomSpringsMissing (added : Nat) (wanted : Int) (attempts : Nat)
  /-- Network masses without springs have been dropped. -/
  | unconnectedRemoved (count : Nat)
  /-- A network has been grown. -/
  | networkDeveloped (masses springs problems : Nat)
  /-- All stages have been run. -/
  | networkBuilt (masses springs description seed construction : Nat)
deriving DecidableEq

namespace Notice

/-- The channel of all notices, of which every other channel is a part. -/
def rootChannel : String := "reservoir_arm"

/-- The channel of a notice. -/
def channel : Notice → String
  | logReady => rootChannel
  | unknownSwitch _ => rootChannel ++ ".grammar.parser"
  | noUpperSegment _ => rootChannel ++ ".grammar.parser"
  | noLowerSegment _ => rootChannel ++ ".grammar.parser"
  | descriptionRead .. => rootChannel ++ ".grammar.parser"
  | expansionStopped _ => rootChannel ++ ".grammar.expander"
  | nothingToDevelop => rootChannel ++ ".grammar.developer"
  | randomMassesSkipped _ => rootChannel ++ ".grammar.developer"
  | randomMassesAdded _ => rootChannel ++ ".grammar.developer"
  | randomSpringsMissing .. => rootChannel ++ ".grammar.developer"
  | unconnectedRemoved _ => rootChannel ++ ".grammar.developer"
  | networkDeveloped .. => rootChannel ++ ".grammar.developer"
  | networkBuilt .. => rootChannel ++ ".pipeline"

/-- The level of a notice. -/
def level : Notice → Level
  | logReady => .debug
  | unknownSwitch _ => .warning
  | noUpperSegment _ => .debug
  | noLowerSegment _ => .debug
  | descriptionRead .. => .debug
  | expansionStopped _ => .info
  | nothingToDevelop => .warning
  | randomMassesSkipped _ => .warning
  | randomMassesAdded _ => .debug
  | randomSpringsMissing .. => .info
  | unconnectedRemoved _ => .debug
  | networkDeveloped .. => .info
  | networkBuilt .. => .info

/-- A natural number in a message. -/
private def shown (number : Nat) : String :=
  String.ofList (Decimal.natDigits number)

/-- An integer in a message. -/
private def shownInt (number : Int) : String :=
  String.ofList (Decimal.intText number)

/-- The wording of a notice. -/
def message : Notice → String
  | logReady => "Logging initialized."
  | unknownSwitch word => "Did not understand option: " ++ String.ofList word
  | noUpperSegment inputs =>
    "No upper arm segment: " ++ shown inputs ++ " inputs between shoulder and elbow"
  | noLowerSegment inputs =>
    "No lower arm segment: " ++ shown inputs ++ " inputs between elbow and hand"
  | descriptionRead masses springs rules problems =>
    "Parsed grammar: " ++ shown masses ++ " masses, " ++ shown springs ++ " springs, "
      ++ shown rules ++ " rules, " ++ shown problems ++ " errors"
  | expansionStopped limit =>
    "Expansion stopped: output exceeds " ++ shownInt limit ++ " characters"
  | nothingToDevelop => "No input masses, nothing to develop"
  | randomMassesSkipped count =>
    "Random masses need a shoulder and a hand, skipping " ++ shownInt count ++ " masses"
  | randomMassesAdded count => "Added " ++ shownInt count ++ " random masses"
  | randomSpringsMissing added wanted attempts =>
    "Added only " ++ shown added ++ " of " ++ shownInt wanted ++ " random springs after "
      ++ shown attempts ++ " attempts"
  | unconnectedRemoved count => "Removed " ++ shown count ++ " unconnected network masses"
  | networkDeveloped masses springs problems =>
    "Developed network: " ++ shown masses ++ " masses, " ++ shown springs ++ " springs, "
      ++ shown problems ++ " errors"
  | networkBuilt masses springs description seed construction =>
    "Built network: " ++ shown masses ++ " masses, " ++ shown springs ++ " springs ("
      ++ shown description ++ " grammar, " ++ shown seed ++ " seed, "
      ++ shown construction ++ " construction errors)"

end Notice

/-- A value with the notices that were left on the way to it, in order. -/
structure Logged (α : Type) where
  value : α
  notices : List Notice

namespace Logged

variable {α β : Type}

/-- Changes the value and keeps the notices. -/
def map (change : α → β) (logged : Logged α) : Logged β :=
  ⟨change logged.value, logged.notices⟩

/-- Puts notices in front of the ones of a computation. -/
def after (earlier : List Notice) (logged : Logged α) : Logged α :=
  ⟨logged.value, earlier ++ logged.notices⟩

end Logged

end SpringArm
