import SpringArm.Notice

/-!
# Log

A log takes entries of the channels of this library and writes those that matter enough to the
console and, if it has one, to a file. Setting a log up again replaces its outlets; a file is
emptied by that.
-/

namespace SpringArm.Log

/-- An entry: its channel, its level and its text. -/
structure Entry where
  channel : String
  level : Level
  text : String
deriving DecidableEq

/-- The entry of a notice. -/
def Entry.ofNotice (notice : Notice) : Entry :=
  ⟨notice.channel, notice.level, notice.message⟩

/-- The line of an entry, without the time. -/
def Entry.line (entry : Entry) : String :=
  entry.channel ++ " - " ++ entry.level.name ++ " - " ++ entry.text ++ "\n"

/-- How a log is set up: what matters enough, and whether there is a file. -/
structure Setup where
  level : Level
  toFile : Bool
deriving DecidableEq

/-- A log with what it has written so far. -/
structure State where
  /-- The present setup. A log that was never set up writes nothing. -/
  setup : Option Setup
  console : String
  /-- The text of the file, if there ever was one. -/
  file : Option String
deriving DecidableEq

/-- The log before it is set up. -/
def State.initial : State := ⟨none, "", none⟩

/-- A channel is the root channel or a part of it. -/
def isOwnChannel (channel : String) : Bool :=
  channel = Notice.rootChannel
    || (Notice.rootChannel.toList ++ ['.']).isPrefixOf channel.toList

/-- A setup lets an entry through. -/
def Setup.accepts (setup : Setup) (entry : Entry) : Bool :=
  isOwnChannel entry.channel && decide (setup.level.rank ≤ entry.level.rank)

/-- Writes an entry. -/
def State.write (state : State) (entry : Entry) : State :=
  match state.setup with
  | none => state
  | some setup =>
    if setup.accepts entry then
      { state with
        console := state.console ++ entry.line
        file := if setup.toFile then state.file.map (· ++ entry.line) else state.file }
    else
      state

/-- Sets the log up, and notes that. -/
def State.setUp (state : State) (setup : Setup) : State :=
  let ready : State :=
    { state with setup := some setup, file := if setup.toFile then some "" else state.file }
  ready.write (Entry.ofNotice .logReady)

/-- How many outlets a setup has. -/
def Setup.outlets (setup : Setup) : Nat :=
  if setup.toFile then 2 else 1

/-- The log after setups and entries. -/
def record (setups : List Setup) (entries : List Entry) : State :=
  entries.foldl State.write (setups.foldl State.setUp State.initial)

end SpringArm.Log
