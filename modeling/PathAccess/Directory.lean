import PathAccess.Entries
/-!
# Players

The directory of players: who exists, with which privilege level, affiliations and working directory, and
who is acting at the moment.
-/

namespace PathAccess

/-- A player. -/
structure Player where
  /-- The privilege level. -/
  level : Int := 0
  /-- The names of outside affiliations, in order. -/
  affiliations : List String := []
  /-- The working directory. -/
  cwd : Option String := none
  deriving DecidableEq

/-- The players that are known. -/
structure Directory where
  /-- The players by name. -/
  players : Entries String Player := []
  /-- The principal that is acting. -/
  current : Option String := none

namespace Directory

/-- Adds a player, or replaces the one of that name. -/
def add (d : Directory) (name : String) (p : Player) : Directory :=
  { d with players := Entries.set d.players name p }

/-- Removes a player. -/
def remove (d : Directory) (name : String) : Directory :=
  { d with players := Entries.remove d.players name }

/-- The names of all players, sorted. -/
def names (d : Directory) : List String :=
  (Entries.keys d.players).mergeSort fun a b => decide (a ≤ b)

/-- Whether a player exists. -/
def exists? (d : Directory) (name : String) : Bool :=
  Entries.has d.players name

/-- The privilege level of a player; zero if there is none. -/
def levelOf (d : Directory) (name : String) : Int :=
  ((Entries.find? d.players name).map (·.level)).getD 0

/-- The affiliations of a player. -/
def affiliationsOf (d : Directory) (name : String) : List String :=
  ((Entries.find? d.players name).map (·.affiliations)).getD []

/-- The working directory of a player. -/
def workingDirectory (d : Directory) (name : String) : Option String :=
  (Entries.find? d.players name).bind (·.cwd)

end Directory

end PathAccess
