import PathAccess.Service.Grant
import PathAccess.Service.Membership
import PathAccess.Service.Query
/-!
# A service without a setting

The service for those who only want to ask and grant: a seeded database in memory, and a roster of players
that is filled by name and privilege level. Levels are given by word, symbol or number.
-/

namespace PathAccess

namespace Service

/-- A service over a seeded database that is kept in memory, with these players. -/
def standalone (players : Entries String Int) : Except ServiceError Service :=
  let directory : Directory := { players := players.map fun (name, level) => (name, { level }) }
  Service.start { db := {}, store := some {}, identity := some directory, affiliations := some directory }

/-- The players of the service. -/
def roster (s : Service) : Directory :=
  s.identity.getD {}

/-- The service with another directory of players. -/
def withRoster (s : Service) (d : Directory) : Service :=
  { s with identity := s.identity.map fun _ => d, affiliations := s.affiliations.map fun _ => d }

/-- Adds a player. -/
def addPlayer (s : Service) (name : String) (p : Player) : Service :=
  s.withRoster (s.roster.add name p)

/-- A short description of the service. -/
def summary (s : Service) : String :=
  "AccessGovernor(players=" ++ toString s.roster.names.length ++ ")"

end Service

namespace Call

/-- Whether a principal holds at least a level at a path. -/
def allows (path : Value) (principal : String) (required : Level) : Call Bool := do
  return (← check path principal required none false).allowed

end Call

end PathAccess
