import PathAccess.Database.Basic
/-!
# First contents

What a database holds before anyone has changed it. The **bootstrap** database is the minimum in force
before a stored one is read: nothing is allowed but what `root` needs to read it. The **seeded** database
is that of a first run: the default schema for everyone, the system principals, and the built-in groups.
-/

namespace PathAccess

namespace Tree

/-- A tree with one grade for unnamed children and some children. -/
def ofEntries (rest : Option Grade) (children : Entries String Node) : Tree :=
  { root := { rest, children } }

/-- The tree of a whole: everything below the root is readable, apart from homes, accounts, records and
system data; scratch space is writable. -/
def defaultSchema : Tree :=
  ofEntries (some .read) [
    ("characters", .leaf .revoked),
    ("d", .branch (some .read) (some .revoked) []),
    ("players", .branch (some .read) (some .revoked) []),
    ("data", .leaf .revoked),
    ("tmp", .leaf .write),
    ("log", .branch none (some .read) [("Driver", .leaf .revoked), ("old", .leaf .revoked)]),
    ("banish", .leaf .revoked),
    ("accounts", .leaf .revoked),
    ("dgd", .leaf .revoked)]

end Tree

namespace Database

/-- A grade for one directory below the root. -/
def below (first second : String) (g : Grade) : Tree :=
  Tree.ofEntries none [(first, .branch none none [(second, .leaf g)])]

/-- The minimal database. -/
def bootstrap (rules : PrincipalRules) : Database where
  trees := [
    (defaultPrincipal, Tree.ofEntries (some .revoked) []),
    ("root", Tree.ofEntries none
      [("dgd", .branch none none [("sys", .branch none none [("data", .leaf .read)])])])]
  rules := rules

/-- The database of a first run. -/
def seeded (rules : PrincipalRules) : Database where
  trees := [
    (defaultPrincipal, Tree.defaultSchema),
    ("backbone", Tree.ofEntries (some .write) []),
    ("root", Tree.ofEntries (some .write) []),
    ("Arch_full", Tree.ofEntries (some .grantWrite) []),
    ("Arch_junior", Tree.ofEntries none [("d", .leaf .write), ("players", .leaf .write)]),
    ("Arch_docs", Tree.ofEntries none [("help", .leaf .write), ("doc", .leaf .write)]),
    ("Arch_law", below "data" "Law" .write),
    ("Arch_qc", below "data" "qc" .write),
    ("Arch_web", below "data" "www_docs" .write)]
  rules := rules

/-- Restores the tree that applies to everyone. -/
def resetDefault (db : Database) : Database :=
  db.set defaultPrincipal Tree.defaultSchema

end Database

end PathAccess
