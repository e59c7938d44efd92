import PathAccess.Tree.Basic
/-!
# Laying trees over one another

Several trees in order of priority are shown as one: a lower tree is copied under a higher one wherever
the higher one does not already answer. This is for looking at; decisions go through the trees themselves.
-/

namespace PathAccess

mutual

/-- Lays the entries of a lower branch, given as its children, under `upper`. The level `inherited` is
the grade for unnamed children in force above. -/
def Branch.overlayChildren (upper : Branch) (inherited : Level) :
    List (String × Node) → Branch
  | [] => upper
  | (name, theirs) :: cs =>
    let upper :=
      match Entries.find? upper.children name with
      | some (.leaf _) => upper
      | some (.branch own rest children) =>
        upper.setChild name (theirs.overlayUnder ⟨own, rest, children⟩ inherited).toNode
      | none =>
        if upper.rest.isSome then upper
        else match theirs with
          | .leaf g => upper.setChild name (.leaf g)
          | .branch own rest children =>
            upper.setChild name ((Node.branch own rest children).overlayUnder {} inherited).toNode
    upper.overlayChildren inherited cs

/-- Lays a lower node under the branch that the higher tree has in its place. A leaf only tells the grade
of unnamed children, and only where the branch has none. -/
def Node.overlayUnder (upper : Branch) (inherited : Level) : Node → Branch
  | .leaf g => { upper with rest := upper.rest <|> some g }
  | .branch own rest children =>
    let merged := upper.overlayChildren (upper.rest <|> inherited) children
    { merged with
      own := merged.own <|> (if upper.rest.isSome then none else own)
      rest := merged.rest <|> (if inherited.isSome then none else rest) }

end

/-- Lays the branch `lower` under the branch `upper`. With a level inherited from above, the grade of
unnamed children is not taken from `lower`. -/
def Branch.overlay (upper lower : Branch) (inherited : Level) : Branch :=
  lower.toNode.overlayUnder upper inherited

/-- The trees, highest priority first, as one tree without memberships. -/
def Tree.flatten (ts : List Tree) : Tree :=
  { root := ts.foldl (fun root t => root.overlay t.root none) {} }

end PathAccess
