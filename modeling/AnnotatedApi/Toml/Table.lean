import AnnotatedApi.Data.Tree

/-!
# Tables under construction

The lines of a text build one table.  How a table came into being decides what
may still be done to it: a header may define a table that so far was only
passed through, and a dotted key may extend only tables that dotted keys made.
-/

set_option autoImplicit false

namespace AnnotatedApi.Toml

open Data

inductive Origin where
  /-- On the way to the table of a header. -/
  | passed
  /-- By a dotted key. -/
  | dotted
  /-- By a header of its own. -/
  | defined
deriving DecidableEq, Repr

inductive Node where
  /-- A finished value; inline tables and arrays are finished where they end. -/
  | leaf (tree : Tree)
  | table (origin : Origin) (members : List (String × Node))
  /-- The tables of an array of tables, the last one first. -/
  | tables (latest : List (String × Node)) (earlier : List (List (String × Node)))

abbrev Members := List (String × Node)

namespace Members

def get? (members : Members) (key : String) : Option Node := List.lookup key members

def put (members : Members) (key : String) (node : Node) : Members :=
  match members with
  | [] => [(key, node)]
  | (other, kept) :: rest =>
    if other = key then (key, node) :: rest else (other, kept) :: Members.put rest key node

/-- What may be done with the members of the table that a path leads to; the
origin of that table is given. -/
abbrev Change := Origin → Members → Option Members

/-- Applies a change to the table at the end of a path.  A path goes through
the last table of an array of tables, and makes the tables that are missing.
Along a dotted key it does not enter tables with a header of their own. -/
def descend (alongKey : Bool) (change : Change) (origin : Origin) (members : Members) :
    List String → Option Members
  | [] => change origin members
  | key :: path =>
    match Members.get? members key with
    | none => do
      let made := if alongKey then Origin.dotted else Origin.passed
      let inner ← descend alongKey change made [] path
      some (Members.put members key (.table made inner))
    | some (.table made inner) =>
      if alongKey ∧ made = .defined then none
      else do
        let inner ← descend alongKey change made inner path
        some (Members.put members key (.table made inner))
    | some (.tables latest earlier) => do
      let inner ← descend alongKey change .defined latest path
      some (Members.put members key (.tables inner earlier))
    | some (.leaf _) => none

def assignHere (key : String) (node : Node) (members : Members) : Option Members :=
  match Members.get? members key with
  | some _ => none
  | none => some (Members.put members key node)

/-- Gives a value to a dotted key.  The table of its last part must have been
made by dotted keys, or be the table in which the whole key stands. -/
def assign (members : Members) (path : List String) (key : String) (tree : Tree) : Option Members :=
  let change : Change := fun origin inner =>
    if path ≠ [] ∧ origin ≠ .dotted then none else assignHere key (.leaf tree) inner
  descend true change .defined members path

def openTable (members : Members) (path : List String) (key : String) : Option Members :=
  let change : Change := fun _ inner =>
    match Members.get? inner key with
    | none => some (Members.put inner key (.table .defined []))
    | some (.table .passed kept) => some (Members.put inner key (.table .defined kept))
    | some _ => none
  descend false change .defined members path

def openNext (members : Members) (path : List String) (key : String) : Option Members :=
  let change : Change := fun _ inner =>
    match Members.get? inner key with
    | none => some (Members.put inner key (.tables [] []))
    | some (.tables latest earlier) => some (Members.put inner key (.tables [] (latest :: earlier)))
    | some _ => none
  descend false change .defined members path

def assignUnder (members : Members) (header path : List String) (key : String) (tree : Tree) :
    Option Members :=
  descend false (fun _ inner => assign inner path key tree) .defined members header

end Members

/-! ## Finished tables -/

mutual

def Node.tree : Node → Tree
  | .leaf tree => tree
  | .table _ members => .table (memberTrees members)
  | .tables latest earlier => .array (earlierTrees earlier [.table (memberTrees latest)])

def earlierTrees : List (List (String × Node)) → List Tree → List Tree
  | [], trees => trees
  | members :: rest, trees => earlierTrees rest (.table (memberTrees members) :: trees)

def memberTrees : List (String × Node) → List (String × Tree)
  | [] => []
  | (key, node) :: rest => (key, node.tree) :: memberTrees rest

end

def Members.tree (members : Members) : Tree := .table (memberTrees members)

end AnnotatedApi.Toml
