import SchemaUsage.Json.Basic

/-!
# TOML tables

Tables grow while a text is read: by headers, by dotted keys and by the tables that are added to
lists of tables. Nothing may be said twice, so each table remembers how it has come about.

Results:
- `put_twice`: a key that has a value takes no second one.
-/

namespace SchemaUsage.Toml

open SchemaUsage.Text

/-- How a table has come about. -/
inductive Origin where
  /-- On the way of a header to a table further down. -/
  | passed
  /-- By the dots of a key. -/
  | dotted
  /-- By a header of its own. -/
  | header
  deriving Repr, DecidableEq, Inhabited

/-- What a key stands for. -/
inductive Node where
  | value (json : Json)
  | table (origin : Origin) (members : List (String × Node))
  | tables (latest : List (String × Node)) (earlier : List (List (String × Node)))
  deriving Repr, Inhabited

/-- Keys with what they stand for, in order. -/
abbrev Members := List (String × Node)

/-- Changes what a key stands for. -/
def alter? (key : String) (change : Option Node → Option Node) (members : Members) :
    Option Members :=
  (change (members.lookup key)).map fun node => Named.insert key node members

/-- Changes the table at the end of a path, and makes the tables on the way that are missing. Of
lists of tables the latest one counts. Dotted keys do not reach into tables with a header. -/
def descend? (dotted : Bool) (change : Origin → Members → Option Members) :
    List String → Origin → Members → Option Members
  | [], origin, members => change origin members
  | key :: path, _, members =>
    alter? key (fun
      | none =>
        let origin := if dotted then Origin.dotted else .passed
        (descend? dotted change path origin []).map (Node.table origin)
      | some (.table origin inner) =>
        if dotted && origin == .header then none
        else (descend? dotted change path origin inner).map (Node.table origin)
      | some (.tables latest earlier) =>
        (descend? dotted change path .header latest).map fun inner => .tables inner earlier
      | some (.value _) => none) members

/-- Gives a value to a key without dots. -/
def putHere? (key : String) (j : Json) (members : Members) : Option Members :=
  alter? key (fun
    | none => some (.value j)
    | some _ => none) members

theorem put_twice {key : String} {j : Json} {members : Members} {node : Node}
    (h : members.lookup key = some node) : putHere? key j members = none := by
  simp [putHere?, alter?, h]

/-- **Gives a value to a key** with dots, if the path is not empty. -/
def put? (path : List String) (key : String) (j : Json) (members : Members) : Option Members :=
  descend? true (fun origin inner =>
    if !path.isEmpty && origin != .dotted then none else putHere? key j inner) path .header members

/-- Opens the table of a header. -/
def openTable? (path : List String) (key : String) (members : Members) : Option Members :=
  descend? false (fun _ inner => alter? key (fun
    | none => some (.table .header [])
    | some (.table .passed own) => some (.table .header own)
    | some _ => none) inner) path .header members

/-- Adds a table to the list of a header. -/
def addTable? (path : List String) (key : String) (members : Members) : Option Members :=
  descend? false (fun _ inner => alter? key (fun
    | none => some (.tables [] [])
    | some (.tables latest earlier) => some (.tables [] (latest :: earlier))
    | some _ => none) inner) path .header members

/-! ## Values -/

mutual
/-- The value that a key stands for. -/
def Node.json : Node → Json
  | .value j => j
  | .table _ members => .obj (membersJson members)
  | .tables latest earlier => .arr (tablesJson earlier [.obj (membersJson latest)])
/-- The members of a table. -/
def membersJson : Members → List (String × Json)
  | [] => []
  | (key, node) :: rest => (key, node.json) :: membersJson rest
/-- The tables of a list in front of later ones, given the latest first. -/
def tablesJson : List Members → List Json → List Json
  | [], later => later
  | members :: earlier, later => tablesJson earlier (.obj (membersJson members) :: later)
end

end SchemaUsage.Toml
