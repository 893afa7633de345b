import QuadStore.Number.Text

namespace QuadStore.Toml

/-- A value of a document. Dates and times are kept as they are written. -/
inductive Value
  | string (text : String)
  | integer (value : Int)
  | float (value : Binary64)
  | boolean (value : Bool)
  | dateTime (text : String)
  | array (items : List Value)
  | table (entries : List (String × Value))

def lookup (entries : List (String × Value)) (key : String) : Option Value :=
  (entries.find? fun entry => entry.1 == key).map Prod.snd

/-- How a table came to be, which decides whether later lines may add to it. -/
inductive Origin
  /-- Named by a header of its own. -/
  | header
  /-- Only passed through by the header of a table inside it. -/
  | passed
  /-- Made by a key with dots. -/
  | dotted
deriving DecidableEq

/-- What stands at a key while a document is read. -/
inductive Entry
  /-- A finished value, which nothing can be added to. -/
  | closed (value : Value)
  | table (origin : Origin) (entries : List (String × Entry))
  /-- Tables under one header in double brackets, the latest first. -/
  | tables (last : List (String × Entry)) (earlier : List (List (String × Entry)))

/-- The entries of a table while a document is read, in their order. -/
abbrev Entries := List (String × Entry)

mutual
/-- The value that an entry is when the document has ended. -/
def Entry.finish : Entry → Value
  | .closed value => value
  | .table _ entries => .table (finishAll entries)
  | .tables last earlier => .array ((.table (finishAll last) :: finishTables earlier).reverse)

def finishAll : Entries → List (String × Value)
  | [] => []
  | (key, entry) :: rest => (key, entry.finish) :: finishAll rest

def finishTables : List Entries → List Value
  | [] => []
  | entries :: rest => .table (finishAll entries) :: finishTables rest
end

/-- Sets the entry of a key, which keeps its place. -/
def setEntry (key : String) (entry : Entry) : Entries → Entries
  | [] => [(key, entry)]
  | (k, e) :: rest => if k == key then (key, entry) :: rest else (k, e) :: setEntry key entry rest

def entryAt (entries : Entries) (key : String) : Option Entry :=
  (entries.find? fun entry => entry.1 == key).map Prod.snd

/-- Changes the table at the end of a path. Tables missing on the way are made with the given
origin. A key with dots may not enter a table that a header has named. -/
def updateAt (made : Origin) (path : List String) (atEnd : Origin → Entries → Option Entries)
    (origin : Origin) (entries : Entries) : Option Entries :=
  match path with
  | [] => atEnd origin entries
  | key :: rest =>
      match entryAt entries key with
      | none =>
          (updateAt made rest atEnd made []).map fun inner =>
            setEntry key (.table made inner) entries
      | some (.table origin inner) =>
          if made = .dotted ∧ origin = .header then none
          else
            (updateAt made rest atEnd origin inner).map fun inner =>
              setEntry key (.table origin inner) entries
      | some (.tables last earlier) =>
          (updateAt made rest atEnd .header last).map fun last =>
            setEntry key (.tables last earlier) entries
      | some (.closed _) => none

/-- Sets the value of a key whose last part is `key` and whose other parts are `path`. -/
def insertValue (path : List String) (key : String) (value : Value) (origin : Origin)
    (entries : Entries) : Option Entries :=
  updateAt .dotted path
    (fun origin entries =>
      if decide (origin = .dotted) = path.isEmpty then none
      else if (entryAt entries key).isSome then none
      else some (setEntry key (.closed value) entries))
    origin entries

/-- Opens the table of a header: a new one, or one that headers have only passed through. -/
def openTable (path : List String) (key : String) (root : Entries) : Option Entries :=
  updateAt .passed path
    (fun _ entries =>
      match entryAt entries key with
      | none => some (setEntry key (.table .header []) entries)
      | some (.table .passed inner) => some (setEntry key (.table .header inner) entries)
      | some _ => none)
    .header root

/-- Opens one more table under a header in double brackets. -/
def openNextTable (path : List String) (key : String) (root : Entries) : Option Entries :=
  updateAt .passed path
    (fun _ entries =>
      match entryAt entries key with
      | none => some (setEntry key (.tables [] []) entries)
      | some (.tables last earlier) => some (setEntry key (.tables [] (last :: earlier)) entries)
      | some _ => none)
    .header root

end QuadStore.Toml
