
namespace QuadStore.Text

/-- The parts of a path between its slashes. Empty parts and single dots stand for nothing, unless
a dot is the very first part; a slash at the start counts as a part. -/
def pathParts (path : String) : List String :=
  let parts := path.splitOn "/"
  match parts with
  | [] => []
  | first :: rest =>
      let rest := rest.filter fun part => part != "" && part != "."
      if first = "" then if rest.isEmpty && path.isEmpty then [] else "/" :: rest
      else first :: rest

/-- Whether two paths lead to the same file. -/
def samePath (a b : String) : Bool :=
  pathParts a == pathParts b

end QuadStore.Text
