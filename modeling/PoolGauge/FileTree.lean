/-!
# File trees

Files below a directory and the way a path finds them: component by component, with `.` for the
directory itself and `..` for the one above. Nothing is known to exist above the root.
-/
namespace PoolGauge

/-- What a path leads to. -/
inductive Entry where
  | file (content : List UInt8)
  | directory
deriving DecidableEq, Repr

/-- Why a path leads to nothing. -/
inductive PathFault where
  | notFound
  | notADirectory
  | nameTooLong
  | embeddedNul
deriving DecidableEq, Repr

/-- Entries with the names on the way to them. Directories on the way exist by themselves. -/
structure FileTree where
  entries : List (List String × Entry)
deriving DecidableEq, Repr

/-- The names between the slashes of a path. A slash at the end asks for a directory. -/
def pathComponents (path : String) : List String :=
  let names := (path.splitOn "/").filter (· != "")
  if path.endsWith "/" && !names.isEmpty then names ++ ["."] else names

namespace FileTree

/-- The tree of some files and directories, each with its path; later ones replace earlier ones. -/
def ofPaths (paths : List (String × Entry)) : FileTree :=
  ⟨paths.map fun (path, entry) => (pathComponents path, entry)⟩

/-- The entry with the names on the way to it, all of them real names. -/
def at? (t : FileTree) (names : List String) : Option Entry :=
  match t.entries.findRev? (·.1 == names) with
  | some (_, entry) => some entry
  | none =>
    if names.isEmpty || t.entries.any (fun entry => names.isPrefixOf entry.1) then
      some .directory
    else none

/-- The longest name that a directory can hold, in bytes. -/
def maxName : Nat := 255

/-- The shortest path that is too long, in bytes. -/
def maxPath : Nat := 4096

/-- Follows names from a directory, which is given by the names on the way to it, the last one
first. -/
def follow (t : FileTree) : List String → List String → Except PathFault Entry
  | here, [] =>
    match t.at? here.reverse with
    | some entry => .ok entry
    | none => .error .notFound
  | here, name :: rest =>
    match t.at? here.reverse with
    | none => .error .notFound
    | some (.file _) => .error .notADirectory
    | some .directory =>
      if name = "." then t.follow here rest
      else if name = ".." then
        match here with
        | [] => .error .notFound
        | _ :: above => t.follow above rest
      else if maxName < name.utf8ByteSize then .error .nameTooLong
      else t.follow (name :: here) rest

/-- The entry that a relative path leads to; an absolute one leads out of the tree. -/
def lookup (t : FileTree) (path : String) : Except PathFault Entry :=
  if path.contains '\x00' then .error .embeddedNul
  else if maxPath ≤ path.utf8ByteSize then .error .nameTooLong
  else if path.startsWith "/" then .error .notFound
  else t.follow [] (pathComponents path)

def file? (t : FileTree) (path : String) : Option (List UInt8) :=
  match t.lookup path with
  | .ok (.file content) => some content
  | _ => none

end FileTree

end PoolGauge
