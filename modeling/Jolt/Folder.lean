import Jolt.Text

/-!
# Folders

A working folder: files with their contents and directories, by path. The components of a path are divided by slashes;
`Path.clean` is the shortest spelling of one. A rooted path, which starts at the root of all folders, has an empty first
component, and a path that leads out of the working folder starts with `..`.
-/

namespace Jolt

namespace Path

/-- The components of a path as it is spelt. -/
def components (p : Text) : List Text :=
  Text.splitOn Byte.slash p

/-- A path of components. -/
def ofComponents (parts : List Text) : Text :=
  Text.joinWith (utf8 "/") parts

/-- Whether a path starts at the root of all folders. -/
def isRooted (p : Text) : Bool :=
  p.head? = some Byte.slash

/-- One more component, where `.` stays and `..` goes back as far as it can. -/
def step (rooted : Bool) (parts : List Text) (c : Text) : List Text :=
  if c.isEmpty || c = utf8 "." then parts
  else if c = utf8 ".." then
    match parts.getLast? with
    | none => if rooted then parts else [c]
    | some last => if last = utf8 ".." then parts ++ [c] else parts.dropLast
  else parts ++ [c]

/-- The shortest path that names the same by its spelling. -/
def clean (p : Text) : Text :=
  let parts := (components p).foldl (step (isRooted p)) []
  if isRooted p then utf8 "/" ++ ofComponents parts
  else if parts.isEmpty then utf8 "." else ofComponents parts

/-- A path inside another, cleaned; empty parts do not count. -/
def join (parts : List Text) : Text :=
  let named := parts.filter (!·.isEmpty)
  if named.isEmpty then [] else clean (ofComponents named)

/-- The directory that a path is in, cleaned. -/
def directory (p : Text) : Text :=
  clean (p.reverse.dropWhile (· ≠ Byte.slash)).reverse

/-- A path without an ending, where it has it. -/
def dropEnding (p ending : Text) : Text :=
  if p.endsIn ending then p.take (p.length - ending.length) else p

end Path

/-- Files and directories by the components of their paths. -/
structure Folder where
  files : List (List Text × Text)
  directories : List (List Text)

namespace Folder

/-- Why a path leads nowhere. -/
inductive Obstacle where
  | missing
  | notDirectory
deriving DecidableEq

/-- What a path leads to. -/
inductive Target where
  | file (path : List Text) (content : Text)
  | directory (path : List Text)

/-- The text of an obstacle. -/
def Obstacle.text : Obstacle → Text
  | missing => utf8 "no such file or directory"
  | notDirectory => utf8 "not a directory"

/-- The folder without files. -/
def empty : Folder :=
  ⟨[], []⟩

/-- The content of a file. -/
def content? (folder : Folder) (path : List Text) : Option Text :=
  folder.files.lookup path

/-- The place of all rooted paths. -/
def root : List Text :=
  [[]]

/-- Whether components name a directory. The folder itself and those it lies in are directories, and so is the root. -/
def isDirectory (folder : Folder) (path : List Text) : Bool :=
  path.all (· = utf8 "..") || path = root || folder.directories.contains path

/-- The directory above another; there is none above the root. -/
def above (here : List Text) : List Text :=
  if here = root then root
  else match here.getLast? with
    | none => [utf8 ".."]
    | some last => if last = utf8 ".." then here ++ [last] else here.dropLast

/-- Follows components from a directory. -/
def follow (folder : Folder) (here : List Text) : List Text → Except Obstacle Target
  | [] => .ok (.directory here)
  | c :: rest =>
    if c.isEmpty || c = utf8 "." then folder.follow here rest
    else if c = utf8 ".." then folder.follow (above here) rest
    else
      let path := here ++ [c]
      match folder.content? path with
      | some content => if rest.isEmpty then .ok (.file path content) else .error .notDirectory
      | none => if folder.isDirectory path then folder.follow path rest else .error .missing

/-- What a path leads to. The empty path leads nowhere. -/
def find (folder : Folder) (path : Text) : Except Obstacle Target :=
  if path.isEmpty then .error .missing
  else folder.follow (if Path.isRooted path then root else []) (Path.components path)

/-- Whether a path leads anywhere. -/
def exists? (folder : Folder) (path : Text) : Bool :=
  (folder.find path).toOption.isSome

/-- The content of a file, or why it cannot be read. -/
def read (folder : Folder) (path : Text) : Except Text Text :=
  match folder.find path with
  | .ok (.file _ content) => .ok content
  | .ok (.directory _) => .error (utf8 "read " ++ path ++ utf8 ": is a directory")
  | .error o => .error (utf8 "open " ++ path ++ utf8 ": " ++ o.text)

/-- The components that lead down to a place, one longer each. -/
def ancestry (path : List Text) : List (List Text) :=
  (List.range path.length).map fun i => path.take (i + 1)

/-- Adds a directory and all above it. -/
def addDirectory (folder : Folder) (path : List Text) : Folder :=
  { folder with
    directories := folder.directories ++ (ancestry path).filter (!folder.directories.contains ·) }

/-- Puts a file in its place, new or over the one that is there. -/
def put (path : List Text) (content : Text) : List (List Text × Text) → List (List Text × Text)
  | [] => [(path, content)]
  | (p, c) :: rest => if p = path then (path, content) :: rest else (p, c) :: put path content rest

/-- Writes a file; the directories above it are made. -/
def write (folder : Folder) (path : List Text) (content : Text) : Folder :=
  let folder := folder.addDirectory path.dropLast
  { folder with files := put path content folder.files }

/-- The components of a path without those that change nothing. -/
def place (path : Text) : List Text :=
  (if Path.isRooted path then root else []) ++ (Path.components path).foldl (Path.step (Path.isRooted path)) []

/-- The folder of a list of paths with contents; a path that ends in a slash is a directory. -/
def ofList (entries : List (Text × Text)) : Folder :=
  entries.foldl (fun folder (path, content) =>
    if path.getLast? = some Byte.slash then folder.addDirectory (place path) else folder.write (place path) content)
    empty

/-- The files with their paths, in ascending order. -/
def listing (folder : Folder) : List (Text × Text) :=
  (folder.files.map fun (path, content) => (Path.ofComponents path, content)).mergeSort fun a b => !(b.1 < a.1)

end Folder

end Jolt
