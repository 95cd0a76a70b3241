/-! The files a configuration is looked for in: a directory tree given by the files in it. Paths are
walked step by step, so that a step back needs a directory to step back from. -/

namespace FeedPoller

/-- The current directory, with its files under their paths and its empty directories, and the files
that are known by their paths from the root. -/
structure Files where
  files : List (List String × ByteArray)
  rooted : List (String × ByteArray) := []
  directories : List (List String) := []

/-- What a path leads to. -/
inductive Place where
  | file (content : ByteArray)
  | directory
  | nowhere

namespace Files

/-- The steps of a path, which do not count empty ones and those that stay in place. -/
def steps (path : String) : List String :=
  (path.splitOn "/").filter fun s => s != "" && s != "."

def isRooted (path : String) : Bool := path.startsWith "/"

def ofNamed (files : List (String × ByteArray)) : Files where
  files := (files.filter (! isRooted ·.1)).map fun (path, content) => (steps path, content)
  rooted := files.filter (isRooted ·.1)

def isDirectory (fs : Files) (place : List String) : Bool :=
  place.isEmpty || fs.directories.any (place.isPrefixOf ·) ||
    fs.files.any fun (p, _) => place.isPrefixOf p && place != p

/-- Follows steps from a directory. -/
def walk (fs : Files) : List String → List String → Option (List String)
  | here, [] => some here
  | here, step :: rest =>
    if !fs.isDirectory here then none
    else if step == ".." then
      match here with
      | [] => none
      | _ => walk fs here.dropLast rest
    else walk fs (here ++ [step]) rest

/-- Whether a path has to lead to a directory: it ends with a slash or with a step in place. -/
def endsInDirectory (path : String) : Bool :=
  match (path.splitOn "/").getLast? with
  | some s => s == "" || s == "."
  | none => false

/-- What a path leads to, from the current directory unless it begins at the root. -/
def locate (fs : Files) (path : String) : Place :=
  if path.isEmpty then .nowhere
  else if isRooted path then
    match fs.rooted.lookup path with
    | some content => .file content
    | none => .nowhere
  else
    match fs.walk [] (steps path) with
    | none => .nowhere
    | some place =>
      if fs.isDirectory place then .directory
      else
        match fs.files.lookup place with
        | some content => if endsInDirectory path then .nowhere else .file content
        | none => .nowhere

/-- The text of a file, if there is one and it is UTF-8. -/
def readText (fs : Files) (path : String) : Option String :=
  match fs.locate path with
  | .file content => String.fromUTF8? content
  | _ => none

def contains (fs : Files) (path : String) : Bool :=
  match fs.locate path with
  | .nowhere => false
  | _ => true

end Files
end FeedPoller
