namespace Scriptlet

/-!
# Files

The files a command can read, by their paths from the working directory.  A
path is followed component by component; what is not a directory has nothing
below it.
-/

/-- Why a file cannot be read. -/
inductive ReadFailure where
  | notFound
  | notADirectory
  | isADirectory
  | nameTooLong
  | notText
  | other (reason : String)
  deriving Repr, DecidableEq

/-- The reason as it is reported. -/
def ReadFailure.reason : ReadFailure → String
  | .notFound => "No such file or directory (os error 2)"
  | .notADirectory => "Not a directory (os error 20)"
  | .isADirectory => "Is a directory (os error 21)"
  | .nameTooLong => "File name too long (os error 36)"
  | .notText => "stream did not contain valid UTF-8"
  | .other reason => reason

/-- Text from bytes, which have to be UTF-8. -/
def decodeText (bytes : ByteArray) : Except ReadFailure String :=
  match String.fromUTF8? bytes with
  | some text => .ok text
  | none => .error .notText

namespace Path

/-- The components of a path, empty ones included. -/
def components (path : String) : List String :=
  path.splitOn "/"

/-- Components that stay in the directory they stand in. -/
def isIdle (component : String) : Bool :=
  component == "" || component == "."

/--
The name of the file a path leads to: its last component that leads anywhere.
A path that ends by going up, or leads nowhere, is its own name.
-/
def fileName (path : String) : String :=
  match ((components path).filter fun component => !isIdle component).getLast? with
  | none =>
      path
  | some last =>
      if last = ".." then path else last

end Path

/-- The files below the working directory, by the components of their paths. -/
structure FileTree where
  files : List (List String × ByteArray)

/-- What a path has led to so far. -/
inductive PathStep where
  /-- A directory, by the components of its path. -/
  | directory (location : List String)
  /-- A directory above the working directory. -/
  | outside
  /-- A file with its content. -/
  | file (content : ByteArray)

namespace FileTree

/-- The most bytes a component of a path may have. -/
def nameLimit : Nat :=
  255

/-- The most bytes a path may have. -/
def pathLimit : Nat :=
  4095

/-- The files by their paths; directories on the way exist. -/
def ofFiles (files : List (String × ByteArray)) : FileTree :=
  ⟨files.map fun file =>
    ((Path.components file.1).filter fun component => !Path.isIdle component,
      file.2)⟩

/-- What has the given path below the working directory. -/
def entry? (tree : FileTree) (location : List String) : Option PathStep :=
  match tree.files.lookup location with
  | some content =>
      some (.file content)
  | none =>
      if tree.files.any fun file => location.isPrefixOf file.1 then
        some (.directory location)
      else
        none

/-- Follow one component of a path. -/
def follow
    (tree : FileTree)
    (component : String) :
    PathStep → Except ReadFailure PathStep
  | .file _ =>
      .error .notADirectory
  | .outside =>
      if Path.isIdle component ∨ component = ".." then
        .ok .outside
      else if nameLimit < component.utf8ByteSize then
        .error .nameTooLong
      else
        .error .notFound
  | .directory location =>
      if Path.isIdle component then
        .ok (.directory location)
      else if component = ".." then
        if location.isEmpty then
          .ok .outside
        else
          .ok (.directory location.dropLast)
      else if nameLimit < component.utf8ByteSize then
        .error .nameTooLong
      else
        match tree.entry? (location ++ [component]) with
        | some step => .ok step
        | none => .error .notFound

/-- Follow the components of a path. -/
def followAll
    (tree : FileTree) :
    List String → PathStep → Except ReadFailure PathStep
  | [], step =>
      .ok step
  | component :: rest, step =>
      match tree.follow component step with
      | .ok next => tree.followAll rest next
      | .error failure => .error failure

/-- The directory a path starts from. -/
def origin (path : String) : PathStep :=
  if path.startsWith "/" then .outside else .directory []

/-- Read the file a path leads to. -/
def read (tree : FileTree) (path : String) : Except ReadFailure ByteArray :=
  if path = "" then
    .error .notFound
  else if pathLimit < path.utf8ByteSize then
    .error .nameTooLong
  else
    match tree.followAll (Path.components path) (origin path) with
    | .error failure => .error failure
    | .ok (.file content) => .ok content
    | .ok (.directory _) => .error .isADirectory
    | .ok .outside => .error .isADirectory

end FileTree

end Scriptlet
