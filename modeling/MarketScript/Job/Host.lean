import MarketScript.Manifest

/-!
# Scripts and manifests in a file system

Where the program finds a script and the manifest that governs it.  A file system is told by what is
found at the end of each path of steps from its root.  Directories are given by their steps, the
last first.
-/

namespace MarketScript

/-- What is found in a file system. -/
inductive Entry where
  | text (content : String)
  | directory
  | absent
  /-- Something that is no text. -/
  | unreadable (reason : String)
deriving DecidableEq

/-- What the program knows of the machine that it runs on. -/
structure Host (m : Type → Type) where
  workingDirectory : List String
  /-- What is found at the end of a path of steps from the root, the first step first. -/
  look : List String → m Entry
  /-- A name for a run. -/
  newRunId : m String

/-- Why no text is found at the end of a path. -/
inductive ReadError where
  | absent
  | notDirectory
  | isDirectory
  | nameTooLong
  | unreadable (reason : String)
deriving DecidableEq

def ReadError.message : ReadError → String
  | absent => "No such file or directory (os error 2)"
  | notDirectory => "Not a directory (os error 20)"
  | isDirectory => "Is a directory (os error 21)"
  | nameTooLong => "File name too long (os error 36)"
  | unreadable reason => reason

/-- The bytes that one step of a path may have. -/
def stepLimit : Nat := 255

/-- The bytes that a path may have. -/
def pathLimit : Nat := 4095

/-- A text and the directory that it was found in. -/
structure Found where
  directory : List String
  content : String

namespace Host

variable {m : Type → Type} [Monad m] (host : Host m)

/-- Follows the steps of a path from a directory to a text. -/
def follow : (steps directory : List String) → m (Except ReadError Found)
  | [], _ => return .error .isDirectory
  | step :: rest, directory =>
    if step == "" || step == "." then follow rest directory
    else if step == ".." then follow rest directory.tail
    else if stepLimit < step.utf8ByteSize then return .error .nameTooLong
    else do
      match ← host.look (step :: directory).reverse with
      | .directory => follow rest (step :: directory)
      | .absent => return .error .absent
      | .text content =>
        return if rest.isEmpty then .ok { directory, content } else .error .notDirectory
      | .unreadable reason =>
        return .error (if rest.isEmpty then .unreadable reason else .notDirectory)

/-- The text at the end of a path, which begins at the working directory or, after a slash, at the
    root. -/
def read (path : String) : m (Except ReadError Found) :=
  if pathLimit < path.utf8ByteSize then return .error .nameTooLong
  else
    host.follow (path.splitOn "/")
      (if path.toList.head? == some '/' then [] else host.workingDirectory)

/-- The name of a manifest's file. -/
def manifestName : String := "Scenario.toml"

/-- What is found as the manifest of a directory or of the nearest directory above that has one. -/
def nearestManifest : (directory : List String) → m Entry
  | [] => host.look [manifestName]
  | step :: up => do
    match ← host.look (manifestName :: step :: up).reverse with
    | .text content => return .text content
    | .unreadable reason => return .unreadable reason
    | .directory | .absent => nearestManifest up

/-- The manifest that governs the scripts in a directory.  Where there is none, the settings have
    their defaults. -/
def manifestFor (directory : List String) : m (Except ManifestError Manifest) := do
  match ← host.nearestManifest directory with
  | .text content => return Manifest.parse content
  | .unreadable reason => return .error (.unreadable reason)
  | .directory | .absent => return .ok {}

end Host

end MarketScript
