import SelectQuery.CommandLine.Evaluation

/-!
# Directories

A working directory held in memory: what it contains by path, and what reading a path in it
gives. A path may also begin at the root of the file system or lead above the working directory.
Of the root, the directories that every system has are known; a directory above the working
directory counts as empty.
-/

namespace SelectQuery.CommandLine

/-- A file with its content, or a directory. -/
inductive DirectoryEntry where
  | file (content : ByteArray)
  | directory

/-- The entries of a directory by name. A name with slashes lies in directories of its own. -/
structure Directory where
  entries : List (String × DirectoryEntry)

namespace Directory

/-- The steps of a path: what stands between slashes. Empty steps and single dots lead
nowhere. -/
def steps (path : String) : List String :=
  (path.splitOn "/").filter fun step ↦ step ≠ "" && step ≠ "."

/-- The longest name of a file or directory, in bytes. -/
def maxName : Nat := 255

/-- The longest path, in bytes. -/
def maxPath : Nat := 4095

/-- What stands at the end of some steps down from a directory. -/
def find? (d : Directory) (down : List String) : Option DirectoryEntry :=
  if down.isEmpty then some .directory
  else
    match d.entries.find? fun (name, _) ↦ steps name == down with
    | some (_, entry) => some entry
    | none =>
      if d.entries.any fun (name, _) ↦ down.isPrefixOf (steps name) then some .directory
      else none

/-- The root of the file system, as far as every system agrees on it. Nothing is known of what
its files hold. -/
def root : Directory :=
  ⟨[("dev/null", .file .empty), ("etc/passwd", .file .empty)] ++
    ["bin", "boot", "home", "lib", "media", "mnt", "opt", "run", "sbin", "srv", "tmp",
      "usr/bin", "usr/lib", "usr/local", "usr/share", "var/log", "var/tmp"].map (·, .directory)⟩

/-- Where the steps down to a place begin. -/
inductive Origin where
  /-- The working directory. -/
  | working
  /-- Some directory above the working directory. -/
  | above
  /-- The root of the file system. -/
  | root
  deriving DecidableEq, Repr

/-- A place: its origin and the steps down from there. -/
structure Place where
  origin : Origin
  down : List String
  deriving DecidableEq, Repr

namespace Place

/-- The place one step up. The root lies in itself. -/
def up (p : Place) : Place :=
  if p.down.isEmpty then
    match p.origin with
    | .working => ⟨.above, []⟩
    | .above => p
    | .root => p
  else { p with down := p.down.dropLast }

/-- The place that one step leads to. -/
def walk (p : Place) (step : String) : Place :=
  if step = ".." then p.up else { p with down := p.down ++ [step] }

/-- The place where a path begins. -/
def ofPath (path : String) : Place :=
  if path.startsWith "/" then ⟨.root, []⟩ else ⟨.working, []⟩

end Place

/-- What stands at a place. -/
def entryAt? (d : Directory) (p : Place) : Option DirectoryEntry :=
  match p.origin with
  | .working => d.find? p.down
  | .above => find? ⟨[]⟩ p.down
  | .root => root.find? p.down

/-- Follows the steps of a path from a place to which other steps have led. Every step has to
be taken in a directory, and its length is looked at only there. -/
def follow (d : Directory) (p : Place) : List String → Except ReadFailure DirectoryEntry
  | [] =>
    match d.entryAt? p with
    | some entry => .ok entry
    | none => .error .notFound
  | step :: rest =>
    match d.entryAt? p with
    | some .directory =>
      if maxName < step.utf8ByteSize then .error .nameTooLong else d.follow (p.walk step) rest
    | some (.file _) => .error .notDirectory
    | none => .error .notFound

/-- What reading a path gives. -/
def read (d : Directory) (path : String) : Except ReadFailure ByteArray :=
  if maxPath < path.utf8ByteSize then .error .nameTooLong
  else
    match d.follow (.ofPath path) (steps path) with
    | .ok (.file content) => .ok content
    | .ok .directory => .error .isDirectory
    | .error reason => .error reason

end Directory

end SelectQuery.CommandLine
