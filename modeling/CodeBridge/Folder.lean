import CodeBridge.Fault

/-! # Folders

A file system as it is seen from a working directory. A path starts at the root or at the working directory, the
links on its way are followed, and all names but the last have to lead to directories. `Working` is what is done in
a folder: it can read and write files and print text, and a failure keeps what was written and printed before. -/

namespace CodeBridge

/-- A place in the file system, from the root down. -/
abbrev Path := List String

/-- What lies at a place. -/
inductive Node where
  | file (text : String)
  /-- A file whose text cannot be read, with the fault that is met. -/
  | unreadable (fault : Fault)
  | directory
  | link (target : String)
deriving DecidableEq, Repr

/-- What lies at which places, and the working directory. -/
structure Folder where
  nodes : List (Path × Node) := []
  here : Path := []

namespace Folder

/-! ### Paths -/

/-- The parts of a text between slashes. -/
def splitPath : List Char → List (List Char)
  | [] => [[]]
  | c :: rest =>
    if c == '/' then [] :: splitPath rest
    else match splitPath rest with
      | [] => [[c]]
      | first :: others => (c :: first) :: others

def parts (path : String) : Path :=
  (splitPath path.toList).map String.ofList

/-- The path of a file by its parts. -/
def name (path : Path) : String :=
  "/".intercalate path

/-- Where the next part of a path leads from a directory, if no link is there. -/
def step (dir : Path) (part : String) : Path :=
  if part == "" || part == "." then dir
  else if part == ".." then dir.dropLast
  else dir ++ [part]

/-- The path of `name` seen from `directory`. -/
def join (directory name : String) : String :=
  if name.toList.head? == some '/' then name
  else if directory == "" || directory.toList.getLast? == some '/' then directory ++ name
  else directory ++ "/" ++ name

/-! ### Places -/

def find? (nodes : List (Path × Node)) (place : Path) : Option Node :=
  match nodes with
  | [] => none
  | (key, node) :: rest => if key == place then some node else find? rest place

/-- Something lies below the place. -/
def holds (f : Folder) (place : Path) : Bool :=
  f.nodes.any fun (key, _) => place.isPrefixOf key && decide (place.length < key.length)

/-- What lies at a place. A place that something lies below is a directory, and so is the root. -/
def look (f : Folder) (place : Path) : Option Node :=
  if place.isEmpty || f.holds place then some .directory else find? f.nodes place

def isDirectory (f : Folder) (place : Path) : Bool :=
  f.look place == some .directory

/-- Where a path starts that is met in `dir`. -/
def start (path : String) (dir : Path) : Path :=
  if path.toList.head? == some '/' then [] else dir

/-- Where parts of a path lead from a directory. A link on the way is left to `follow`, with the directory that its
target starts from, and with the parts of the target before those that are left. -/
def walk (f : Folder) (path : String) (follow : Path → List String → Except Fault Path) (dir : Path) :
    List String → Except Fault Path
  | [] => .ok dir
  | part :: rest =>
    if part == "" || part == "." || part == ".." then f.walk path follow (step dir part) rest
    else
      match f.look (dir ++ [part]) with
      | some .directory => f.walk path follow (dir ++ [part]) rest
      | some (.link target) => follow (start target dir) (parts target ++ rest)
      | some _ => if rest.isEmpty then .ok (dir ++ [part]) else .error (.notDirectory path)
      | none => if rest.isEmpty then .ok (dir ++ [part]) else .error (.missingFile path)

/-- Where parts of a path lead when no more than so many links are followed. -/
def resolve (f : Folder) (path : String) : Nat → Path → List String → Except Fault Path
  | 0 => f.walk path fun _ _ => .error (.tooManyLinks path)
  | links + 1 => f.walk path (f.resolve path links)

/-- How many links are followed on one way. -/
def maximumLinks : Nat := 40

/-- Where the parts of a path lead. -/
def reach (f : Folder) (path : String) (ps : List String) : Except Fault Path :=
  if path == "" || !f.isDirectory (start path f.here) then .error (.missingFile path)
  else f.resolve path maximumLinks (start path f.here) ps

/-- Where a path leads. There need not be anything yet. -/
def locate (f : Folder) (path : String) : Except Fault Path :=
  f.reach path (parts path)

/-! ### Files -/

def contains (f : Folder) (path : String) : Bool :=
  match f.locate path with
  | .ok place => (f.look place).isSome
  | .error _ => false

def read (f : Folder) (path : String) : Except Fault String := do
  match f.look (← f.locate path) with
  | some (.file text) => return text
  | some (.unreadable fault) => throw fault
  | some .directory => throw (.isDirectory path)
  | _ => throw (.missingFile path)

def putNode (nodes : List (Path × Node)) (place : Path) (node : Node) : List (Path × Node) :=
  match nodes with
  | [] => [(place, node)]
  | (key, old) :: rest => if key == place then (key, node) :: rest else (key, old) :: putNode rest place node

/-- The folder with a file at a place. -/
def put (f : Folder) (place : Path) (text : String) : Folder :=
  ⟨putNode f.nodes place (.file text), f.here⟩

/-- The parts of a path before its last name, as the way to a directory. -/
def partsBefore (path : String) : List String :=
  ((parts path).reverse.dropWhile (· == "")).tail.reverse ++ [""]

/-- Writes a file over what is there. A path that ends with a slash is one of a directory, even if there is none. -/
def write (f : Folder) (path text : String) : Except Fault Folder := do
  if (parts path).getLast? == some "" then
    let _ ← f.reach path (partsBefore path)
    throw (.isDirectory path)
  let place ← f.locate path
  if f.isDirectory place then throw (.isDirectory path)
  return f.put place text

end Folder

/-- A folder, and the text printed while working in it. -/
structure Desk where
  folder : Folder := {}
  printed : String := ""

abbrev Working := EStateM Fault Desk

namespace Working

def print (text : String) : Working Unit :=
  modify fun d => ⟨d.folder, d.printed ++ text ++ "\n"⟩

def read (path : String) : Working String := fun d =>
  match d.folder.read path with
  | .ok text => .ok text d
  | .error fault => .error fault d

def write (path text : String) : Working Unit := fun d =>
  match d.folder.write path text with
  | .ok folder => .ok () ⟨folder, d.printed⟩
  | .error fault => .error fault d

def check {α : Type} (outcome : Except Fault α) : Working α :=
  match outcome with
  | .ok a => pure a
  | .error fault => throw fault

end Working

end CodeBridge
