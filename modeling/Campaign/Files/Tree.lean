import Campaign.Files.Path
import Campaign.Files.IoError

/-! The file tree the campaign works in, held in memory as nodes by their place, with relative
paths starting at `/work`. A path is looked up one component at a time, and the operations
fail as the system's do.
-/

namespace Campaign

/-- A node of the file tree. -/
inductive Node where
  | dir
  | file (content : String)
  deriving DecidableEq, Repr

/-- The file tree: nodes by their place. The root and the working directory are directories. -/
structure Tree where
  nodes : List (List String × Node) := [([], .dir), (["work"], .dir)]
  cwd : List String := ["work"]
  deriving Repr

namespace Tree

/-- The node at a place. -/
def node (t : Tree) (place : List String) : Option Node := t.nodes.lookup place

/-- Whether a directory is at a place. -/
def isDirAt (t : Tree) (place : List String) : Bool := t.node place == some .dir

/-- The place one component leads to from `cur`. -/
def stepTo (cur : List String) : Path.Component → List String
  | .root => []
  | .current => cur
  | .parent => cur.dropLast
  | .normal n => cur ++ [n]

/-- Follow components from `cur`: every component but the last must lead to a directory. -/
def walk (t : Tree) (cur : List String) : List Path.Component → Except IoError (List String)
  | [] => .ok cur
  | [c] => .ok (stepTo cur c)
  | c :: rest =>
    let next := stepTo cur c
    match t.node next with
    | some .dir => t.walk next rest
    | some (.file _) => .error IoError.notADirectory
    | none => .error IoError.notFound

/-- Whether a path is written as a directory: it ends with `/` and is not the root alone. -/
def namesDir (p : Path) : Bool := p.text.endsWith "/" && p.text != "/"

/-- The place a path names. The empty path names nothing. -/
def locate (t : Tree) (p : Path) : Except IoError (List String) :=
  if p.text.isEmpty then .error IoError.notFound
  else t.walk t.cwd p.components

/-- The node a path names. -/
def stat (t : Tree) (p : Path) : Except IoError Node := do
  let place ← t.locate p
  match t.node place with
  | none => .error IoError.notFound
  | some (.file _) => if namesDir p then .error IoError.notADirectory else .ok (.file "")
  | some .dir => .ok .dir

/-- Whether a path names a directory. -/
def isDir (t : Tree) (p : Path) : Bool :=
  match t.stat p with
  | .ok .dir => true
  | _ => false

/-- Whether a path names anything. -/
def exists_ (t : Tree) (p : Path) : Bool := (t.stat p).toBool

/-- Set the node at a place. -/
def put (t : Tree) (place : List String) (n : Node) : Tree :=
  { t with nodes := (t.nodes.filter (·.1 != place)) ++ [(place, n)] }

/-- Make one directory. -/
def mkdir (t : Tree) (p : Path) : Except IoError Tree := do
  let place ← t.locate p
  match t.node place with
  | some _ => .error IoError.fileExists
  | none => .ok (t.put place .dir)

/-- The path without its last component, as written: `none` for the root and the empty path. -/
def parentOf (p : Path) : Option Path :=
  let trimmed := (p.text.toList.reverse.dropWhile (· == '/')).reverse
  if trimmed.isEmpty then none
  else
    let before := (trimmed.reverse.dropWhile (· != '/')).reverse
    if before.isEmpty then some ⟨""⟩
    else
      let kept := (before.reverse.dropWhile (· == '/')).reverse
      some ⟨if kept.isEmpty then "/" else String.ofList kept⟩

/-- Make a directory and every missing directory above it; `fuel` bounds the depth. -/
def createDirAllUpTo (t : Tree) : Nat → Path → Except IoError Tree
  | 0, _ => .error (.custom "failed to create whole tree")
  | fuel + 1, p =>
    if p.text.isEmpty then .ok t
    else
      match t.mkdir p with
      | .ok t => .ok t
      | .error e =>
        if e == IoError.notFound then
          match parentOf p with
          | some parent => do
            let t ← t.createDirAllUpTo fuel parent
            match t.mkdir p with
            | .ok t => .ok t
            | .error e => if t.isDir p then .ok t else .error e
          | none => .error (.custom "failed to create whole tree")
        else if t.isDir p then .ok t
        else .error e

/-- Make a directory and every missing directory above it. -/
def createDirAll (t : Tree) (p : Path) : Except IoError Tree :=
  t.createDirAllUpTo (p.text.length + 2) p

/-- Whether `place` is `top` or below it. -/
def isUnder (top place : List String) : Bool := top.isPrefixOf place

/-- Remove a directory and everything in it. -/
def removeDirAll (t : Tree) (p : Path) : Except IoError Tree := do
  let place ← t.locate p
  match t.node place with
  | none => .error IoError.notFound
  | some (.file _) => .error IoError.notADirectory
  | some .dir => .ok { t with nodes := t.nodes.filter fun (q, _) => !isUnder place q }

/-- Remove a file. -/
def removeFile (t : Tree) (p : Path) : Except IoError Tree := do
  let place ← t.locate p
  match t.node place with
  | none => .error IoError.notFound
  | some .dir => .error IoError.isADirectory
  | some (.file _) => .ok { t with nodes := t.nodes.filter (·.1 != place) }

/-- Write a file, replacing what it held. -/
def write (t : Tree) (p : Path) (content : String) : Except IoError Tree := do
  let place ← t.locate p
  match t.node place with
  | some .dir => .error IoError.isADirectory
  | _ => if namesDir p then .error IoError.isADirectory else .ok (t.put place (.file content))

/-- Add to the end of a file, making it when it is missing. -/
def append (t : Tree) (p : Path) (content : String) : Except IoError Tree := do
  let place ← t.locate p
  match t.node place with
  | some .dir => .error IoError.isADirectory
  | some (.file old) => .ok (t.put place (.file (old ++ content)))
  | none => if namesDir p then .error IoError.isADirectory else .ok (t.put place (.file content))

/-- The content of a file. -/
def read (t : Tree) (p : Path) : Except IoError String := do
  let place ← t.locate p
  match t.node place with
  | none => .error IoError.notFound
  | some .dir => .error IoError.isADirectory
  | some (.file c) => if namesDir p then .error IoError.notADirectory else .ok c

/-- The failure of copying something that is not a regular file. -/
def notRegular : IoError :=
  .custom "the source path is neither a regular file nor a symlink to a regular file"

/-- Copy a regular file. -/
def copy (t : Tree) (src dst : Path) : Except IoError Tree := do
  let place ← t.locate src
  match t.node place with
  | none => .error IoError.notFound
  | some .dir => .error notRegular
  | some (.file c) =>
    if namesDir src then .error IoError.notADirectory else t.write dst c

/-- Whether place `p` comes before place `q` in order of their names: name by name, each in
byte order, a place before the places under it. -/
def namesBefore : List String → List String → Bool
  | _, [] => false
  | [], _ :: _ => true
  | a :: p, b :: q => decide (a < b) || (a == b && namesBefore p q)

/-- The places below a directory's place, with their nodes, in order of their names. -/
def below (t : Tree) (top : List String) : List (List String × Node) :=
  let inside := t.nodes.filter fun (q, _) => isUnder top q && q != top
  inside.mergeSort fun a b => !namesBefore b.1 a.1

end Tree

end Campaign
