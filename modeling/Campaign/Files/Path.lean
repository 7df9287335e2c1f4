/-! Paths as text with `/` separators: joining appends a relative path and replaces the base with
an absolute one. Components skip empty and `.` parts, and two paths are equal when their
components are.
-/

namespace Campaign

/-- A path of the file system, as text. -/
structure Path where
  text : String
  deriving Repr, Inhabited

namespace Path

/-- Whether the path starts at the root. -/
def isAbsolute (p : Path) : Bool := p.text.toList.head? == some '/'

/-- The path `rel` taken from `p`. -/
def join (p : Path) (rel : String) : Path :=
  if rel.toList.head? == some '/' then ⟨rel⟩
  else if p.text.isEmpty then ⟨rel⟩
  else if p.text.toList.getLast? == some '/' then ⟨p.text ++ rel⟩
  else ⟨p.text ++ "/" ++ rel⟩

/-- One part of a path. -/
inductive Component where
  | root
  | current
  | parent
  | normal (name : String)
  deriving DecidableEq, Repr

/-- The component a part of a path names: none for an empty part or `.`. -/
def Component.ofPart (part : String) : Option Component :=
  if part.isEmpty || part == "." then none
  else if part == ".." then some .parent
  else some (.normal part)

/-- The parts of a path: its text cut at every `/`. -/
def parts (p : Path) : List String := (p.text.toList.splitOn '/').map String.ofList

/-- Where a path starts: at the root, at the current directory when it is written with a
leading `.`, or nowhere in particular. -/
def lead (p : Path) : List Component :=
  if p.isAbsolute then [.root]
  else match p.parts with
    | "." :: _ => [.current]
    | _ => []

/-- The components of a path. -/
def components (p : Path) : List Component :=
  p.lead ++ p.parts.filterMap Component.ofPart

/-- Two paths are the same path when they have the same components, whatever their texts:
`out`, `out/` and `out/.` are one path. -/
instance : BEq Path := ⟨fun p q => p.components == q.components⟩

/-- The last component, when it is a name. -/
def fileName (p : Path) : Option String :=
  match p.components.getLast? with
  | some (.normal name) => some name
  | _ => none

/-- A file name without its extension: the text before the last `.`, unless that `.` starts
the name. -/
def stemOf (name : String) : String :=
  match (name.splitOn ".").reverse with
  | [] | [_] => name
  | _ :: before =>
    let stem := ".".intercalate before.reverse
    if stem.isEmpty then name else stem

/-- The file name without its extension. -/
def fileStem (p : Path) : Option String := p.fileName.map stemOf

/-- The path as text. -/
def display (p : Path) : String := p.text

end Path

end Campaign
