import Campaign.Schema.Shape

/-! A compilation of a subject ends in one status. The statuses and the stages are closed lists of
names; their order (declaration order) is the order of maps keyed by them and of every listing.
-/

namespace Campaign

/-- How the compilation of a subject with one compiler went. -/
inductive Status where
  | ok
  | filtered
  | flagged
  | compileFail
  | compileTimeout
  | runFail
  | runTimeout
  deriving DecidableEq, Repr, Inhabited

namespace Status

/-- Every status, in order. -/
def all : List Status := [.ok, .filtered, .flagged, .compileFail, .compileTimeout, .runFail, .runTimeout]

/-- The name of a status. -/
def name : Status → String
  | .ok => "ok"
  | .filtered => "filtered"
  | .flagged => "flagged"
  | .compileFail => "compile_fail"
  | .compileTimeout => "compile_timeout"
  | .runFail => "run_fail"
  | .runTimeout => "run_timeout"

/-- The place of a status in `all`. -/
def index : Status → Nat
  | .ok => 0
  | .filtered => 1
  | .flagged => 2
  | .compileFail => 3
  | .compileTimeout => 4
  | .runFail => 5
  | .runTimeout => 6

instance : Ord Status := ⟨fun a b => compare a.index b.index⟩

instance : Std.TransOrd Status := inferInstanceAs (Std.TransCmp (compareOn Status.index))

/-- The names of all statuses, in order. -/
def names : List String := all.map name

/-- The status of a name. -/
def ofName? (s : String) : Option Status := all.find? (·.name == s)

/-- Whether the compilation was flagged as a finding. -/
def isFlagged (s : Status) : Bool := s == .flagged

/-- Whether the subject is saved: every status but `ok` and `filtered`. -/
def isSaved : Status → Bool
  | .ok | .filtered => false
  | _ => true

/-- A status is read as its name. -/
def shape : Shape := .variant names

/-- The status of a normal value of `shape`. -/
def ofNormal : Json → Status
  | .string s => (ofName? s).getD .ok
  | _ => .ok

/-- A status is written as its name. -/
def toJson (s : Status) : Json := .string s.name

end Status

/-- The stages of a cycle, in the order they run. -/
inductive StageKind where
  | perturb
  | fuzz
  | lift
  | invoke
  | analyse
  deriving DecidableEq, Repr, Inhabited

namespace StageKind

/-- Every stage, in order. -/
def all : List StageKind := [.perturb, .fuzz, .lift, .invoke, .analyse]

/-- The name of a stage. -/
def name : StageKind → String
  | .perturb => "perturb"
  | .fuzz => "fuzz"
  | .lift => "lift"
  | .invoke => "invoke"
  | .analyse => "analyse"

/-- The place of a stage in `all`. -/
def index : StageKind → Nat
  | .perturb => 0
  | .fuzz => 1
  | .lift => 2
  | .invoke => 3
  | .analyse => 4

instance : Ord StageKind := ⟨fun a b => compare a.index b.index⟩

instance : Std.TransOrd StageKind := inferInstanceAs (Std.TransCmp (compareOn StageKind.index))

/-- The names of all stages, in order. -/
def names : List String := all.map name

/-- The stage of a name. -/
def ofName? (s : String) : Option StageKind := all.find? (·.name == s)

/-- A stage is read as its name. -/
def shape : Shape := .variant names

/-- The stage of a normal value of `shape`. -/
def ofNormal : Json → StageKind
  | .string s => (ofName? s).getD .perturb
  | _ => .perturb

/-- A stage is written as its name. -/
def toJson (k : StageKind) : Json := .string k.name

end StageKind

end Campaign
