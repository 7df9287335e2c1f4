import Campaign.Schema.Shape
import Campaign.Schema.Normal
import Campaign.Text.Outline

/-! Quantities size the work of a cycle: how large a corpus to perturb and fuzz, how many cycles
per subject, how many workers, and the compile and run time limits. A machine's own quantities
override the campaign's, field by field, wherever they are not zero.
-/

namespace Campaign

/-- How much the perturb stage does. -/
structure PerturbQuantities where
  corpusSize : Nat := 0
  deriving DecidableEq, Repr

/-- How much the fuzz stage does. -/
structure FuzzQuantities where
  corpusSize : Nat := 0
  subjectCycles : Nat := 0
  workers : Nat := 0
  deriving DecidableEq, Repr

/-- Limits of compiling and running on the machine. -/
structure MachQuantities where
  compileTimeoutSecs : Nat := 0
  runTimeoutSecs : Nat := 0
  workers : Nat := 0
  deriving DecidableEq, Repr

/-- All quantities of a cycle. -/
structure QuantitySet where
  perturb : PerturbQuantities := {}
  fuzz : FuzzQuantities := {}
  mach : MachQuantities := {}
  deriving DecidableEq, Repr

namespace QuantitySet

/-- `other` when it is not zero, else `base`. -/
def pick (base other : Nat) : Nat := if other = 0 then base else other

/-- The quantities overridden by the non-zero fields of `other`. -/
def overrideWith (q other : QuantitySet) : QuantitySet :=
  { perturb := ⟨pick q.perturb.corpusSize other.perturb.corpusSize⟩
    fuzz := ⟨pick q.fuzz.corpusSize other.fuzz.corpusSize,
      pick q.fuzz.subjectCycles other.fuzz.subjectCycles, pick q.fuzz.workers other.fuzz.workers⟩
    mach := ⟨pick q.mach.compileTimeoutSecs other.mach.compileTimeoutSecs,
      pick q.mach.runTimeoutSecs other.mach.runTimeoutSecs,
      pick q.mach.workers other.mach.workers⟩ }

/-- A field that defaults to zero. -/
def zeroField (name : String) (s : Shape) : String × Shape × Option Json :=
  Shape.fieldOr name s (.nat 0)

/-- Every field of every part defaults to zero. -/
def perturbShape : Shape := .record "PerturbQuantities" [zeroField "corpus_size" Shape.usize]

/-- The fuzz part: every field defaults to zero. -/
def fuzzShape : Shape :=
  .record "FuzzQuantities"
    [zeroField "corpus_size" Shape.usize, zeroField "subject_cycles" Shape.usize,
     zeroField "workers" Shape.usize]

/-- The machine part: every field defaults to zero. -/
def machShape : Shape :=
  .record "MachQuantities"
    [zeroField "compile_timeout_secs" Shape.u64, zeroField "run_timeout_secs" Shape.u64,
     zeroField "workers" Shape.usize]

/-- The quantities as written. -/
def toJson (q : QuantitySet) : Json :=
  .object
    [("perturb", .object [("corpus_size", .nat q.perturb.corpusSize)]),
     ("fuzz", .object [("corpus_size", .nat q.fuzz.corpusSize),
        ("subject_cycles", .nat q.fuzz.subjectCycles), ("workers", .nat q.fuzz.workers)]),
     ("mach", .object [("compile_timeout_secs", .nat q.mach.compileTimeoutSecs),
        ("run_timeout_secs", .nat q.mach.runTimeoutSecs), ("workers", .nat q.mach.workers)])]

/-- Every part defaults to zeros. -/
def shape : Shape :=
  .record "QuantitySet"
    [Shape.fieldOr "perturb" perturbShape ((toJson {}).field "perturb"),
     Shape.fieldOr "fuzz" fuzzShape ((toJson {}).field "fuzz"),
     Shape.fieldOr "mach" machShape ((toJson {}).field "mach")]

/-- The quantities of a normal value of `shape`. -/
def ofNormal (j : Json) : QuantitySet :=
  let p := j.field "perturb"
  let f := j.field "fuzz"
  let m := j.field "mach"
  { perturb := ⟨(p.field "corpus_size").asNat⟩
    fuzz := ⟨(f.field "corpus_size").asNat, (f.field "subject_cycles").asNat,
      (f.field "workers").asNat⟩
    mach := ⟨(m.field "compile_timeout_secs").asNat, (m.field "run_timeout_secs").asNat,
      (m.field "workers").asNat⟩ }

/-- The outline of the quantities, naming every part and field. -/
def outline (q : QuantitySet) : Outline :=
  .record "QuantitySet"
    [("perturb", .record "PerturbQuantities" [("corpus_size", .nat q.perturb.corpusSize)]),
     ("fuzz", .record "FuzzQuantities"
        [("corpus_size", .nat q.fuzz.corpusSize), ("subject_cycles", .nat q.fuzz.subjectCycles),
         ("workers", .nat q.fuzz.workers)]),
     ("mach", .record "MachQuantities"
        [("compile_timeout_secs", .nat q.mach.compileTimeoutSecs),
         ("run_timeout_secs", .nat q.mach.runTimeoutSecs), ("workers", .nat q.mach.workers)])]

end QuantitySet

end Campaign
