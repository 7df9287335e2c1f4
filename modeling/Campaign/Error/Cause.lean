/-! A failure's text with the texts of its causes, innermost last; the chain of a failure joins
them with `": "`. Contexts end for one of two reasons, `Cancelled`, shown unchanged by every
layer.
-/

namespace Campaign

/-- A failure as its reader sees it: its text, then the texts of its causes, innermost last. -/
structure Cause where
  text : String
  sources : List String := []
  deriving DecidableEq, Repr, Inhabited

namespace Cause

/-- A failure without a cause. -/
def plain (text : String) : Cause := ⟨text, []⟩

/-- A failure caused by `inner`. -/
def causedBy (text : String) (inner : Cause) : Cause := ⟨text, inner.text :: inner.sources⟩

/-- All texts, outermost first. -/
def texts (c : Cause) : List String := c.text :: c.sources

/-- The texts joined by `": "`. -/
def chain (c : Cause) : String := ": ".intercalate c.texts

end Cause

/-- Why a context is done. -/
inductive Cancelled where
  /-- Its canceller, or one of an ancestor, was used. -/
  | cancelled
  /-- Its deadline passed. -/
  | deadlineExceeded
  deriving DecidableEq, Repr, Inhabited

/-- The text of a reason. -/
def Cancelled.message : Cancelled → String
  | .cancelled => "context cancelled"
  | .deadlineExceeded => "context deadline exceeded"

end Campaign
