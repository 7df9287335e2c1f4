import Campaign.Json.Write
import Campaign.Text.Outline

/-! The diagnostic text of a JSON value names each kind: `Null`, `Bool(true)`, `Number(1)`,
`String("x")`, `Array [..]` and `Object {..}` with quoted keys. Numbers are written as in JSON.
-/

namespace Campaign

namespace Json

mutual
/-- The outline of a JSON value. -/
def outline : Json → Outline
  | .null => .atom "Null"
  | .bool b => .tuple "Bool" [.bool b]
  | .number n => .tuple "Number" [.atom n.render]
  | .string s => .tuple "String" [.str s]
  | .array items => .tagged "Array" (.list (outlineItems items))
  | .object ms => .tagged "Object" (.map (outlineMembers ms))

/-- The outlines of array items. -/
def outlineItems : List Json → List Outline
  | [] => []
  | j :: rest => outline j :: outlineItems rest

/-- The outlines of object members, keys as strings. -/
def outlineMembers : List (String × Json) → List (Outline × Outline)
  | [] => []
  | (k, v) :: rest => (.str k, outline v) :: outlineMembers rest
end

end Json

end Campaign
