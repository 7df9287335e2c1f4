import Campaign.Cli.Execute
import Campaign.Service.Reply
import Campaign.Files.Tree

/-! The command line runs in a working directory holding `campaign.json` with the request's
configuration text, when it gives one. The answer shows the exit code, standard output, the
failure report (standard error from its `Error: ` on, or `null`), and whether the warning of a
mutant that never rotates was printed.
-/

namespace Campaign

namespace Service

/-- Text from the first occurrence of `mark` on, when it occurs. -/
def fromMark (mark text : String) : Option String :=
  match text.splitOn mark with
  | _ :: after :: more => some (mark ++ mark.intercalate (after :: more))
  | _ => none

/-- `cli`: the command line. -/
def cliAnswer (req : Json) : Answer := do
  let args ← setting req "args" (.list Shape.str) (.array [])
  let text ← setting req "config_text" (.optional Shape.str) .null
  let tree : Tree := match text with
    | .string t => (Tree.write {} ⟨"campaign.json"⟩ t).toOption.getD {}
    | _ => {}
  let r := Cli.runWith (args.asList.map Json.asString) fun p => tree.read ⟨p⟩
  return .object [("code", .nat r.code), ("stdout", .string r.stdout),
    ("error", Json.opt Json.string (fromMark "Error: " r.stderr)),
    ("warned_no_rotation", .bool (fromMark "no rotation configured" r.stderr).isSome)]

end Service

end Campaign
