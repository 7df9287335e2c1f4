import Campaign.Config.Basic
import Campaign.Json.Outline
import Campaign.Text.Duration

/-! The options a campaign runs with: where to write, how long to run, the campaign's quantities,
how many observers watch it and whether instances get observers of their own, the fuzzer's
settings and the filters. A configuration gives all but the observers.
-/

namespace Campaign

/-- The options of a campaign run. -/
structure DirectorOptions where
  outDir : Option Path := none
  globalTimeout : Option Duration := none
  quantities : QuantitySet := {}
  observers : Nat := 0
  instanceObservers : Bool := false
  fuzzer : Option FuzzerConfig := none
  filters : FilterSet := {}
  deriving Repr

namespace DirectorOptions

/-- The outline of the options, naming each field. -/
def outline (o : DirectorOptions) : Outline :=
  .record "Options"
    [("out_dir", Outline.option (fun p => .str p.text) o.outDir),
     ("global_timeout", Outline.option (fun d => .atom d.render) o.globalTimeout),
     ("quantities", o.quantities.outline),
     ("observers", .nat o.observers),
     ("instance_observers", .bool o.instanceObservers),
     ("fuzzer", Outline.option
        (fun f => .tuple "FuzzerConfig"
          [.map (f.entries.map fun (k, v) => (Outline.str k, v.outline))]) o.fuzzer),
     ("filters", .tuple "FilterSet" [.list (o.filters.patterns.map .str)])]

end DirectorOptions

/-- The options a configuration gives: no observers. -/
def CampaignConfig.directorOptions (c : CampaignConfig) : DirectorOptions :=
  { outDir := c.outDir, globalTimeout := c.globalTimeoutSecs.map Duration.ofSecs,
    quantities := c.quantities, fuzzer := c.fuzzer, filters := c.filters }

end Campaign
