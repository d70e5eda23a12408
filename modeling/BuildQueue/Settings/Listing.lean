import BuildQueue.Memo.Listing
import BuildQueue.Policy

/-!
# Listings of settings and policies

The listing of settings has the settings of each builder by its name; that of a policy has the names
of the registered strategies as well.
-/

namespace BuildQueue
namespace Setting

/-- The listing of a setting. -/
def listing : Setting → String
  | standard => "Default"
  | disabled => "Disabled"
  | named name => "Named(" ++ Text.quoted name ++ ")"

end Setting

namespace Settings

/-- The listing of settings. -/
def listing (settings : Settings) : String :=
  let ofSetting (setting : Option Setting) : String × String :=
    ("collapse_requests", listOption Setting.listing setting)
  let ofBuilder (builder : String × Option Setting) : String × String :=
    (builder.1, listRecord "BuilderCollapseConfig" [ofSetting builder.2])
  listRecord "CollapseConfig" [
    ofSetting settings.collapse,
    ("cache", listRecord "CacheConfig" [
      ("entry_limit", toString settings.cache.entryLimit),
      ("ttl", listOption listSeconds settings.cache.ttl)]),
    ("builders", listMap (settings.builders.entries.map ofBuilder))]

end Settings

namespace Policy

/-- The listing of a policy: its settings, and the names of the registered strategies. -/
def listing {σ : Type} (policy : Policy σ) : String :=
  listRecord "BuilderCollapseFns" [
    ("config", policy.settings.listing),
    ("named", "[" ++ String.intercalate ", " (policy.registered.keys.map Text.quoted) ++ "]")]

end Policy
end BuildQueue
