import AccessControl.Decision.Cache
import AccessControl.Number.Literal
import AccessControl.Roles.Graph

/-! # Settings

The switches of an enforcer, and how they are read from named texts such as the environment of a
process. A text that cannot be read leaves the default in force.
-/

namespace AccessControl

/-- The switches of an enforcer. Times are in milliseconds. -/
structure Settings where
  /-- Whether requests are decided at all; otherwise everything is allowed. -/
  enabled : Bool := true
  /-- Whether changes are passed on to the store. -/
  autoSave : Bool := true
  /-- Whether changes of grouping rows change the role links. -/
  autoBuildRoleLinks : Bool := true
  /-- Whether changes are announced to the watcher. -/
  autoNotifyWatcher : Bool := true
  /-- Whether changes clear the decision cache. -/
  autoCleanCache : Bool := true
  /-- The longest chain of role links that a query follows. -/
  maxHierarchyLevel : Nat := defaultMaxLevel
  /-- How long to wait for access to the state; without a value, for ever. -/
  lockTimeout : Option Nat := none
  /-- How many workers decide a batch; zero leaves the number open. -/
  batchParallelism : Nat := 0
  /-- From how long on a decision counts as slow. -/
  slowEnforce : Nat := 5
  deriving DecidableEq

/-- Named texts; the first one of a name counts. -/
abbrev Variables := List (String × String)

namespace Variables

/-- A switch: the word true or the word false. -/
def switch (environment : Variables) (name : String) (fallback : Bool) : Bool :=
  match environment.lookup name with
  | some "true" => true
  | some "false" => false
  | _ => fallback

/-- An unsigned 64-bit number, in decimal digits behind an optional plus sign. -/
def readNumber? (text : String) : Option Nat :=
  (readInteger? 0 (UInt64.size - 1) text.toList).map Int.toNat

def number? (environment : Variables) (name : String) : Option Nat :=
  (environment.lookup name).bind readNumber?

end Variables

namespace Settings

/-- The settings that named texts ask for. -/
def ofVariables (environment : Variables) : Settings :=
  let defaults : Settings := {}
  { enabled := environment.switch "DOTAUTHZ_ENABLED" defaults.enabled
    autoSave := environment.switch "DOTAUTHZ_AUTO_SAVE" defaults.autoSave
    autoBuildRoleLinks :=
      environment.switch "DOTAUTHZ_AUTO_BUILD_ROLE_LINKS" defaults.autoBuildRoleLinks
    autoNotifyWatcher :=
      environment.switch "DOTAUTHZ_AUTO_NOTIFY_WATCHER" defaults.autoNotifyWatcher
    autoCleanCache := environment.switch "DOTAUTHZ_AUTO_CLEAN_CACHE" defaults.autoCleanCache
    maxHierarchyLevel :=
      (environment.number? "DOTAUTHZ_MAX_HIERARCHY_LEVEL").getD defaults.maxHierarchyLevel
    lockTimeout := environment.number? "DOTAUTHZ_LOCK_TIMEOUT_MS"
    batchParallelism :=
      (environment.number? "DOTAUTHZ_BATCH_PARALLELISM").getD defaults.batchParallelism
    slowEnforce := (environment.number? "DOTAUTHZ_SLOW_ENFORCE_MS").getD defaults.slowEnforce }

end Settings

/-- The limits of a cache that named texts ask for. -/
def CacheSettings.ofVariables (environment : Variables) : CacheSettings :=
  let defaults : CacheSettings := {}
  { ttl := environment.number? "DOTAUTHZ_CACHE_TTL_MS"
    capacity := (environment.number? "DOTAUTHZ_CACHE_CAPACITY").or defaults.capacity }

end AccessControl
