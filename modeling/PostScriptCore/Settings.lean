import PostScriptCore.Word

/-!
# Settings

The sizes and limits a machine is started with.  A caller names the settings that differ from the
defaults in a `SettingsRequest`; `SettingsRequest.resolve` fills in the rest and refuses a
combination that no machine could work with.

* `Settings` — the resolved values, with `Settings.standard` as the defaults.
* `Settings.listing`, `SettingsRequest.ofLookup` — the values by name.
* `SettingsRequest.resolve` — defaults, then the requested values, then the checks in order.
* `SettingsProblem.reason` — why a combination is refused.
-/

namespace PostScriptCore

/-- Sizes and limits of a machine. -/
structure Settings where
  /-- Granule of arena growth, a multiple of the operating system's page. -/
  pageSize : Nat
  initialArenaSize : Nat
  /-- No arena grows past this many bytes. -/
  maxArenaSize : Nat
  initialEntities : Nat
  maxEntities : Nat
  /-- Free list misses before the allocator asks for a collection. -/
  gcPeriod : Nat
  /-- Objects per stack segment. -/
  segmentSize : Nat
  operandStackLimit : Nat
  execStackLimit : Nat
  dictStackLimit : Nat
  deriving DecidableEq

namespace Settings

/-- The defaults. -/
def standard : Settings where
  pageSize := osPageSize
  initialArenaSize := 65536
  maxArenaSize := 268435456
  initialEntities := 256
  maxEntities := 4194304
  gcPeriod := 64
  segmentSize := 128
  operandStackLimit := 500
  execStackLimit := 250
  dictStackLimit := 20

/-- The values with their names. -/
def listing (s : Settings) : List (String × Nat) :=
  [("page_size", s.pageSize), ("initial_arena_size", s.initialArenaSize),
    ("max_arena_size", s.maxArenaSize), ("initial_entities", s.initialEntities),
    ("max_entities", s.maxEntities), ("gc_period", s.gcPeriod), ("segment_size", s.segmentSize),
    ("operand_stack_limit", s.operandStackLimit), ("exec_stack_limit", s.execStackLimit),
    ("dict_stack_limit", s.dictStackLimit)]

end Settings

/-- Why a combination of settings is refused. -/
inductive SettingsProblem
  | zeroSize
  | unalignedPage
  | initialArenaTooLarge
  | initialEntitiesOutOfRange
  | zeroGcPeriod
  | zeroSegmentSize
  | zeroStackLimit
  deriving DecidableEq

/-- The sentence that describes the problem. -/
def SettingsProblem.reason : SettingsProblem → String
  | zeroSize => "Sizes must be > 0"
  | unalignedPage => "page_size must match OS page alignment"
  | initialArenaTooLarge => "initial_arena_size must not exceed max_arena_size"
  | initialEntitiesOutOfRange => "initial_entities must be in 2..=max_entities"
  | zeroGcPeriod => "gc_period must be > 0"
  | zeroSegmentSize => "segment_size must be > 0"
  | zeroStackLimit => "stack limits must be > 0"

/-- The first problem of the settings, in a fixed order of checks. -/
def Settings.problem? (s : Settings) : Option SettingsProblem :=
  if s.pageSize = 0 ∨ s.initialArenaSize = 0 then some .zeroSize
  else if s.pageSize % osPageSize ≠ 0 then some .unalignedPage
  else if s.maxArenaSize < s.initialArenaSize then some .initialArenaTooLarge
  else if s.initialEntities < 2 ∨ s.maxEntities < s.initialEntities then
    some .initialEntitiesOutOfRange
  else if s.gcPeriod = 0 then some .zeroGcPeriod
  else if s.segmentSize = 0 then some .zeroSegmentSize
  else if s.operandStackLimit = 0 ∨ s.execStackLimit = 0 ∨ s.dictStackLimit = 0 then
    some .zeroStackLimit
  else none

/-- The settings a caller asks for; whatever is left out takes its default. -/
structure SettingsRequest where
  pageSize : Option Nat := none
  initialArenaSize : Option Nat := none
  maxArenaSize : Option Nat := none
  initialEntities : Option Nat := none
  maxEntities : Option Nat := none
  gcPeriod : Option Nat := none
  segmentSize : Option Nat := none
  operandStackLimit : Option Nat := none
  execStackLimit : Option Nat := none
  dictStackLimit : Option Nat := none

namespace SettingsRequest

/-- The request of a caller who names the values as `Settings.listing` does. -/
def ofLookup (value? : String → Option Nat) : SettingsRequest where
  pageSize := value? "page_size"
  initialArenaSize := value? "initial_arena_size"
  maxArenaSize := value? "max_arena_size"
  initialEntities := value? "initial_entities"
  maxEntities := value? "max_entities"
  gcPeriod := value? "gc_period"
  segmentSize := value? "segment_size"
  operandStackLimit := value? "operand_stack_limit"
  execStackLimit := value? "exec_stack_limit"
  dictStackLimit := value? "dict_stack_limit"

/-- The requested values over the defaults, unchecked. -/
def overStandard (r : SettingsRequest) : Settings where
  pageSize := r.pageSize.getD Settings.standard.pageSize
  initialArenaSize := r.initialArenaSize.getD Settings.standard.initialArenaSize
  maxArenaSize := r.maxArenaSize.getD Settings.standard.maxArenaSize
  initialEntities := r.initialEntities.getD Settings.standard.initialEntities
  maxEntities := r.maxEntities.getD Settings.standard.maxEntities
  gcPeriod := r.gcPeriod.getD Settings.standard.gcPeriod
  segmentSize := r.segmentSize.getD Settings.standard.segmentSize
  operandStackLimit := r.operandStackLimit.getD Settings.standard.operandStackLimit
  execStackLimit := r.execStackLimit.getD Settings.standard.execStackLimit
  dictStackLimit := r.dictStackLimit.getD Settings.standard.dictStackLimit

/-- The settings to run with, or the first problem with them. -/
def resolve (r : SettingsRequest) : Except SettingsProblem Settings :=
  match r.overStandard.problem? with
  | none => .ok r.overStandard
  | some problem => .error problem

end SettingsRequest

end PostScriptCore
