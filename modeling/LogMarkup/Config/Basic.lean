import LogMarkup.Config.Limits
import LogMarkup.Config.Shape

/-!
# `LogMarkup.Config.Basic` — configurations and what is wrong with one

## Contents
- `Config`, the bounds of the searches and the shapes of calls.
- `ConfigError`, with its message.
- `Config.withLimits`, `Config.withShape` and `Config.withPreferredShape`, which refuse zero bounds
  and texts that are no patterns.
-/

namespace LogMarkup

/-- What the analyses of a document depend on. -/
structure Config where
  limits : Limits := {}
  shapes : Shapes := Shapes.usual

/-- Why a configuration is refused. -/
inductive ConfigError
  | invalidPattern (source : String) (cause : PatternError)
  | zeroLimit (limit : Limit)
deriving Repr, DecidableEq

/-- The error in words. -/
def ConfigError.message : ConfigError → String
  | invalidPattern source cause => "invalid call pattern '" ++ source ++ "': " ++ cause.message
  | zeroLimit limit => "limit '" ++ limit.name ++ "' must be at least 1"

/-- Bounds that are all at least one. -/
def Limits.check (limits : Limits) : Except ConfigError Limits :=
  match limits.firstZero? with
  | some limit => .error (.zeroLimit limit)
  | none => .ok limits

namespace Config

/-- The configuration with other bounds. -/
def withLimits (config : Config) (limits : Limits) : Except ConfigError Config :=
  match limits.check with
  | .error error => .error error
  | .ok limits => .ok { config with limits := limits }

/-- The shape with the given written pattern, or the refusal of the pattern. -/
def readShape (source : String) (flavor : Flavor) : Except ConfigError Shape :=
  match Shape.read source flavor with
  | .error cause => .error (.invalidPattern source cause)
  | .ok shape => .ok shape

/-- The configuration with one more shape, behind all others. -/
def withShape (config : Config) (source : String) (flavor : Flavor) :
    Except ConfigError Config :=
  match readShape source flavor with
  | .error error => .error error
  | .ok shape => .ok { config with shapes := config.shapes.append shape }

/-- The configuration with one more shape, in front of all others. -/
def withPreferredShape (config : Config) (source : String) (flavor : Flavor) :
    Except ConfigError Config :=
  match readShape source flavor with
  | .error error => .error error
  | .ok shape => .ok { config with shapes := config.shapes.prepend shape }

end Config

end LogMarkup
