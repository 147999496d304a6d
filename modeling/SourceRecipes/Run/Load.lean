import SourceRecipes.Json.Reader
import SourceRecipes.Run.Config
import SourceRecipes.Yaml.Reader

/-!
# Reading configurations from texts

A configuration is written in JSON or in YAML. One that can be read but has unusable options is refused.
-/

namespace SourceRecipes

/-- Why a text is no usable configuration. -/
inductive ConfigError where
  | json (cause : Json.Error)
  | yaml (cause : Yaml.Error)
  | invalidOptions (cause : InvalidOptions)

namespace RunConfig

def checked (config : RunConfig) : Except ConfigError RunConfig :=
  match config.validate with
  | .error cause => .error (.invalidOptions cause)
  | .ok () => .ok config

def ofJson (text : String) : Except ConfigError RunConfig :=
  match Json.read RunConfig.read text with
  | .error cause => .error (.json cause)
  | .ok config => config.checked

def ofYaml (text : String) : Except ConfigError RunConfig :=
  match Yaml.read RunConfig.read text with
  | .error cause => .error (.yaml cause)
  | .ok config => config.checked

end RunConfig

end SourceRecipes
