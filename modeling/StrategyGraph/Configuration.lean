import StrategyGraph.Data.Fields
import StrategyGraph.Data.Toml.Reader
import StrategyGraph.Indicator.Resolution

/-!
# Compiler configuration

Every setting has a default, so an empty configuration is valid. A
configuration is checked as a whole: the default range period first, then the
name of the generated class, then the indicator overrides in the order of their
names. The first problem found is reported.
-/

namespace StrategyGraph

/-- Compiler settings. -/
structure Configuration where
  /-- Treat every warning as an error. -/
  strict : Bool
  /-- Overrides of the documented parameter defaults, by indicator name. -/
  indicatorDefaults : Dictionary (Dictionary Float)
  /-- Period of range-based exits that give none. -/
  defaultAtrPeriod : Nat
  /-- Name of the generated strategy class. -/
  className : String
  deriving DecidableEq

/-- What is wrong with a configured parameter default. -/
inductive DefaultFault where
  | unknownParameter
  | invalidValue (fault : ValueFault)
  deriving DecidableEq

/-- Why a configuration is refused. -/
inductive ConfigurationError where
  | unknownIndicator (name : String)
  | invalidDefault (indicator parameter : String) (fault : DefaultFault)
  | invalidAtrPeriod
  | invalidClassName (name : String)
  deriving DecidableEq

namespace DefaultFault

/-- Wording of what is wrong with a configured default. -/
def reason : DefaultFault -> String
  | .unknownParameter => "unknown parameter"
  | .invalidValue fault => fault.reason

end DefaultFault

namespace ConfigurationError

/-- Wording of a refusal. -/
def message : ConfigurationError -> String
  | .unknownIndicator name => "unknown indicator in indicator_defaults: " ++ name
  | .invalidDefault indicator parameter fault =>
      "indicator_defaults." ++ indicator ++ "." ++ parameter ++ ": " ++ fault.reason
  | .invalidAtrPeriod => "default_atr_period must be >= 1"
  | .invalidClassName name =>
      "codegen.class_name `" ++ name ++ "` is not a valid identifier"

end ConfigurationError

/-- Whether a character may start an identifier. -/
def startsIdentifier (character : Char) : Bool :=
  ('a' <= character && character <= 'z') ||
    ('A' <= character && character <= 'Z') || character = '_'

/-- Whether a text is an identifier of ASCII letters, digits and underscores. -/
def isIdentifier (name : String) : Bool :=
  match name.toList with
  | [] => false
  | first :: rest =>
      startsIdentifier first &&
        rest.all fun character => startsIdentifier character || isDigit character

/-- Check the name of a generated class. -/
def checkClassName (name : String) : Except ConfigurationError Unit :=
  if isIdentifier name then .ok () else .error (.invalidClassName name)

namespace Configuration

/-- The configuration without any settings. -/
def default : Configuration where
  strict := false
  indicatorDefaults := .empty
  defaultAtrPeriod := 14
  className := "WickStrategy"

instance : Inhabited Configuration := ⟨default⟩

/-- Configured defaults of an indicator, empty when there are none. -/
def overrides (configuration : Configuration) (indicator : Indicator) : Dictionary Float :=
  (configuration.indicatorDefaults.find? indicator.name).getD .empty

/-- Check one configured default of a known indicator. -/
def checkDefault (indicator : Indicator) (entry : String × Float) :
    Except ConfigurationError Unit :=
  match indicator.parameter? entry.1 with
  | none => .error (.invalidDefault indicator.name entry.1 .unknownParameter)
  | some parameter =>
      match parameter.fault? entry.2 with
      | some fault =>
          .error (.invalidDefault indicator.name entry.1 (.invalidValue fault))
      | none => .ok ()

/-- Check the configured defaults of one indicator name. -/
def checkDefaults (entry : String × Dictionary Float) : Except ConfigurationError Unit :=
  match Indicator.ofName? entry.1 with
  | none => .error (.unknownIndicator entry.1)
  | some indicator => entry.2.entries.forM (checkDefault indicator)

/-- Check a whole configuration. -/
def check (configuration : Configuration) : Except ConfigurationError Unit := do
  if configuration.defaultAtrPeriod = 0 then
    .error .invalidAtrPeriod
  else
    checkClassName configuration.className
    configuration.indicatorDefaults.entries.forM checkDefaults

/-- Read the settings of generated code. -/
def className? : Datum -> Option String :=
  Datum.structure? ["class_name"] fun slot =>
    (slot "class_name").optional default.className Datum.text?

/-- Read the settings of generated code and pass over surplus items of a list. -/
def leadingClassName? : Datum -> Option String
  | .list items => className? (.list (items.take 1))
  | datum => className? datum

/-- Names of the settings, in the order in which a list gives them. -/
def layout : List String :=
  ["strict", "indicator_defaults", "default_atr_period", "codegen"]

/-- Read a configuration without checking it, with a reader of the settings of
generated code. -/
def ofDatumWith? (readClassName : Datum -> Option String) :
    Datum -> Option Configuration :=
  Datum.structure? layout fun slot => do
    let strict <- (slot "strict").optional default.strict Datum.boolean?
    let indicatorDefaults <- (slot "indicator_defaults").optional
      default.indicatorDefaults (Datum.dictionaryOf? (Datum.dictionaryOf? Datum.number?))
    let defaultAtrPeriod <- (slot "default_atr_period").optional
      default.defaultAtrPeriod Datum.count?
    let className <- (slot "codegen").optional default.className readClassName
    return { strict, indicatorDefaults, defaultAtrPeriod, className }

/-- Read a configuration without checking it. -/
def ofDatum? : Datum -> Option Configuration :=
  ofDatumWith? className?

/-- Read a configuration from TOML without checking it. -/
def ofToml? (text : String) : Option Configuration :=
  (Toml.parse text).bind (ofDatumWith? leadingClassName?)

/-- The structured form of a configuration. -/
def toDatum (configuration : Configuration) : Datum :=
  .record [
    ("strict", .boolean configuration.strict),
    ("indicator_defaults",
      .ofDictionary (.ofDictionary .number) configuration.indicatorDefaults),
    ("default_atr_period", .ofNat configuration.defaultAtrPeriod),
    ("codegen", .record [("class_name", .text configuration.className)])]

end Configuration
end StrategyGraph
