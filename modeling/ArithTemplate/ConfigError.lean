import ArithTemplate.Json.Place

set_option autoImplicit false

/-!
Why settings or bindings are refused.
-/

namespace ArithTemplate

inductive ConfigError where
  | settings (flaw : Json.Flaw) (place : Json.Place)
  | bindings (flaw : Json.Flaw) (place : Json.Place)
  | variableName (name : Text)
deriving DecidableEq, Repr

def ConfigError.message : ConfigError → String
  | .settings flaw place =>
      "config error: invalid template options: " ++ flaw.message ++ place.message
  | .bindings flaw place =>
      "config error: invalid variable bindings: " ++ flaw.message ++ place.message
  | .variableName name =>
      "config error: invalid variable name '" ++ String.ofList name ++
        "'; expected ASCII letters and digits"

end ArithTemplate
