import FlowScript.Decimal.Layout
import FlowScript.Property.Basic

/-!
# The written form of properties and their types
-/

namespace FlowScript

/-- The written form of a type. -/
def PropertyType.text : PropertyType → String
  | .bool => "bool"
  | .int => "int"
  | .float => "float"
  | .string => "string"
  | .actor => "actor"
  | .enum name => "enum<" ++ name ++ ">"
  | .group => "group"
  | .array => "array"

/-- The name of a value's type, without the name of an enumeration. -/
def PropertyType.family : PropertyType → String
  | .enum _ => "enum"
  | type => type.text

namespace Property

/-- The written form of a boolean. -/
def boolText (b : Bool) : String := if b then "true" else "false"

/-- The name of a value's type, without the name of an enumeration. -/
def typeName (value : Property) : String := value.type.family

mutual

/-- The written form of a value. -/
def text : Property → String
  | bool b => boolText b
  | int i => i.toInt.repr
  | float x => Decimal.Layout.plain.render x
  | string s => "\"" ++ s ++ "\""
  | actor (some id) => id.text
  | actor none => "actor:none"
  | enum typeName value => typeName ++ "::" ++ value
  | group fields => "\x7b" ++ fieldsText true fields ++ "\x7d"
  | array items => "[" ++ itemsText true items ++ "]"

/-- The fields of a group, separated by commas; the flag marks the first one. -/
def fieldsText : Bool → List (String × Property) → String
  | _, [] => ""
  | first, (k, v) :: rest =>
    (if first then "" else ", ") ++ k ++ ": " ++ text v ++ fieldsText false rest

/-- The items of an array, separated by commas; the flag marks the first one. -/
def itemsText : Bool → List Property → String
  | _, [] => ""
  | first, v :: rest => (if first then "" else ", ") ++ text v ++ itemsText false rest

end

end Property

end FlowScript
