/-!
# Values of configuration files

What a key of a configuration file can hold. The entries of a table are in the order of the file.
-/

namespace PackHost.Toml

inductive Value where
  | text (s : String)
  | integer (n : Int)
  | float (x : Float)
  | boolean (b : Bool)
  | datetime (s : String)
  | array (items : List Value)
  | table (entries : List (String × Value))

namespace Value

instance : Inhabited Value := ⟨.table []⟩

def typeName : Value → String
  | .text _ => "string"
  | .integer _ => "integer"
  | .float _ => "float"
  | .boolean _ => "boolean"
  | .datetime _ => "datetime"
  | .array _ => "array"
  | .table _ => "table"

def least : Int := -9223372036854775808

def greatest : Int := 9223372036854775807

/-- The key under which a point in time shows its text when it is read as a table. -/
def datetimeKey : String := "$__toml_private_datetime"

/-- The entries of a table; a point in time counts as a table with one entry. -/
def entries? : Value → Option (List (String × Value))
  | .table entries => some entries
  | .datetime s => some [(datetimeKey, .text s)]
  | _ => none

end Value

end PackHost.Toml
