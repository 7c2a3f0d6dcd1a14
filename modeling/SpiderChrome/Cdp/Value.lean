/-!
# JSON values and requests

The dynamic values that travel inside protocol messages, with the reads that the handler performs on them, and the request record that carries one to the wire.
-/

namespace SpiderChrome

abbrev MethodId := String

/-- A `serde_json::Value`. A number is kept as its literal. -/
inductive Value where
  | null
  | bool (b : Bool)
  | number (literal : String)
  | string (s : String)
  | array (items : List Value)
  | object (fields : List (String × Value))

namespace Value

/-- `map.get(key)` of an object. -/
def field? : Value → String → Option Value
  | object fields, key => (fields.find? fun field => field.1 == key).map Prod.snd
  | _, _ => none

/-- `value[key]`: a missing key, or a value that is no object, reads as `null`. -/
def index (value : Value) (key : String) : Value := (value.field? key).getD null

def asStr : Value → Option String
  | string s => some s
  | _ => none

def asBool : Value → Option Bool
  | bool b => some b
  | _ => none

def asArray : Value → Option (List Value)
  | array items => some items
  | _ => none

def isObject : Value → Bool
  | object _ => true
  | _ => false

/-- `value[key] = item`: `null` becomes an object first. Any other value that is no object makes the source panic, and is left alone here; headers are objects. -/
def setIndex : Value → String → Value → Value
  | object fields, key, item =>
      if fields.any fun field => field.1 == key then
        object (fields.map fun field => if field.1 == key then (key, item) else field)
      else object (fields ++ [(key, item)])
  | null, key, item => object [(key, item)]
  | value, _, _ => value

/-- `map.entry(key)`, filled in when it is vacant. A value that is no object is left alone. -/
def insertVacant : Value → String → Value → Value
  | object fields, key, value =>
      if fields.any fun field => field.1 == key then object fields
      else object (fields ++ [(key, value)])
  | value, _, _ => value

end Value

/-- A request that is yet to be given a call id. -/
structure Request where
  method : MethodId
  sessionId : Option String
  params : Value

end SpiderChrome
