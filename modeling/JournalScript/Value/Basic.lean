import JournalScript.Value.Decimal

/-!
# JournalScript.Value.Basic

Structured values, the data that requests bring and answers give back: null, truth values,
integers, numbers with a fraction, texts, lists and objects with ordered fields.

Main definitions: `Value`, `Value.isTrue`, `Value.get?`, `Value.put`, `Value.display` (the text of a
value when it is quoted in a message).
-/

namespace JournalScript

inductive Value where
  | null
  | bool (b : Bool)
  | int (n : Int)
  | decimal (x : Decimal)
  | str (s : Text)
  | list (items : List Value)
  | object (fields : List (Text × Value))
  deriving Inhabited

namespace Value

def kind : Value → String
  | .null => "NoneType"
  | .bool _ => "bool"
  | .int _ => "int"
  | .decimal _ => "float"
  | .str _ => "str"
  | .list _ => "list"
  | .object _ => "dict"

/-- Whether a value counts as true: null, zero and everything empty do not. -/
def isTrue : Value → Bool
  | .null => false
  | .bool b => b
  | .int n => n != 0
  | .decimal x => x.digits != 0
  | .str s => !s.isEmpty
  | .list items => !items.isEmpty
  | .object fields => !fields.isEmpty

def get? (name : Text) : List (Text × Value) → Option Value
  | [] => none
  | (k, v) :: rest => if k = name then some v else get? name rest

/-- Sets a field: the old value is replaced where it stands, a new field goes to the end. -/
def put (name : Text) (value : Value) : List (Text × Value) → List (Text × Value)
  | [] => [(name, value)]
  | (k, v) :: rest => if k = name then (k, value) :: rest else (k, v) :: put name value rest

def texts (ts : List Text) : Value := .list (ts.map .str)

mutual

/-- The text of a value inside another one, where texts are quoted. -/
def quoted : Value → Text
  | .null => ['N', 'o', 'n', 'e']
  | .bool true => ['T', 'r', 'u', 'e']
  | .bool false => ['F', 'a', 'l', 's', 'e']
  | .int n => Text.ofInt n
  | .decimal x => x.text
  | .str s => Text.quoted s
  | .list items => '[' :: (quotedItems items ++ [']'])
  | .object fields => '\x7b' :: (quotedFields fields ++ ['\x7d'])

def quotedItems : List Value → Text
  | [] => []
  | [v] => quoted v
  | v :: rest => quoted v ++ [',', ' '] ++ quotedItems rest

def quotedFields : List (Text × Value) → Text
  | [] => []
  | [(k, v)] => Text.quoted k ++ [':', ' '] ++ quoted v
  | (k, v) :: rest => Text.quoted k ++ [':', ' '] ++ quoted v ++ [',', ' '] ++ quotedFields rest

end

def display : Value → Text
  | .str s => s
  | v => quoted v

end Value
end JournalScript
