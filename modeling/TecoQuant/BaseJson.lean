import Mathlib.Data.List.Sort
import TecoQuant.BaseBinary64

/-! JSON values and their compact text as the standard `json` module writes it, with sorted keys. The
keys of an object are the keys of a dictionary, in insertion order. -/

inductive Json where
  | null
  | bool (value : Bool)
  | int (value : Int)
  | float (value : Binary64)
  | string (value : String)
  | array (items : List Json)
  | object (fields : List (String × Json))
  deriving Repr

namespace Json

/-! ### Strings -/

def hexDigits (n : Nat) : List Char :=
  [Nat.digitChar (n / 4096 % 16), Nat.digitChar (n / 256 % 16), Nat.digitChar (n / 16 % 16),
    Nat.digitChar (n % 16)]

/-- `\uXXXX`, as two surrogates beyond the first plane. -/
def unicodeEscape (c : Char) : List Char :=
  let n := c.toNat
  if n < 0x10000 then '\\' :: 'u' :: hexDigits n
  else
    '\\' :: 'u' :: hexDigits (0xd800 + (n - 0x10000) / 1024) ++
      '\\' :: 'u' :: hexDigits (0xdc00 + (n - 0x10000) % 1024)

/-- A character inside a string literal. `ascii` is `ensure_ascii`. -/
def escapeChar (ascii : Bool) (c : Char) : List Char :=
  if c = '"' then ['\\', '"']
  else if c = '\\' then ['\\', '\\']
  else if c = '\n' then ['\\', 'n']
  else if c = '\r' then ['\\', 'r']
  else if c = '\t' then ['\\', 't']
  else if c = '\x08' then ['\\', 'b']
  else if c = '\x0c' then ['\\', 'f']
  else if c.toNat < 32 then unicodeEscape c
  else if ascii = true ∧ 126 < c.toNat then unicodeEscape c
  else [c]

def stringText (ascii : Bool) (s : String) : List Char :=
  '"' :: s.toList.flatMap (escapeChar ascii) ++ ['"']

/-! ### Numbers -/

def intText (n : Int) : List Char :=
  (if n < 0 then ['-'] else []) ++ Nat.toDigits 10 n.natAbs

def floatText : Binary64 → List Char
  | .finite negative value => (Binary64.repr (.finite negative value)).toList
  | .infinity negative => (if negative then "-Infinity" else "Infinity").toList
  | .nan => "NaN".toList

/-! ### Values -/

mutual

/-- The text of a value, its objects in the order of their fields. -/
def text (ascii : Bool) : Json → List Char
  | .null => ['n', 'u', 'l', 'l']
  | .bool true => ['t', 'r', 'u', 'e']
  | .bool false => ['f', 'a', 'l', 's', 'e']
  | .int value => intText value
  | .float value => floatText value
  | .string value => stringText ascii value
  | .array [] => ['[', ']']
  | .array (item :: rest) => '[' :: text ascii item ++ itemsText ascii rest
  | .object [] => ['{', '}']
  | .object ((key, value) :: rest) =>
      '{' :: stringText ascii key ++ ':' :: text ascii value ++ fieldsText ascii rest

/-- The further items of an array, to its end. -/
def itemsText (ascii : Bool) : List Json → List Char
  | [] => [']']
  | item :: rest => ',' :: text ascii item ++ itemsText ascii rest

/-- The further fields of an object, to its end. -/
def fieldsText (ascii : Bool) : List (String × Json) → List Char
  | [] => ['}']
  | (key, value) :: rest =>
      ',' :: stringText ascii key ++ ':' :: text ascii value ++ fieldsText ascii rest

end

/-- Fields in the order of their keys. -/
def byKey (fields : List (String × Json)) : List (String × Json) :=
  fields.insertionSort fun left right => left.1 ≤ right.1

mutual

/-- The value with the keys of every object sorted. -/
def sortKeys : Json → Json
  | .array items => .array (sortItems items)
  | .object fields => .object (byKey (sortFields fields))
  | value => value

def sortItems : List Json → List Json
  | [] => []
  | item :: rest => sortKeys item :: sortItems rest

def sortFields : List (String × Json) → List (String × Json)
  | [] => []
  | (key, value) :: rest => (key, sortKeys value) :: sortFields rest

end

/-- `json.dumps(value, sort_keys=True, separators=(",", ":"), ensure_ascii=ascii)`. -/
def dumps (ascii : Bool) (value : Json) : String := String.ofList (text ascii (sortKeys value))

/-- The value of a key. -/
def get? : Json → String → Option Json
  | .object fields, key => fields.lookup key
  | _, _ => none

example : dumps false (.object [("b", .int (-12)), ("a", .array [.null, .string "é\n"])]) =
    "\x7b\"a\":[null,\"é\\n\"],\"b\":-12\x7d" := by decide

example : dumps true (.string "é\x7f😀") = "\"\\u00e9\\u007f\\ud83d\\ude00\"" := by decide

end Json
