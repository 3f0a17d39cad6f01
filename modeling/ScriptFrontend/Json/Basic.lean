/-!
# JSON values

A value keeps the written text of its numbers and the order of its members. `compact` writes it
without blanks; only quotes, backslashes and control characters are escaped.
-/

namespace ScriptFrontend

inductive Json where
  | null
  | bool (value : Bool)
  | number (text : String)
  | string (value : String)
  | array (items : List Json)
  | object (members : List (String × Json))
deriving Inhabited

namespace Json

def ofNat (n : Nat) : Json := .number (toString n)

def ofInt (n : Int) : Json := .number (toString n)

def ofOption {α : Type} (f : α → Json) : Option α → Json
  | some a => f a
  | none => .null

def ofList {α : Type} (f : α → Json) (items : List α) : Json := .array (items.map f)

def hexDigit (n : Nat) : Char := (Nat.toDigits 16 n).headD '0'

def escapeChar (c : Char) : String :=
  if c == '"' then "\\\""
  else if c == '\\' then "\\\\"
  else if c == '\n' then "\\n"
  else if c == '\r' then "\\r"
  else if c == '\t' then "\\t"
  else if c == '\x08' then "\\b"
  else if c == '\x0c' then "\\f"
  else if c.toNat < 0x20 then
    String.ofList ['\\', 'u', '0', '0', hexDigit (c.toNat / 16), hexDigit (c.toNat % 16)]
  else c.toString

def quoted (s : String) : String :=
  s.foldl (fun out c => out ++ escapeChar c) "\"" ++ "\""

mutual

def write (out : String) : Json → String
  | .null => out ++ "null"
  | .bool b => out ++ (if b then "true" else "false")
  | .number text => out ++ text
  | .string s => out ++ quoted s
  | .array items => writeItems (out ++ "[") true items ++ "]"
  | .object members => writeMembers (out ++ "\x7b") true members ++ "\x7d"

def writeItems (out : String) (isFirst : Bool) : List Json → String
  | [] => out
  | v :: rest => writeItems (write (if isFirst then out else out ++ ",") v) false rest

def writeMembers (out : String) (isFirst : Bool) : List (String × Json) → String
  | [] => out
  | (key, v) :: rest =>
    writeMembers (write ((if isFirst then out else out ++ ",") ++ quoted key ++ ":") v) false rest

end

def compact (v : Json) : String := write "" v

end Json

end ScriptFrontend
