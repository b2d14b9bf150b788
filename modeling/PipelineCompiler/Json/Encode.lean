import PipelineCompiler.Data.Value
import PipelineCompiler.Json.Dialect

set_option autoImplicit false

namespace PipelineCompiler.Json

def unitEscape (unit : Nat) : List Char := '\\' :: 'u' :: Text.hexDigits 4 unit

/-- A character inside a text: quotes, backslashes, control characters and all that is not ASCII
are escaped, above U+FFFF as two surrogates. -/
def encodeChar (c : Char) : List Char :=
  if c = '"' then ['\\', '"']
  else if c = '\\' then ['\\', '\\']
  else if c = '\n' then ['\\', 'n']
  else if c = '\r' then ['\\', 'r']
  else if c = '\t' then ['\\', 't']
  else if c = '\x08' then ['\\', 'b']
  else if c = '\x0c' then ['\\', 'f']
  else if 0x20 ≤ c.toNat ∧ c.toNat < 0x7F then [c]
  else if c.toNat < 0x10000 then unitEscape c.toNat
  else
    unitEscape (0xD800 + (c.toNat - 0x10000) / 0x400) ++
      unitEscape (0xDC00 + (c.toNat - 0x10000) % 0x400)

def encodePoint : CodePoint → List Char
  | .char c => encodeChar c
  | .surrogate i => unitEscape (0xD800 + i.val)

section

variable [Dialect]

def encodeText (s : String) : List Char := '"' :: (points s).flatMap encodePoint ++ ['"']

def encodeFloat : Binary64 → String
  | .notANumber => "NaN"
  | .infinite negative => if negative then "-Infinity" else "Infinity"
  | x => x.toText

def encodeLeaf : Value → List Char
  | .null => "null".toList
  | .bool b => (if b then "true" else "false").toList
  | .int n => (toString n).toList
  | .float x => (encodeFloat x).toList
  | .str s => encodeText s
  | .list _ => "[]".toList
  | .object _ => ['\x7b', '\x7d']

mutual

/-- On one line, with a blank behind commas and colons. -/
def compact : Value → List Char
  | .list (v :: rest) => '[' :: compact v ++ compactItems rest ++ [']']
  | .object ((k, v) :: rest) =>
    '\x7b' :: encodeText k ++ [':', ' '] ++ compact v ++ compactFields rest ++ ['\x7d']
  | v => encodeLeaf v

def compactItems : List Value → List Char
  | [] => []
  | v :: rest => ',' :: ' ' :: compact v ++ compactItems rest

def compactFields : List (String × Value) → List Char
  | [] => []
  | (k, v) :: rest =>
    ',' :: ' ' :: encodeText k ++ [':', ' '] ++ compact v ++ compactFields rest

end

def newline (depth : Nat) : List Char := '\n' :: List.replicate (2 * depth) ' '

mutual

/-- One field or item a line, two blanks deeper at each level. -/
def indented (depth : Nat) : Value → List Char
  | .list (v :: rest) =>
    '[' :: newline (depth + 1) ++ indented (depth + 1) v ++ indentedItems (depth + 1) rest ++
      newline depth ++ [']']
  | .object ((k, v) :: rest) =>
    '\x7b' :: newline (depth + 1) ++ encodeText k ++ [':', ' '] ++ indented (depth + 1) v ++
      indentedFields (depth + 1) rest ++ newline depth ++ ['\x7d']
  | v => encodeLeaf v

def indentedItems (depth : Nat) : List Value → List Char
  | [] => []
  | v :: rest => ',' :: newline depth ++ indented depth v ++ indentedItems depth rest

def indentedFields (depth : Nat) : List (String × Value) → List Char
  | [] => []
  | (k, v) :: rest =>
    ',' :: newline depth ++ encodeText k ++ [':', ' '] ++ indented depth v ++
      indentedFields depth rest

end

def encode (v : Value) : String := String.ofList (compact v)

def encodeIndented (v : Value) : String := String.ofList (indented 0 v)

end

end PipelineCompiler.Json
