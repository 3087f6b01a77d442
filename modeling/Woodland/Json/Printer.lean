import Woodland.Json.Value

/-! Texts of documents: without blanks, and with two blanks of indentation a level. -/

namespace Woodland.Json

open Decimal (Numeral)

def hexChar (n : Nat) : Char := if n < 10 then Char.ofNat (48 + n) else Char.ofNat (87 + n)

def escape (c : Char) : List Char :=
  if c = '"' then ['\\', '"']
  else if c = '\\' then ['\\', '\\']
  else if c = '\x08' then ['\\', 'b']
  else if c = '\x0c' then ['\\', 'f']
  else if c = '\n' then ['\\', 'n']
  else if c = '\r' then ['\\', 'r']
  else if c = '\t' then ['\\', 't']
  else if c.toNat < 32 then ['\\', 'u', '0', '0', hexChar (c.toNat / 16), hexChar (c.toNat % 16)]
  else [c]

def quotedOnto (s : Option String) (rest : List Char) : List Char :=
  match s with
  | some s => '"' :: (s.toList.flatMap escape ++ '"' :: rest)
  | none => "\"\\ud800\"".toList ++ rest

def numeralText (n : Numeral) : List Char :=
  let sign := if n.negative then ['-'] else []
  let fraction := if n.fraction.isEmpty then [] else '.' :: Decimal.digitText n.fraction
  let exponent := match n.exponent with
    | none => []
    | some (negative, ds) => 'e' :: (if negative then '-' else '+') :: Decimal.digitText ds
  sign ++ Decimal.digitText n.whole ++ fraction ++ exponent

mutual

def compactOnto (v : Json) (rest : List Char) : List Char :=
  match v with
  | null => "null".toList ++ rest
  | bool true => "true".toList ++ rest
  | bool false => "false".toList ++ rest
  | number n => numeralText n ++ rest
  | text s => quotedOnto s rest
  | array [] => '[' :: ']' :: rest
  | array (v :: vs) => '[' :: compactOnto v (compactItems vs (']' :: rest))
  | object [] => '\x7b' :: '\x7d' :: rest
  | object ((name, v) :: ms) =>
    '\x7b' :: quotedOnto name (':' :: compactOnto v (compactMembers ms ('\x7d' :: rest)))

def compactItems (vs : List Json) (rest : List Char) : List Char :=
  match vs with
  | [] => rest
  | v :: vs => ',' :: compactOnto v (compactItems vs rest)

def compactMembers (ms : List (Option String × Json)) (rest : List Char) : List Char :=
  match ms with
  | [] => rest
  | (name, v) :: ms => ',' :: quotedOnto name (':' :: compactOnto v (compactMembers ms rest))

end

def compact (v : Json) : String := String.ofList (compactOnto v [])

def newline (depth : Nat) (rest : List Char) : List Char :=
  '\n' :: (List.replicate (2 * depth) ' ' ++ rest)

mutual

def prettyOnto (depth : Nat) (v : Json) (rest : List Char) : List Char :=
  match v with
  | array (v :: vs) =>
    '[' :: newline (depth + 1) (prettyOnto (depth + 1) v
      (prettyItems (depth + 1) vs (newline depth (']' :: rest))))
  | object ((name, v) :: ms) =>
    '\x7b' :: newline (depth + 1) (quotedOnto name (':' :: ' ' :: prettyOnto (depth + 1) v
      (prettyMembers (depth + 1) ms (newline depth ('\x7d' :: rest)))))
  | v => compactOnto v rest

def prettyItems (depth : Nat) (vs : List Json) (rest : List Char) : List Char :=
  match vs with
  | [] => rest
  | v :: vs => ',' :: newline depth (prettyOnto depth v (prettyItems depth vs rest))

def prettyMembers (depth : Nat) (ms : List (Option String × Json)) (rest : List Char) : List Char :=
  match ms with
  | [] => rest
  | (name, v) :: ms =>
    ',' :: newline depth (quotedOnto name (':' :: ' ' :: prettyOnto depth v
      (prettyMembers depth ms rest)))

end

def pretty (v : Json) : String := String.ofList (prettyOnto 0 v [])

end Woodland.Json
