/-! Digits of natural numbers, the first one leading. -/

namespace Woodland.Decimal

abbrev Digit := Fin 10

@[match_pattern] def Digit.zero : Digit := ⟨0, by decide⟩

def Digit.char (d : Digit) : Char := Char.ofNat (48 + d.val)

def Digit.ofChar? (c : Char) : Option Digit :=
  if h : 48 ≤ c.toNat ∧ c.toNat < 58 then some ⟨c.toNat - 48, by omega⟩ else none

def digitsOnto (n : Nat) (rest : List Digit) : List Digit :=
  if n = 0 then rest else digitsOnto (n / 10) (⟨n % 10, Nat.mod_lt n (by decide)⟩ :: rest)

def digits (n : Nat) : List Digit :=
  if n = 0 then [.zero] else digitsOnto n []

def ofDigits (ds : List Digit) : Nat := ds.foldl (fun n d => n * 10 + d.val) 0

def digitText (ds : List Digit) : List Char := ds.map Digit.char

def spanDigits : List Char → List Digit × List Char
  | [] => ([], [])
  | c :: rest =>
    match Digit.ofChar? c with
    | some d => let (ds, after) := spanDigits rest; (d :: ds, after)
    | none => ([], c :: rest)

end Woodland.Decimal
