import Woodland.Decimal.Numeral

/-! Documents of the common data notation, with numbers as they are written. -/

namespace Woodland

inductive Json where
  | null
  | bool (b : Bool)
  | number (n : Decimal.Numeral)
  /-- Nothing stands for a text with half of a surrogate pair in it. -/
  | text (s : Option String)
  | array (items : List Json)
  | object (members : List (Option String × Json))

namespace Json

instance : Inhabited Json := ⟨null⟩

def ofString (s : String) : Json := text (some s)

def ofNat (n : Nat) : Json := number ⟨false, Decimal.digits n, [], none⟩

def ofMembers (ms : List (String × Json)) : Json := object (ms.map fun (name, v) => (some name, v))

end Json

end Woodland
