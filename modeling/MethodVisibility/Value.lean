/-
  Dynamic values, as settings and stored results come in.
-/

namespace MethodVisibility

/-- A value whose type is not known beforehand. -/
inductive Value where
  | null
  | bool (value : Bool)
  | int (value : Int)
  /-- A floating-point number, `mantissa * 2 ^ exponent`. -/
  | binary (mantissa exponent : Int)
  /-- A floating-point number that is infinite, or none at all. -/
  | nonFinite
  | text (value : String)
  | list (items : List Value)
  | object (fields : List (String × Value))
deriving Inhabited

end MethodVisibility
