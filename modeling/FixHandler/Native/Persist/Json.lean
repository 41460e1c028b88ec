import Mathlib
import FixHandler.ForStd.Except
import FixHandler.Cxx.SixDigits

/-!
# Documents

The documents of `bsoncxx` that the market data is stored in, and the macros that read them: all
values are texts, documents and arrays. `bsoncxx::to_json` and `bsoncxx::from_json` are each other's
inverse on them, and are left out.
-/

namespace FixHandler

open Cxx (Exception Float64)

/-- A value in a document -/
inductive Json where
  | utf8 (text : String)
  | document (fields : List (String × Json))
  | array (items : List Json)
deriving Repr, Inhabited

namespace Json

/-- What is thrown where a document is read -/
inductive Error where
  /-- `bsoncxx::exception`: there is no such value, or it has another type. -/
  | bsoncxx
  | std (e : Exception)
deriving DecidableEq, Repr

/-- `GET_SUB_FROM_JSON`: the element under a key, if there is one -/
def getSub (element : Option Json) (key : String) : Option Json :=
  match element with
  | some (.document fields) => fields.lookup key
  | _ => none

/-- `GET_STR_FROM_JSON` -/
def getStr (element : Option Json) (key : String) : Except Error String :=
  match getSub element key with
  | some (.utf8 text) => .ok text
  | _ => .error .bsoncxx

/-- `GET_ARR_FROM_JSON` -/
def getArr (element : Option Json) (key : String) : Except Error (List Json) :=
  match getSub element key with
  | some (.array items) => .ok items
  | _ => .error .bsoncxx

/-- `GET_CHAR_FROM_JSON`: the first byte of a text -/
def getChar (element : Option Json) (key : String) : Except Error Int8 := do
  match (← getStr element key).toList with
  | [] => .error (.std (.outOfRange "at"))
  | c :: _ => return ((String.utf8EncodeChar c).headD 0).toInt8

/-- `GET_INT_FROM_JSON` -/
def getInt (element : Option Json) (key : String) : Except Error Int64 := do
  (Cxx.stol (← getStr element key)).mapError .std

/-- `GET_INT_FROM_JSON` for an `int` -/
def getInt32 (element : Option Json) (key : String) : Except Error Int32 := do
  return (← getInt element key).toInt32

/-- `GET_DOUBLE_FROM_JSON` -/
def getDouble (element : Option Json) (key : String) : Except Error Float64 := do
  (Float64.stod (← getStr element key)).mapError .std

/-! ## What is written -/

/-- `T` of an `int` -/
def int (n : Int32) : Json := .utf8 (toString n.toInt)

/-- `T` of a `std::uint64_t` -/
def uint64 (n : UInt64) : Json := .utf8 n.toNat.repr

/-- `T` of a `double` -/
def double (x : Float64) : Json := .utf8 x.toText

/-! ## Reading what is written -/

section

variable {element : Option Json} {key : String}

/-- A text is read as it is. -/
theorem getStr_eq {t : String} (h : getSub element key = some (.utf8 t)) :
    getStr element key = .ok t := by
  rw [getStr, h]

/-- An array is read as it is. -/
theorem getArr_eq {l : List Json} (h : getSub element key = some (.array l)) :
    getArr element key = .ok l := by
  rw [getArr, h]

/-- A number of 32 bits is read as it is. -/
theorem getInt32_eq {n : Int32} (h : getSub element key = some (int n)) :
    getInt32 element key = .ok n := by
  rw [getInt32, getInt, getStr_eq h, Except.ok_bind, Cxx.stol_toString]
  show Except.ok n.toInt64.toInt32 = .ok n
  rw [Int32.toInt32_toInt64]

/-- A double is read from the six digits it is shown with. -/
theorem getDouble_eq {x : Float64} (h : getSub element key = some (double x)) :
    getDouble element key = .ok x.shown := by
  rw [getDouble, getStr_eq h, Except.ok_bind, Float64.stod_toText]
  rfl

/-- A `double` is read as a `long` up to its point. -/
theorem getInt_double_eq_ok {x : Float64} {n : Int64} (h : getSub element key = some (double x)) :
    getInt element key = .ok n ↔
      ∃ k, x.val.whole = some k ∧ -2 ^ 63 ≤ k ∧ k < 2 ^ 63 ∧ n = Int64.ofInt k := by
  rw [getInt, getStr_eq h, Except.ok_bind, Except.mapError_eq_ok, Float64.toText,
    Cxx.Binary64.stol_toString]
  cases x.val.whole with
  | none => exact ⟨(nomatch ·), fun ⟨_, hnone, _⟩ => nomatch hnone⟩
  | some k =>
    dsimp only
    constructor
    · intro hk
      split at hk
      · exact nomatch hk
      · next hrange =>
        exact ⟨k, rfl, by omega, by omega, (Except.ok.inj hk).symm⟩
    · rintro ⟨_, ⟨⟩, hlower, hupper, rfl⟩
      exact if_neg (by omega)

/-- A `std::uint64_t` is read as a `long`. -/
theorem getInt_uint64 {n : UInt64} (h : getSub element key = some (uint64 n)) :
    getInt element key = if n.toNat < 2 ^ 63 then .ok (Int64.ofNat n.toNat)
      else .error (.std (.outOfRange "stol")) := by
  rw [getInt, getStr_eq h, Except.ok_bind, Cxx.stol_repr]
  split <;> rfl

end

end Json

end FixHandler
