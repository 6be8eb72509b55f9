import ScriptBuiltins.Value

set_option autoImplicit false

namespace ScriptBuiltins

namespace Integer

def Fits (n : Int) : Prop := least ≤ n ∧ n ≤ greatest

theorem fits_zero : Fits 0 := ⟨by decide, by decide⟩

theorem fits_clamp (n : Int) : Fits (clamp n) := by
  simp only [Fits, clamp, least, greatest]
  omega

theorem fits_ofDigits (negative : Bool) (digits : List Char) : Fits (ofDigits negative digits) := by
  have run : ∀ n, Fits n → Fits (digits.foldl (appendDigit negative) n) := by
    induction digits with
    | nil => exact fun n h => h
    | cons digit digits ih => exact fun n _ => ih _ (fits_clamp _)
  exact run 0 fits_zero

theorem fits_ofText (s : String) : Fits (ofText s) := fits_ofDigits _ _

end Integer

namespace Value

theorem fits_integer (v : Value) : Integer.Fits v.integer := by
  cases v with
  | nothing => exact Integer.fits_zero
  | scalar text => exact Integer.fits_ofText text
  | array items =>
    simp only [integer, Integer.Fits, Integer.least, Integer.greatest]
    omega
  | map entries =>
    simp only [integer, Integer.Fits, Integer.least, Integer.greatest]
    omega

theorem toNat_ofNat_integer (v : Value) :
    ((UInt64.ofNat v.integer.toNat).toNat : Int) = max 0 v.integer := by
  have hle : v.integer ≤ 1 <<< 63 - 1 := v.fits_integer.2
  rw [UInt64.toNat_ofNat_of_lt' (by rw [UInt64.size]; omega)]
  omega

end Value

end ScriptBuiltins
