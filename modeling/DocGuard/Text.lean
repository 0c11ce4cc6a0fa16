import Mathlib.Algebra.Order.BigOperators.Group.List
import Mathlib.Data.List.Infix
import Mathlib.Data.Nat.Digits.Lemmas
import Mathlib.Data.List.Dedup
import Mathlib.Data.List.Sort
import Mathlib.Data.List.Perm.Subperm
import Mathlib.Data.String.Basic
import Mathlib.Tactic

/-!
Texts as lists of code points, in which evaluation is cheap and the order is the
one of code points; literals of such texts, and the tests on their ends.
-/
namespace DocGuard

/-- A text: its code points, in order. -/
abbrev Text := List Char

instance : LawfulBEq Text := inferInstance

/-- The characters of a literal; they are spelled out when the literal is elaborated. -/
def lit (s : String) {cs : List Char} (_ : s = String.ofList cs := by rfl) : Text := cs

theorem lit_toList (s : String) {cs : List Char} (spelled : s = String.ofList cs) : lit s spelled = s.toList := by
  subst spelled
  exact String.toList_ofList.symm

/-- The characters U+0000 to U+00FF spell bytes. -/
theorem chars_injective : Function.Injective fun data : List UInt8 => data.map fun byte => Char.ofNat byte.toNat := by
  refine List.map_injective_iff.mpr fun a b same => ?_
  have valid (byte : UInt8) : (Char.ofNat byte.toNat).toNat = byte.toNat := by
    have small : byte.toNat.isValidChar := .inl (byte.toNat_lt.trans (by decide))
    exact (congrArg Char.toNat (dif_pos small)).trans rfl
  exact UInt8.toNat_inj.mp ((valid a).symm.trans ((congrArg Char.toNat same).trans (valid b)))

namespace Text

/-- `text.endswith(suffix)` -/
def endsWith (text suffix : Text) : Bool := suffix.isSuffixOf text

/-- `text.startswith(start)` -/
def startsWith (text start : Text) : Bool := start.isPrefixOf text

end Text
end DocGuard
