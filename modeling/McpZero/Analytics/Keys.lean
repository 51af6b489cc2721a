import Mathlib
import McpZero.Errors
import McpZero.Lib.Separator
import McpZero.Python.Value

/-! The Redis keys of the analytics. The segments of a key come from the policy file and stand
in the key as `str` gives them. -/
namespace McpZero.Analytics
open Python Lib

structure KeyBuilder where
  keyPrefix : Value
  environment : Value
  gatewayId : Value

def zeroDivision : Exc := .other "ZeroDivisionError" "integer division or modulo by zero"

/-- `int(q)`. -/
def truncate (q : ℚ) : ℤ := q.num.tdiv q.den

namespace KeyBuilder

variable (keys : KeyBuilder)

def gatewayBase : String :=
  keys.keyPrefix.text ++ ":gw:" ++ keys.environment.text ++ ":" ++ keys.gatewayId.text

/-- `int(ts) // bucket_seconds`. -/
def bucketId (bucketSeconds : ℤ) (epoch : ℚ) : Except Exc ℤ :=
  if bucketSeconds = 0 then .error zeroDivision else .ok ((truncate epoch).fdiv bucketSeconds)

def bucketKey (category dimension : String) (bid : ℤ) : String :=
  keys.gatewayBase ++ ":b:" ++ toString bid ++ ":" ++ category ++ ":" ++ dimension

def registryKey : String := keys.keyPrefix.text ++ ":registry"

def infoKey : String := keys.gatewayBase ++ ":info"

def idxEnvsKey : String := keys.keyPrefix.text ++ ":idx:envs"

def idxGatewaysKey : String := keys.keyPrefix.text ++ ":idx:gw:" ++ keys.environment.text

def registryMember : String := keys.environment.text ++ ":" ++ keys.gatewayId.text

end KeyBuilder

theorem digit_ne_colon {c : Char} (hc : c.isDigit = true) : c ≠ ':' := by
  rintro rfl
  exact absurd hc (by decide)

theorem toString_int_injective {m n : ℤ} (h : toString m = toString n) : m = n := by
  rw [Int.toString_eq_repr, Int.toString_eq_repr] at h
  exact Int.repr_injective h

/-- The decimal text of a number has no colon. -/
theorem colon_not_mem_toString (n : ℤ) : ':' ∉ (toString n).toList := by
  have hnat (k : ℕ) : ':' ∉ k.repr.toList := by
    intro hmem
    rw [Nat.toList_repr] at hmem
    exact digit_ne_colon (Nat.isDigit_of_mem_toDigits (by decide) (by decide) hmem) rfl
  rw [Int.toString_eq_repr, Int.repr_eq_if]
  split_ifs
  · exact hnat _
  · simpa using hnat _

namespace KeyBuilder

variable {keys : KeyBuilder} {category category' dimension dimension' : String} {bid bid' : ℤ}

theorem toList_bucketKey : (keys.bucketKey category dimension bid).toList =
    (keys.gatewayBase ++ ":b:").toList ++
      ((toString bid).toList ++ ':' :: (category.toList ++ ':' :: dimension.toList)) := by
  change (keys.gatewayBase ++ ":b:" ++ toString bid ++ ":" ++ category ++ ":" ++
    dimension).toList = _
  simp only [String.toList_append, List.append_assoc]
  rfl

/-- A bucket key of one gateway determines the bucket, the category and the dimension. -/
theorem bucketKey_inj (hcategory : ':' ∉ category.toList) (hcategory' : ':' ∉ category'.toList) :
    keys.bucketKey category dimension bid = keys.bucketKey category' dimension' bid' ↔
      bid = bid' ∧ category = category' ∧ dimension = dimension' := by
  constructor
  · intro heq
    have hchars := congrArg String.toList heq
    rw [toList_bucketKey, toList_bucketKey, List.append_cancel_left_eq,
      append_cons_inj_of_first (colon_not_mem_toString bid) (colon_not_mem_toString bid'),
      append_cons_inj_of_first hcategory hcategory', String.toList_inj, String.toList_inj,
      String.toList_inj] at hchars
    exact ⟨toString_int_injective hchars.1, hchars.2⟩
  · rintro ⟨rfl, rfl, rfl⟩
    rfl

end KeyBuilder

end McpZero.Analytics
