import McpZero.Python.Value

/-! What string methods and regular expressions take from the Unicode tables. -/
namespace McpZero.Python

/-- `str.isspace` of a character, which is also what `\s` matches. -/
def isWhitespace (c : Char) : Bool :=
  (9 ≤ c.toNat && c.toNat ≤ 13) || (28 ≤ c.toNat && c.toNat ≤ 32) || c.toNat == 0x85 ||
    c.toNat == 0xa0 || c.toNat == 0x1680 || (0x2000 ≤ c.toNat && c.toNat ≤ 0x200a) ||
    c.toNat == 0x2028 || c.toNat == 0x2029 || c.toNat == 0x202f || c.toNat == 0x205f ||
    c.toNat == 0x3000

/-- The digits zero of the scripts that have decimal digits. -/
def decimalZeros : List ℕ :=
  [0x30, 0x660, 0x6f0, 0x7c0, 0x966, 0x9e6, 0xa66, 0xae6, 0xb66, 0xbe6, 0xc66, 0xce6, 0xd66,
   0xde6, 0xe50, 0xed0, 0xf20, 0x1040, 0x1090, 0x17e0, 0x1810, 0x1946, 0x19d0, 0x1a80, 0x1a90,
   0x1b50, 0x1bb0, 0x1c40, 0x1c50, 0xa620, 0xa8d0, 0xa900, 0xa9d0, 0xa9f0, 0xaa50, 0xabf0, 0xff10,
   0x104a0, 0x10d30, 0x11066, 0x110f0, 0x11136, 0x111d0, 0x112f0, 0x11450, 0x114d0, 0x11650,
   0x116c0, 0x11730, 0x118e0, 0x11950, 0x11c50, 0x11d50, 0x11da0, 0x11f50, 0x16a60, 0x16ac0,
   0x16b50, 0x1d7ce, 0x1d7d8, 0x1d7e2, 0x1d7ec, 0x1d7f6, 0x1e140, 0x1e2f0, 0x1e4f0, 0x1e950,
   0x1fbf0]

/-- `Py_UNICODE_TODECIMAL`. The ten digits of a script stand one after the other. -/
def decimal? (c : Char) : Option ℕ :=
  (decimalZeros.find? fun first => first ≤ c.toNat && c.toNat < first + 10).map (c.toNat - ·)

theorem not_isWhitespace_of_all {cs : List Char} (h : cs.all (! isWhitespace ·) = true) :
    ∀ c ∈ cs, isWhitespace c = false := by
  intro c hc
  simpa using List.all_eq_true.mp h c hc

theorem toLower_of_isWhitespace {c : Char} (h : isWhitespace c = true) : c.toLower = c := by
  simp only [isWhitespace, Bool.or_eq_true, Bool.and_eq_true, decide_eq_true_eq, beq_iff_eq] at h
  delta Char.toLower
  split
  · rename_i hupper
    simp only [ge_iff_le, UInt32.le_iff_toNat_le] at hupper
    have hval : c.toNat = c.val.toNat := rfl
    have hlo : 65 ≤ c.val.toNat := hupper.1
    have hhi : c.val.toNat ≤ 90 := hupper.2
    omega
  · rfl

/-- The tables that are too large to write down: `str.lower` and `\w`. -/
structure Unicode where
  lower : String → String
  isWord : Char → Bool
  lower_lower (s : String) : lower (lower s) = lower s
  isWord_whitespace (c : Char) : isWhitespace c = true → isWord c = false

theorem toLower_toLower (c : Char) : c.toLower.toLower = c.toLower := by
  delta Char.toLower
  grind

theorem map_toLower_map_toLower (cs : List Char) :
    (cs.map Char.toLower).map Char.toLower = cs.map Char.toLower := by
  rw [List.map_map]
  exact List.map_congr_left fun c _ => toLower_toLower c

theorem not_wordChar_of_isWhitespace {c : Char} (h : isWhitespace c = true) :
    (c.isAlphanum || c == '_') = false := by
  have hne : c ≠ '_' := by
    rintro rfl
    revert h
    decide
  simp only [isWhitespace, Bool.or_eq_true, Bool.and_eq_true, decide_eq_true_eq, beq_iff_eq] at h
  delta Char.isAlphanum Char.isAlpha Char.isUpper Char.isLower Char.isDigit
  simp [UInt32.le_iff_toNat_le, hne]
  omega

/-- The tables on ASCII. -/
def Unicode.ascii : Unicode where
  lower s := String.ofList (s.toList.map Char.toLower)
  isWord c := c.isAlphanum || c == '_'
  lower_lower s := by rw [String.toList_ofList, map_toLower_map_toLower]
  isWord_whitespace _ h := not_wordChar_of_isWhitespace h

end McpZero.Python
