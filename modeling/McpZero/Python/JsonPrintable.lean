import McpZero.Python.JsonRoundTrip

/-! A JSON text is a single line of printable ASCII. -/
namespace McpZero.Python.Json
open Lib

/-- Printable characters of ASCII, which contain neither a line end nor an escape. -/
def Printable (cs : List Char) : Prop := ∀ c ∈ cs, 32 ≤ c.toNat ∧ c.toNat ≤ 126

theorem printable_nil : Printable [] := List.forall_mem_nil _

theorem printable_append {cs ds : List Char} :
    Printable (cs ++ ds) ↔ Printable cs ∧ Printable ds := List.forall_mem_append

theorem printable_cons {c : Char} {cs : List Char} :
    Printable (c :: cs) ↔ (32 ≤ c.toNat ∧ c.toNat ≤ 126) ∧ Printable cs := List.forall_mem_cons

theorem printable_of_all {cs : List Char}
    (h : (cs.all fun c => decide (32 ≤ c.toNat) && decide (c.toNat ≤ 126)) = true) :
    Printable cs := by
  intro c hc
  simpa using List.all_eq_true.mp h c hc

theorem Printable.newline_notMem {cs : List Char} (h : Printable cs) : '\n' ∉ cs := by
  intro hmem
  have hlow := (h '\n' hmem).1
  revert hlow
  decide

theorem isDigit_printable {c : Char} (h : c.isDigit = true) : 32 ≤ c.toNat ∧ c.toNat ≤ 126 := by
  simp only [Char.isDigit, Bool.and_eq_true, decide_eq_true_eq, ge_iff_le,
    UInt32.le_iff_toNat_le] at h
  have hval : c.toNat = c.val.toNat := rfl
  have hlo : 48 ≤ c.val.toNat := h.1
  have hhi : c.val.toNat ≤ 57 := h.2
  omega

theorem printable_digits (cs : List Char) : Printable (cs.takeWhile Char.isDigit) :=
  fun _ hc => isDigit_printable (isDigit_of_mem_takeWhile _ hc)

theorem hexDigit_printable (n : ℕ) : 32 ≤ (hexDigit n).toNat ∧ (hexDigit n).toNat ≤ 126 := by
  have hall : ∀ d < 16, 32 ≤ (Nat.digitChar d).toNat ∧ (Nat.digitChar d).toNat ≤ 126 := by decide
  exact hall (n % 16) (Nat.mod_lt n (by decide))

theorem printable_unicodeEscape (n : ℕ) : Printable (unicodeEscape n) := by
  have hslash : 32 ≤ '\\'.toNat ∧ '\\'.toNat ≤ 126 := by decide
  have hu : 32 ≤ 'u'.toNat ∧ 'u'.toNat ≤ 126 := by decide
  unfold unicodeEscape
  simp only [printable_cons]
  exact ⟨hslash, hu, hexDigit_printable _, hexDigit_printable _, hexDigit_printable _,
    hexDigit_printable _, printable_nil⟩

/-- Whatever is not printable is escaped. -/
theorem printable_escapeChar (c : Char) : Printable (escapeChar c) := by
  have hpair : ∀ d : Char, (32 ≤ d.toNat ∧ d.toNat ≤ 126) → Printable ['\\', d] := by
    intro d hd
    exact printable_cons.mpr ⟨by decide, printable_cons.mpr ⟨hd, printable_nil⟩⟩
  unfold escapeChar
  split_ifs with h₁ h₂ h₃ h₄ h₅ h₆ h₇ hprintable hbmp
  · exact hpair _ (by decide)
  · exact hpair _ (by decide)
  · exact hpair _ (by decide)
  · exact hpair _ (by decide)
  · exact hpair _ (by decide)
  · exact hpair _ (by decide)
  · exact hpair _ (by decide)
  · exact printable_cons.mpr ⟨hprintable, printable_nil⟩
  · exact printable_unicodeEscape _
  · exact printable_append.mpr ⟨printable_unicodeEscape _, printable_unicodeEscape _⟩

theorem printable_stringText (s : String) : Printable (stringText s) := by
  have hquote : 32 ≤ '"'.toNat ∧ '"'.toNat ≤ 126 := by decide
  have hbody : Printable (s.toList.flatMap escapeChar) := by
    intro c hc
    obtain ⟨d, -, hd⟩ := List.mem_flatMap.mp hc
    exact printable_escapeChar d c hd
  rw [stringText, List.cons_append, printable_cons, printable_append]
  exact ⟨hquote, hbody, printable_cons.mpr ⟨hquote, printable_nil⟩⟩

theorem printable_intText {n : ℤ} {cs : List Char} (h : intText n = .ok cs) : Printable cs := by
  have hdigits : Printable (Nat.toDigits 10 n.natAbs) := fun c hc =>
    isDigit_printable (Nat.isDigit_of_mem_toDigits (by decide) (by decide) hc)
  unfold intText at h
  dsimp only at h
  split_ifs at h
  · obtain rfl := Except.ok.inj h
    exact printable_cons.mpr ⟨by decide, hdigits⟩
  · obtain rfl := Except.ok.inj h
    exact hdigits

theorem printable_scanFraction (cs : List Char) : Printable (scanFraction cs).1 := by
  unfold scanFraction
  split
  · dsimp only
    split_ifs
    · exact printable_nil
    · exact printable_cons.mpr ⟨by decide, printable_digits _⟩
  · exact printable_nil

theorem printable_scanExponent (cs : List Char) : Printable (scanExponent cs).1 := by
  unfold scanExponent
  split
  · rename_i e body
    dsimp only
    split_ifs with h
    · have hsign : Printable (body.takeWhile fun c => c == '+' || c == '-') := by
        intro c hc
        have hp := List.mem_takeWhile_imp hc
        rw [Bool.or_eq_true, beq_iff_eq, beq_iff_eq] at hp
        rcases hp with rfl | rfl <;> decide
      refine printable_cons.mpr ⟨?_, printable_append.mpr ⟨hsign, printable_digits _⟩⟩
      rcases h.1 with rfl | rfl <;> decide
    · exact printable_nil
  · exact printable_nil

/-- The literal of a number has no character but digits, signs, a point and an exponent. -/
theorem printable_scanNumber {cs : List Char} {r : NumberLiteral} (h : scanNumber cs = some r) :
    Printable r.literal := by
  unfold scanNumber at h
  dsimp only at h
  have hsign : Printable (if cs.head? = some '-' then ['-'] else []) := by
    split_ifs
    · exact printable_cons.mpr ⟨by decide, printable_nil⟩
    · exact printable_nil
  generalize (if cs.head? = some '-' then ['-'] else []) = sign at h hsign
  split_ifs at h
  obtain rfl := Option.some.inj h
  simp only [printable_append]
  exact ⟨⟨⟨hsign, printable_digits _⟩, printable_scanFraction _⟩, printable_scanExponent _⟩

variable {read : List Char → Float}

theorem printable_floatText {x : Float} (h : JsonFloat read x) : Printable (floatText x) := by
  cases h with
  | finite hvalue hliteral hread =>
    rw [floatText, hvalue]
    exact printable_scanNumber hliteral
  | inf => exact printable_of_all rfl
  | negInf => exact printable_of_all rfl
  | nan => exact printable_of_all rfl

mutual

/-- The text of a JSON value is printable. -/
theorem printable_text (v : Value) (hv : IsJson read v) {cs : List Char} (h : text v = .ok cs) :
    Printable cs := by
  match v with
  | .none => cases h; exact printable_of_all rfl
  | .bool true => cases h; exact printable_of_all rfl
  | .bool false => cases h; exact printable_of_all rfl
  | .str s => cases h; exact printable_stringText s
  | .int n => exact printable_intText h
  | .scalar (.float x) => cases h; exact printable_floatText hv
  | .bytes _ | .scalar (.other _ _) | .group _ _ => exact absurd hv id
  | .list items =>
    simp only [text, bind_eq_ok, pure_eq_ok] at h
    obtain ⟨body, hbody, rfl⟩ := h
    have hitems := printable_textItems items hv hbody
    rw [List.cons_append, printable_cons, printable_append]
    exact ⟨by decide, hitems, printable_cons.mpr ⟨by decide, printable_nil⟩⟩
  | .dict entries =>
    simp only [text, bind_eq_ok, pure_eq_ok] at h
    obtain ⟨body, hbody, rfl⟩ := h
    have hentries := printable_textEntries entries hv.2 hbody
    rw [List.cons_append, printable_cons, printable_append]
    exact ⟨by decide, hentries, printable_cons.mpr ⟨by decide, printable_nil⟩⟩

theorem printable_textItems (items : List Value) (hv : IsJsonItems read items) {cs : List Char}
    (h : textItems items = .ok cs) : Printable cs := by
  match items with
  | [] => cases h; exact printable_nil
  | [v] => exact printable_text v hv.1 h
  | v :: w :: rest =>
    simp only [textItems, bind_eq_ok, pure_eq_ok] at h
    obtain ⟨first, hfirst, others, hothers, rfl⟩ := h
    rw [printable_append, printable_cons, printable_cons]
    exact ⟨printable_text v hv.1 hfirst, by decide, by decide,
      printable_textItems (w :: rest) hv.2 hothers⟩

theorem printable_textEntries (entries : Dict) (hv : IsJsonEntries read entries) {cs : List Char}
    (h : textEntries entries = .ok cs) : Printable cs := by
  match entries with
  | [] => cases h; exact printable_nil
  | [(k, v)] =>
    obtain ⟨⟨s, rfl⟩, hvalue, -⟩ := hv
    simp only [textEntries, bind_eq_ok, pure_eq_ok] at h
    obtain ⟨key, hkey, value, htext, rfl⟩ := h
    obtain rfl := Except.ok.inj hkey
    rw [printable_append, printable_cons, printable_cons]
    exact ⟨printable_stringText s, by decide, by decide, printable_text v hvalue htext⟩
  | (k, v) :: e :: rest =>
    obtain ⟨⟨s, rfl⟩, hvalue, hrest⟩ := hv
    simp only [textEntries, bind_eq_ok, pure_eq_ok] at h
    obtain ⟨key, hkey, value, htext, others, hothers, rfl⟩ := h
    obtain rfl := Except.ok.inj hkey
    simp only [printable_append, printable_cons]
    exact ⟨printable_stringText s, by decide, by decide, printable_text v hvalue htext, by decide,
      by decide, printable_textEntries (e :: rest) hrest hothers⟩

end

/-- What a JSON value is written as is printable. -/
theorem printable_dumps {v : Value} (hv : IsJson read v) {s : String} (h : dumps v = .ok s) :
    Printable s.toList := by
  unfold dumps at h
  cases hcs : text v with
  | error e =>
    rw [hcs] at h
    cases h
  | ok cs =>
    rw [hcs] at h
    obtain rfl := Except.ok.inj h
    rw [String.toList_ofList]
    exact printable_text v hv hcs

mutual

/-- `default=str` finds nothing to convert in a JSON value. -/
theorem defaultStr_of_isJson (v : Value) (h : IsJson read v) : defaultStr v = v := by
  match v with
  | .none | .bool _ | .int _ | .scalar (.float _) | .str _ => rfl
  | .bytes _ | .scalar (.other _ _) | .group _ _ => exact absurd h id
  | .list items => rw [defaultStr, defaultStrItems_of_isJson items h]
  | .dict entries => rw [defaultStr, defaultStrEntries_of_isJson entries h.2]

theorem defaultStrItems_of_isJson (items : List Value) (h : IsJsonItems read items) :
    defaultStrItems items = items := by
  match items with
  | [] => rfl
  | v :: rest =>
    rw [defaultStrItems, defaultStr_of_isJson v h.1, defaultStrItems_of_isJson rest h.2]

theorem defaultStrEntries_of_isJson (entries : Dict) (h : IsJsonEntries read entries) :
    defaultStrEntries entries = entries := by
  match entries with
  | [] => rfl
  | (k, v) :: rest =>
    rw [defaultStrEntries, defaultStr_of_isJson v h.2.1, defaultStrEntries_of_isJson rest h.2.2]

end

end McpZero.Python.Json
