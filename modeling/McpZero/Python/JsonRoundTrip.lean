import Mathlib.Data.List.TakeWhile
import McpZero.Lib.Except
import McpZero.Python.JsonWritable

/-! JSON values: they have a text, the text is read back as the value, and nothing else is ever
read. -/
namespace McpZero.Python.Json
open Lib

/-! Strings -/

/-- The code points that a character is escaped as. -/
def codeUnits (c : Char) : List ℕ :=
  if c.toNat < 0x10000 then [c.toNat]
  else [0xd800 + (c.toNat - 0x10000) / 1024, 0xdc00 + (c.toNat - 0x10000) % 1024]

theorem hexValue_hexDigit (n : ℕ) : hexValue (hexDigit n) = some (n % 16) := by
  have hall : ∀ d < 16, hexValue (Nat.digitChar d) = some d := by decide
  exact hall (n % 16) (Nat.mod_lt n (by decide))

theorem hexQuad_unicodeEscape {n : ℕ} (h : n < 0x10000) :
    hexQuad (hexDigit (n / 4096)) (hexDigit (n / 256)) (hexDigit (n / 16)) (hexDigit n) =
      some n := by
  simp only [hexQuad, hexValue_hexDigit, Option.bind_eq_bind, Option.bind_some, Option.pure_def,
    Option.some.injEq]
  omega

theorem scanString_unicodeEscape {n : ℕ} (h : n < 0x10000) (cs : List Char) :
    scanString (unicodeEscape n ++ cs) =
      (scanString cs).map fun p => (n :: p.1, p.2) := by
  simp only [unicodeEscape, List.cons_append, List.nil_append, scanString, hexQuad_unicodeEscape h,
    Option.bind_eq_bind, Option.bind_some]
  cases scanString cs <;> rfl

theorem char_bounds (c : Char) :
    c.toNat < 0xd800 ∨ 0xdfff < c.toNat ∧ c.toNat < 0x110000 := by
  have hvalid := c.valid
  simpa [UInt32.isValidChar, Nat.isValidChar] using hvalid

theorem scanString_unescape {e c : Char} (hu : e ≠ 'u') (he : unescape e = some c)
    (cs : List Char) :
    scanString ('\\' :: e :: cs) = (scanString cs).map fun p => (c.toNat :: p.1, p.2) := by
  rw [scanString.eq_def]
  split
  · rename_i heq
    cases heq
  · rename_i heq
    cases heq
  · rename_i heq
    exact absurd (List.cons.inj (List.cons.inj heq).2).1 hu
  · rename_i heq
    cases heq
    rw [he]
    cases scanString cs <;> rfl
  · rename_i hne heq
    cases heq
    exact absurd rfl (hne e cs rfl)

theorem scanString_plain {c : Char} (hquote : c ≠ '"') (hslash : c ≠ '\\') (h : 32 ≤ c.toNat)
    (cs : List Char) :
    scanString (c :: cs) = (scanString cs).map fun p => (c.toNat :: p.1, p.2) := by
  rw [scanString.eq_def]
  split
  · rename_i heq
    cases heq
  · rename_i heq
    exact absurd (List.cons.inj heq).1 hquote
  · rename_i heq
    exact absurd (List.cons.inj heq).1 hslash
  · rename_i heq
    exact absurd (List.cons.inj heq).1 hslash
  · rename_i heq
    obtain ⟨rfl, rfl⟩ := List.cons.inj heq
    rw [if_neg (by simp only [hslash, false_or]; omega)]
    cases scanString cs <;> rfl

theorem scanString_escapeChar (c : Char) (cs : List Char) :
    scanString (escapeChar c ++ cs) =
      (scanString cs).map fun p => (codeUnits c ++ p.1, p.2) := by
  have hbounds := char_bounds c
  unfold escapeChar
  by_cases hquote : c = '"'
  · rw [if_pos hquote, hquote]
    exact scanString_unescape (by decide) rfl cs
  rw [if_neg hquote]
  by_cases hslash : c = '\\'
  · rw [if_pos hslash, hslash]
    exact scanString_unescape (by decide) rfl cs
  rw [if_neg hslash]
  by_cases hnewline : c = '\n'
  · rw [if_pos hnewline, hnewline]
    exact scanString_unescape (by decide) rfl cs
  rw [if_neg hnewline]
  by_cases hreturn : c = '\r'
  · rw [if_pos hreturn, hreturn]
    exact scanString_unescape (by decide) rfl cs
  rw [if_neg hreturn]
  by_cases htab : c = '\t'
  · rw [if_pos htab, htab]
    exact scanString_unescape (by decide) rfl cs
  rw [if_neg htab]
  by_cases hfeed : c.toNat = 12
  · obtain rfl : c = Char.ofNat 12 := by rw [← hfeed, Char.ofNat_toNat]
    exact scanString_unescape (by decide) rfl cs
  rw [if_neg hfeed]
  by_cases hback : c.toNat = 8
  · obtain rfl : c = Char.ofNat 8 := by rw [← hback, Char.ofNat_toNat]
    exact scanString_unescape (by decide) rfl cs
  rw [if_neg hback]
  split_ifs with hprintable hbmp
  · rw [codeUnits, if_pos (by omega)]
    exact scanString_plain hquote hslash hprintable.1 cs
  · rw [scanString_unicodeEscape hbmp, codeUnits, if_pos hbmp]
    rfl
  · rw [List.append_assoc, scanString_unicodeEscape (by omega), scanString_unicodeEscape (by omega),
      codeUnits, if_neg hbmp]
    cases scanString cs <;> rfl

theorem scanString_stringText (cs rest : List Char) :
    scanString (cs.flatMap escapeChar ++ '"' :: rest) = some (cs.flatMap codeUnits, rest) := by
  induction cs with
  | nil => rfl
  | cons c cs ih =>
    rw [List.flatMap_cons, List.append_assoc, scanString_escapeChar, ih]
    rfl

theorem joinSurrogates_codeUnits (c : Char) (ns : List ℕ) :
    joinSurrogates (codeUnits c ++ ns) = c :: joinSurrogates ns := by
  have hbounds := char_bounds c
  unfold codeUnits
  split_ifs with hbmp
  · have hhigh : ¬ isHighSurrogate c.toNat := by simp only [isHighSurrogate]; omega
    have hlow : ¬ isLowSurrogate c.toNat := by simp only [isLowSurrogate]; omega
    have hchar : charOf c.toNat = c := by simp [charOf, hhigh, hlow]
    cases ns with
    | nil => simp [joinSurrogates, hchar]
    | cons n ns => simp [joinSurrogates, hchar, hhigh]
  · have hhigh : isHighSurrogate (0xd800 + (c.toNat - 0x10000) / 1024) := by
      simp only [isHighSurrogate]
      omega
    have hlow : isLowSurrogate (0xdc00 + (c.toNat - 0x10000) % 1024) := by
      simp only [isLowSurrogate]
      omega
    have hvalue : 0x10000 + (0xd800 + (c.toNat - 0x10000) / 1024 - 0xd800) * 1024 +
        (0xdc00 + (c.toNat - 0x10000) % 1024 - 0xdc00) = c.toNat := by omega
    rw [List.cons_append, List.cons_append, List.nil_append, joinSurrogates,
      if_pos ⟨hhigh, hlow⟩, hvalue, Char.ofNat_toNat]

theorem joinSurrogates_flatMap (cs : List Char) : joinSurrogates (cs.flatMap codeUnits) = cs := by
  induction cs with
  | nil => rfl
  | cons c cs ih => rw [List.flatMap_cons, joinSurrogates_codeUnits, ih]

/-- A string is read back from its text. -/
theorem parseString_stringText (s : String) (rest : List Char) :
    parseString (s.toList.flatMap escapeChar ++ '"' :: rest) = .ok (s, rest) := by
  rw [parseString, scanString_stringText]
  simp [joinSurrogates_flatMap]

/-! Numbers -/

/-- What can stand behind a value in the text of a larger one. -/
def Closed (rest : List Char) : Prop :=
  ∀ c, rest.head? = some c → c = ',' ∨ c = ']' ∨ c = '\x7d'

theorem Closed.head_false {rest : List Char} (h : Closed rest) {p : Char → Bool}
    (hcomma : p ',' = false) (hbracket : p ']' = false) (hbrace : p '\x7d' = false) :
    ∀ c, rest.head? = some c → p c = false := by
  intro c hc
  rcases h c hc with rfl | rfl | rfl
  · exact hcomma
  · exact hbracket
  · exact hbrace

theorem takeWhile_append_of_head {p : Char → Bool} (cs : List Char) {rest : List Char}
    (h : ∀ c, rest.head? = some c → p c = false) :
    (cs ++ rest).takeWhile p = cs.takeWhile p := by
  induction cs with
  | nil =>
    cases rest with
    | nil => rfl
    | cons c rest => simp [h c rfl]
  | cons c cs ih => rw [List.cons_append, List.takeWhile_cons, List.takeWhile_cons, ih]

theorem drop_takeWhile_append {p : Char → Bool} (cs rest : List Char) :
    (cs ++ rest).drop (cs.takeWhile p).length = cs.drop (cs.takeWhile p).length ++ rest :=
  List.drop_append_of_le_length (List.takeWhile_prefix p).length_le

theorem scanFraction_append (cs : List Char) {rest : List Char} (h : Closed rest) :
    scanFraction (cs ++ rest) = ((scanFraction cs).1, (scanFraction cs).2 ++ rest) := by
  have hdigit := h.head_false (p := Char.isDigit) rfl rfl rfl
  match cs with
  | [] =>
    have hdot := h.head_false (p := (· == '.')) rfl rfl rfl
    rw [List.nil_append]
    unfold scanFraction
    split
    · have hfalse := hdot '.' rfl
      cases hfalse
    · rfl
  | c :: cs =>
    by_cases hdot : c = '.'
    · subst hdot
      simp only [List.cons_append, scanFraction, takeWhile_append_of_head cs hdigit]
      split_ifs
      · rfl
      · rw [drop_takeWhile_append]
    · simp [scanFraction, hdot]

theorem scanExponent_append (cs : List Char) {rest : List Char} (h : Closed rest) :
    scanExponent (cs ++ rest) = ((scanExponent cs).1, (scanExponent cs).2 ++ rest) := by
  have hdigit := h.head_false (p := Char.isDigit) rfl rfl rfl
  have hsign := h.head_false (p := fun c => c == '+' || c == '-') rfl rfl rfl
  have he := h.head_false (p := fun c => c == 'e' || c == 'E') rfl rfl rfl
  match cs with
  | [] =>
    rw [List.nil_append]
    cases rest with
    | nil => rfl
    | cons e body =>
      have hne := he e rfl
      simp only [Bool.or_eq_false_iff, beq_eq_false_iff_ne, ne_eq] at hne
      simp [scanExponent, hne.1, hne.2]
  | e :: body =>
    have hdrop (k : ℕ) (hk : k ≤ body.length) : (body ++ rest).drop k = body.drop k ++ rest :=
      List.drop_append_of_le_length hk
    have hlength := (List.takeWhile_prefix (l := body) fun c => c == '+' || c == '-').length_le
    have hdigits := (List.takeWhile_prefix
      (l := body.drop (body.takeWhile fun c => c == '+' || c == '-').length) Char.isDigit).length_le
    rw [List.length_drop] at hdigits
    simp only [List.cons_append, scanExponent, takeWhile_append_of_head body hsign]
    rw [hdrop _ hlength, takeWhile_append_of_head _ hdigit, hdrop _ (by omega)]
    split_ifs <;> rfl

/-- A number is read up to what closes it. -/
theorem scanNumber_append {cs literal tail rest : List Char} {isFloat : Bool}
    (hscan : scanNumber cs = some ⟨literal, isFloat, tail⟩) (h : Closed rest) :
    scanNumber (cs ++ rest) = some ⟨literal, isFloat, tail ++ rest⟩ := by
  have hdigit := h.head_false (p := Char.isDigit) rfl rfl rfl
  cases cs with
  | nil => cases hscan
  | cons c cs =>
    have hsign : ((c :: cs) ++ rest).head? = (c :: cs).head? := rfl
    have hbody : ((c :: cs) ++ rest).drop (if (c :: cs).head? = some '-' then ['-'] else []).length =
        (c :: cs).drop (if (c :: cs).head? = some '-' then ['-'] else []).length ++ rest := by
      split_ifs <;> rfl
    unfold scanNumber at hscan ⊢
    simp only [hsign, hbody, takeWhile_append_of_head _ hdigit, drop_takeWhile_append,
      scanFraction_append _ h, scanExponent_append _ h] at hscan ⊢
    split_ifs at hscan ⊢ <;> simp_all

/-- Only zero starts with a zero. -/
theorem head?_toDigits (n : ℕ) (h : (Nat.toDigits 10 n).head? = some '0') : n = 0 := by
  induction n using Nat.strongRecOn with
  | ind n ih =>
    rw [Nat.toDigits_eq_if (by decide)] at h
    split_ifs at h with hlt
    · simpa using h
    · rw [List.head?_append_of_ne_nil _ Nat.toDigits_ne_nil] at h
      have hzero := ih (n / 10) (by omega) h
      omega

theorem takeWhile_toDigits (n : ℕ) :
    (Nat.toDigits 10 n).takeWhile Char.isDigit = Nat.toDigits 10 n :=
  List.takeWhile_eq_self_iff.mpr fun _ hc => Nat.isDigit_of_mem_toDigits (by decide) (by decide) hc

theorem head_toDigits_ne (n : ℕ) : (Nat.toDigits 10 n).head? ≠ some '-' := by
  intro h
  have hdigit := Nat.isDigit_of_mem_toDigits (by decide) (by decide) (List.mem_of_head? h)
  cases hdigit

theorem scanNumber_intText {n : ℤ} {cs : List Char} (h : intText n = .ok cs) :
    scanNumber cs = some ⟨cs, false, []⟩ := by
  have hdigits : Nat.toDigits 10 n.natAbs ≠ [] := Nat.toDigits_ne_nil
  have hzero : ¬ ((Nat.toDigits 10 n.natAbs).head? = some '0' ∧
      1 < (Nat.toDigits 10 n.natAbs).length) := by
    rintro ⟨hhead, hlength⟩
    rw [head?_toDigits _ hhead] at hlength
    exact absurd hlength (by decide)
  unfold intText at h
  dsimp only at h
  split_ifs at h
  · cases h
    simp [scanNumber, takeWhile_toDigits, hdigits, hzero, scanFraction, scanExponent]
  · cases h
    simp [scanNumber, takeWhile_toDigits, hdigits, hzero, scanFraction, scanExponent,
      head_toDigits_ne]

theorem parseInt_intText {n : ℤ} {cs : List Char} (h : intText n = .ok cs) :
    parseInt cs = .ok n := by
  unfold intText at h
  dsimp only at h
  split_ifs at h with hlimit hnegative
  · cases h
    have hvalue : -(n.natAbs : ℤ) = n := by omega
    simpa [parseInt, hlimit] using hvalue
  · cases h
    have hvalue : (n.natAbs : ℤ) = n := by omega
    simpa [parseInt, hlimit, head_toDigits_ne] using hvalue

/-- An integer is read back from its text. -/
theorem parseNumber_intText (floats : FloatReader) {n : ℤ} {cs rest : List Char}
    (h : intText n = .ok cs) (hrest : Closed rest) :
    parseNumber floats (cs ++ rest) = .ok (.int n, rest) := by
  simp only [parseNumber, scanNumber_append (scanNumber_intText h) hrest, parseInt_intText h]
  rfl

/-- A number starts with a digit, perhaps behind a sign. -/
theorem exists_digit_of_scanNumber {cs : List Char} {r : NumberLiteral}
    (h : scanNumber cs = some r) :
    ∃ d tail, d.isDigit = true ∧ (cs = d :: tail ∨ cs = '-' :: d :: tail) := by
  have hdigits (body : List Char) (hne : body.takeWhile Char.isDigit ≠ []) :
      ∃ d tail, d.isDigit = true ∧ body = d :: tail := by
    cases body with
    | nil => exact absurd rfl hne
    | cons d tail =>
      by_cases hd : d.isDigit = true
      · exact ⟨d, tail, hd, rfl⟩
      · exact absurd (List.takeWhile_cons_of_neg hd) hne
  unfold scanNumber at h
  dsimp only at h
  split_ifs at h with hminus hnone hnone'
  · obtain ⟨d, tail, hd, htail⟩ := hdigits _ (not_or.mp hnone).1
    cases cs with
    | nil => cases hminus
    | cons c cs =>
      obtain rfl := Option.some.inj hminus
      exact ⟨d, tail, hd, .inr (by rw [← htail]; rfl)⟩
  · obtain ⟨d, tail, hd, htail⟩ := hdigits _ (not_or.mp hnone').1
    exact ⟨d, tail, hd, .inl htail⟩

theorem parseValue_of_scanNumber (floats : FloatReader) {cs : List Char} {r : NumberLiteral}
    (h : scanNumber cs = some r) (fuel : ℕ) :
    parseValue floats (fuel + 1) cs = parseNumber floats cs := by
  obtain ⟨d, tail, hd, rfl | rfl⟩ := exists_digit_of_scanNumber h
  · rw [parseValue.eq_def]
    dsimp only
    split
    all_goals first | rfl | (rename_i heq; cases heq; cases hd)
  · rw [parseValue.eq_def]
    dsimp only
    split
    all_goals first | rfl | (rename_i heq; cases heq; done) | (rename_i heq; cases heq; cases hd)

/-! Values -/

mutual

/-- The values that a JSON text can stand for. -/
def IsJson (read : List Char → Float) : Value → Prop
  | .none => True
  | .bool _ => True
  | .int n => (Nat.toDigits 10 n.natAbs).length ≤ 4300
  | .scalar (.float x) => JsonFloat read x
  | .str _ => True
  | .bytes _ => False
  | .scalar (.other _ _) => False
  | .group _ _ => False
  | .list items => IsJsonItems read items
  | .dict entries => (entries.map Prod.fst).Nodup ∧ IsJsonEntries read entries

def IsJsonItems (read : List Char → Float) : List Value → Prop
  | [] => True
  | v :: rest => IsJson read v ∧ IsJsonItems read rest

def IsJsonEntries (read : List Char → Float) : Dict → Prop
  | [] => True
  | (k, v) :: rest => (∃ s, k = .str s) ∧ IsJson read v ∧ IsJsonEntries read rest

end

variable {read : List Char → Float}

mutual

/-- A JSON value has a text. -/
theorem writable_of_isJson (v : Value) (h : IsJson read v) : Writable v := by
  match v with
  | .none | .bool _ | .scalar (.float _) | .str _ => exact ⟨_, rfl⟩
  | .int n => exact (writable_int_iff n).mpr h
  | .bytes _ | .scalar (.other _ _) | .group _ _ => exact absurd h id
  | .list items => exact writable_list_iff.mpr (writable_of_isJsonItems items h)
  | .dict entries => exact writable_dict_iff.mpr (writable_of_isJsonEntries entries h.2)

theorem writable_of_isJsonItems (items : List Value) (h : IsJsonItems read items) :
    ∀ v ∈ items, Writable v := by
  match items with
  | [] => exact List.forall_mem_nil _
  | v :: rest =>
    have hv := writable_of_isJson v h.1
    have hrest := writable_of_isJsonItems rest h.2
    exact List.forall_mem_cons.mpr ⟨hv, hrest⟩

theorem writable_of_isJsonEntries (entries : Dict) (h : IsJsonEntries read entries) :
    ∀ e ∈ entries, (∃ key, keyText e.1 = .ok key) ∧ Writable e.2 := by
  match entries with
  | [] => exact List.forall_mem_nil _
  | (k, v) :: rest =>
    obtain ⟨⟨s, rfl⟩, hjson, hentries⟩ := h
    have hv := writable_of_isJson v hjson
    have hrest := writable_of_isJsonEntries rest hentries
    exact List.forall_mem_cons.mpr ⟨⟨⟨_, rfl⟩, hv⟩, hrest⟩

end

/-- The characters that no value starts with. -/
def isGap (c : Char) : Bool :=
  c == ' ' || c == '\t' || c == '\n' || c == '\r' || c == ']' || c == '\x7d' || c == '\ufeff'

/-- The text starts with a value. -/
def Opens (cs : List Char) : Prop := ∃ c tail, cs = c :: tail ∧ isGap c = false

theorem Opens.append {cs : List Char} (h : Opens cs) (rest : List Char) : Opens (cs ++ rest) := by
  obtain ⟨c, tail, rfl, hc⟩ := h
  exact ⟨c, tail ++ rest, rfl, hc⟩

theorem Opens.skipSpace {cs : List Char} (h : Opens cs) : skipSpace cs = cs := by
  obtain ⟨c, tail, rfl, hc⟩ := h
  simp only [isGap, Bool.or_eq_false_iff] at hc
  simp [Json.skipSpace, hc]

theorem opens_of_scanNumber {cs : List Char} {r : NumberLiteral} (h : scanNumber cs = some r) :
    Opens cs := by
  have hgap (d : Char) (hd : d.isDigit = true) : isGap d = false := by
    by_contra hg
    rw [Bool.not_eq_false] at hg
    simp only [isGap, Bool.or_eq_true, beq_iff_eq] at hg
    rcases hg with (((((rfl | rfl) | rfl) | rfl) | rfl) | rfl) | rfl <;> cases hd
  obtain ⟨d, tail, hd, rfl | rfl⟩ := exists_digit_of_scanNumber h
  · exact ⟨d, tail, rfl, hgap d hd⟩
  · exact ⟨'-', d :: tail, rfl, rfl⟩

theorem opens_floatText {x : Float} (h : JsonFloat read x) : Opens (floatText x) := by
  cases h with
  | finite hvalue hliteral hread =>
    rw [floatText, hvalue]
    exact opens_of_scanNumber hliteral
  | inf => exact ⟨_, _, rfl, rfl⟩
  | negInf => exact ⟨_, _, rfl, rfl⟩
  | nan => exact ⟨_, _, rfl, rfl⟩

theorem opens_text {v : Value} (hv : IsJson read v) {cs : List Char} (h : text v = .ok cs) :
    Opens cs := by
  match v with
  | .none => cases h; exact ⟨_, _, rfl, rfl⟩
  | .bool true => cases h; exact ⟨_, _, rfl, rfl⟩
  | .bool false => cases h; exact ⟨_, _, rfl, rfl⟩
  | .str _ => cases h; exact ⟨_, _, rfl, rfl⟩
  | .int n => exact opens_of_scanNumber (scanNumber_intText h)
  | .scalar (.float x) => cases h; exact opens_floatText hv
  | .bytes _ | .scalar (.other _ _) | .group _ _ => exact absurd hv id
  | .list items =>
    simp only [text, bind_eq_ok, pure_eq_ok] at h
    obtain ⟨body, -, rfl⟩ := h
    exact ⟨_, _, rfl, rfl⟩
  | .dict entries =>
    simp only [text, bind_eq_ok, pure_eq_ok] at h
    obtain ⟨body, -, rfl⟩ := h
    exact ⟨_, _, rfl, rfl⟩

theorem opens_textItems {v : Value} {rest : List Value} (hv : IsJson read v) {cs : List Char}
    (h : textItems (v :: rest) = .ok cs) : Opens cs := by
  cases rest with
  | nil => exact opens_text hv h
  | cons w rest =>
    simp only [textItems, bind_eq_ok, pure_eq_ok] at h
    obtain ⟨first, hfirst, others, -, rfl⟩ := h
    exact (opens_text hv hfirst).append _

/-- A float is read back from its text. -/
theorem parseValue_floatText (floats : FloatReader) {x : Float} (h : JsonFloat floats.read x)
    {rest : List Char} (hrest : Closed rest) (fuel : ℕ) :
    parseValue floats (fuel + 1) (floatText x ++ rest) = .ok (.scalar (.float x), rest) := by
  cases h with
  | finite hvalue hliteral hread =>
    have hscan := scanNumber_append hliteral hrest
    rw [floatText, hvalue, parseValue_of_scanNumber floats hscan]
    simp only [parseNumber, hscan, if_true, hread, List.nil_append]
  | inf => rfl
  | negInf => rfl
  | nan => rfl

theorem exists_quote_of_textEntries {e : Scalar × Value} {es : Dict}
    (hv : IsJsonEntries read (e :: es)) {body : List Char} (h : textEntries (e :: es) = .ok body) :
    ∃ tail, body = '"' :: tail := by
  obtain ⟨k, v⟩ := e
  obtain ⟨⟨s, rfl⟩, -⟩ := hv
  cases es with
  | nil =>
    simp only [textEntries, keyText, bind_eq_ok, pure_eq_ok] at h
    obtain ⟨key, hkey, value, -, rfl⟩ := h
    cases hkey
    exact ⟨_, rfl⟩
  | cons e es =>
    simp only [textEntries, keyText, bind_eq_ok, pure_eq_ok] at h
    obtain ⟨key, hkey, value, -, others, -, rfl⟩ := h
    cases hkey
    exact ⟨_, rfl⟩

theorem insert_of_notMem {d : Dict} {k : Scalar} (h : k ∉ d.map Prod.fst) (v : Value) :
    insert d k v = d ++ [(k, v)] := by
  have hany : d.any (·.1 == k) = false := by
    rw [List.any_eq_false]
    intro e he heq
    rw [beq_iff_eq] at heq
    exact h (heq ▸ List.mem_map_of_mem he)
  rw [insert, hany, if_neg Bool.false_ne_true]

/-- A dictionary is built from its own entries. -/
theorem ofPairs_of_nodup {pairs : List (String × Value)} {entries : Dict}
    (hentries : pairs.map (fun p => (Scalar.str p.1, p.2)) = entries)
    (hnodup : (entries.map Prod.fst).Nodup) : ofPairs pairs = entries := by
  have hfold : ∀ (pairs : List (String × Value)) (d : Dict),
      ((d ++ pairs.map fun p => (Scalar.str p.1, p.2)).map Prod.fst).Nodup →
      pairs.foldl (fun (d : Dict) (p : String × Value) => insert d (.str p.1) p.2) d =
        d ++ pairs.map fun p => (Scalar.str p.1, p.2) := by
    intro pairs
    induction pairs with
    | nil => simp
    | cons p pairs ih =>
      intro d hd
      have hnew : Scalar.str p.1 ∉ d.map Prod.fst := by
        intro hmem
        rw [List.map_append, List.nodup_append] at hd
        exact hd.2.2 _ hmem _ (by simp) rfl
      rw [List.foldl_cons, insert_of_notMem hnew, ih]
      · simp
      · simpa using hd
  rw [ofPairs, hfold pairs [] (by rw [List.nil_append, hentries]; exact hnodup), List.nil_append,
    hentries]

theorem closed_comma (cs : List Char) : Closed (',' :: cs) := by
  intro c hc
  exact .inl (Option.some.inj hc).symm

theorem closed_bracket (cs : List Char) : Closed (']' :: cs) := by
  intro c hc
  exact .inr (.inl (Option.some.inj hc).symm)

theorem closed_brace (cs : List Char) : Closed ('\x7d' :: cs) := by
  intro c hc
  exact .inr (.inr (Option.some.inj hc).symm)

variable (floats : FloatReader)

mutual

/-- A value is read back from its text, whatever closes it. -/
theorem parseValue_text (v : Value) (hv : IsJson floats.read v) {cs : List Char}
    (h : text v = .ok cs) {rest : List Char} (hrest : Closed rest) (fuel : ℕ)
    (hfuel : 2 * cs.length ≤ fuel) : parseValue floats fuel (cs ++ rest) = .ok (v, rest) := by
  have hpos : 0 < cs.length := by
    obtain ⟨c, tail, rfl, -⟩ := opens_text hv h
    simp
  obtain ⟨fuel, rfl⟩ : ∃ n, fuel = n + 1 := ⟨fuel - 1, by omega⟩
  match v with
  | .none => cases h; rfl
  | .bool true => cases h; rfl
  | .bool false => cases h; rfl
  | .str s =>
    cases h
    simp only [stringText, List.cons_append, List.append_assoc, List.nil_append, parseValue,
      parseString_stringText]
    rfl
  | .int n =>
    rw [parseValue_of_scanNumber floats (scanNumber_append (scanNumber_intText h) hrest)]
    exact parseNumber_intText floats h hrest
  | .scalar (.float x) =>
    cases h
    exact parseValue_floatText floats hv hrest fuel
  | .bytes _ | .scalar (.other _ _) | .group _ _ => exact absurd hv id
  | .list [] => cases h; rfl
  | .list (w :: items) =>
    simp only [text, bind_eq_ok, pure_eq_ok] at h
    obtain ⟨body, hbody, rfl⟩ := h
    have hitems := parseItems_text w items hv hbody rest fuel (by simp at hfuel; omega)
    obtain ⟨c, tail, hc, hgap⟩ := (opens_textItems hv.1 hbody).append (']' :: rest)
    have hskip := Opens.skipSpace ⟨c, tail, hc, hgap⟩
    have hbracket : c ≠ ']' := by
      rintro rfl
      cases hgap
    have hstart : '[' :: body ++ [']'] ++ rest = '[' :: (body ++ ']' :: rest) := by simp
    rw [hstart]
    simp only [parseValue, hskip]
    split
    · rename_i heq
      rw [hc] at heq
      exact absurd (List.cons.inj heq).1 hbracket
    · rw [hitems]
      rfl
  | .dict [] => cases h; rfl
  | .dict (e :: entries) =>
    simp only [text, bind_eq_ok, pure_eq_ok] at h
    obtain ⟨body, hbody, rfl⟩ := h
    obtain ⟨pairs, hpairs, hentries⟩ := parseEntries_text e entries hv.2 hbody rest fuel
      (by simp at hfuel; omega)
    obtain ⟨tail, hc⟩ := exists_quote_of_textEntries hv.2 hbody
    have hstart : '\x7b' :: body ++ ['\x7d'] ++ rest = '\x7b' :: (body ++ '\x7d' :: rest) := by simp
    have hskip : skipSpace (body ++ '\x7d' :: rest) = body ++ '\x7d' :: rest := by
      rw [hc]
      rfl
    rw [hstart]
    simp only [parseValue, hskip]
    split
    · rename_i heq
      rw [hc] at heq
      cases heq
    · rw [hentries]
      exact congrArg (fun d => Except.ok (Value.dict d, rest)) (ofPairs_of_nodup hpairs hv.1)
termination_by fuel

theorem parseItems_text (v : Value) (vs : List Value) (hv : IsJsonItems floats.read (v :: vs))
    {body : List Char} (h : textItems (v :: vs) = .ok body) (rest : List Char) (fuel : ℕ)
    (hfuel : 2 * body.length + 1 ≤ fuel) :
    parseItems floats fuel (body ++ ']' :: rest) = .ok (v :: vs, rest) := by
  obtain ⟨fuel, rfl⟩ : ∃ n, fuel = n + 1 := ⟨fuel - 1, by omega⟩
  match vs with
  | [] =>
    have hvalue := parseValue_text v hv.1 h (closed_bracket rest) fuel (by omega)
    rw [parseItems, hvalue]
    rfl
  | w :: vs =>
    simp only [textItems, bind_eq_ok, pure_eq_ok] at h
    obtain ⟨first, hfirst, others, hothers, rfl⟩ := h
    simp only [List.length_append, List.length_cons] at hfuel
    have hvalue := parseValue_text v hv.1 hfirst
      (closed_comma (' ' :: (others ++ ']' :: rest))) fuel (by omega)
    have hitems := parseItems_text w vs hv.2 hothers rest fuel (by omega)
    have hskip := ((opens_textItems hv.2.1 hothers).append (']' :: rest)).skipSpace
    have hspace : skipSpace (' ' :: (others ++ ']' :: rest)) = others ++ ']' :: rest := hskip
    have hcomma (cs : List Char) : skipSpace (',' :: cs) = ',' :: cs := rfl
    rw [List.append_assoc, List.cons_append, List.cons_append, parseItems, hvalue]
    simp only [bind, Except.bind, hcomma, hspace, hitems]
    rfl
termination_by fuel

theorem parseEntries_text (e : Scalar × Value) (es : Dict) (hv : IsJsonEntries floats.read (e :: es))
    {body : List Char} (h : textEntries (e :: es) = .ok body) (rest : List Char) (fuel : ℕ)
    (hfuel : 2 * body.length + 1 ≤ fuel) :
    ∃ pairs : List (String × Value), pairs.map (fun p => (Scalar.str p.1, p.2)) = e :: es ∧
      parseEntries floats fuel (body ++ '\x7d' :: rest) = .ok (pairs, rest) := by
  obtain ⟨fuel, rfl⟩ : ∃ n, fuel = n + 1 := ⟨fuel - 1, by omega⟩
  obtain ⟨k, v⟩ := e
  obtain ⟨⟨s, rfl⟩, hvalue, hes⟩ := hv
  have hcolon (cs : List Char) : skipSpace (':' :: cs) = ':' :: cs := rfl
  have hcomma (cs : List Char) : skipSpace (',' :: cs) = ',' :: cs := rfl
  have hbrace (cs : List Char) : skipSpace ('\x7d' :: cs) = '\x7d' :: cs := rfl
  have hspace (cs : List Char) : skipSpace (' ' :: cs) = skipSpace cs := rfl
  match es with
  | [] =>
    simp only [textEntries, keyText, bind_eq_ok, pure_eq_ok] at h
    obtain ⟨key, hkey, value, htext, rfl⟩ := h
    cases hkey
    simp only [stringText, List.length_append, List.length_cons] at hfuel
    have hparse := parseValue_text v hvalue htext (closed_brace rest) fuel (by omega)
    have hskip := ((opens_text hvalue htext).append ('\x7d' :: rest)).skipSpace
    refine ⟨[(s, v)], rfl, ?_⟩
    simp only [stringText, List.cons_append, List.append_assoc, List.nil_append, parseEntries,
      parseString_stringText, bind, Except.bind, hcolon, hspace, hskip, hparse, hbrace]
    rfl
  | e :: es =>
    simp only [textEntries, keyText, bind_eq_ok, pure_eq_ok] at h
    obtain ⟨key, hkey, value, htext, others, hothers, rfl⟩ := h
    cases hkey
    simp only [stringText, List.length_append, List.length_cons] at hfuel
    obtain ⟨pairs, hpairs, hentries⟩ := parseEntries_text e es hes hothers rest fuel
      (by omega)
    have hparse := parseValue_text v hvalue htext
      (closed_comma (' ' :: (others ++ '\x7d' :: rest))) fuel (by omega)
    have hskip := ((opens_text hvalue htext).append
      (',' :: ' ' :: (others ++ '\x7d' :: rest))).skipSpace
    obtain ⟨tail, hc⟩ := exists_quote_of_textEntries hes hothers
    have hquote : skipSpace (others ++ '\x7d' :: rest) = others ++ '\x7d' :: rest := by
      rw [hc]
      rfl
    refine ⟨(s, v) :: pairs, by rw [List.map_cons, hpairs], ?_⟩
    simp only [stringText, List.cons_append, List.append_assoc, List.nil_append, parseEntries,
      parseString_stringText, bind, Except.bind, hcolon, hspace, hskip, hparse, hcomma, hquote,
      hentries]
    rfl
termination_by fuel

end

/-- A JSON value has a text, and the text is read back as the value. -/
theorem loads_dumps {v : Value} (h : IsJson floats.read v) :
    ∃ s, dumps v = .ok s ∧ loads floats (.str s) = .ok v := by
  obtain ⟨cs, hcs⟩ := writable_of_isJson v h
  obtain ⟨c, tail, hc, hgap⟩ := opens_text h hcs
  have hbom : cs.head? ≠ some '\ufeff' := by
    rw [hc]
    rintro ⟨⟩
    cases hgap
  refine ⟨String.ofList cs, by rw [dumps, hcs]; rfl, ?_⟩
  have hskip := Opens.skipSpace ⟨c, tail, hc, hgap⟩
  have hclosed : Closed [] := by simp [Closed]
  have hparse := parseValue_text floats v h hcs hclosed (2 * cs.length) le_rfl
  rw [List.append_nil] at hparse
  simp only [loads, loadsStr, String.toList_ofList, if_neg hbom, hskip, String.length_ofList, hparse,
    bind, Except.bind]
  rfl

/-! What is read -/

theorem isJsonItems_iff {items : List Value} :
    IsJsonItems read items ↔ ∀ v ∈ items, IsJson read v := by
  induction items with
  | nil => simp [IsJsonItems]
  | cons v items ih => rw [IsJsonItems, List.forall_mem_cons, ih]

theorem isJsonEntries_iff {entries : Dict} :
    IsJsonEntries read entries ↔ ∀ e ∈ entries, (∃ s, e.1 = .str s) ∧ IsJson read e.2 := by
  induction entries with
  | nil => simp [IsJsonEntries]
  | cons e entries ih => rw [IsJsonEntries, List.forall_mem_cons, ih, and_assoc]

theorem ofDigitChars_lt {digits : List Char} (h : ∀ c ∈ digits, c.isDigit = true) :
    Nat.ofDigitChars 10 digits 0 < 10 ^ digits.length := by
  induction digits with
  | nil => simp
  | cons c digits ih =>
    have hrest := ih fun d hd => h d (List.mem_cons_of_mem _ hd)
    have hc := h c List.mem_cons_self
    simp only [Char.isDigit, Bool.and_eq_true, decide_eq_true_eq, ge_iff_le,
      UInt32.le_iff_toNat_le] at hc
    have hdigit : c.toNat - '0'.toNat ≤ 9 := by
      have hhi : c.val.toNat ≤ 57 := hc.2
      have hval : c.toNat = c.val.toNat := rfl
      have hzero : '0'.toNat = 48 := rfl
      omega
    rw [Nat.ofDigitChars_cons, Nat.ofDigitChars_eq_ofDigitChars_zero, List.length_cons, Nat.pow_succ]
    have hmul : 10 ^ digits.length * (10 * 0 + (c.toNat - '0'.toNat)) ≤ 10 ^ digits.length * 9 :=
      Nat.mul_le_mul_left _ (by omega)
    omega

theorem isDigit_of_mem_takeWhile {cs : List Char} : ∀ c ∈ cs.takeWhile Char.isDigit,
    c.isDigit = true := fun _ hc => List.mem_takeWhile_imp hc

/-- The literal of an integer: digits, perhaps behind a sign. -/
theorem exists_digits_of_scanNumber {cs literal rest : List Char}
    (h : scanNumber cs = some ⟨literal, false, rest⟩) :
    ∃ digits : List Char, (∀ c ∈ digits, c.isDigit = true) ∧
      (literal = digits ∨ literal = '-' :: digits) := by
  unfold scanNumber at h
  dsimp only at h
  split_ifs at h with hminus hnone hnone'
  · simp only [Option.some.injEq, NumberLiteral.mk.injEq, Bool.not_eq_false', Bool.and_eq_true,
      List.isEmpty_iff] at h
    obtain ⟨rfl, ⟨hfraction, hexponent⟩, -⟩ := h
    refine ⟨(cs.drop 1).takeWhile Char.isDigit, isDigit_of_mem_takeWhile, .inr ?_⟩
    rw [hfraction, hexponent, List.append_nil, List.append_nil]
    rfl
  · simp only [Option.some.injEq, NumberLiteral.mk.injEq, Bool.not_eq_false', Bool.and_eq_true,
      List.isEmpty_iff] at h
    obtain ⟨rfl, ⟨hfraction, hexponent⟩, -⟩ := h
    refine ⟨cs.takeWhile Char.isDigit, isDigit_of_mem_takeWhile, .inl ?_⟩
    rw [hfraction, hexponent, List.append_nil, List.append_nil]
    rfl

theorem length_toDigits_le {digits : List Char} (hdigits : ∀ c ∈ digits, c.isDigit = true)
    {limit : ℕ} (hpos : 0 < limit) (hlimit : digits.length ≤ limit) :
    (Nat.toDigits 10 (Nat.ofDigitChars 10 digits 0)).length ≤ limit := by
  rw [Nat.length_toDigits_le_iff (by decide) hpos]
  exact (ofDigitChars_lt hdigits).trans_le (Nat.pow_le_pow_right (by decide) hlimit)

theorem isJson_parseInt {literal digits : List Char} (hdigits : ∀ c ∈ digits, c.isDigit = true)
    (hliteral : literal = digits ∨ literal = '-' :: digits) {n : ℤ}
    (h : parseInt literal = .ok n) : IsJson read (.int n) := by
  have hhead : digits.head? ≠ some '-' := by
    intro hhead
    cases hdigits '-' (List.mem_of_head? hhead)
  unfold parseInt at h
  rcases hliteral with rfl | rfl
  · simp only [hhead, if_false] at h
    split_ifs at h with hlimit
    cases h
    exact length_toDigits_le hdigits (by decide) (by omega)
  · simp only [List.head?_cons, if_true, List.tail_cons] at h
    split_ifs at h with hlimit
    cases h
    rw [IsJson, Int.natAbs_neg, Int.natAbs_natCast]
    exact length_toDigits_le hdigits (by decide) (by omega)

theorem isJson_parseNumber {cs rest : List Char} {v : Value}
    (h : parseNumber floats cs = .ok (v, rest)) : IsJson floats.read v := by
  unfold parseNumber at h
  split at h
  · cases h
  · rename_i literal isFloat tail hscan
    cases isFloat with
    | true =>
      cases h
      exact floats.jsonFloat literal
    | false =>
      simp only [Bool.false_eq_true, if_false, bind_eq_ok, pure_eq_ok, Prod.mk.injEq] at h
      obtain ⟨n, hn, rfl, rfl⟩ := h
      obtain ⟨digits, hdigits, hliteral⟩ := exists_digits_of_scanNumber hscan
      exact isJson_parseInt hdigits hliteral hn

theorem insert_isJson {d : Dict} {k : String} {v : Value} (hd : IsJson read (.dict d))
    (hv : IsJson read v) : IsJson read (.dict (insert d (.str k) v)) := by
  obtain ⟨hnodup, hentries⟩ := hd
  rw [isJsonEntries_iff] at hentries
  by_cases hany : d.any (·.1 == Scalar.str k) = true
  · rw [insert, if_pos hany]
    have hkeys : (d.map fun e => if e.1 == Scalar.str k then (Scalar.str k, v) else e).map Prod.fst =
        d.map Prod.fst := by
      rw [List.map_map]
      refine List.map_congr_left fun e _ => ?_
      by_cases he : e.1 = Scalar.str k
      · simp [he]
      · simp [he]
    refine ⟨by rw [hkeys]; exact hnodup, isJsonEntries_iff.mpr fun e he => ?_⟩
    obtain ⟨e', he', rfl⟩ := List.mem_map.mp he
    split_ifs
    · exact ⟨⟨k, rfl⟩, hv⟩
    · exact hentries e' he'
  · have hnew : Scalar.str k ∉ d.map Prod.fst := by
      intro hmem
      obtain ⟨e, he, hk⟩ := List.mem_map.mp hmem
      exact hany (List.any_eq_true.mpr ⟨e, he, by rw [hk]; exact beq_self_eq_true _⟩)
    rw [insert_of_notMem hnew]
    refine ⟨?_, isJsonEntries_iff.mpr fun e he => ?_⟩
    · rw [List.map_append, List.nodup_append]
      refine ⟨hnodup, by simp, fun a ha b hb => ?_⟩
      simp only [List.map_cons, List.map_nil, List.mem_singleton] at hb
      rintro rfl
      exact hnew (hb ▸ ha)
    · rcases List.mem_append.mp he with he | he
      · exact hentries e he
      · rw [List.mem_singleton.mp he]
        exact ⟨⟨k, rfl⟩, hv⟩

theorem isJson_ofPairs {pairs : List (String × Value)} (h : ∀ p ∈ pairs, IsJson read p.2) :
    IsJson read (.dict (ofPairs pairs)) := by
  have hfold : ∀ (pairs : List (String × Value)) (d : Dict), (∀ p ∈ pairs, IsJson read p.2) →
      IsJson read (.dict d) → IsJson read (.dict (pairs.foldl
        (fun (d : Dict) (p : String × Value) => insert d (.str p.1) p.2) d)) := by
    intro pairs
    induction pairs with
    | nil => exact fun _ _ hd => hd
    | cons p pairs ih =>
      intro d hpairs hd
      rw [List.forall_mem_cons] at hpairs
      exact ih _ hpairs.2 (insert_isJson hd hpairs.1)
  exact hfold pairs [] h ⟨List.nodup_nil, trivial⟩

/-- Whatever is read is a JSON value, by induction on the fuel. -/
theorem isJson_parse (fuel : ℕ) :
    (∀ cs v rest, parseValue floats fuel cs = .ok (v, rest) → IsJson floats.read v) ∧
    (∀ cs vs rest, parseItems floats fuel cs = .ok (vs, rest) → IsJsonItems floats.read vs) ∧
    (∀ cs ps rest, parseEntries floats fuel cs = .ok (ps, rest) →
      ∀ p ∈ ps, IsJson floats.read p.2) := by
  induction fuel with
  | zero => exact ⟨nofun, nofun, nofun⟩
  | succ fuel ih =>
    obtain ⟨ihvalue, ihitems, ihentries⟩ := ih
    refine ⟨fun cs v rest h => ?_, fun cs vs rest h => ?_, fun cs ps rest h => ?_⟩
    · rw [parseValue.eq_def] at h
      dsimp only at h
      split at h
      · simp only [bind_eq_ok, pure_eq_ok, Prod.mk.injEq] at h
        obtain ⟨s, -, rfl, -⟩ := h
        exact trivial
      · split at h
        · cases h
          exact trivial
        · simp only [bind_eq_ok, pure_eq_ok, Prod.mk.injEq] at h
          obtain ⟨r, hr, rfl, -⟩ := h
          exact ihitems _ _ _ hr
      · split at h
        · cases h
          exact ⟨List.nodup_nil, trivial⟩
        · simp only [bind_eq_ok, pure_eq_ok, Prod.mk.injEq] at h
          obtain ⟨r, hr, rfl, -⟩ := h
          exact isJson_ofPairs (ihentries _ _ _ hr)
      · cases h
        exact trivial
      · cases h
        exact trivial
      · cases h
        exact trivial
      · cases h
        exact .nan
      · cases h
        exact .inf
      · cases h
        exact .negInf
      · exact isJson_parseNumber floats h
    · simp only [parseItems, bind_eq_ok] at h
      obtain ⟨⟨v, tail⟩, hv, h⟩ := h
      dsimp only at h
      split at h
      · cases h
        exact ⟨ihvalue _ _ _ hv, trivial⟩
      · simp only [bind_eq_ok, pure_eq_ok, Prod.mk.injEq] at h
        obtain ⟨r, hr, rfl, -⟩ := h
        exact ⟨ihvalue _ _ _ hv, ihitems _ _ _ hr⟩
      · cases h
    · rw [parseEntries.eq_def] at h
      dsimp only at h
      split at h
      · simp only [bind_eq_ok] at h
        obtain ⟨⟨k, tail⟩, -, h⟩ := h
        dsimp only at h
        split at h
        · simp only [bind_eq_ok] at h
          obtain ⟨⟨v, tail'⟩, hv, h⟩ := h
          dsimp only at h
          split at h
          · cases h
            simpa using ihvalue _ _ _ hv
          · simp only [bind_eq_ok, pure_eq_ok, Prod.mk.injEq] at h
            obtain ⟨r, hr, rfl, -⟩ := h
            exact List.forall_mem_cons.mpr ⟨ihvalue _ _ _ hv, ihentries _ _ _ hr⟩
          · cases h
        · cases h
      · cases h

/-- `json.loads` returns nothing but JSON values. -/
theorem isJson_loads {v w : Value} (h : loads floats v = .ok w) : IsJson floats.read w := by
  have hstr {s : String} (h : loadsStr floats s = .ok w) : IsJson floats.read w := by
    unfold loadsStr at h
    split_ifs at h
    simp only [bind_eq_ok] at h
    obtain ⟨⟨u, rest⟩, hu, h⟩ := h
    dsimp only at h
    split_ifs at h
    cases h
    exact (isJson_parse floats _).1 _ _ _ hu
  unfold loads at h
  split at h
  · exact hstr h
  · obtain ⟨s, -, h⟩ := bind_eq_ok.mp h
    exact hstr h
  · cases h

end McpZero.Python.Json
