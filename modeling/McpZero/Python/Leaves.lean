import McpZero.Python.Tree

/-! The string leaves of a value with their paths, and walks that visit them. A walk goes from
left to right, carries an accumulator and stops at the first failure. -/
namespace McpZero.Python.Value

variable {α ε σ : Type} (key : String → Scalar → String) (index : String → ℕ → String)

mutual

/-- The string leaves with their paths, from left to right. -/
def leaves (path : String) : Value → List (String × String)
  | .str text => [(path, text)]
  | .scalar _ => []
  | .group _ _ => []
  | .list items => leavesItems path 0 items
  | .dict entries => leavesEntries path entries

def leavesItems (path : String) (i : ℕ) : List Value → List (String × String)
  | [] => []
  | item :: rest => leaves (index path i) item ++ leavesItems path (i + 1) rest

def leavesEntries (path : String) : Dict → List (String × String)
  | [] => []
  | (k, value) :: rest => leaves (key path k) value ++ leavesEntries path rest

end

mutual

/-- The value with the empty text at every string leaf: its keys, lengths and other leaves. -/
def blank : Value → Value
  | .str _ => .str ""
  | .scalar a => .scalar a
  | .group kind items => .group kind items
  | .list items => .list (blankItems items)
  | .dict entries => .dict (blankEntries entries)

def blankItems : List Value → List Value
  | [] => []
  | item :: rest => item.blank :: blankItems rest

def blankEntries : Dict → Dict
  | [] => []
  | (k, value) :: rest => (k, value.blank) :: blankEntries rest

end

/-- The value `w` is `v` with these texts at its string leaves. -/
structure Refilled (v : Value) (texts : List String) (w : Value) : Prop where
  blank : w.blank = v.blank
  strings : w.strings = texts

mutual

theorem leaves_snd (path : String) (v : Value) :
    (v.leaves key index path).map (·.2) = v.strings := by
  match v with
  | .scalar .none | .scalar (.bool _) | .scalar (.int _) | .scalar (.float _)
  | .bytes _ | .scalar (.other _ _) | .str _ | .group _ _ => rfl
  | .list items => exact leavesItems_snd path 0 items
  | .dict entries => exact leavesEntries_snd path entries

theorem leavesItems_snd (path : String) (i : ℕ) (items : List Value) :
    (leavesItems key index path i items).map (·.2) = stringsItems items := by
  match items with
  | [] => rfl
  | item :: rest =>
    rw [leavesItems, stringsItems, List.map_append, leaves_snd (index path i) item,
      leavesItems_snd path (i + 1) rest]

theorem leavesEntries_snd (path : String) (entries : Dict) :
    (leavesEntries key index path entries).map (·.2) = stringsEntries entries := by
  match entries with
  | [] => rfl
  | (k, value) :: rest =>
    rw [leavesEntries, stringsEntries, List.map_append, leaves_snd (key path k) value,
      leavesEntries_snd path rest]

end

mutual

/-- The keys, the lengths, the other leaves and the texts of a value determine it. The texts of a
value that others follow have to be told apart from theirs. -/
theorem eq_of_blank {v w : Value} {xs ys : List String} (hblank : v.blank = w.blank)
    (hstrings : v.strings ++ xs = w.strings ++ ys) : v = w ∧ xs = ys := by
  match v, w with
  | .scalar a, .scalar b =>
    cases a <;> cases b <;> simp_all [blank, strings]
  | .group _ _, .group _ _ =>
    simp only [blank] at hblank
    exact ⟨hblank, hstrings⟩
  | .list items, .list items' =>
    simp only [blank, Value.list.injEq] at hblank
    obtain ⟨rfl, hrest⟩ := eq_of_blankItems hblank hstrings
    exact ⟨rfl, hrest⟩
  | .dict entries, .dict entries' =>
    simp only [blank, Value.dict.injEq] at hblank
    obtain ⟨rfl, hrest⟩ := eq_of_blankEntries hblank hstrings
    exact ⟨rfl, hrest⟩
  | .scalar a, .list _ | .scalar a, .dict _ | .scalar a, .group _ _ =>
    cases a <;> simp [blank] at hblank
  | .list _, .scalar a | .dict _, .scalar a | .group _ _, .scalar a =>
    cases a <;> simp [blank] at hblank
  | .list _, .dict _ | .dict _, .list _ | .list _, .group _ _ | .dict _, .group _ _
  | .group _ _, .list _ | .group _ _, .dict _ => simp [blank] at hblank

theorem eq_of_blankItems {vs ws : List Value} {xs ys : List String}
    (hblank : blankItems vs = blankItems ws)
    (hstrings : stringsItems vs ++ xs = stringsItems ws ++ ys) : vs = ws ∧ xs = ys := by
  match vs, ws with
  | [], [] => exact ⟨rfl, hstrings⟩
  | v :: vs, w :: ws =>
    simp only [blankItems, List.cons.injEq] at hblank
    simp only [stringsItems, List.append_assoc] at hstrings
    obtain ⟨rfl, hrest⟩ := eq_of_blank hblank.1 hstrings
    obtain ⟨rfl, hxs⟩ := eq_of_blankItems hblank.2 hrest
    exact ⟨rfl, hxs⟩
  | [], _ :: _ | _ :: _, [] => simp [blankItems] at hblank

theorem eq_of_blankEntries {vs ws : Dict} {xs ys : List String}
    (hblank : blankEntries vs = blankEntries ws)
    (hstrings : stringsEntries vs ++ xs = stringsEntries ws ++ ys) : vs = ws ∧ xs = ys := by
  match vs, ws with
  | [], [] => exact ⟨rfl, hstrings⟩
  | (k, v) :: vs, (k', w) :: ws =>
    simp only [blankEntries, List.cons.injEq, Prod.mk.injEq] at hblank
    obtain ⟨⟨rfl, hv⟩, hvs⟩ := hblank
    simp only [stringsEntries, List.append_assoc] at hstrings
    obtain ⟨rfl, hrest⟩ := eq_of_blank hv hstrings
    obtain ⟨rfl, hxs⟩ := eq_of_blankEntries hvs hrest
    exact ⟨rfl, hxs⟩
  | [], _ :: _ | _ :: _, [] => simp [blankEntries] at hblank

end

/-- The texts leave no choice. -/
theorem Refilled.unique {v w w' : Value} {texts : List String} (h : Refilled v texts w)
    (h' : Refilled v texts w') : w = w' := by
  have hstrings : w.strings ++ [] = w'.strings ++ [] := by rw [h.strings, h'.strings]
  exact (eq_of_blank (h.blank.trans h'.blank.symm) hstrings).1

variable (leaf : String → String → α → σ → Except ε (String × α) × σ)

mutual

/-- Call `leaf` at every string leaf, with its path and its text, and put the text it returns
there. -/
def visit (path : String) : Value → α → σ → Except ε (Value × α) × σ
  | .str text, acc, s =>
    match leaf path text acc s with
    | (.error e, s) => (.error e, s)
    | (.ok (text, acc), s) => (.ok (.str text, acc), s)
  | .scalar a, acc, s => (.ok (.scalar a, acc), s)
  | .group kind items, acc, s => (.ok (.group kind items, acc), s)
  | .list items, acc, s =>
    match visitItems path 0 items acc s with
    | (.error e, s) => (.error e, s)
    | (.ok (items, acc), s) => (.ok (.list items, acc), s)
  | .dict entries, acc, s =>
    match visitEntries path entries acc s with
    | (.error e, s) => (.error e, s)
    | (.ok (entries, acc), s) => (.ok (.dict entries, acc), s)

def visitItems (path : String) (i : ℕ) : List Value → α → σ → Except ε (List Value × α) × σ
  | [], acc, s => (.ok ([], acc), s)
  | item :: rest, acc, s =>
    match visit (index path i) item acc s with
    | (.error e, s) => (.error e, s)
    | (.ok (item, acc), s) =>
      match visitItems path (i + 1) rest acc s with
      | (.error e, s) => (.error e, s)
      | (.ok (rest, acc), s) => (.ok (item :: rest, acc), s)

def visitEntries (path : String) : Dict → α → σ → Except ε (Dict × α) × σ
  | [], acc, s => (.ok ([], acc), s)
  | (k, value) :: rest, acc, s =>
    match visit (key path k) value acc s with
    | (.error e, s) => (.error e, s)
    | (.ok (value, acc), s) =>
      match visitEntries path rest acc s with
      | (.error e, s) => (.error e, s)
      | (.ok (rest, acc), s) => (.ok ((k, value) :: rest, acc), s)

end

/-- The calls of `leaf` in their order, and the texts they return. -/
def visitLeaves : List (String × String) → α → σ → Except ε (List String × α) × σ
  | [], acc, s => (.ok ([], acc), s)
  | (path, text) :: rest, acc, s =>
    match leaf path text acc s with
    | (.error e, s) => (.error e, s)
    | (.ok (text, acc), s) =>
      match visitLeaves rest acc s with
      | (.error e, s) => (.error e, s)
      | (.ok (texts, acc), s) => (.ok (text :: texts, acc), s)

theorem visitLeaves_append (xs ys : List (String × String)) (acc : α) (s : σ) :
    visitLeaves leaf (xs ++ ys) acc s =
      match visitLeaves leaf xs acc s with
      | (.error e, s) => (.error e, s)
      | (.ok (texts, acc), s) =>
        match visitLeaves leaf ys acc s with
        | (.error e, s) => (.error e, s)
        | (.ok (texts', acc), s) => (.ok (texts ++ texts', acc), s) := by
  induction xs generalizing acc s with
  | nil =>
    rcases h : visitLeaves leaf ys acc s with ⟨e | ⟨texts, acc'⟩, t⟩
    · simp only [List.nil_append, visitLeaves, h]
    · simp only [List.nil_append, visitLeaves, h]
  | cons x xs ih =>
    obtain ⟨path, text⟩ := x
    rcases hleaf : leaf path text acc s with ⟨e | ⟨text', acc'⟩, t⟩
    · simp only [List.cons_append, visitLeaves, hleaf]
    · simp only [List.cons_append, visitLeaves, hleaf, ih]
      rcases visitLeaves leaf xs acc' t with ⟨e | ⟨texts, acc₂⟩, t₂⟩
      · rfl
      · rcases h : visitLeaves leaf ys acc₂ t₂ with ⟨e | ⟨texts', acc₃⟩, t₃⟩
        · simp only [h]
        · simp only [h, List.cons_append]

/-- How a walk ends, given what the calls of `leaf` give: it fails as they fail, and otherwise
puts the texts in their places. -/
inductive Ends {β : Type} (Placed : List String → β → Prop) :
    Except ε (List String × α) × σ → Except ε (β × α) × σ → Prop
  | failed (e : ε) (t : σ) : Ends Placed (.error e, t) (.error e, t)
  | done {texts : List String} {w : β} (acc : α) (t : σ) :
      Placed texts w → Ends Placed (.ok (texts, acc), t) (.ok (w, acc), t)

mutual

/-- A walk is the calls at the leaves, one after the other, and leaves the rest of the value as
it is. -/
theorem visit_ends (path : String) (v : Value) (acc : α) (s : σ) :
    Ends (Refilled v) (visitLeaves leaf (leaves key index path v) acc s)
      (visit key index leaf path v acc s) := by
  match v with
  | .str text =>
    rcases h : leaf path text acc s with ⟨e | ⟨text', acc'⟩, t⟩
    · simp only [visit, leaves, visitLeaves, h]
      exact .failed e t
    · simp only [visit, leaves, visitLeaves, h]
      exact .done acc' t ⟨rfl, rfl⟩
  | .scalar .none | .scalar (.bool _) | .scalar (.int _) | .scalar (.float _)
  | .bytes _ | .scalar (.other _ _) | .group _ _ => exact .done acc s ⟨rfl, rfl⟩
  | .list items =>
    have hitems := visitItems_ends path 0 items acc s
    simp only [visit, leaves]
    generalize visitLeaves leaf (leavesItems key index path 0 items) acc s = asked at hitems ⊢
    generalize visitItems key index leaf path 0 items acc s = walked at hitems ⊢
    cases hitems with
    | failed e t => exact .failed e t
    | done acc' t hplaced =>
      refine .done acc' t ⟨?_, hplaced.2⟩
      simp only [blank, hplaced.1]
  | .dict entries =>
    have hentries := visitEntries_ends path entries acc s
    simp only [visit, leaves]
    generalize visitLeaves leaf (leavesEntries key index path entries) acc s = asked at hentries ⊢
    generalize visitEntries key index leaf path entries acc s = walked at hentries ⊢
    cases hentries with
    | failed e t => exact .failed e t
    | done acc' t hplaced =>
      refine .done acc' t ⟨?_, hplaced.2⟩
      simp only [blank, hplaced.1]

theorem visitItems_ends (path : String) (i : ℕ) (items : List Value) (acc : α) (s : σ) :
    Ends (fun texts ws => blankItems ws = blankItems items ∧ stringsItems ws = texts)
      (visitLeaves leaf (leavesItems key index path i items) acc s)
      (visitItems key index leaf path i items acc s) := by
  match items with
  | [] => exact .done acc s ⟨rfl, rfl⟩
  | item :: rest =>
    have hitem := visit_ends (index path i) item acc s
    simp only [visitItems, leavesItems, visitLeaves_append]
    generalize visitLeaves leaf (leaves key index (index path i) item) acc s = asked at hitem ⊢
    generalize visit key index leaf (index path i) item acc s = walked at hitem ⊢
    cases hitem with
    | failed e t => exact .failed e t
    | done acc' t hplaced =>
      have hrest := visitItems_ends path (i + 1) rest acc' t
      dsimp only
      generalize visitLeaves leaf (leavesItems key index path (i + 1) rest) acc' t = asked
        at hrest ⊢
      generalize visitItems key index leaf path (i + 1) rest acc' t = walked at hrest ⊢
      cases hrest with
      | failed e t => exact .failed e t
      | done acc₂ t₂ hplaced' =>
        refine .done acc₂ t₂ ⟨?_, ?_⟩
        · simp only [blankItems, hplaced.blank, hplaced'.1]
        · simp only [stringsItems, hplaced.strings, hplaced'.2]

theorem visitEntries_ends (path : String) (entries : Dict) (acc : α) (s : σ) :
    Ends (fun texts ws => blankEntries ws = blankEntries entries ∧ stringsEntries ws = texts)
      (visitLeaves leaf (leavesEntries key index path entries) acc s)
      (visitEntries key index leaf path entries acc s) := by
  match entries with
  | [] => exact .done acc s ⟨rfl, rfl⟩
  | (k, value) :: rest =>
    have hvalue := visit_ends (key path k) value acc s
    simp only [visitEntries, leavesEntries, visitLeaves_append]
    generalize visitLeaves leaf (leaves key index (key path k) value) acc s = asked at hvalue ⊢
    generalize visit key index leaf (key path k) value acc s = walked at hvalue ⊢
    cases hvalue with
    | failed e t => exact .failed e t
    | done acc' t hplaced =>
      have hrest := visitEntries_ends path rest acc' t
      dsimp only
      generalize visitLeaves leaf (leavesEntries key index path rest) acc' t = asked at hrest ⊢
      generalize visitEntries key index leaf path rest acc' t = walked at hrest ⊢
      cases hrest with
      | failed e t => exact .failed e t
      | done acc₂ t₂ hplaced' =>
        refine .done acc₂ t₂ ⟨?_, ?_⟩
        · simp only [blankEntries, hplaced.blank, hplaced'.1]
        · simp only [stringsEntries, hplaced.strings, hplaced'.2]

end

end McpZero.Python.Value
