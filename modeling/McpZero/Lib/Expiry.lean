import Mathlib.Algebra.Order.Field.Rat
import Mathlib.Tactic.Common
import Mathlib.Tactic.Linarith

/-! Stores whose keys expire. A write makes a key that lasts until a deadline is set for it. -/
namespace McpZero.Lib.Expiry

inductive Command (κ : Type)
  | write (key : κ)
  | expire (key : κ) (seconds : ℚ)

def Command.key {κ : Type} : Command κ → κ
  | .write key => key
  | .expire key _ => key

/-- A store that executes commands at a time, and which of its keys are there at a time. A key
that is gone stays gone until it is written, a write leaves the deadline of a key that is there,
and a command says nothing of other keys. -/
structure ExpiringStore (σ κ : Type) where
  execute : ℚ → σ → Command κ → σ
  Alive : σ → κ → ℚ → Prop
  alive_of_le {s : σ} {key : κ} {now later : ℚ} :
    now ≤ later → Alive s key later → Alive s key now
  alive_execute_of_ne {s : σ} {c : Command κ} {key : κ} (now : ℚ) {later : ℚ} :
    key ≠ c.key → (Alive (execute now s c) key later ↔ Alive s key later)
  alive_write (s : σ) (key : κ) (now : ℚ) : Alive (execute now s (.write key)) key now
  alive_of_write {s : σ} {key : κ} {now later : ℚ} :
    Alive s key now → Alive (execute now s (.write key)) key later → Alive s key later
  alive_expire {s : σ} {key : κ} {now seconds : ℚ} :
    0 < seconds → Alive s key now → Alive (execute now s (.expire key seconds)) key now
  not_alive_expire (s : σ) (key : κ) {now seconds later : ℚ} :
    now + seconds < later → ¬ Alive (execute now s (.expire key seconds)) key later

/-- Every first write of a key is followed by its deadline, but for the keys that are meant to
last. `seen` are the keys that have been written before. -/
inductive Renews {κ : Type} (longest : ℚ) (lasts : κ → Prop) : List κ → List (Command κ) → Prop
  | nil (seen : List κ) : Renews longest lasts seen []
  | lasts {key : κ} {seen : List κ} {rest : List (Command κ)} :
      lasts key → Renews longest lasts seen rest → Renews longest lasts seen (.write key :: rest)
  | again {key : κ} {seen : List κ} {rest : List (Command κ)} :
      key ∈ seen → Renews longest lasts seen rest → Renews longest lasts seen (.write key :: rest)
  | first {key : κ} {seconds : ℚ} {seen : List κ} {rest : List (Command κ)} :
      0 < seconds → seconds ≤ longest → Renews longest lasts (key :: seen) rest →
        Renews longest lasts seen (.write key :: .expire key seconds :: rest)

namespace ExpiringStore

section Discipline

variable {σ κ : Type} (store : ExpiringStore σ κ)

/-- Commands that are executed at one time. -/
def executeAll (now : ℚ) (s : σ) (commands : List (Command κ)) : σ :=
  commands.foldl (store.execute now) s

/-- The key is gone after the deadline. -/
def EndsBy (s : σ) (key : κ) (deadline : ℚ) : Prop :=
  ∀ later, deadline < later → ¬ store.Alive s key later

/-- What commands do to the keys that end in time: at most one of them no longer does, and none
that is not meant to last when `cut` is empty. -/
def Leaves (longest now : ℚ) (lasts : κ → Prop) (before after : σ) (cut : Option κ) : Prop :=
  ∀ key deadline, now + longest ≤ deadline → store.EndsBy before key deadline →
    lasts key ∨ cut = some key ∨ store.EndsBy after key deadline

variable {store} {longest now : ℚ} {lasts : κ → Prop} {s : σ} {seen : List κ}

theorem EndsBy.mono {key : κ} {deadline deadline' : ℚ} (h : store.EndsBy s key deadline)
    (hle : deadline ≤ deadline') : store.EndsBy s key deadline' :=
  fun later hlater => h later (hle.trans_lt hlater)

theorem endsBy_of_not_alive {key : κ} (h : ¬ store.Alive s key now) : store.EndsBy s key now :=
  fun _ hlater halive => h (store.alive_of_le hlater.le halive)

theorem Leaves.refl (longest now : ℚ) (lasts : κ → Prop) (s : σ) :
    store.Leaves longest now lasts s s none :=
  fun _ _ _ hends => .inr (.inr hends)

theorem Leaves.trans {mid after : σ} {cut : Option κ}
    (h : store.Leaves longest now lasts s mid none)
    (h' : store.Leaves longest now lasts mid after cut) :
    store.Leaves longest now lasts s after cut := by
  intro key deadline hdeadline hends
  rcases h key deadline hdeadline hends with hlasts | hnone | hmid
  · exact .inl hlasts
  · cases hnone
  · exact h' key deadline hdeadline hmid

theorem endsBy_execute_of_ne {key : κ} {c : Command κ} {deadline : ℚ} (hne : key ≠ c.key)
    (h : store.EndsBy s key deadline) : store.EndsBy (store.execute now s c) key deadline :=
  fun later hlater halive => h later hlater ((store.alive_execute_of_ne now hne).mp halive)

/-- A write leaves its key without a deadline at worst. -/
theorem leaves_write (key : κ) :
    store.Leaves longest now lasts s (store.execute now s (.write key)) (some key) := by
  intro k deadline _ hends
  by_cases hk : k = key
  · exact .inr (.inl (congrArg some hk.symm))
  · exact .inr (.inr (endsBy_execute_of_ne hk hends))

theorem leaves_write_of_lasts {key : κ} (hkey : lasts key) :
    store.Leaves longest now lasts s (store.execute now s (.write key)) none := by
  intro k deadline _ hends
  by_cases hk : k = key
  · exact .inl (hk ▸ hkey)
  · exact .inr (.inr (endsBy_execute_of_ne hk hends))

/-- A write of a key that is there does not make it last. -/
theorem leaves_write_of_alive {key : κ} (halive : store.Alive s key now) :
    store.Leaves longest now lasts s (store.execute now s (.write key)) none := by
  intro k deadline _ hends
  right
  right
  by_cases hk : k = key
  · subst hk
    exact fun later hlater hlate => hends later hlater (store.alive_of_write halive hlate)
  · exact endsBy_execute_of_ne hk hends

theorem leaves_write_expire {key : κ} {seconds : ℚ} (hlongest : seconds ≤ longest) :
    store.Leaves longest now lasts s
      (store.execute now (store.execute now s (.write key)) (.expire key seconds)) none := by
  intro k deadline hdeadline hends
  right
  right
  by_cases hk : k = key
  · subst hk
    intro later hlater
    have hpassed : now + seconds < later := by linarith
    exact store.not_alive_expire _ k hpassed
  · have hwritten : store.EndsBy (store.execute now s (.write key)) k deadline :=
      endsBy_execute_of_ne hk hends
    exact endsBy_execute_of_ne hk hwritten

/-- A key that is there stays there at the same time. -/
theorem alive_execute_write {key : κ} (k : κ) (h : store.Alive s key now) :
    store.Alive (store.execute now s (.write k)) key now := by
  by_cases hk : key = k
  · subst hk
    exact store.alive_write s key now
  · exact (store.alive_execute_of_ne now hk).mpr h

theorem alive_execute_expire {key : κ} {seconds : ℚ} (hpos : 0 < seconds) (k : κ)
    (h : store.Alive s key now) :
    store.Alive (store.execute now s (.expire k seconds)) key now := by
  by_cases hk : key = k
  · subst hk
    exact store.alive_expire hpos h
  · exact (store.alive_execute_of_ne now hk).mpr h

/-- By induction on the commands. The keys written before are there until the end, since no time
passes. -/
theorem exists_leaves_take {commands : List (Command κ)} (h : Renews longest lasts seen commands)
    (hseen : ∀ key ∈ seen, store.Alive s key now) (n : ℕ) :
    ∃ cut : Option κ, (commands.length ≤ n → cut = none) ∧
      store.Leaves longest now lasts s (store.executeAll now s (commands.take n)) cut := by
  induction h generalizing s n with
  | nil seen =>
    rw [List.take_nil]
    exact ⟨none, fun _ => rfl, Leaves.refl longest now lasts s⟩
  | @lasts key seen rest hkey _ ih =>
    cases n with
    | zero => exact ⟨none, fun _ => rfl, Leaves.refl longest now lasts s⟩
    | succ n =>
      obtain ⟨cut, hcut, hleaves⟩ := ih (fun k hk => alive_execute_write key (hseen k hk)) n
      refine ⟨cut, fun hlength => hcut (Nat.le_of_succ_le_succ hlength), ?_⟩
      exact (leaves_write_of_lasts hkey).trans hleaves
  | @again key seen rest hkey _ ih =>
    cases n with
    | zero => exact ⟨none, fun _ => rfl, Leaves.refl longest now lasts s⟩
    | succ n =>
      obtain ⟨cut, hcut, hleaves⟩ := ih (fun k hk => alive_execute_write key (hseen k hk)) n
      refine ⟨cut, fun hlength => hcut (Nat.le_of_succ_le_succ hlength), ?_⟩
      exact (leaves_write_of_alive (hseen key hkey)).trans hleaves
  | @first key seconds seen rest hpos hlongest _ ih =>
    match n with
    | 0 => exact ⟨none, fun _ => rfl, Leaves.refl longest now lasts s⟩
    | 1 =>
      refine ⟨some key, fun hlength => ?_, leaves_write key⟩
      simp only [List.length_cons] at hlength
      omega
    | n + 2 =>
      have hseen' : ∀ k ∈ key :: seen, store.Alive
          (store.execute now (store.execute now s (.write key)) (.expire key seconds)) k now := by
        intro k hk
        apply alive_execute_expire hpos
        rcases List.mem_cons.mp hk with rfl | hold
        · exact store.alive_write s k now
        · exact alive_execute_write key (hseen k hold)
      obtain ⟨cut, hcut, hleaves⟩ := ih hseen' n
      refine ⟨cut, fun hlength => hcut ?_, (leaves_write_expire hlongest).trans hleaves⟩
      simp only [List.length_cons] at hlength
      omega

end Discipline

end ExpiringStore

/-- What a store remembers of a key. -/
inductive Life
  | absent
  | lasting
  | endsAt (deadline : ℚ)
  deriving DecidableEq

namespace Life

/-- What is left of a key at a time. -/
def seen (now : ℚ) : Life → Life
  | .endsAt deadline => if deadline < now then absent else .endsAt deadline
  | life => life

/-- After a write. A deadline stays. -/
def write : Life → Life
  | absent => lasting
  | life => life

/-- After a deadline is set. One that does not lie ahead removes the key. -/
def expire (now seconds : ℚ) : Life → Life
  | absent => absent
  | _ => if 0 < seconds then .endsAt (now + seconds) else absent

/-- After a command on its key. -/
def after {κ : Type} (now : ℚ) (life : Life) : Command κ → Life
  | .write _ => (life.seen now).write
  | .expire _ seconds => (life.seen now).expire now seconds

@[simp] theorem seen_absent (now : ℚ) : absent.seen now = absent := rfl

@[simp] theorem seen_lasting (now : ℚ) : lasting.seen now = lasting := rfl

theorem seen_endsAt (now deadline : ℚ) :
    (endsAt deadline).seen now = if deadline < now then absent else .endsAt deadline := rfl

theorem seen_ne_absent_of_le {life : Life} {now later : ℚ} (hle : now ≤ later)
    (h : life.seen later ≠ absent) : life.seen now ≠ absent := by
  cases life with
  | absent => exact h
  | lasting => exact h
  | endsAt deadline =>
    rw [seen_endsAt] at h ⊢
    split_ifs at h with hlater
    · exact absurd rfl h
    · have hnow : ¬ deadline < now := by linarith
      rw [if_neg hnow]
      exact h

theorem write_seen_ne_absent (life : Life) (now : ℚ) :
    (life.seen now).write.seen now ≠ absent := by
  cases life with
  | absent => exact fun h => by cases h
  | lasting => exact fun h => by cases h
  | endsAt deadline =>
    rw [seen_endsAt]
    split_ifs with hnow
    · exact fun h => by cases h
    · have hwrite : (endsAt deadline).write.seen now = endsAt deadline := if_neg hnow
      rw [hwrite]
      exact fun h => by cases h

/-- A write changes nothing of a key that is there. -/
theorem write_seen_of_ne_absent {life : Life} {now : ℚ} (h : life.seen now ≠ absent) :
    (life.seen now).write = life := by
  cases life with
  | absent => exact absurd rfl h
  | lasting => rfl
  | endsAt deadline =>
    rw [seen_endsAt] at h ⊢
    split_ifs at h ⊢
    · exact absurd rfl h
    · rfl

theorem expire_seen_ne_absent {life : Life} {now seconds : ℚ} (hpos : 0 < seconds)
    (h : life.seen now ≠ absent) : ((life.seen now).expire now seconds).seen now ≠ absent := by
  have hexpire : (life.seen now).expire now seconds = .endsAt (now + seconds) := by
    cases hlife : life.seen now with
    | absent => exact absurd hlife h
    | lasting => exact if_pos hpos
    | endsAt deadline => exact if_pos hpos
  have hahead : ¬ now + seconds < now := by linarith
  rw [hexpire, seen_endsAt, if_neg hahead]
  exact fun h => by cases h

theorem expire_seen_eq_absent (life : Life) {now seconds later : ℚ}
    (hlater : now + seconds < later) : (life.expire now seconds).seen later = absent := by
  cases life with
  | absent => rfl
  | lasting | endsAt deadline =>
    rw [expire]
    split_ifs
    · rw [seen_endsAt, if_pos hlater]
    · rfl
    all_goals nofun

end Life

/-- A store that remembers the life of each key. -/
abbrev Keyspace (κ : Type) := κ → Life

def Keyspace.store (κ : Type) [DecidableEq κ] : ExpiringStore (Keyspace κ) κ where
  execute now db c k := if k = c.key then (db k).after now c else db k
  Alive db k later := (db k).seen later ≠ .absent
  alive_of_le := Life.seen_ne_absent_of_le
  alive_execute_of_ne now _ hne := by simp only [if_neg hne]
  alive_write db key now := by
    simp only [Command.key, if_true]
    exact Life.write_seen_ne_absent (db key) now
  alive_of_write {db key now later} halive hlate := by
    simp only [Command.key, if_true, Life.after] at hlate
    rwa [Life.write_seen_of_ne_absent halive] at hlate
  alive_expire {db key now seconds} hpos halive := by
    simp only [Command.key, if_true]
    exact Life.expire_seen_ne_absent hpos halive
  not_alive_expire db key now seconds later hlater := by
    simp only [Command.key, if_true]
    exact not_not.mpr (Life.expire_seen_eq_absent _ hlater)

end McpZero.Lib.Expiry
