import Mathlib
import McpZero.Python.Value

/-! The commands of the analytics pipelines, and what they do to the hashes of a store. Sets,
sorted sets and times to live are left out of the store. -/
namespace McpZero.Analytics
open Python

/-- A command of a pipeline. -/
inductive RedisOp
  | hincrby (key : String) (field : Value) (increment : ℤ)
  | hset (key : String) (entries : List (String × Value))
  | expire (key : String) (seconds : ℤ)
  | zadd (key member : String) (score : ℚ)
  | sadd (key : String) (member : Value)

namespace RedisOp

def key : RedisOp → String
  | hincrby key _ _ => key
  | hset key _ => key
  | expire key _ => key
  | zadd key _ _ => key
  | sadd key _ => key

/-- Every command but `EXPIRE` writes its key. -/
def writes : RedisOp → Bool
  | expire _ _ => false
  | _ => true

end RedisOp

/-- The text of a field of a hash. -/
abbrev Store := String → String → Option String

namespace Store

/-- The integers that Redis reads in a text: those that it writes itself. -/
def parseInt (text : String) : Option ℤ := text.toInt?.filter fun n => toString n == text

/-- The field of a hash after `HINCRBY`. A text that is no integer is answered with an error
and stays. -/
def incremented : Option String → ℤ → Option String
  | none, n => some (toString n)
  | some text, n =>
    match parseInt text with
    | some m => some (toString (m + n))
    | none => some text

variable (encode : Value → String)

/-- How the client writes a value. A string is written as it is. -/
def textOf : Value → String
  | .str s => s
  | v => encode v

def set (store : Store) (key field : String) (text : Option String) : Store := fun k f =>
  if k = key ∧ f = field then text else store k f

def apply (store : Store) : RedisOp → Store
  | .hincrby key field n =>
    store.set key (textOf encode field) (incremented (store key (textOf encode field)) n)
  | .hset key entries =>
    entries.foldl (fun store entry => store.set key entry.1 (textOf encode entry.2)) store
  | _ => store

/-- `execute_pipeline`, where every command succeeds. -/
def executePipeline (store : Store) (ops : List RedisOp) : Store :=
  ops.foldl (apply encode) store

/-- What a list of increments comes to, from a field that is not there. -/
def counted : List ℤ → Option String
  | [] => none
  | ns => some (toString ns.sum)

/-- The increments that a command has for a field. -/
def incrementAt (key field : String) : RedisOp → Option ℤ
  | .hincrby k f n => if k = key ∧ textOf encode f = field then some n else none
  | _ => none

def incrementsAt (key field : String) (ops : List RedisOp) : List ℤ :=
  ops.filterMap (incrementAt encode key field)

theorem parseInt_toString (n : ℤ) : parseInt (toString n) = some n := by
  simp [parseInt]

theorem foldl_incremented_some (m : ℤ) (ns : List ℤ) :
    ns.foldl incremented (some (toString m)) = some (toString (m + ns.sum)) := by
  induction ns generalizing m with
  | nil => simp
  | cons n ns ih =>
    have hstep : incremented (some (toString m)) n = some (toString (m + n)) := by
      rw [incremented, parseInt_toString]
    rw [List.foldl_cons, hstep, ih, List.sum_cons, add_assoc]

theorem foldl_incremented_none (ns : List ℤ) : ns.foldl incremented none = counted ns := by
  cases ns with
  | nil => rfl
  | cons n ns => exact foldl_incremented_some n ns

theorem set_apply (store : Store) (key field : String) (text : Option String) (k f : String) :
    store.set key field text k f = if k = key ∧ f = field then text else store k f := rfl

variable {encode} {store : Store} {key field : String}

/-- `HSET` on another hash leaves a field as it is. -/
theorem apply_hset_of_ne {k : String} (hk : key ≠ k) (entries : List (String × Value)) :
    store.apply encode (.hset k entries) key field = store key field := by
  unfold apply
  dsimp only
  induction entries generalizing store with
  | nil => rfl
  | cons entry entries ih => rw [List.foldl_cons, ih, set_apply, if_neg fun h => hk h.1]

/-- A command on another key leaves a field as it is. -/
theorem apply_of_ne {op : RedisOp} (hop : op.key ≠ key) :
    store.apply encode op key field = store key field := by
  cases op with
  | hincrby k f n =>
    rw [apply, set_apply, if_neg fun h => hop h.1.symm]
  | hset k entries => exact apply_hset_of_ne (Ne.symm hop) entries
  | _ => rfl

theorem executePipeline_of_ne {ops : List RedisOp} (hops : ∀ op ∈ ops, op.key ≠ key) :
    store.executePipeline encode ops key field = store key field := by
  induction ops generalizing store with
  | nil => rfl
  | cons op ops ih =>
    rw [List.forall_mem_cons] at hops
    exact (ih hops.2).trans (apply_of_ne hops.1)

/-- A command that does not set the hash adds its increments. -/
theorem apply_eq {op : RedisOp} (hset : ∀ entries, op ≠ .hset key entries) :
    store.apply encode op key field =
      (incrementAt encode key field op).toList.foldl incremented (store key field) := by
  cases op with
  | hincrby k f n =>
    rw [apply, set_apply, incrementAt]
    by_cases hsame : k = key ∧ textOf encode f = field
    · obtain ⟨rfl, rfl⟩ := hsame
      simp
    · rw [if_neg (fun h => hsame ⟨h.1.symm, h.2.symm⟩), if_neg hsame]
      rfl
  | hset k entries =>
    have hk : key ≠ k := fun heq => hset entries (by rw [heq])
    rw [apply_hset_of_ne hk]
    rfl
  | _ => rfl

/-- A pipeline that does not set the hash of a field adds up its increments, in order. -/
theorem executePipeline_eq {ops : List RedisOp}
    (hset : ∀ op ∈ ops, ∀ entries, op ≠ .hset key entries) :
    store.executePipeline encode ops key field =
      (incrementsAt encode key field ops).foldl incremented (store key field) := by
  induction ops generalizing store with
  | nil => rfl
  | cons op ops ih =>
    rw [List.forall_mem_cons] at hset
    have hstep : store.executePipeline encode (op :: ops) =
        (store.apply encode op).executePipeline encode ops := rfl
    have hsplit : incrementsAt encode key field (op :: ops) =
        (incrementAt encode key field op).toList ++ incrementsAt encode key field ops := by
      rw [incrementsAt, List.filterMap_cons]
      cases incrementAt encode key field op <;> rfl
    rw [hstep, ih hset.2, apply_eq hset.1, hsplit, List.foldl_append]

theorem incrementsAt_append (ops ops' : List RedisOp) :
    incrementsAt encode key field (ops ++ ops') =
      incrementsAt encode key field ops ++ incrementsAt encode key field ops' :=
  List.filterMap_append

theorem executePipeline_append (ops ops' : List RedisOp) :
    store.executePipeline encode (ops ++ ops') =
      (store.executePipeline encode ops).executePipeline encode ops' := List.foldl_append

end Store

end McpZero.Analytics
