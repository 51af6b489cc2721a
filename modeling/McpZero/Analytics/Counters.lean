import McpZero.Analytics.Operations
import McpZero.Lib.Except

/-! The counters in the store. They do not depend on how the events fall into batches. -/
namespace McpZero.Analytics
open Python Governance

/-- `_flush` on the events that it has drained. -/
def flush (encode : Value → String) (config : AnalyticsConfig) (keys : KeyBuilder) (store : Store)
    (events : List TimedEvent) : Except Exc Store :=
  if events.isEmpty then .ok store
  else do
    let ops ← buildOperations config keys events
    return store.executePipeline encode ops

def flushes (encode : Value → String) (config : AnalyticsConfig) (keys : KeyBuilder)
    (batches : List (List TimedEvent)) (store : Store) : Except Exc Store :=
  batches.foldlM (flush encode config keys) store

/-- What an event has for a field of a counter. -/
def contribution (encode : Value → String) (config : AnalyticsConfig) (F : CounterFamily) (bid : ℤ)
    (field : String) (event : TimedEvent) : Option ℤ :=
  if event.bucket config.bucketSeconds = bid then
    (F.amount event).bind fun c => if Store.textOf encode c.1 = field then some c.2 else none
  else none

/-- The key has one `EXPIRE`, and a write of it comes before. -/
def ExpiredOnce (ttl : ℤ) (key : String) (ops : List RedisOp) : Prop :=
  ∃ before after, ops = before ++ .expire key ttl :: after ∧
    (∃ op ∈ before, op.writes = true ∧ op.key = key) ∧
    ∀ seconds, .expire key seconds ∉ before ∧ .expire key seconds ∉ after

theorem ExpiredOnce.append {ttl : ℤ} {key : String} {ops : List RedisOp}
    (h : ExpiredOnce ttl key ops) {more : List RedisOp}
    (hmore : ∀ seconds, .expire key seconds ∉ more) : ExpiredOnce ttl key (ops ++ more) := by
  obtain ⟨before, after, rfl, hwritten, hno⟩ := h
  refine ⟨before, after ++ more, by simp, hwritten, fun seconds => ⟨(hno seconds).1, ?_⟩⟩
  rw [List.mem_append, not_or]
  exact ⟨(hno seconds).2, hmore seconds⟩

namespace Pending

/-- The keys that a pipeline has seen are those of its commands, and each has its `EXPIRE`. -/
structure Expires (ttl : ℤ) (p : Pending) : Prop where
  seen : ∀ key ∈ p.keysSeen, ExpiredOnce ttl key p.ops
  unseen : ∀ op ∈ p.ops, op.key ∈ p.keysSeen

variable {ttl : ℤ} {p : Pending}

theorem expires_empty : Expires ttl {} where
  seen _ hkey := absurd hkey List.not_mem_nil
  unseen _ hop := absurd hop List.not_mem_nil

theorem not_expire_of_writes {op : RedisOp} (hwrites : op.writes = true) (key : String)
    (seconds : ℤ) : .expire key seconds ≠ op := by
  rintro rfl
  cases hwrites

theorem Expires.push {op : RedisOp} (h : Expires ttl p) (hwrites : op.writes = true) :
    Expires ttl (p.push ttl op) := by
  have hnot := not_expire_of_writes hwrites
  unfold Pending.push
  split_ifs with hseen
  · constructor
    · intro key hkey
      exact (h.seen key hkey).append fun seconds => by simpa using hnot key seconds
    · intro op' hop'
      rcases List.mem_append.mp hop' with hop' | hop'
      · exact h.unseen op' hop'
      · rw [List.mem_singleton.mp hop']
        exact hseen
  · constructor
    · intro key hkey
      rcases List.mem_cons.mp hkey with rfl | hkey
      · refine ⟨p.ops ++ [op], [], by simp, ⟨op, by simp, hwrites, rfl⟩, fun seconds => ?_⟩
        have hops : .expire op.key seconds ∉ p.ops := fun hmem =>
          hseen (h.unseen (.expire op.key seconds) hmem)
        simp [hops, hnot op.key seconds]
      · refine (h.seen key hkey).append fun seconds => ?_
        have hne : key ≠ op.key := fun heq => hseen (heq ▸ hkey)
        simp [hnot key seconds, hne]
    · intro op' hop'
      rcases List.mem_append.mp hop' with hop' | hop'
      · exact List.mem_cons_of_mem _ (h.unseen op' hop')
      · simp only [List.mem_cons, List.not_mem_nil, or_false] at hop'
        rcases hop' with rfl | rfl <;> exact List.mem_cons_self

theorem Expires.pushAll {ops : List RedisOp} (h : Expires ttl p)
    (hwrites : ∀ op ∈ ops, op.writes = true) : Expires ttl (p.pushAll ttl ops) := by
  induction ops generalizing p with
  | nil => exact h
  | cons op ops ih =>
    rw [List.forall_mem_cons] at hwrites
    exact ih (h.push hwrites.1) hwrites.2

/-- `EXPIRE` leaves the fields as they are. -/
theorem executePipeline_pushAll (encode : Value → String) (store : Store) (ops : List RedisOp) :
    store.executePipeline encode (p.pushAll ttl ops).ops =
      (store.executePipeline encode p.ops).executePipeline encode ops := by
  induction ops generalizing p with
  | nil => rfl
  | cons op ops ih =>
    have hpush : store.executePipeline encode (p.push ttl op).ops =
        (store.executePipeline encode p.ops).apply encode op := by
      unfold Pending.push
      split_ifs
      · rw [Store.executePipeline_append]
        rfl
      · rw [Store.executePipeline_append]
        rfl
    change store.executePipeline encode ((p.push ttl op).pushAll ttl ops).ops = _
    rw [ih, hpush]
    rfl

end Pending

namespace CounterFamily

theorem mem_all (F : CounterFamily) : F ∈ all := by
  cases F <;> decide

theorem colon_not_mem_category (F : CounterFamily) : ':' ∉ F.category.toList := by
  cases F <;> decide

theorem eq_of_segments {F G : CounterFamily} (hcategory : F.category = G.category)
    (hdimension : F.dimension = G.dimension) : F = G := by
  have hnodup : (all.map fun F => (F.category, F.dimension)).Nodup := by decide
  exact List.inj_on_of_nodup_map hnodup (mem_all F) (mem_all G)
    (Prod.ext hcategory hdimension)

theorem key_inj {keys : KeyBuilder} {bid bid' : ℤ} {F G : CounterFamily} :
    F.key keys bid = G.key keys bid' ↔ bid = bid' ∧ F = G := by
  rw [key, key, KeyBuilder.bucketKey_inj (colon_not_mem_category F) (colon_not_mem_category G)]
  constructor
  · rintro ⟨hbid, hcategory, hdimension⟩
    exact ⟨hbid, eq_of_segments hcategory hdimension⟩
  · rintro ⟨rfl, rfl⟩
    exact ⟨rfl, rfl, rfl⟩

/-- No counter is kept under the key of the longest durations. -/
theorem key_ne_max {keys : KeyBuilder} {bid bid' : ℤ} (F : CounterFamily) :
    F.key keys bid ≠ keys.bucketKey "latency" "max" bid' := by
  rw [key, Ne, KeyBuilder.bucketKey_inj (colon_not_mem_category F) (by decide)]
  rintro ⟨-, hcategory, hdimension⟩
  cases F <;> revert hcategory hdimension <;> decide

end CounterFamily

/-- Where one element of a list is read, this one is. -/
theorem filterMap_eq_toList {α β : Type} {f : α → Option β} {as : List α} {a : α}
    (hnodup : as.Nodup) (ha : a ∈ as) (hothers : ∀ b ∈ as, b ≠ a → f b = none) :
    as.filterMap f = (f a).toList := by
  induction as with
  | nil => cases ha
  | cons b as ih =>
    rw [List.nodup_cons] at hnodup
    rw [List.forall_mem_cons] at hothers
    rw [List.filterMap_cons]
    by_cases hb : b = a
    · have hnone : as.filterMap f = [] := List.filterMap_eq_nil_iff.mpr fun c hc =>
        hothers.2 c hc fun heq => hnodup.1 (by rw [hb, ← heq]; exact hc)
      rw [hb, hnone]
      cases f a <;> rfl
    · rw [hothers.1 hb]
      exact ih hnodup.2 ((List.mem_cons.mp ha).resolve_left (Ne.symm hb)) hothers.2

section

variable (encode : Value → String) (config : AnalyticsConfig) {keys : KeyBuilder}

/-- Of the increments of an event, a counter has the contribution of the event. -/
theorem incrementsAt_increments (F : CounterFamily) (bid : ℤ) (field : String)
    (event : TimedEvent) :
    Store.incrementsAt encode (F.key keys bid) field
        (increments keys (event.bucket config.bucketSeconds) event) =
      (contribution encode config F bid field event).toList := by
  rw [Store.incrementsAt, increments, List.filterMap_filterMap,
    filterMap_eq_toList (by decide) F.mem_all]
  · congr 1
    rw [contribution]
    cases F.amount event with
    | none => simp
    | some c => simp [Store.incrementAt, CounterFamily.key_inj, ite_and]
  · intro G _ hG
    cases G.amount event with
    | none => rfl
    | some c => simp [Store.incrementAt, CounterFamily.key_inj, hG]

theorem incrementsAt_batchIncrements (F : CounterFamily) (bid : ℤ) (field : String)
    (events : List TimedEvent) :
    Store.incrementsAt encode (F.key keys bid) field (batchIncrements config keys events) =
      events.filterMap (contribution encode config F bid field) := by
  induction events with
  | nil => rfl
  | cons event events ih =>
    have hsplit : batchIncrements config keys (event :: events) =
        increments keys (event.bucket config.bucketSeconds) event ++
          batchIncrements config keys events := List.flatMap_cons
    rw [hsplit, Store.incrementsAt_append, incrementsAt_increments, ih, List.filterMap_cons]
    cases contribution encode config F bid field event <;> rfl

end

/-! Several batches -/

theorem mem_setItem {κ ν : Type} [DecidableEq κ] {key : κ} {v : ν} {d : List (κ × ν)} {e : κ × ν}
    (he : e ∈ setItem key v d) : e.1 = key ∨ e ∈ d := by
  induction d with
  | nil => exact .inl (congrArg Prod.fst (List.mem_singleton.mp he))
  | cons entry d ih =>
    rw [setItem] at he
    split_ifs at he with hkey
    · rcases List.mem_cons.mp he with rfl | he
      · exact .inl hkey
      · exact .inr (List.mem_cons_of_mem _ he)
    · rcases List.mem_cons.mp he with rfl | he
      · exact .inr List.mem_cons_self
      · exact (ih he).imp id fun h => List.mem_cons_of_mem _ h

variable {config : AnalyticsConfig} {keys : KeyBuilder} {encode : Value → String}

/-- The longest durations are kept under the keys for them. -/
theorem mem_batchMaxes {events : List TimedEvent} {maxes : List ((String × String) × ℤ)}
    (hmaxes : ∀ e ∈ maxes, ∃ bid, e.1.1 = keys.bucketKey "latency" "max" bid) :
    ∀ e ∈ batchMaxes config keys events maxes, ∃ bid, e.1.1 = keys.bucketKey "latency" "max" bid := by
  induction events generalizing maxes with
  | nil => exact hmaxes
  | cons event events ih =>
    refine ih fun e he => ?_
    simp only [raiseLatency, raiseMax] at he
    split_ifs at he
    · rcases mem_setItem he with hkey | he
      · exact ⟨event.bucket config.bucketSeconds, by rw [hkey]⟩
      · exact hmaxes e he
    · exact hmaxes e he
    · exact hmaxes e he

theorem mem_batchIncrements {events : List TimedEvent} {op : RedisOp}
    (hop : op ∈ batchIncrements config keys events) :
    ∃ bid, ∃ F : CounterFamily, ∃ field n, op = .hincrby (F.key keys bid) field n := by
  obtain ⟨event, -, hop⟩ := List.mem_flatMap.mp hop
  obtain ⟨F, -, hF⟩ := List.mem_filterMap.mp hop
  obtain ⟨c, -, rfl⟩ := Option.map_eq_some_iff.mp hF
  exact ⟨_, F, _, _, rfl⟩

theorem writes_of_mem_batchWrites {events : List TimedEvent} {op : RedisOp}
    (hop : op ∈ batchWrites config keys events) : op.writes = true := by
  rcases List.mem_append.mp hop with hop | hop
  · obtain ⟨bid, F, field, n, rfl⟩ := mem_batchIncrements hop
    rfl
  · obtain ⟨e, -, rfl⟩ := List.mem_map.mp hop
    rfl

/-- Outside the longest durations a batch sets no hash. -/
theorem ne_hset_of_mem_batchWrites {events : List TimedEvent} {key : String}
    (hkey : ∀ bid, key ≠ keys.bucketKey "latency" "max" bid) :
    ∀ op ∈ batchWrites config keys events, ∀ entries, op ≠ .hset key entries := by
  intro op hop entries
  rintro rfl
  rcases List.mem_append.mp hop with hop | hop
  · obtain ⟨bid, F, field, n, heq⟩ := mem_batchIncrements hop
    cases heq
  · obtain ⟨e, he, heq⟩ := List.mem_map.mp hop
    obtain ⟨bid, hbid⟩ := mem_batchMaxes (List.forall_mem_nil _) e he
    cases heq
    exact hkey bid hbid

/-- The longest durations add nothing, and the increments go through all batches in order. -/
theorem incrementsAt_batches (encode : Value → String) (key field : String)
    (batches : List (List TimedEvent)) :
    Store.incrementsAt encode key field (batches.flatMap (batchWrites config keys)) =
      Store.incrementsAt encode key field (batchIncrements config keys batches.flatten) := by
  induction batches with
  | nil => rfl
  | cons events batches ih =>
    have hmaxes : Store.incrementsAt encode key field
        ((batchMaxes config keys events []).map hsetMax) = [] := by
      refine List.filterMap_eq_nil_iff.mpr fun op hop => ?_
      obtain ⟨e, -, rfl⟩ := List.mem_map.mp hop
      rfl
    have hflatten : batchIncrements config keys (events :: batches).flatten =
        batchIncrements config keys events ++ batchIncrements config keys batches.flatten :=
      List.flatMap_append
    rw [List.flatMap_cons, Store.incrementsAt_append, ih, batchWrites, Store.incrementsAt_append,
      hmaxes, List.append_nil, hflatten, Store.incrementsAt_append]

theorem flush_eq (hne : config.bucketSeconds ≠ 0) (store : Store) (events : List TimedEvent) :
    flush encode config keys store events =
      .ok (store.executePipeline encode (batchWrites config keys events)) := by
  unfold flush
  cases events with
  | nil => rfl
  | cons event events =>
    rw [if_neg (by simp), buildOperations_eq hne]
    exact congrArg Except.ok (Pending.executePipeline_pushAll encode store _)

/-- Flushes that return have written their batches, one after the other. -/
theorem eq_of_flush {store after : Store} {events : List TimedEvent}
    (hafter : flush encode config keys store events = .ok after) :
    after = store.executePipeline encode (batchWrites config keys events) := by
  unfold flush at hafter
  cases events with
  | nil => exact (Except.ok.inj hafter).symm
  | cons event events =>
    rw [if_neg (by simp)] at hafter
    obtain ⟨ops, hops, hstore⟩ := Lib.bind_eq_ok.mp hafter
    rw [← Except.ok.inj hstore, eq_of_buildOperations hops]
    exact Pending.executePipeline_pushAll encode store _

theorem eq_of_flushes {batches : List (List TimedEvent)} {store after : Store}
    (hafter : flushes encode config keys batches store = .ok after) :
    after = store.executePipeline encode (batches.flatMap (batchWrites config keys)) := by
  induction batches generalizing store with
  | nil => exact (Except.ok.inj hafter).symm
  | cons events batches ih =>
    rw [flushes, List.foldlM_cons] at hafter
    obtain ⟨middle, hmiddle, hrest⟩ := Lib.bind_eq_ok.mp hafter
    rw [List.flatMap_cons, Store.executePipeline_append, ← eq_of_flush hmiddle]
    exact ih hrest

theorem exists_flushes (encode : Value → String) (keys : KeyBuilder)
    (hne : config.bucketSeconds ≠ 0) (batches : List (List TimedEvent)) (store : Store) :
    ∃ after, flushes encode config keys batches store = .ok after := by
  induction batches generalizing store with
  | nil => exact ⟨store, rfl⟩
  | cons events batches ih =>
    obtain ⟨after, hafter⟩ := ih (store.executePipeline encode (batchWrites config keys events))
    refine ⟨after, ?_⟩
    rw [flushes, List.foldlM_cons, flush_eq hne]
    exact hafter

/-- A field outside the longest durations has the increments of all events, in their order. -/
theorem flushes_field {batches : List (List TimedEvent)}
    {store after : Store} (hafter : flushes encode config keys batches store = .ok after)
    {key : String} (hkey : ∀ bid, key ≠ keys.bucketKey "latency" "max" bid) (field : String) :
    after key field =
      (Store.incrementsAt encode key field (batchIncrements config keys batches.flatten)).foldl
        Store.incremented (store key field) := by
  rw [eq_of_flushes hafter, Store.executePipeline_eq, incrementsAt_batches]
  intro op hop
  obtain ⟨events, -, hop⟩ := List.mem_flatMap.mp hop
  exact ne_hset_of_mem_batchWrites hkey op hop

/-- The counters after several flushes are the sums over all events, however these fall into
batches, and every key that a flush writes has one `EXPIRE`, behind its first write. -/
theorem counters_eq (encode : Value → String) (config : AnalyticsConfig) (keys : KeyBuilder)
    (hpos : 0 < config.bucketSeconds) :
    (∀ batches store, ∃ after, flushes encode config keys batches store = .ok after ∧
      ∀ F bid field, store (F.key keys bid) field = none →
        after (F.key keys bid) field = Store.counted
          (batches.flatten.filterMap (contribution encode config F bid field))) ∧
    (∀ batches batches' store after after', batches.flatten = batches'.flatten →
      flushes encode config keys batches store = .ok after →
      flushes encode config keys batches' store = .ok after' →
      ∀ key, (∀ bid, key ≠ keys.bucketKey "latency" "max" bid) → after key = after' key) ∧
    ∀ events ops, buildOperations config keys events = .ok ops →
      ∀ op ∈ ops, op.writes = true → ExpiredOnce config.retentionSeconds op.key ops := by
  have hne : config.bucketSeconds ≠ 0 := ne_of_gt hpos
  refine ⟨fun batches store => ?_, ?_, ?_⟩
  · obtain ⟨after, hafter⟩ := exists_flushes encode keys hne batches store
    refine ⟨after, hafter, fun F bid field hnone => ?_⟩
    rw [flushes_field hafter fun _ => F.key_ne_max, hnone, incrementsAt_batchIncrements,
      Store.foldl_incremented_none]
  · intro batches batches' store after after' hsame hafter hafter' key hkey
    funext field
    rw [flushes_field hafter hkey, flushes_field hafter' hkey, hsame]
  · intro events ops hops op hop _
    rw [eq_of_buildOperations hops] at hop ⊢
    have hexpires : Pending.Expires config.retentionSeconds
        (({} : Pending).pushAll config.retentionSeconds (batchWrites config keys events)) :=
      Pending.expires_empty.pushAll fun _ => writes_of_mem_batchWrites
    exact hexpires.seen _ (hexpires.unseen op hop)

def minuteConfig : AnalyticsConfig where
  redis := {}
  environment := .str "prod"
  gatewayId := some (.str "east-1")
  keyPrefix := .str "mcpgw"
  bucketSeconds := 60
  retentionSeconds := 3600
  heartbeatSeconds := 30
  queueSize := 10000

def eastKeys : KeyBuilder := ⟨.str "mcpgw", .str "prod", .str "east-1"⟩

/-- A call that took so many milliseconds, in the first minute. -/
def queryCall (durationMs : ℚ) : TimedEvent where
  eventType := .toolCall
  server := "db"
  tool := "query"
  durationMs := durationMs
  timestamp := 7

/-- Two calls in two batches are counted. -/
theorem queryCalls_counted :
    ∃ after, flushes Value.text minuteConfig eastKeys [[queryCall 5], [queryCall 3]]
        (fun _ _ => none) = .ok after ∧
      after (CounterFamily.callsTool.key eastKeys 0) "db::query" = some "2" := by
  obtain ⟨after, hafter, hcounters⟩ := (counters_eq Value.text minuteConfig eastKeys (by decide)).1
    [[queryCall 5], [queryCall 3]] fun _ _ => none
  refine ⟨after, hafter, ?_⟩
  rw [hcounters .callsTool 0 "db::query" rfl]
  decide

end McpZero.Analytics
