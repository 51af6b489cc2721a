import McpZero.Analytics.Counters

/-! The longest durations in the store. A batch with a duration sets the field anew, so that the
last such batch decides. -/
namespace McpZero.Analytics
open Python Governance

/-- The largest of the numbers, or zero. -/
def longest (ns : List ℤ) : ℤ := ns.foldr max 0

theorem longest_nonneg (ns : List ℤ) : 0 ≤ longest ns := by
  induction ns with
  | nil => exact le_rfl
  | cons n ns ih => exact le_max_of_le_right ih

theorem le_longest {ns : List ℤ} {n : ℤ} (hn : n ∈ ns) : n ≤ longest ns := by
  induction ns with
  | nil => cases hn
  | cons m ns ih =>
    rcases List.mem_cons.mp hn with rfl | hn
    · exact le_max_left _ _
    · exact le_max_of_le_right (ih hn)

theorem longest_mem {ns : List ℤ} (hpos : longest ns ≠ 0) : longest ns ∈ ns := by
  induction ns with
  | nil => exact absurd rfl hpos
  | cons n ns ih =>
    rcases max_choice n (longest ns) with hmax | hmax
    · exact List.mem_cons.mpr (.inl hmax)
    · have hrest : longest (n :: ns) = longest ns := hmax
      rw [hrest] at hpos ⊢
      exact List.mem_cons_of_mem _ (ih hpos)

theorem longest_eq_zero_iff {ns : List ℤ} : longest ns = 0 ↔ ∀ n ∈ ns, n ≤ 0 := by
  constructor
  · intro hzero n hn
    exact hzero ▸ le_longest hn
  · intro hall
    by_contra hne
    exact hne (le_antisymm (hall _ (longest_mem hne)) (longest_nonneg ns))

/-- The duration of a call, as far as it goes to a field. -/
def fieldDuration (bucketSeconds bid : ℤ) (field : String) (event : TimedEvent) : Option ℤ :=
  if event.eventType = .toolCall ∧ 0 < event.durationMs ∧ event.bucket bucketSeconds = bid ∧
    event.toolField = field then some (truncate event.durationMs) else none

/-- The duration of a call of a tool. -/
def toolDuration (bucketSeconds bid : ℤ) (server tool : String) (event : TimedEvent) : Option ℤ :=
  if event.eventType = .toolCall ∧ 0 < event.durationMs ∧ event.bucket bucketSeconds = bid ∧
    event.server = server ∧ event.tool = tool then some (truncate event.durationMs) else none

def maxKey (keys : KeyBuilder) (bid : ℤ) : String := keys.bucketKey "latency" "max" bid

/-! The longest durations of a batch -/

section

variable {κ : Type} [BEq κ] [LawfulBEq κ] [DecidableEq κ]

theorem lookup_cons_ite {ν : Type} (k key : κ) (w : ν) (d : List (κ × ν)) :
    ((k, w) :: d).lookup key = if key = k then some w else d.lookup key := by
  rw [List.lookup_cons]
  by_cases hkey : key = k
  · simp [hkey]
  · simp [hkey, beq_false_of_ne hkey]

theorem lookup_setItem {ν : Type} (key key' : κ) (v : ν) (d : List (κ × ν)) :
    (setItem key v d).lookup key' = if key' = key then some v else d.lookup key' := by
  induction d with
  | nil => rw [setItem, lookup_cons_ite]
  | cons e d ih =>
    obtain ⟨k, w⟩ := e
    rw [setItem]
    split_ifs with hk hkey hkey
    · rw [lookup_cons_ite, if_pos (hkey.trans hk.symm)]
    · have hne : key' ≠ k := fun heq => hkey (heq.trans hk)
      rw [lookup_cons_ite, if_neg hne, lookup_cons_ite, if_neg hne]
    · have hne : key' ≠ k := fun heq => hk (heq.symm.trans hkey)
      rw [lookup_cons_ite, if_neg hne, ih, if_pos hkey]
    · rw [lookup_cons_ite, lookup_cons_ite, ih, if_neg hkey]

omit [BEq κ] [LawfulBEq κ] in
theorem keys_setItem {ν : Type} (key : κ) (v : ν) {d : List (κ × ν)}
    (hd : (d.map Prod.fst).Nodup) : ((setItem key v d).map Prod.fst).Nodup := by
  induction d with
  | nil => simp [setItem]
  | cons e d ih =>
    obtain ⟨k, w⟩ := e
    rw [List.map_cons, List.nodup_cons] at hd
    rw [setItem]
    split_ifs with hk
    · exact List.nodup_cons.mpr hd
    · rw [List.map_cons, List.nodup_cons]
      refine ⟨fun hmem => ?_, ih hd.2⟩
      obtain ⟨e, he, hkey⟩ := List.mem_map.mp hmem
      rcases mem_setItem he with heq | he
      · exact hk (hkey.symm.trans heq)
      · exact hd.1 (List.mem_map.mpr ⟨e, he, hkey⟩)

end

/-- Distinct keys with positive durations. -/
structure Tracked (maxes : List ((String × String) × ℤ)) : Prop where
  nodup : (maxes.map Prod.fst).Nodup
  positive : ∀ key n, maxes.lookup key = some n → 0 < n

variable {keys : KeyBuilder} {maxes : List ((String × String) × ℤ)}

theorem tracked_nil : Tracked [] where
  nodup := List.nodup_nil
  positive _ _ h := by cases h

theorem Tracked.read_nonneg (h : Tracked maxes) (key : String × String) :
    0 ≤ (maxes.lookup key).getD 0 := by
  cases hlookup : maxes.lookup key with
  | none => exact le_rfl
  | some n => exact le_of_lt (h.positive key n hlookup)

theorem Tracked.raiseMax (h : Tracked maxes) (key : String × String) (duration : ℤ) :
    Tracked (raiseMax key duration maxes) := by
  unfold Analytics.raiseMax
  split_ifs with hlt
  · constructor
    · exact keys_setItem key duration h.nodup
    · intro key' n hn
      rw [lookup_setItem] at hn
      split_ifs at hn
      · cases hn
        exact lt_of_le_of_lt (h.read_nonneg key) hlt
      · exact h.positive key' n hn
  · exact h

theorem read_raiseMax (key key' : String × String) (duration : ℤ) :
    ((raiseMax key duration maxes).lookup key').getD 0 =
      if key' = key then max ((maxes.lookup key').getD 0) duration
      else (maxes.lookup key').getD 0 := by
  unfold raiseMax
  split_ifs with hlt hkey hkey
  · rw [lookup_setItem, if_pos hkey, hkey, Option.getD_some, max_eq_right (le_of_lt hlt)]
  · rw [lookup_setItem, if_neg hkey]
  · rw [hkey, max_eq_left (not_lt.mp hlt)]
  · rfl

theorem maxKey_inj {bid bid' : ℤ} : maxKey keys bid = maxKey keys bid' ↔ bid = bid' := by
  rw [maxKey, maxKey, KeyBuilder.bucketKey_inj (by decide) (by decide)]
  exact and_iff_left ⟨rfl, rfl⟩

/-- The longest duration of a field after the events of a batch. -/
theorem batchMaxes_spec (config : AnalyticsConfig) (keys : KeyBuilder) (events : List TimedEvent)
    (h : Tracked maxes) :
    Tracked (batchMaxes config keys events maxes) ∧ ∀ bid field,
      ((batchMaxes config keys events maxes).lookup (maxKey keys bid, field)).getD 0 =
        max ((maxes.lookup (maxKey keys bid, field)).getD 0)
          (longest (events.filterMap (fieldDuration config.bucketSeconds bid field))) := by
  induction events generalizing maxes with
  | nil => exact ⟨h, fun bid field => (max_eq_left (h.read_nonneg _)).symm⟩
  | cons event events ih =>
    have hstep : Tracked (raiseLatency keys (event.bucket config.bucketSeconds) event maxes) ∧
        ∀ bid field, ((raiseLatency keys (event.bucket config.bucketSeconds) event maxes).lookup
          (maxKey keys bid, field)).getD 0 = max ((maxes.lookup (maxKey keys bid, field)).getD 0)
            ((fieldDuration config.bucketSeconds bid field event).getD 0) := by
      unfold raiseLatency
      split_ifs with hcall
      · refine ⟨h.raiseMax _ _, fun bid field => ?_⟩
        have hkey : ((maxKey keys bid, field) : String × String) =
            (keys.bucketKey "latency" "max" (event.bucket config.bucketSeconds), event.toolField) ↔
              event.bucket config.bucketSeconds = bid ∧ event.toolField = field := by
          rw [Prod.mk.injEq, ← maxKey, maxKey_inj, eq_comm, and_congr_right_iff]
          exact fun _ => eq_comm
        rw [read_raiseMax, if_congr hkey rfl rfl, fieldDuration]
        simp only [hcall, true_and]
        split_ifs
        · rfl
        · exact (max_eq_left (h.read_nonneg _)).symm
      · refine ⟨h, fun bid field => ?_⟩
        have hnone : fieldDuration config.bucketSeconds bid field event = none :=
          if_neg fun hcounts => hcall ⟨hcounts.1, hcounts.2.1⟩
        rw [hnone]
        exact (max_eq_left (h.read_nonneg _)).symm
    obtain ⟨htracked, hread⟩ := ih hstep.1
    refine ⟨htracked, fun bid field => ?_⟩
    rw [batchMaxes, List.foldl_cons, ← batchMaxes, hread, hstep.2, List.filterMap_cons]
    cases fieldDuration config.bucketSeconds bid field event with
    | none =>
      rw [Option.getD_none, max_eq_left (h.read_nonneg _)]
    | some n => exact max_assoc _ _ _

/-! The stored value -/

variable {encode : Value → String} {store : Store}

theorem apply_hsetMax (e : (String × String) × ℤ) (key field : String) :
    store.apply encode (hsetMax e) key field =
      if (key, field) = e.1 then some (toString e.2) else store key field := by
  obtain ⟨⟨k, f⟩, n⟩ := e
  simp [hsetMax, Store.apply, Store.set_apply, Store.textOf]

theorem executePipeline_hsetMax (hnodup : (maxes.map Prod.fst).Nodup) (key field : String) :
    store.executePipeline encode (maxes.map hsetMax) key field =
      ((maxes.lookup (key, field)).map toString).or (store key field) := by
  induction maxes generalizing store with
  | nil => rfl
  | cons e maxes ih =>
    obtain ⟨k, n⟩ := e
    rw [List.map_cons, List.nodup_cons] at hnodup
    change (store.apply encode (hsetMax (k, n))).executePipeline encode (maxes.map hsetMax) key
      field = _
    rw [ih hnodup.2, apply_hsetMax, lookup_cons_ite]
    split_ifs with hkey
    · have hnone : maxes.lookup (key, field) = none := by
        rw [List.lookup_eq_none_iff]
        intro e he
        rw [bne_iff_ne]
        rintro heq
        exact hnodup.1 (List.mem_map.mpr ⟨e, he, heq.symm.trans hkey⟩)
      rw [hnone]
      rfl
    · rfl

variable {config : AnalyticsConfig} {bid : ℤ} {field : String}

/-- The longest duration that a batch has for a field. -/
def batchLongest (config : AnalyticsConfig) (bid : ℤ) (field : String)
    (events : List TimedEvent) : ℤ :=
  longest (events.filterMap (fieldDuration config.bucketSeconds bid field))

/-- A batch with a duration for the field sets it, and another batch leaves it. -/
theorem batchWrites_max (events : List TimedEvent) :
    store.executePipeline encode (batchWrites config keys events) (maxKey keys bid) field =
      if batchLongest config bid field events = 0 then store (maxKey keys bid) field
      else some (toString (batchLongest config bid field events)) := by
  obtain ⟨htracked, hread⟩ := batchMaxes_spec config keys events tracked_nil
  have hread := hread bid field
  have hincrements : store.executePipeline encode (batchIncrements config keys events)
      (maxKey keys bid) field = store (maxKey keys bid) field := by
    refine Store.executePipeline_of_ne fun op hop => ?_
    obtain ⟨bid', F, field', n, rfl⟩ := mem_batchIncrements hop
    exact F.key_ne_max
  rw [batchWrites, Store.executePipeline_append, executePipeline_hsetMax htracked.nodup,
    hincrements]
  have hzero : max ((List.lookup (maxKey keys bid, field) []).getD 0)
      (batchLongest config bid field events) = batchLongest config bid field events :=
    max_eq_right (longest_nonneg _)
  rw [← batchLongest, hzero] at hread
  cases hlookup : (batchMaxes config keys events []).lookup (maxKey keys bid, field) with
  | none =>
    rw [hlookup] at hread
    have hnothing : batchLongest config bid field events = 0 := hread.symm
    rw [if_pos hnothing]
    rfl
  | some n =>
    have hpos := htracked.positive _ n hlookup
    rw [hlookup] at hread
    rw [← hread, Option.getD_some, if_neg (ne_of_gt hpos)]
    rfl

/-- Without a batch that has a duration for the field, it stays. -/
theorem batches_max_of_zero {batches : List (List TimedEvent)}
    (hzero : ∀ events ∈ batches, batchLongest config bid field events = 0) :
    store.executePipeline encode (batches.flatMap (batchWrites config keys)) (maxKey keys bid)
      field = store (maxKey keys bid) field := by
  induction batches generalizing store with
  | nil => rfl
  | cons events batches ih =>
    rw [List.forall_mem_cons] at hzero
    rw [List.flatMap_cons, Store.executePipeline_append, ih hzero.2, batchWrites_max,
      if_pos hzero.1]

/-- The last batch that has a duration for the field decides. -/
theorem batches_max_of_last {before after : List (List TimedEvent)} {events : List TimedEvent}
    (hevents : batchLongest config bid field events ≠ 0)
    (hafter : ∀ later ∈ after, batchLongest config bid field later = 0) :
    store.executePipeline encode ((before ++ events :: after).flatMap (batchWrites config keys))
      (maxKey keys bid) field = some (toString (batchLongest config bid field events)) := by
  rw [List.flatMap_append, List.flatMap_cons, Store.executePipeline_append,
    Store.executePipeline_append, batches_max_of_zero hafter, batchWrites_max, if_neg hevents]

theorem all_or_last {α : Type} (p : α → Prop) (as : List α) :
    (∀ a ∈ as, ¬ p a) ∨
      ∃ before a after, as = before ++ a :: after ∧ p a ∧ ∀ b ∈ after, ¬ p b := by
  induction as with
  | nil => exact .inl (List.forall_mem_nil _)
  | cons a as ih =>
    rcases ih with hnone | ⟨before, b, after, rfl, hb, hafter⟩
    · by_cases ha : p a
      · exact .inr ⟨[], a, as, rfl, ha, hnone⟩
      · exact .inl (List.forall_mem_cons.mpr ⟨ha, hnone⟩)
    · exact .inr ⟨a :: before, b, after, rfl, hb, hafter⟩

/-- The stored value, where an absent one is read as zero, is the longest duration of the calls
of a tool in a bucket. -/
def StoresMax (config : AnalyticsConfig) (keys : KeyBuilder) (bid : ℤ) (server tool : String)
    (batches : List (List TimedEvent)) (after : Store) : Prop :=
  (after (maxKey keys bid) (server ++ "::" ++ tool)).getD "0" =
    toString (longest (batches.flatten.filterMap
      (toolDuration config.bucketSeconds bid server tool)))

/-- The last flush with a call for the field that took a millisecond has a call as long as any
of the tool, and none that is longer than all of the tool. -/
def LastHasLongest (config : AnalyticsConfig) (bid : ℤ) (server tool : String)
    (batches : List (List TimedEvent)) : Prop :=
  ∀ before events after, batches = before ++ events :: after →
    (∃ event ∈ events, ∃ n,
      fieldDuration config.bucketSeconds bid (server ++ "::" ++ tool) event = some n ∧ 0 < n) →
    (∀ later ∈ after, ∀ event ∈ later, ∀ n,
      fieldDuration config.bucketSeconds bid (server ++ "::" ++ tool) event = some n → n ≤ 0) →
    (∀ call ∈ batches.flatten, ∀ n,
      toolDuration config.bucketSeconds bid server tool call = some n →
        ∃ event ∈ events, ∃ m,
          fieldDuration config.bucketSeconds bid (server ++ "::" ++ tool) event = some m ∧ n ≤ m) ∧
    ∀ event ∈ events, ∀ m,
      fieldDuration config.bucketSeconds bid (server ++ "::" ++ tool) event = some m →
        ∃ call ∈ batches.flatten, ∃ n,
          toolDuration config.bucketSeconds bid server tool call = some n ∧ m ≤ n

theorem batchLongest_eq_zero_iff {events : List TimedEvent} :
    batchLongest config bid field events = 0 ↔ ∀ event ∈ events, ∀ n,
      fieldDuration config.bucketSeconds bid field event = some n → n ≤ 0 := by
  rw [batchLongest, longest_eq_zero_iff]
  constructor
  · intro hall event hevent n hn
    exact hall n (List.mem_filterMap.mpr ⟨event, hevent, hn⟩)
  · intro hall n hn
    obtain ⟨event, hevent, hn⟩ := List.mem_filterMap.mp hn
    exact hall event hevent n hn

theorem batchLongest_ne_zero_iff {events : List TimedEvent} :
    batchLongest config bid field events ≠ 0 ↔ ∃ event ∈ events, ∃ n,
      fieldDuration config.bucketSeconds bid field event = some n ∧ 0 < n := by
  rw [Ne, batchLongest_eq_zero_iff]
  simp only [not_forall, not_le, exists_prop]

theorem fieldDuration_of_toolDuration {bucketSeconds n : ℤ} {server tool : String}
    {event : TimedEvent} (h : toolDuration bucketSeconds bid server tool event = some n) :
    fieldDuration bucketSeconds bid (server ++ "::" ++ tool) event = some n := by
  obtain ⟨⟨hkind, hpos, hbucket, hserver, htool⟩, hn⟩ := Option.ite_none_right_eq_some.mp h
  have hfield : event.toolField = server ++ "::" ++ tool := by
    rw [TimedEvent.toolField, hserver, htool]
  exact Option.ite_none_right_eq_some.mpr ⟨⟨hkind, hpos, hbucket, hfield⟩, hn⟩

/-- The longest durations are the same exactly when each is as long as any of the other. -/
theorem longest_eq_iff {ns ms : List ℤ} (hne : longest ns ≠ 0) :
    longest ns = longest ms ↔ (∀ m ∈ ms, ∃ n ∈ ns, m ≤ n) ∧ ∀ n ∈ ns, ∃ m ∈ ms, n ≤ m := by
  constructor
  · intro hsame
    refine ⟨fun m hm => ⟨_, longest_mem hne, hsame ▸ le_longest hm⟩, fun n hn => ?_⟩
    rw [hsame] at hne
    exact ⟨_, longest_mem hne, hsame ▸ le_longest hn⟩
  · rintro ⟨hms, hns⟩
    obtain ⟨m, hm, hle⟩ := hns _ (longest_mem hne)
    have hfirst : longest ns ≤ longest ms := hle.trans (le_longest hm)
    have hpos : longest ms ≠ 0 := fun hzero =>
      hne (le_antisymm (hzero ▸ hfirst) (longest_nonneg ns))
    obtain ⟨n, hn, hle'⟩ := hms _ (longest_mem hpos)
    exact le_antisymm hfirst (hle'.trans (le_longest hn))

theorem toString_inj_int {m n : ℤ} : toString m = toString n ↔ m = n :=
  ⟨toString_int_injective, congrArg toString⟩

theorem covered_iff {f g : TimedEvent → Option ℤ} {as bs : List TimedEvent} :
    (∀ m ∈ as.filterMap f, ∃ n ∈ bs.filterMap g, m ≤ n) ↔
      ∀ a ∈ as, ∀ m, f a = some m → ∃ b ∈ bs, ∃ n, g b = some n ∧ m ≤ n := by
  constructor
  · intro hall a ha m hm
    obtain ⟨n, hn, hle⟩ := hall m (List.mem_filterMap.mpr ⟨a, ha, hm⟩)
    obtain ⟨b, hb, hn⟩ := List.mem_filterMap.mp hn
    exact ⟨b, hb, n, hn, hle⟩
  · intro hall m hm
    obtain ⟨a, ha, hm⟩ := List.mem_filterMap.mp hm
    obtain ⟨b, hb, n, hn, hle⟩ := hall a ha m hm
    exact ⟨n, List.mem_filterMap.mpr ⟨b, hb, hn⟩, hle⟩

/-- The stored value is the longest duration of a tool exactly when the last flush that sets it
has the longest duration. -/
theorem storesMax_iff (encode : Value → String) (config : AnalyticsConfig) (keys : KeyBuilder)
    (bid : ℤ) (server tool : String) (batches : List (List TimedEvent)) :
    (config.bucketSeconds ≠ 0 →
      ∃ after, flushes encode config keys batches (fun _ _ => none) = .ok after) ∧
    ∀ after, flushes encode config keys batches (fun _ _ => none) = .ok after →
      (StoresMax config keys bid server tool batches after ↔
        LastHasLongest config bid server tool batches) := by
  refine ⟨fun hne => exists_flushes encode keys hne batches _, fun after hafter => ?_⟩
  -- What the last flush with a duration has to satisfy, in terms of its calls.
  have hlast {before later : List (List TimedEvent)} {events : List TimedEvent}
      (hsplit : batches = before ++ events :: later)
      (hevents : batchLongest config bid (server ++ "::" ++ tool) events ≠ 0)
      (hlater : ∀ events ∈ later, batchLongest config bid (server ++ "::" ++ tool) events = 0) :
      StoresMax config keys bid server tool batches after ↔
        (∀ m ∈ batches.flatten.filterMap (toolDuration config.bucketSeconds bid server tool),
          ∃ n ∈ events.filterMap
            (fieldDuration config.bucketSeconds bid (server ++ "::" ++ tool)), m ≤ n) ∧
        ∀ n ∈ events.filterMap (fieldDuration config.bucketSeconds bid (server ++ "::" ++ tool)),
          ∃ m ∈ batches.flatten.filterMap (toolDuration config.bucketSeconds bid server tool),
            n ≤ m := by
    have hvalue : after (maxKey keys bid) (server ++ "::" ++ tool) =
        some (toString (batchLongest config bid (server ++ "::" ++ tool) events)) := by
      rw [eq_of_flushes hafter, hsplit, batches_max_of_last hevents hlater]
    rw [StoresMax, hvalue, Option.getD_some, toString_inj_int]
    exact longest_eq_iff hevents
  constructor
  · intro hmax before events later hsplit hcounts hlater
    have hsame := (hlast hsplit (batchLongest_ne_zero_iff.mpr hcounts) fun events hmem =>
      batchLongest_eq_zero_iff.mpr (hlater events hmem)).mp hmax
    exact ⟨covered_iff.mp hsame.1, covered_iff.mp hsame.2⟩
  · intro hlongest
    rcases all_or_last (batchLongest config bid (server ++ "::" ++ tool) · ≠ 0) batches with
      hnone | ⟨before, events, later, hsplit, hevents, hlater⟩
    · have hnone' : ∀ events ∈ batches,
          batchLongest config bid (server ++ "::" ++ tool) events = 0 := fun events hmem =>
        not_not.mp (hnone events hmem)
      have hvalue : after (maxKey keys bid) (server ++ "::" ++ tool) = none := by
        rw [eq_of_flushes hafter, batches_max_of_zero hnone']
      have hzero : longest (batches.flatten.filterMap
          (toolDuration config.bucketSeconds bid server tool)) = 0 := by
        rw [longest_eq_zero_iff]
        intro n hn
        obtain ⟨call, hcall, hn⟩ := List.mem_filterMap.mp hn
        obtain ⟨events, hevents, hcall⟩ := List.mem_flatten.mp hcall
        exact batchLongest_eq_zero_iff.mp (hnone' events hevents) call hcall n
          (fieldDuration_of_toolDuration hn)
      rw [StoresMax, hvalue, hzero]
      rfl
    · have hlater' : ∀ events ∈ later,
          batchLongest config bid (server ++ "::" ++ tool) events = 0 := fun events hmem =>
        not_not.mp (hlater events hmem)
      have hcovers := hlongest before events later hsplit (batchLongest_ne_zero_iff.mp hevents)
        fun events hmem => batchLongest_eq_zero_iff.mp (hlater' events hmem)
      exact (hlast hsplit hevents hlater').mpr
        ⟨covered_iff.mpr hcovers.1, covered_iff.mpr hcovers.2⟩

/-- One flush has the longest duration. -/
theorem oneFlush_storesMax :
    ∃ after, flushes Value.text minuteConfig eastKeys [[queryCall 5, queryCall 3]]
        (fun _ _ => none) = .ok after ∧
      StoresMax minuteConfig eastKeys 0 "db" "query" [[queryCall 5, queryCall 3]] after := by
  have hiff := storesMax_iff Value.text minuteConfig eastKeys 0 "db" "query"
    [[queryCall 5, queryCall 3]]
  obtain ⟨after, hafter⟩ := hiff.1 (by decide)
  refine ⟨after, hafter, (hiff.2 after hafter).mpr ?_⟩
  intro before events later hsplit _ _
  have hwhole : events = [queryCall 5, queryCall 3] := by
    cases before with
    | nil => exact (List.cons.inj hsplit).1.symm
    | cons first before =>
      have hlength := congrArg List.length hsplit
      simp at hlength
  rw [hwhole]
  exact ⟨covered_iff.mp (by decide), covered_iff.mp (by decide)⟩

/-- In two flushes, the shorter call of the second one is what remains. -/
theorem twoFlushes_not_storesMax :
    ∃ after, flushes Value.text minuteConfig eastKeys [[queryCall 5], [queryCall 3]]
        (fun _ _ => none) = .ok after ∧
      ¬ StoresMax minuteConfig eastKeys 0 "db" "query" [[queryCall 5], [queryCall 3]] after := by
  have hbucket : minuteConfig.bucketSeconds ≠ 0 := by decide
  obtain ⟨after, hafter⟩ := exists_flushes Value.text eastKeys hbucket
    [[queryCall 5], [queryCall 3]] fun _ _ => none
  refine ⟨after, hafter, fun hmax => ?_⟩
  have hsecond : batchLongest minuteConfig 0 "db::query" [queryCall 3] ≠ 0 := by decide
  have hsplit : [[queryCall 5], [queryCall 3]] = [[queryCall 5]] ++ [queryCall 3] :: [] := rfl
  have hvalue : after (maxKey eastKeys 0) "db::query" = some "3" := by
    rw [eq_of_flushes hafter, hsplit, batches_max_of_last hsecond (List.forall_mem_nil _)]
    decide
  have hlongest : (after (maxKey eastKeys 0) "db::query").getD "0" = "5" := hmax
  rw [hvalue] at hlongest
  exact absurd hlongest (by decide)

end McpZero.Analytics
