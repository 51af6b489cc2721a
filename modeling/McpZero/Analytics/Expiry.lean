import McpZero.Analytics.KeyIsolation
import McpZero.Lib.Expiry
import McpZero.Lib.Runs

/-! The client of the analytics where Redis may fail, as a machine whose steps lead from one
`await` to the next, and how long its keys live. Redis executes what reaches it of a pipeline at
one time. How it keeps the life of its keys is a parameter. -/
namespace McpZero.Analytics
open Python Governance Lib Expiry

/-- The command as far as the life of its key goes. -/
def RedisOp.command : RedisOp → Command String
  | .expire key seconds => .expire key seconds
  | op => .write op.key

/-- Where a call of `execute_pipeline` waits. -/
inductive ClientCall
  | executing (ops : List RedisOp)
  | closing
  | pinging

/-- `connected` tells whether `_client` is set. The fields after `db` are the history: when a
command reached Redis last, how many commands did, and how many pipelines broke. -/
structure RedisClient (σ : Type) where
  connected : Bool
  calls : List ClientCall := []
  now : ℚ
  db : σ
  touched : ℚ
  sent : ℕ := 0
  broken : ℕ := 0

/-- The answers of Redis and of its library are part of the action: how many commands were
executed before a failure, whether `from_url` returns and whether `ping` does. -/
inductive ClientAction
  | passes (now : ℚ)
  | flush (events : List TimedEvent)
  | heartbeat (host port : String) (startedAt : ℚ)
  | executed (i : ℕ)
  | repeated (i executed : ℕ)
  | failed (i executed : ℕ) (opened : Bool)
  | closed (i : ℕ) (opened : Bool)
  | pinged (i : ℕ) (answered : Bool)
  | cancelled (i executed : ℕ)
  | disconnected

namespace RedisClient

variable {σ : Type} (store : ExpiringStore σ String)

/-- The client when `connect` has returned. -/
def start (connected : Bool) (now : ℚ) (db : σ) : RedisClient σ where
  connected := connected
  now := now
  db := db
  touched := now

variable (c : RedisClient σ)

/-- `execute_pipeline` up to its first `await`. -/
def executePipeline (ops : List RedisOp) : RedisClient σ :=
  if !c.connected || ops.isEmpty then c else { c with calls := c.calls ++ [.executing ops] }

/-- Redis executes commands. -/
def reach (ops : List RedisOp) : RedisClient σ :=
  { c with
    db := store.executeAll c.now c.db (ops.map RedisOp.command)
    touched := if ops.isEmpty then c.touched else c.now
    sent := c.sent + ops.length }

/-- Redis executes the first commands of a pipeline, and then something fails. -/
def breakOff (ops : List RedisOp) (executed : ℕ) : RedisClient σ :=
  { c.reach store (ops.take executed) with broken := c.broken + 1 }

def finish (i : ℕ) : RedisClient σ := { c with calls := c.calls.eraseIdx i }

/-- `connect` up to its `ping`. -/
def connect (i : ℕ) (opened : Bool) : RedisClient σ :=
  if opened then { c with connected := true, calls := c.calls.set i .pinging }
  else { c with connected := false }.finish i

/-- `_try_reconnect` up to its first `await`. -/
def tryReconnect (i : ℕ) (opened : Bool) : RedisClient σ :=
  if c.connected then { c with calls := c.calls.set i .closing } else c.connect i opened

/-- The step of a call, when it has one. The library may repeat a pipeline. -/
def step (config : AnalyticsConfig) (keys : KeyBuilder) (c : RedisClient σ) :
    ClientAction → Option (RedisClient σ)
  | .passes now => if c.now ≤ now then some { c with now := now } else none
  | .flush events =>
    match buildOperations config keys events with
    | .ok ops => some (c.executePipeline ops)
    | .error _ => some c
  | .heartbeat host port startedAt =>
    some (c.executePipeline (heartbeatOps config keys host port startedAt c.now))
  | .executed i =>
    match c.calls[i]? with
    | some (.executing ops) => some ((c.reach store ops).finish i)
    | _ => none
  | .repeated i executed =>
    match c.calls[i]? with
    | some (.executing ops) => some (c.breakOff store ops executed)
    | _ => none
  | .failed i executed opened =>
    match c.calls[i]? with
    | some (.executing ops) => some ((c.breakOff store ops executed).tryReconnect i opened)
    | _ => none
  | .closed i opened =>
    match c.calls[i]? with
    | some .closing => some ({ c with connected := false }.connect i opened)
    | _ => none
  | .pinged i answered =>
    match c.calls[i]? with
    | some .pinging => some ({ c with connected := c.connected && answered }.finish i)
    | _ => none
  | .cancelled i executed =>
    match c.calls[i]? with
    | some (.executing ops) => some ((c.breakOff store ops executed).finish i)
    | some .closing => some ({ c with connected := false }.finish i)
    | some .pinging => some (c.finish i)
    | none => none
  | .disconnected => some { c with connected := false }

end RedisClient

/-- The registry and the indexes, which have no deadline. -/
def KeyBuilder.Shared (keys : KeyBuilder) (key : String) : Prop :=
  key ∈ [keys.registryKey, keys.idxEnvsKey, keys.idxGatewaysKey]

/-- The longest time that a key is given. -/
def longestLife (config : AnalyticsConfig) : ℚ :=
  max (config.retentionSeconds : ℚ) (config.heartbeatSeconds * 3 : ℤ)

section Renewal

variable {config : AnalyticsConfig} {keys : KeyBuilder}

/-- The pipeline gives every key that is not shared its deadline. -/
def Renewing (config : AnalyticsConfig) (keys : KeyBuilder) (ops : List RedisOp) : Prop :=
  Renews (longestLife config) keys.Shared [] (ops.map RedisOp.command)

/-- What `push` adds to the commands. -/
def pushed (ttl : ℤ) (keysSeen : List String) : List RedisOp → List RedisOp
  | [] => []
  | op :: ops =>
    if op.key ∈ keysSeen then op :: pushed ttl keysSeen ops
    else op :: .expire op.key ttl :: pushed ttl (op.key :: keysSeen) ops

theorem Pending.pushAll_ops (ttl : ℤ) (p : Pending) (ops : List RedisOp) :
    (p.pushAll ttl ops).ops = p.ops ++ pushed ttl p.keysSeen ops := by
  induction ops generalizing p with
  | nil => exact (List.append_nil _).symm
  | cons op ops ih =>
    have hpush : (p.pushAll ttl (op :: ops)).ops = ((p.push ttl op).pushAll ttl ops).ops := rfl
    rw [hpush, ih, pushed]
    unfold Pending.push
    split_ifs
    · simp
    · simp

theorem renews_pushed (hretention : 0 < config.retentionSeconds) {ops : List RedisOp}
    (hops : ∀ op ∈ ops, op.writes = true) (keysSeen : List String) :
    Renews (longestLife config) keys.Shared keysSeen
      ((pushed config.retentionSeconds keysSeen ops).map RedisOp.command) := by
  induction ops generalizing keysSeen with
  | nil => exact .nil keysSeen
  | cons op ops ih =>
    rw [List.forall_mem_cons] at hops
    have hcommand : op.command = .write op.key := by
      cases op with
      | expire key seconds => exact absurd hops.1 Bool.false_ne_true
      | _ => rfl
    unfold pushed
    split_ifs with hseen
    · rw [List.map_cons, hcommand]
      exact .again hseen (ih hops.2 keysSeen)
    · rw [List.map_cons, List.map_cons, hcommand]
      exact .first (Int.cast_pos.mpr hretention) (le_max_left _ _) (ih hops.2 (op.key :: keysSeen))

theorem renewing_of_buildOperations (hretention : 0 < config.retentionSeconds)
    {events : List TimedEvent} {ops : List RedisOp}
    (hops : buildOperations config keys events = .ok ops) : Renewing config keys ops := by
  rw [eq_of_buildOperations hops, Renewing, Pending.pushAll_ops, List.nil_append]
  refine renews_pushed hretention (fun op hop => ?_) []
  rcases List.mem_append.mp hop with hop | hop
  · obtain ⟨bid, F, field, n, rfl⟩ := mem_batchIncrements hop
    rfl
  · obtain ⟨e, -, rfl⟩ := List.mem_map.mp hop
    rfl

theorem renewing_heartbeat (hheartbeat : 0 < config.heartbeatSeconds) (host port : String)
    (startedAt now : ℚ) :
    Renewing config keys (heartbeatOps config keys host port startedAt now) := by
  have hpos : (0 : ℚ) < (config.heartbeatSeconds * 3 : ℤ) := Int.cast_pos.mpr (by omega)
  have hregistry : keys.Shared keys.registryKey := List.mem_cons_self
  have henvs : keys.Shared keys.idxEnvsKey := List.mem_cons_of_mem _ List.mem_cons_self
  have hgateways : keys.Shared keys.idxGatewaysKey :=
    List.mem_cons_of_mem _ (List.mem_cons_of_mem _ List.mem_cons_self)
  exact .lasts hregistry (.first hpos (le_max_right _ _)
    (.lasts henvs (.lasts hgateways (.nil _))))

end Renewal

namespace RedisClient

variable {σ : Type} {store : ExpiringStore σ String} {config : AnalyticsConfig}
  {keys : KeyBuilder} {before : σ} {began : ℚ} {c c' : RedisClient σ} {a : ClientAction}

/-- What a run keeps of the keys that were not there when it began: but for the shared ones and
those that broken pipelines have left, they end in reach of the last command. -/
structure Keeps (store : ExpiringStore σ String) (config : AnalyticsConfig) (keys : KeyBuilder)
    (before : σ) (began : ℚ) (c : RedisClient σ) : Prop where
  ends : ∃ cut : List String, cut.length ≤ c.broken ∧
    ∀ key, ¬ store.Alive before key began →
      keys.Shared key ∨ key ∈ cut ∨ store.EndsBy c.db key (c.touched + longestLife config)
  touched : c.touched ≤ c.now
  calls : ∀ ops, .executing ops ∈ c.calls → Renewing config keys ops

theorem Keeps.of_calls (h : Keeps store config keys before began c) (connected : Bool)
    {calls : List ClientCall}
    (hcalls : ∀ ops, .executing ops ∈ calls → Renewing config keys ops) :
    Keeps store config keys before began { c with connected := connected, calls := calls } :=
  ⟨h.ends, h.touched, hcalls⟩

/-- Commands of a pipeline reach Redis: one key may be cut off from its deadline. -/
theorem Keeps.of_reach (h : Keeps store config keys before began c) {ops : List RedisOp}
    (hops : Renewing config keys ops) (n : ℕ) :
    ∃ cut : Option String, (ops.length ≤ n → cut = none) ∧ Keeps store config keys before began
      { c.reach store (ops.take n) with broken := c.broken + cut.toList.length } := by
  have hnone : ∀ key ∈ ([] : List String), store.Alive c.db key c.now :=
    fun key hkey => absurd hkey List.not_mem_nil
  obtain ⟨cut, hcut, hleaves⟩ := ExpiringStore.exists_leaves_take hops hnone n
  rw [List.length_map] at hcut
  rw [← List.map_take] at hleaves
  have htouched := h.touched
  refine ⟨cut, hcut, ⟨?_, ?_, h.calls⟩⟩
  · obtain ⟨lost, hlost, hends⟩ := h.ends
    refine ⟨lost ++ cut.toList, ?_, fun key hbefore => ?_⟩
    · rw [List.length_append]
      exact Nat.add_le_add_right hlost _
    rcases hends key hbefore with hshared | hmem | hend
    · exact .inl hshared
    · exact .inr (.inl (List.mem_append_left _ hmem))
    -- a pipeline of which nothing is executed changes nothing
    cases hreached : (ops.take n).isEmpty with
    | true =>
      refine .inr (.inr ?_)
      have hnil : ops.take n = [] := List.isEmpty_iff.mp hreached
      rw [hnil]
      exact hend
    | false =>
      have hlate : store.EndsBy c.db key (c.now + longestLife config) :=
        hend.mono (by linarith)
      rcases hleaves key _ le_rfl hlate with hshared | hcutoff | hend'
      · exact .inl hshared
      · exact .inr (.inl (List.mem_append_right _ (by simp [hcutoff])))
      · refine .inr (.inr ?_)
        simpa only [RedisClient.reach, hreached, Bool.false_eq_true, if_false] using hend'
  · unfold RedisClient.reach
    dsimp only
    split_ifs
    · exact htouched
    · exact le_rfl

theorem Keeps.breakOff (h : Keeps store config keys before began c) {ops : List RedisOp}
    (hops : Renewing config keys ops) (n : ℕ) :
    Keeps store config keys before began (c.breakOff store ops n) := by
  obtain ⟨cut, -, hkeeps⟩ := h.of_reach hops n
  obtain ⟨lost, hlost, hends⟩ := hkeeps.ends
  refine ⟨⟨lost, hlost.trans (Nat.add_le_add_left ?_ _), hends⟩, hkeeps.touched, hkeeps.calls⟩
  cases cut <;> simp

theorem Keeps.reach (h : Keeps store config keys before began c) {ops : List RedisOp}
    (hops : Renewing config keys ops) :
    Keeps store config keys before began (c.reach store ops) := by
  obtain ⟨cut, hcut, hkeeps⟩ := h.of_reach hops ops.length
  obtain rfl := hcut le_rfl
  rw [List.take_length] at hkeeps
  exact hkeeps

theorem Keeps.executePipeline (h : Keeps store config keys before began c) {ops : List RedisOp}
    (hops : Renewing config keys ops) :
    Keeps store config keys before began (c.executePipeline ops) := by
  unfold RedisClient.executePipeline
  split_ifs
  · exact h
  · refine h.of_calls c.connected fun ops' hops' => ?_
    rcases List.mem_append.mp hops' with hold | hnew
    · exact h.calls ops' hold
    · cases List.mem_singleton.mp hnew
      exact hops

theorem Keeps.finish (h : Keeps store config keys before began c) (connected : Bool) (i : ℕ) :
    Keeps store config keys before began ({ c with connected := connected }.finish i) :=
  h.of_calls connected fun ops hops => h.calls ops (List.mem_of_mem_eraseIdx hops)

theorem Keeps.set (h : Keeps store config keys before began c) (connected : Bool) (i : ℕ)
    {call : ClientCall} (hcall : ∀ ops, call ≠ .executing ops) :
    Keeps store config keys before began
      { c with connected := connected, calls := c.calls.set i call } := by
  refine h.of_calls connected fun ops hops => ?_
  rcases List.mem_or_eq_of_mem_set hops with hold | hnew
  · exact h.calls ops hold
  · exact absurd hnew.symm (hcall ops)

theorem Keeps.connect (h : Keeps store config keys before began c) (i : ℕ) (opened : Bool) :
    Keeps store config keys before began (c.connect i opened) := by
  unfold RedisClient.connect
  split_ifs
  · exact h.set true i fun ops hcall => by cases hcall
  · exact h.finish false i

theorem Keeps.tryReconnect (h : Keeps store config keys before began c) (i : ℕ)
    (opened : Bool) : Keeps store config keys before began (c.tryReconnect i opened) := by
  unfold RedisClient.tryReconnect
  split_ifs
  · exact h.set c.connected i fun ops hcall => by cases hcall
  · exact h.connect i opened

theorem Keeps.step (h : Keeps store config keys before began c)
    (hretention : 0 < config.retentionSeconds) (hheartbeat : 0 < config.heartbeatSeconds)
    (hstep : step store config keys c a = some c') :
    Keeps store config keys before began c' := by
  have hrunning : ∀ (i : ℕ) (ops : List RedisOp), c.calls[i]? = some (.executing ops) →
      Renewing config keys ops :=
    fun i ops hi => h.calls ops (List.mem_of_getElem? hi)
  cases a with
  | passes now =>
    unfold RedisClient.step at hstep
    dsimp only at hstep
    split_ifs at hstep with hnow
    cases hstep
    exact ⟨h.ends, h.touched.trans hnow, h.calls⟩
  | flush events =>
    unfold RedisClient.step at hstep
    dsimp only at hstep
    cases hops : buildOperations config keys events with
    | error e =>
      rw [hops] at hstep
      cases hstep
      exact h
    | ok ops =>
      rw [hops] at hstep
      cases hstep
      exact h.executePipeline (renewing_of_buildOperations hretention hops)
  | heartbeat host port startedAt =>
    cases hstep
    exact h.executePipeline (renewing_heartbeat hheartbeat host port startedAt c.now)
  | disconnected =>
    cases hstep
    exact h.of_calls false h.calls
  | executed i =>
    unfold RedisClient.step at hstep
    dsimp only at hstep
    split at hstep
    · rename_i ops hcall
      cases hstep
      exact (h.reach (hrunning i ops hcall)).finish _ i
    · cases hstep
  | repeated i n =>
    unfold RedisClient.step at hstep
    dsimp only at hstep
    split at hstep
    · rename_i ops hcall
      cases hstep
      exact h.breakOff (hrunning i ops hcall) n
    · cases hstep
  | failed i n opened =>
    unfold RedisClient.step at hstep
    dsimp only at hstep
    split at hstep
    · rename_i ops hcall
      cases hstep
      exact (h.breakOff (hrunning i ops hcall) n).tryReconnect i opened
    · cases hstep
  | closed i opened =>
    unfold RedisClient.step at hstep
    dsimp only at hstep
    split at hstep
    · cases hstep
      exact (h.of_calls false h.calls).connect i opened
    · cases hstep
  | pinged i answered =>
    unfold RedisClient.step at hstep
    dsimp only at hstep
    split at hstep
    · cases hstep
      exact h.finish (c.connected && answered) i
    · cases hstep
  | cancelled i n =>
    unfold RedisClient.step at hstep
    dsimp only at hstep
    split at hstep
    · rename_i ops hcall
      cases hstep
      exact (h.breakOff (hrunning i ops hcall) n).finish _ i
    · cases hstep
      exact h.finish false i
    · cases hstep
      exact h.finish _ i
    · cases hstep

theorem keeps_start (connected : Bool) (began : ℚ)
    (hlife : 0 < longestLife config) :
    Keeps store config keys before began (start connected began before) where
  ends := by
    refine ⟨[], le_rfl, fun key hbefore => .inr (.inr ?_)⟩
    have hends : store.EndsBy before key began := ExpiringStore.endsBy_of_not_alive hbefore
    have hlate : began ≤ began + longestLife config := by linarith
    exact hends.mono hlate
  touched := le_rfl
  calls ops hops := absurd hops List.not_mem_nil

/-- The keys of the analytics expire. However Redis fails, once the longest time to live has passed
since it executed a command last, of all keys that a run has made only the registry and the
indexes are left, and at most one key for each pipeline that broke off. -/
theorem keys_expire (hretention : 0 < config.retentionSeconds)
    (hheartbeat : 0 < config.heartbeatSeconds) {connected : Bool} {actions : List ClientAction}
    (hrun : run (step store config keys) (start connected began before) actions = some c) :
    ∃ cut : List String, cut.length ≤ c.broken ∧ ∀ key, ¬ store.Alive before key began →
      ∀ later, c.touched + longestLife config < later → store.Alive c.db key later →
        keys.Shared key ∨ key ∈ cut := by
  have hlife : 0 < longestLife config :=
    lt_max_of_lt_left (Int.cast_pos.mpr hretention)
  have hkeeps : Keeps store config keys before began c :=
    run_invariant (fun _ _ _ h hstep => h.step hretention hheartbeat hstep)
      (keeps_start connected began hlife) hrun
  obtain ⟨cut, hcut, hends⟩ := hkeeps.ends
  refine ⟨cut, hcut, fun key hbefore later hlater halive => ?_⟩
  rcases hends key hbefore with hshared | hmem | hend
  · exact .inl hshared
  · exact .inr hmem
  · exact absurd halive (hend later hlater)

/-- A flush breaks off after its first command, and the reconnect fails. -/
def brokenFlush : List ClientAction :=
  [.flush [queryCall 5], .failed 0 1 true, .closed 0 true]

/-- An empty Redis. -/
def emptyRedis : RedisClient (Keyspace String) := start true 0 fun _ => .absent

theorem exists_brokenFlush : ∃ c, run (step (Keyspace.store String) minuteConfig eastKeys)
    emptyRedis brokenFlush = some c ∧ c.broken = 1 ∧ c.calls = [.pinging] :=
  ⟨_, rfl, rfl, rfl⟩

theorem brokenFlush_expires : ∃ c, run (step (Keyspace.store String) minuteConfig eastKeys)
    emptyRedis brokenFlush = some c ∧ ∃ cut : List String, cut.length ≤ 1 ∧
      ∀ key later, c.touched + longestLife minuteConfig < later →
        (Keyspace.store String).Alive c.db key later → eastKeys.Shared key ∨ key ∈ cut := by
  obtain ⟨c, hrun, hbroken, -⟩ := exists_brokenFlush
  obtain ⟨cut, hcut, hexpire⟩ := keys_expire (by decide : 0 < minuteConfig.retentionSeconds)
    (by decide : 0 < minuteConfig.heartbeatSeconds) hrun
  exact ⟨c, hrun, cut, hbroken ▸ hcut, fun key => hexpire key (not_not.mpr rfl)⟩

/-- The reconnect of a call ends without a client. -/
inductive ReconnectFails (c : RedisClient σ) (i : ℕ) : ClientAction → Prop
  | ping : c.calls[i]? = some .pinging → ReconnectFails c i (.pinged i false)
  | close : c.calls[i]? = some .closing → ReconnectFails c i (.closed i false)
  | failed {ops : List RedisOp} (executed : ℕ) : c.connected = false →
      c.calls[i]? = some (.executing ops) → ReconnectFails c i (.failed i executed false)

/-- A call that was under way opens a new client. -/
inductive Reopens (c : RedisClient σ) : ClientAction → Prop
  | close {i : ℕ} : c.calls[i]? = some .closing → Reopens c (.closed i true)
  | failed {i : ℕ} {ops : List RedisOp} (executed : ℕ) :
      c.calls[i]? = some (.executing ops) → Reopens c (.failed i executed true)

/-- There is no client, and no call has begun since. Without a pipeline under way nothing has
reached Redis. -/
structure Unheard (c c' : RedisClient σ) : Prop where
  connected : c'.connected = false
  calls : List.Sublist c'.calls c.calls
  db : (∀ ops, .executing ops ∉ c.calls) → c'.db = c.db
  sent : (∀ ops, .executing ops ∉ c.calls) → c'.sent = c.sent

theorem Unheard.refl (h : c.connected = false) : Unheard c c :=
  ⟨h, List.Sublist.refl _, fun _ => rfl, fun _ => rfl⟩

theorem Unheard.trans {c'' : RedisClient σ} (h : Unheard c c') (h' : Unheard c' c'') :
    Unheard c c'' := by
  have hidle : (∀ ops, .executing ops ∉ c.calls) → ∀ ops, .executing ops ∉ c'.calls :=
    fun hnone ops hops => hnone ops (h.calls.subset hops)
  refine ⟨h'.connected, h'.calls.trans h.calls, fun hnone => ?_, fun hnone => ?_⟩
  · exact (h'.db (hidle hnone)).trans (h.db hnone)
  · exact (h'.sent (hidle hnone)).trans (h.sent hnone)

theorem Unheard.of_executing {i : ℕ} {ops : List RedisOp} {db : σ} {touched : ℚ}
    {sent broken : ℕ} {calls : List ClientCall} (hcall : c.calls[i]? = some (.executing ops))
    (hdown : c.connected = false) (hcalls : List.Sublist calls c.calls) :
    Unheard c ⟨c.connected, calls, c.now, db, touched, sent, broken⟩ where
  connected := hdown
  calls := hcalls
  db hnone := absurd (List.mem_of_getElem? hcall) (hnone ops)
  sent hnone := absurd (List.mem_of_getElem? hcall) (hnone ops)

theorem tryReconnect_of_down (hdown : c.connected = false) (i : ℕ) :
    c.tryReconnect i false = { c with connected := false }.finish i := by
  rw [tryReconnect, hdown]
  rfl

/-- Without a client no call begins, and only the calls under way do anything. -/
theorem unheard_of_step (hdown : c.connected = false)
    (hstep : step store config keys c a = some c') : Unheard c c' ∨ Reopens c a := by
  have hpipeline : ∀ ops, c.executePipeline ops = c := by
    intro ops
    unfold RedisClient.executePipeline
    rw [hdown]
    rfl
  have hfinish : ∀ i : ℕ, List.Sublist (c.calls.eraseIdx i) c.calls :=
    fun i => List.eraseIdx_sublist c.calls i
  cases a with
  | passes now =>
    unfold RedisClient.step at hstep
    dsimp only at hstep
    split_ifs at hstep
    cases hstep
    exact .inl ⟨hdown, List.Sublist.refl _, fun _ => rfl, fun _ => rfl⟩
  | flush events =>
    unfold RedisClient.step at hstep
    dsimp only at hstep
    split at hstep
    · cases hstep
      rw [hpipeline]
      exact .inl (Unheard.refl hdown)
    · cases hstep
      exact .inl (Unheard.refl hdown)
  | heartbeat host port startedAt =>
    cases hstep
    rw [hpipeline]
    exact .inl (Unheard.refl hdown)
  | disconnected =>
    cases hstep
    exact .inl ⟨rfl, List.Sublist.refl _, fun _ => rfl, fun _ => rfl⟩
  | executed i =>
    unfold RedisClient.step at hstep
    dsimp only at hstep
    split at hstep
    · rename_i ops hcall
      cases hstep
      exact .inl (.of_executing hcall hdown (hfinish i))
    · cases hstep
  | repeated i n =>
    unfold RedisClient.step at hstep
    dsimp only at hstep
    split at hstep
    · rename_i ops hcall
      cases hstep
      exact .inl (.of_executing hcall hdown (List.Sublist.refl _))
    · cases hstep
  | failed i n opened =>
    unfold RedisClient.step at hstep
    dsimp only at hstep
    split at hstep
    · rename_i ops hcall
      cases opened with
      | true => exact .inr (.failed n hcall)
      | false =>
        rw [tryReconnect_of_down (c := c.breakOff store ops n) hdown] at hstep
        cases hstep
        exact .inl (hdown ▸ .of_executing hcall hdown (hfinish i))
    · cases hstep
  | closed i opened =>
    unfold RedisClient.step at hstep
    dsimp only at hstep
    split at hstep
    · rename_i hcall
      cases opened with
      | true => exact .inr (.close hcall)
      | false =>
        cases hstep
        exact .inl ⟨rfl, hfinish i, fun _ => rfl, fun _ => rfl⟩
    · cases hstep
  | pinged i answered =>
    unfold RedisClient.step at hstep
    dsimp only at hstep
    split at hstep
    · cases hstep
      left
      refine ⟨?_, hfinish i, fun _ => rfl, fun _ => rfl⟩
      show (c.connected && answered) = false
      rw [hdown, Bool.false_and]
    · cases hstep
  | cancelled i n =>
    unfold RedisClient.step at hstep
    dsimp only at hstep
    split at hstep
    · rename_i ops hcall
      cases hstep
      exact .inl (.of_executing hcall hdown (hfinish i))
    · cases hstep
      exact .inl ⟨rfl, hfinish i, fun _ => rfl, fun _ => rfl⟩
    · cases hstep
      exact .inl ⟨hdown, hfinish i, fun _ => rfl, fun _ => rfl⟩
    · cases hstep

/-- The failed reconnect is the end of its call, and there is no client any more. -/
theorem down_of_reconnectFails {i : ℕ} (hfails : ReconnectFails c i a)
    (hstep : step store config keys c a = some c') :
    c'.connected = false ∧ c'.calls = c.calls.eraseIdx i := by
  cases hfails with
  | ping hcall =>
    simp only [step, hcall, Option.some.injEq] at hstep
    subst hstep
    exact ⟨Bool.and_false c.connected, rfl⟩
  | close hcall =>
    simp only [step, hcall, Option.some.injEq] at hstep
    subst hstep
    exact ⟨rfl, rfl⟩
  | failed n hdown hcall =>
    simp only [step, hcall, Option.some.injEq] at hstep
    rw [tryReconnect_of_down (c := c.breakOff store _ n) hdown] at hstep
    subst hstep
    exact ⟨rfl, rfl⟩

/-- The client does not come back by itself. A failed reconnect leaves no client; and once there is
none, no flush and no heartbeat begins a pipeline, up to a call that was under way then and opens a
new client; where all of those are at their `ping`, nothing reaches Redis any more. -/
theorem silent_forever {down : RedisClient σ} :
    (∀ i a c, ReconnectFails c i a → step store config keys c a = some down →
      down.connected = false ∧ down.calls = c.calls.eraseIdx i) ∧
    (down.connected = false → ∀ actions c', run (step store config keys) down actions = some c' →
      (Unheard down c' ∨ ∃ first b rest u, actions = first ++ b :: rest ∧
        run (step store config keys) down first = some u ∧ Unheard down u ∧ Reopens u b) ∧
      ((∀ call ∈ down.calls, call = .pinging) →
        Unheard down c' ∧ c'.db = down.db ∧ c'.sent = down.sent)) := by
  refine ⟨fun i a c => down_of_reconnectFails, fun hdown actions c' hrun => ?_⟩
  have hboth := run_invariant_or
    (fun s b t hs hst => (unheard_of_step hs.connected hst).imp_left hs.trans)
    (Unheard.refl hdown) hrun
  refine ⟨hboth, fun hothers => ?_⟩
  have hnone : ∀ ops, .executing ops ∉ down.calls := by
    intro ops hops
    cases hothers _ hops
  have hunheard : Unheard down c' := by
    rcases hboth with hunheard | ⟨_, _, _, u, -, -, hu, hreopens⟩
    · exact hunheard
    -- all that is left is at its `ping`
    cases hreopens with
    | close hcall => cases hothers _ (hu.calls.subset (List.mem_of_getElem? hcall))
    | failed n hcall => cases hothers _ (hu.calls.subset (List.mem_of_getElem? hcall))
  exact ⟨hunheard, hunheard.db hnone, hunheard.sent hnone⟩

theorem brokenFlush_silent : ∃ c down c', run (step (Keyspace.store String) minuteConfig eastKeys)
    emptyRedis brokenFlush = some c ∧
      step (Keyspace.store String) minuteConfig eastKeys c (.pinged 0 false) = some down ∧
      run (step (Keyspace.store String) minuteConfig eastKeys) down
        [.flush [queryCall 3], .heartbeat "0.0.0.0" "8080" 0] = some c' ∧
      c'.db = down.db ∧ c'.sent = down.sent := by
  obtain ⟨c, hrun, -, hcalls⟩ := exists_brokenFlush
  have hcall : c.calls[0]? = some .pinging := by rw [hcalls]; rfl
  obtain ⟨down, hdown⟩ : ∃ down, step (Keyspace.store String) minuteConfig eastKeys c
      (.pinged 0 false) = some down := by simp only [step, hcall]; exact ⟨_, rfl⟩
  obtain ⟨c', hmore⟩ : ∃ c', run (step (Keyspace.store String) minuteConfig eastKeys) down
      [.flush [queryCall 3], .heartbeat "0.0.0.0" "8080" 0] = some c' := ⟨_, rfl⟩
  obtain ⟨hfailed, hforever⟩ :=
    @silent_forever _ (Keyspace.store String) minuteConfig eastKeys down
  obtain ⟨hconnected, hleft⟩ := hfailed 0 _ c (.ping hcall) hdown
  have hnone : ∀ call ∈ down.calls, call = .pinging := by
    rw [hleft, hcalls]
    exact fun _ h => absurd h List.not_mem_nil
  obtain ⟨-, hdb, hsent⟩ := (hforever hconnected _ c' hmore).2 hnone
  exact ⟨c, down, c', hrun, hdown, hmore, hdb, hsent⟩

end RedisClient

end McpZero.Analytics
