import NewApi.Relay.Run

/-!
# `RelayTask`: the retry loop of task submissions

`RelayTask` in `controller/relay.go` submits a task (image or video generation) to the channel
the routing middleware pinned in the context, and when that submission fails in a way
`shouldRetryTaskRelay` accepts it loops

    for i := 0; shouldRetryTaskRelay(c, channelId, taskErr, retryTimes) && i < retryTimes; i++

selecting a channel with `getChannel(c, group, originalModel, i)` and submitting again.  The first
submission happens before the loop, so retry `j` (counting from `1`) selects with index `j - 1`,
and the first retry goes through `getChannel`'s retry-`0` fast path, which rebuilds the channel
the context still names: the one whose submission just failed (`relayTask_first_retry`).
`Relay`, whose first attempt is iteration `0` of its loop, selects attempt `j` with index `j`.

* `relayTask_infoLogs`: a task request logs one line per retry and, when there was a retry, the
  retry log naming the pinned channel and the retry channels in order, also when the last retry
  succeeded; `use_channel` ends as those channels.
* `relayTask_submissions`: the submissions are numbered `0, …, j` with no gap, with at most
  `RetryTimes` retries and none after a first submission that succeeds.
-/

namespace NewApi

/-- What the collaborators of `RelayTask` outside `src/` return on one request. -/
structure TaskEnv where
  selector : SelectorEnv
  /-- `common.RetryTimes`. -/
  retryTimes : Int
  /-- The error of `relaycommon.GenRelayInfo`. -/
  genRelayInfoError : Option String
  /-- `taskRelayHandler` at submission `j`: `0` is the first submission, `j ≥ 1` retry `j`. -/
  taskRelay : Nat → Option TaskError
  deriving Inhabited

/-- What a run of `RelayTask` leaves: the final `taskErr`, the context and the side effects. -/
structure TaskRun where
  taskErr : Option TaskError
  ctx : Ctx
  events : List Event

/-- The retry loop of `RelayTask` from iteration `i` on, with `n` iterations left before
`i < retryTimes` fails; `channelId` and `taskErr` are the loop variables. -/
def taskLoop (env : TaskEnv) (group originalModel : String) (retryTimes : Int) :
    Nat → Nat → Ctx → Int → Option TaskError → TaskRun
  | _, 0, c, _, taskErr => ⟨taskErr, c, []⟩
  | i, n + 1, c, channelId, taskErr =>
    if shouldRetryTaskRelay c channelId taskErr retryTimes then
      match getChannel env.selector c group originalModel i with
      | .error e =>
        ⟨some (taskErrorWrapperLocal e.message "get_channel_failed" 500), c,
          [.getChannel i, .logError s!"CacheGetRandomSatisfiedChannel failed: {e.message}"]⟩
      | .ok (channel, c₁) =>
        let c₂ := { c₁ with useChannel := c₁.useChannel ++ [toString channel.id] }
        let r := taskLoop env group originalModel retryTimes (i + 1) n c₂ channel.id
          (env.taskRelay (i + 1))
        { r with events := [.getChannel i,
            .logInfo s!"using channel #{channel.id} to retry (remain times {i})",
            .dispatchTask (i + 1) channel.id] ++ r.events }
    else ⟨taskErr, c, []⟩

/-- The error `RelayTask` renders: a `429` gets the message that the group's upstream is
saturated. -/
def taskErrorShown (t : TaskError) : TaskError :=
  if t.statusCode = 429 then { t with message := "当前分组上游负载已饱和，请稍后再试" } else t

/-- `RelayTask`.  When `GenRelayInfo` fails it returns without a response; when the first
submission succeeds the retry budget is set to `0`. -/
def relayTask (env : TaskEnv) (c : Ctx) : TaskRun :=
  let channelId := c.channelId
  let c₀ := { c with useChannel := [toString channelId] }
  match env.genRelayInfoError with
  | some _ => ⟨none, c₀, []⟩
  | none =>
    let taskErr := env.taskRelay 0
    let retryTimes := if taskErr.isNone then 0 else env.retryTimes
    let r := taskLoop env c.group c.originalModel retryTimes 0 retryTimes.toNat c₀ channelId taskErr
    ⟨r.taskErr, r.ctx,
      .dispatchTask 0 channelId :: r.events ++ retryLog r.ctx.useChannel ++
        (r.taskErr.map fun t => Event.renderTask (taskErrorShown t)).toList⟩

/-- Whenever the first submission fails in a way `shouldRetryTaskRelay` retries, with a budget of
at least one retry, the first retry selects its channel with `getChannel` at index `0`, whose fast
path rebuilds the channel of the context's `channel_id`, and submits to it: the channel whose
submission just failed. -/
theorem relayTask_first_retry {env : TaskEnv} {c : Ctx} (hg : env.genRelayInfoError = none)
    (hR : 1 ≤ env.retryTimes)
    (hretry : shouldRetryTaskRelay c c.channelId (env.taskRelay 0) env.retryTimes = true) :
    Event.getChannel 0 ∈ (relayTask env c).events ∧
      Event.dispatchTask 0 c.channelId ∈ (relayTask env c).events ∧
      Event.dispatchTask 1 c.channelId ∈ (relayTask env c).events := by
  have hfail : (env.taskRelay 0).isNone = false := by
    cases h : env.taskRelay 0 <;> simp_all [shouldRetryTaskRelay]
  obtain ⟨n, hn⟩ : ∃ n, env.retryTimes.toNat = n + 1 := ⟨env.retryTimes.toNat - 1, by omega⟩
  have hretry' : shouldRetryTaskRelay { c with useChannel := [toString c.channelId] } c.channelId
      (env.taskRelay 0) env.retryTimes = true := hretry
  simp [relayTask, hg, hfail, hn, taskLoop, hretry', pinnedChannel]

/-- The failing input: `RetryTimes = 1` and a first submission that fails with status `500`.  The
one retry goes through `getChannel`'s retry-`0` fast path and is submitted to the channel that
just failed, channel `7`; the retry log reads `7->7`. -/
theorem relayTask_retries_failed_channel :
    let c : Ctx := { (default : Ctx) with channelId := 7 }
    let t : TaskError := ⟨"fail_to_fetch_task", "upstream error", 500, false⟩
    let env : TaskEnv := { (default : TaskEnv) with retryTimes := 1, taskRelay := fun _ => some t }
    Event.getChannel 0 ∈ (relayTask env c).events ∧
      Event.dispatchTask 1 7 ∈ (relayTask env c).events ∧
      Event.logInfo "重试：7->7" ∈ (relayTask env c).events := by
  intro c t env
  have h := @relayTask_first_retry env c rfl le_rfl (by decide)
  exact ⟨h.1, h.2.2, by decide⟩

/-! ## Retries, run by run -/

/-- The retries of a task request: for each submission after the first, the loop index that
selected its channel and the channel's id, in order. -/
def taskRetries (events : List Event) : List (Nat × Int) :=
  events.filterMap fun | .dispatchTask (j + 1) id => some (j, id) | _ => none

/-- The submissions of a task request, by number: `0` is the first. -/
def taskSubmissions (events : List Event) : List Nat :=
  events.filterMap fun | .dispatchTask j _ => some j | _ => none

/-- The info line `RelayTask` logs before the retry at loop index `i` on the channel `id`. -/
def usingChannelLog (retry : Nat × Int) : String :=
  s!"using channel #{retry.2} to retry (remain times {retry.1})"

@[simp] theorem taskRetries_append (l l' : List Event) :
    taskRetries (l ++ l') = taskRetries l ++ taskRetries l' :=
  List.filterMap_append _ _ _
@[simp] theorem taskSubmissions_append (l l' : List Event) :
    taskSubmissions (l ++ l') = taskSubmissions l ++ taskSubmissions l' :=
  List.filterMap_append _ _ _

section Loop

variable {env : TaskEnv} {group originalModel : String} {retryTimes : Int}

/-- The retry loop appends to `use_channel` the channel of each retry, in order, and logs one
info line per retry. -/
theorem taskLoop_retries : ∀ (n i : Nat) (c : Ctx) (channelId : Int) (taskErr : Option TaskError),
    (taskLoop env group originalModel retryTimes i n c channelId taskErr).ctx.useChannel =
        c.useChannel ++ (taskRetries
          (taskLoop env group originalModel retryTimes i n c channelId taskErr).events).map
          (fun t => toString t.2) ∧
      infoLogs (taskLoop env group originalModel retryTimes i n c channelId taskErr).events =
        (taskRetries (taskLoop env group originalModel retryTimes i n c channelId taskErr).events).map
          usingChannelLog := by
  intro n
  induction n with
  | zero => intro i c channelId taskErr; simp [taskLoop, taskRetries, infoLogs]
  | succ n ih =>
    intro i c channelId taskErr
    unfold taskLoop
    split_ifs
    · rcases hg : getChannel env.selector c group originalModel i with e | ⟨ch, c₁⟩
      · simp [taskRetries, infoLogs]
      · obtain ⟨h₁, h₂⟩ := ih (i + 1) { c₁ with useChannel := c₁.useChannel ++ [toString ch.id] }
          ch.id (env.taskRelay (i + 1))
        dsimp only
        rw [taskRetries_append, infoLogs_append, h₁, h₂]
        simp [taskRetries, infoLogs, usingChannelLog, (getChannel_frame hg).2]
    · simp [taskRetries, infoLogs]

/-- The loop's submissions are numbered from `i + 1` on with no gap, at most one per
iteration. -/
theorem taskLoop_submissions : ∀ (n i : Nat) (c : Ctx) (channelId : Int)
    (taskErr : Option TaskError), ∃ j ≤ n,
    taskSubmissions (taskLoop env group originalModel retryTimes i n c channelId taskErr).events =
      List.range' (i + 1) j := by
  intro n
  induction n with
  | zero => intro i c channelId taskErr; exact ⟨0, le_rfl, rfl⟩
  | succ n ih =>
    intro i c channelId taskErr
    unfold taskLoop
    split_ifs
    · rcases getChannel env.selector c group originalModel i with e | ⟨ch, c₁⟩
      · exact ⟨0, by omega, rfl⟩
      · obtain ⟨j, hj, h⟩ := ih (i + 1) { c₁ with useChannel := c₁.useChannel ++ [toString ch.id] }
          ch.id (env.taskRelay (i + 1))
        refine ⟨j + 1, by omega, ?_⟩
        dsimp only
        rw [taskSubmissions_append, h]
        rfl
    · exact ⟨0, by omega, rfl⟩

end Loop

@[simp] theorem taskRetries_retryLog (l : List String) : taskRetries (retryLog l) = [] := by
  unfold retryLog; split_ifs <;> rfl

@[simp] theorem taskSubmissions_retryLog (l : List String) : taskSubmissions (retryLog l) = [] := by
  unfold retryLog; split_ifs <;> rfl

@[simp] theorem taskRetries_dispatchTask_zero (id : Int) (l : List Event) :
    taskRetries (.dispatchTask 0 id :: l) = taskRetries l := rfl

@[simp] theorem infoLogs_dispatchTask (j : Nat) (id : Int) (l : List Event) :
    infoLogs (.dispatchTask j id :: l) = infoLogs l := rfl

@[simp] theorem taskRetries_renderTask (o : Option TaskError) :
    taskRetries (o.map fun t => Event.renderTask (taskErrorShown t)).toList = [] := by
  cases o <;> rfl

@[simp] theorem taskSubmissions_dispatchTask (j : Nat) (id : Int) (l : List Event) :
    taskSubmissions (.dispatchTask j id :: l) = j :: taskSubmissions l := rfl

@[simp] theorem taskSubmissions_renderTask (o : Option TaskError) :
    taskSubmissions (o.map fun t => Event.renderTask (taskErrorShown t)).toList = [] := by
  cases o <;> rfl

@[simp] theorem infoLogs_renderTask (o : Option TaskError) :
    infoLogs (o.map fun t => Event.renderTask (taskErrorShown t)).toList = [] := by
  cases o <;> rfl

/-- A task request logs at info level one line per retry and then, when there was a retry, the
retry log, naming the pinned channel and the retry channels in order; unlike `Relay`'s, it is
written also when the last retry succeeded.  `use_channel` ends as those channels. -/
theorem relayTask_infoLogs (env : TaskEnv) (c : Ctx) :
    (relayTask env c).ctx.useChannel =
        toString c.channelId :: (taskRetries (relayTask env c).events).map (fun t => toString t.2) ∧
      infoLogs (relayTask env c).events =
        (taskRetries (relayTask env c).events).map usingChannelLog ++
          if taskRetries (relayTask env c).events = [] then []
          else ["重试：" ++ "->".intercalate (relayTask env c).ctx.useChannel] := by
  unfold relayTask
  cases hg : env.genRelayInfoError with
  | some e => simp [taskRetries, infoLogs]
  | none =>
    dsimp only
    obtain ⟨h₁, h₂⟩ := @taskLoop_retries env c.group c.originalModel
      (if (env.taskRelay 0).isNone = true then 0 else env.retryTimes)
      (if (env.taskRelay 0).isNone = true then 0 else env.retryTimes).toNat 0
      { c with useChannel := [toString c.channelId] } c.channelId (env.taskRelay 0)
    generalize taskLoop _ _ _ _ _ _ _ _ _ = r at h₁ h₂ ⊢
    rw [h₁]
    simp [h₂, List.length_pos]

/-- The first submission to channel `7` fails with `500` and the retry, again on `7`, succeeds:
the retry log is written all the same. -/
example :
    infoLogs (relayTask { (default : TaskEnv) with
        retryTimes := 1,
        taskRelay := fun j => if j = 0 then some ⟨"", "", 500, false⟩ else none }
      { (default : Ctx) with channelId := 7 }).events =
      ["using channel #7 to retry (remain times 0)", "重试：7->7"] := by
  decide

/-- Once `GenRelayInfo` succeeded, a task request's submissions are numbered `0, 1, …, j` with
no gap: the first and then at most `RetryTimes` retries, and none when the first succeeds. -/
theorem relayTask_submissions {env : TaskEnv} (c : Ctx) (hg : env.genRelayInfoError = none) :
    ∃ j, taskSubmissions (relayTask env c).events = List.range (j + 1) ∧
      j ≤ env.retryTimes.toNat ∧ ((env.taskRelay 0).isNone → j = 0) := by
  unfold relayTask
  rw [hg]
  dsimp only
  obtain ⟨j, hj, h⟩ := @taskLoop_submissions env c.group c.originalModel
    (if (env.taskRelay 0).isNone = true then 0 else env.retryTimes)
    (if (env.taskRelay 0).isNone = true then 0 else env.retryTimes).toNat 0
    { c with useChannel := [toString c.channelId] } c.channelId (env.taskRelay 0)
  refine ⟨j, ?_, ?_, fun h0 => ?_⟩
  · simp only [List.cons_append, taskSubmissions_dispatchTask, taskSubmissions_append, h,
      taskSubmissions_retryLog, taskSubmissions_renderTask, List.append_nil]
    rw [List.range_eq_range']
    rfl
  · split_ifs at hj <;> omega
  · simp [h0] at hj
    exact hj

/-- Submissions that all fail with a retried 500, with two retries allowed. -/
theorem relayTask_submissions_failed_retries :
    let env : TaskEnv := { (default : TaskEnv) with
      retryTimes := 2, taskRelay := fun _ => some ⟨"fail", "boom", 500, false⟩ }
    env.genRelayInfoError = none ∧
      ∃ j, taskSubmissions (relayTask env default).events = List.range (j + 1) ∧
        j ≤ env.retryTimes.toNat ∧ ((env.taskRelay 0).isNone → j = 0) :=
  ⟨rfl, relayTask_submissions _ rfl⟩

end NewApi
