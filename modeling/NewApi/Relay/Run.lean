import NewApi.Relay.Pipeline

/-!
# A whole run of `Relay`

`relay` puts the stages of `Relay` together: the upgrade of a realtime connection, the stages
before the loop (`prepare`), the retry loop of `NewApi.Relay.Pipeline`, and the two deferred
functions, the refund registered once `PreConsumeQuota` succeeded and the error renderer
registered before everything else.

What is proved, for every behaviour of the collaborators:

* `relay_settled`: with a non-negative `RetryTimes`, a run that got past `PreConsumeQuota` ends
  either with a dispatch that succeeded and no refund and nothing rendered, or with an error that
  is rendered once and a refund made exactly once when the pre-consumed quota is non-zero; a run
  that stops earlier never refunds;
* `relay_negative_retryTimes_unsettled`: with a negative `RetryTimes` the loop makes no attempt
  and the run ends in neither way, with the quota kept;
* `relay_next_attempt_iff`: attempt `i + 1` is made exactly when attempt `i` was dispatched and
  failed with an error `retryDecision` retries, and the attempts are `0, 1, …, j - 1` with
  `j ≤ RetryTimes + 1`;
* `relay_retryLog`: the only info-level log is the retry log, written when the request ends with
  an error after more than one channel was used, naming them in order;
* `relay_first_attempt_channelError`: when the first dispatch fails, the `ChannelError` handed to
  `processChannelError` carries the context's channel id, type and name but never the context's
  multi-key flag;
* `relay_disableChannel`: every channel a run schedules for disabling is one it dispatched to at
  an attempt that failed, with auto-ban set and `ShouldDisableChannel` agreeing.
-/

namespace NewApi

/-! ## The stages before the loop -/

/-- The stages of `Relay` up to `PreConsumeQuota`.  A stage that fails gives the `newAPIError` it
sets before returning, with what it logged.  The sensitive-word error wraps `err`, which is `nil`
at that point. -/
def prepare (env : RelayEnv) : Except (NewAPIError × List Event) Unit := do
  if let some err := env.validateError then
    throw (newError (some err) .invalidRequest false, [])
  if let some err := env.genRelayInfoError then
    throw (newError (some err) .genRelayInfoFailed false, [])
  if env.checkPromptSensitive && env.checkSensitiveText.1 then
    throw (newError none .sensitiveWordsDetected false,
      [.logWarn ("user sensitive words detected: " ++ ", ".intercalate env.checkSensitiveText.2)])
  if let some err := env.countTokenError then
    throw (newError (some err) .countTokenFailed false, [])
  if let some err := env.modelPriceError then
    throw (newError (some err) .modelPriceError false, [])
  if let some e := env.preConsumeError then
    throw (e, [])

/-- A stage that fails before the loop logs at most a warning. -/
theorem prepare_error_events {env : RelayEnv} {e : NewAPIError} {events : List Event}
    (h : prepare env = .error (e, events)) : ∀ ev ∈ events, ∃ m, ev = .logWarn m := by
  unfold prepare at h
  simp only [bind, Except.bind, pure, Except.pure, throw, throwThe, MonadExceptOf.throw] at h
  repeat' split at h
  all_goals first | (cases h; simp) | cases h

/-! ## The deferred functions -/

/-- The deferred renderer: when `newAPIError` is set, suffix its message with the request id and
send it in the dialect's envelope. -/
def renderDeferred (env : RelayEnv) (relayFormat : RelayFormat) :
    Option NewAPIError → List Event
  | none => []
  | some e =>
    [.render (envelopeOf relayFormat) { e with message := messageWithRequestId e.message env.requestId }]

/-- The deferred refund, registered once `PreConsumeQuota` succeeded: when the function returns
with `newAPIError` set and a non-zero `FinalPreConsumedQuota`, `ReturnPreConsumedQuota`. -/
def refundDeferred (env : RelayEnv) : Option NewAPIError → List Event
  | some _ =>
    if env.finalPreConsumedQuota ≠ 0 then [.returnPreConsumedQuota env.finalPreConsumedQuota]
    else []
  | none => []

@[simp] theorem refunds_renderDeferred (env : RelayEnv) (relayFormat : RelayFormat)
    (o : Option NewAPIError) : refunds (renderDeferred env relayFormat o) = [] := by
  cases o <;> rfl

@[simp] theorem attempts_renderDeferred (env : RelayEnv) (relayFormat : RelayFormat)
    (o : Option NewAPIError) : attempts (renderDeferred env relayFormat o) = [] := by
  cases o <;> rfl

@[simp] theorem renders_renderDeferred (env : RelayEnv) (relayFormat : RelayFormat)
    (o : Option NewAPIError) : renders (renderDeferred env relayFormat o) =
      o.toList.map fun e =>
        (envelopeOf relayFormat, { e with message := messageWithRequestId e.message env.requestId }) := by
  cases o <;> rfl

@[simp] theorem dispatch_not_mem_renderDeferred (env : RelayEnv) (relayFormat : RelayFormat)
    (o : Option NewAPIError) (i : Nat) (id : Int) :
    Event.dispatch i id ∉ renderDeferred env relayFormat o := by
  cases o <;> simp [renderDeferred]

@[simp] theorem getChannel_not_mem_renderDeferred (env : RelayEnv) (relayFormat : RelayFormat)
    (o : Option NewAPIError) (i : Nat) : Event.getChannel i ∉ renderDeferred env relayFormat o := by
  cases o <;> simp [renderDeferred]

@[simp] theorem refunds_refundDeferred (env : RelayEnv) (o : Option NewAPIError) :
    refunds (refundDeferred env o) =
      if o.isSome ∧ env.finalPreConsumedQuota ≠ 0 then [env.finalPreConsumedQuota] else [] := by
  cases o
  · rfl
  · simp only [refundDeferred, Option.isSome_some, true_and]
    split_ifs <;> rfl

@[simp] theorem renders_refundDeferred (env : RelayEnv) (o : Option NewAPIError) :
    renders (refundDeferred env o) = [] := by
  unfold refundDeferred; split <;> (try split_ifs) <;> rfl

@[simp] theorem attempts_refundDeferred (env : RelayEnv) (o : Option NewAPIError) :
    attempts (refundDeferred env o) = [] := by
  unfold refundDeferred; split <;> (try split_ifs) <;> rfl

@[simp] theorem dispatch_not_mem_refundDeferred (env : RelayEnv) (o : Option NewAPIError)
    (i : Nat) (id : Int) : Event.dispatch i id ∉ refundDeferred env o := by
  unfold refundDeferred; split <;> (try split_ifs) <;> simp

@[simp] theorem getChannel_not_mem_refundDeferred (env : RelayEnv) (o : Option NewAPIError)
    (i : Nat) : Event.getChannel i ∉ refundDeferred env o := by
  unfold refundDeferred; split <;> (try split_ifs) <;> simp

@[simp] theorem dispatches_renderDeferred (env : RelayEnv) (relayFormat : RelayFormat)
    (o : Option NewAPIError) : dispatches (renderDeferred env relayFormat o) = [] := by
  cases o <;> rfl

@[simp] theorem infoLogs_renderDeferred (env : RelayEnv) (relayFormat : RelayFormat)
    (o : Option NewAPIError) : infoLogs (renderDeferred env relayFormat o) = [] := by
  cases o <;> rfl

@[simp] theorem dispatches_refundDeferred (env : RelayEnv) (o : Option NewAPIError) :
    dispatches (refundDeferred env o) = [] := by
  unfold refundDeferred; split <;> (try split_ifs) <;> rfl

@[simp] theorem infoLogs_refundDeferred (env : RelayEnv) (o : Option NewAPIError) :
    infoLogs (refundDeferred env o) = [] := by
  unfold refundDeferred; split <;> (try split_ifs) <;> rfl

/-- The retry log line: `重试：` and the channels tried, joined by `->`, which is what
`strings.Trim(strings.Join(strings.Fields(fmt.Sprint(useChannel)), "->"), "[]")` gives for a
list of decimal ids. -/
def retryLog (useChannel : List String) : List Event :=
  if 1 < useChannel.length then [.logInfo ("重试：" ++ "->".intercalate useChannel)] else []

@[simp] theorem refunds_retryLog (l : List String) : refunds (retryLog l) = [] := by
  unfold retryLog; split_ifs <;> rfl

@[simp] theorem renders_retryLog (l : List String) : renders (retryLog l) = [] := by
  unfold retryLog; split_ifs <;> rfl

@[simp] theorem attempts_retryLog (l : List String) : attempts (retryLog l) = [] := by
  unfold retryLog; split_ifs <;> rfl

@[simp] theorem dispatch_not_mem_retryLog (l : List String) (i : Nat) (id : Int) :
    Event.dispatch i id ∉ retryLog l := by
  unfold retryLog; split_ifs <;> simp

@[simp] theorem getChannel_not_mem_retryLog (l : List String) (i : Nat) :
    Event.getChannel i ∉ retryLog l := by
  unfold retryLog; split_ifs <;> simp

@[simp] theorem dispatches_retryLog (l : List String) : dispatches (retryLog l) = [] := by
  unfold retryLog; split_ifs <;> rfl

@[simp] theorem infoLogs_retryLog (l : List String) :
    infoLogs (retryLog l) = if 1 < l.length then ["重试：" ++ "->".intercalate l] else [] := by
  unfold retryLog; split_ifs <;> rfl

/-! ## `Relay` -/

/-- What a run of `Relay` leaves: `newAPIError` when the function returns, the context, and the
side effects in order, the deferred ones last. -/
structure RelayRun where
  newAPIError : Option NewAPIError
  ctx : Ctx
  events : List Event

/-- The part of `Relay` after `PreConsumeQuota` succeeded: the retry loop from attempt `0`, the
retry log (skipped when the loop is left by `return`), then the deferred refund and renderer. -/
def relayAfterPreConsume (env : RelayEnv) (relayFormat : RelayFormat) (c : Ctx) : RelayRun :=
  let x := relayLoop env c.usingGroup c.originalModel 0 (env.retryTimes + 1).toNat c none
  ⟨x.newAPIError, x.ctx,
    x.events ++ (if x.returned then [] else retryLog x.ctx.useChannel) ++
      refundDeferred env x.newAPIError ++ renderDeferred env relayFormat x.newAPIError⟩

/-- `Relay`.  A realtime connection that cannot be upgraded gets an error frame and the function
returns before any deferred function is registered. -/
def relay (env : RelayEnv) (relayFormat : RelayFormat) (c : Ctx) : RelayRun :=
  match relayFormat, env.upgradeError with
  | .openAIRealtime, some err =>
    ⟨none, c, [.render .wss (newError (some err) .getChannelFailed true)]⟩
  | _, _ =>
    match prepare env with
    | .error (e, events) => ⟨some e, c, events ++ renderDeferred env relayFormat (some e)⟩
    | .ok () => relayAfterPreConsume env relayFormat c

/-- The run got past `PreConsumeQuota`: the connection, if realtime, was upgraded, and every
stage up to `PreConsumeQuota` succeeded. -/
def PreConsumed (env : RelayEnv) (relayFormat : RelayFormat) : Prop :=
  (relayFormat = .openAIRealtime → env.upgradeError = none) ∧ prepare env = .ok ()

theorem relay_of_preConsumed {env : RelayEnv} {relayFormat : RelayFormat}
    (h : PreConsumed env relayFormat) (c : Ctx) :
    relay env relayFormat c = relayAfterPreConsume env relayFormat c := by
  unfold relay
  split
  · simp [h.1 rfl] at *
  · rw [h.2]

/-- A run that does not get past `PreConsumeQuota` only logs a warning and renders an error. -/
theorem relay_of_not_preConsumed {env : RelayEnv} {relayFormat : RelayFormat}
    (h : ¬ PreConsumed env relayFormat) (c : Ctx) :
    ∀ ev ∈ (relay env relayFormat c).events, (∃ m, ev = .logWarn m) ∨ ∃ v e, ev = .render v e := by
  unfold relay
  split
  · simp
  · rename_i hws
    rcases hp : prepare env with ⟨e, events⟩ | ⟨⟩
    · intro ev hev
      rcases List.mem_append.mp hev with hev | hev
      · exact .inl (prepare_error_events hp ev hev)
      · simp only [renderDeferred, List.mem_singleton] at hev
        exact .inr ⟨_, _, hev⟩
    · refine absurd ⟨fun hf => ?_, hp⟩ h
      cases hu : env.upgradeError
      · rfl
      · exact absurd hu (hws _ hf)

/-- After `PreConsumeQuota` the run's attempts and dispatches are the loop's: the retry log, the
refund and the renderer come after it and neither select nor dispatch. -/
theorem relayAfterPreConsume_mem (env : RelayEnv) (relayFormat : RelayFormat) (c : Ctx) :
    let x := relayLoop env c.usingGroup c.originalModel 0 (env.retryTimes + 1).toNat c none
    (∀ i, Event.getChannel i ∈ (relayAfterPreConsume env relayFormat c).events ↔
      Event.getChannel i ∈ x.events) ∧
    (∀ i id, Event.dispatch i id ∈ (relayAfterPreConsume env relayFormat c).events ↔
      Event.dispatch i id ∈ x.events) ∧
    attempts (relayAfterPreConsume env relayFormat c).events = attempts x.events := by
  intro x
  simp only [relayAfterPreConsume, List.mem_append, attempts_append]
  split_ifs <;> simp

/-! ## Quota: one refund on every failure after `PreConsumeQuota` -/

/-- The two ways a run of `Relay` ends once `PreConsumeQuota` succeeded: an attempt's dispatch
succeeded, and nothing is refunded or rendered; or `newAPIError` is set, it is rendered once with
the request id, and the pre-consumed quota is refunded once when it is non-zero. -/
def Settled (env : RelayEnv) (relayFormat : RelayFormat) (r : RelayRun) : Prop :=
  (r.newAPIError = none ∧ (∃ i ch, Event.dispatch i ch ∈ r.events ∧ env.dispatch i = none) ∧
      refunds r.events = [] ∧ renders r.events = []) ∨
  (∃ e, r.newAPIError = some e ∧
      renders r.events =
        [(envelopeOf relayFormat, { e with message := messageWithRequestId e.message env.requestId })] ∧
      refunds r.events = if env.finalPreConsumedQuota ≠ 0 then [env.finalPreConsumedQuota] else [])

theorem relayAfterPreConsume_settled (env : RelayEnv) (relayFormat : RelayFormat) (c : Ctx)
    (hR : 0 ≤ env.retryTimes) : Settled env relayFormat (relayAfterPreConsume env relayFormat c) := by
  obtain ⟨hrf, hrd⟩ :=
    @relayLoop_refunds_renders env c.usingGroup c.originalModel (env.retryTimes + 1).toNat 0 c none
  rcases @relayLoop_exit env c.usingGroup c.originalModel (env.retryTimes + 1).toNat 0 c none
      (.inl (by omega)) with ⟨hret, hnone, i, ch, hi, hd⟩ | ⟨hret, hsome⟩
  · refine .inl ⟨hnone, ⟨i, ch, ?_, hd⟩, ?_, ?_⟩ <;>
      simp [relayAfterPreConsume, hret, hnone, hrf, hrd, hi]
  · obtain ⟨e, he⟩ := Option.isSome_iff_exists.mp hsome
    refine .inr ⟨e, he, ?_, ?_⟩ <;> simp [relayAfterPreConsume, hret, he, hrf, hrd]

/-- Refund exactly once on failure: with a non-negative `RetryTimes`, a run that got past
`PreConsumeQuota` is `Settled`, and a run that stops before it never calls
`ReturnPreConsumedQuota`. -/
theorem relay_settled (env : RelayEnv) (relayFormat : RelayFormat) (c : Ctx) :
    (PreConsumed env relayFormat → 0 ≤ env.retryTimes →
      Settled env relayFormat (relay env relayFormat c)) ∧
    (¬ PreConsumed env relayFormat → refunds (relay env relayFormat c).events = []) := by
  refine ⟨fun hp hR => ?_, fun hp => ?_⟩
  · rw [relay_of_preConsumed hp]
    exact relayAfterPreConsume_settled env relayFormat c hR
  · rw [refunds, List.filterMap_eq_nil_iff]
    intro ev hev
    rcases relay_of_not_preConsumed hp c ev hev with ⟨m, rfl⟩ | ⟨v, e, rfl⟩ <;> rfl

/-- Three attempts whose dispatches all fail with a retried 500: the run ends with the error,
renders it once and refunds the quota once. -/
theorem relay_settled_failed_retries :
    let env : RelayEnv := { (default : RelayEnv) with
      retryTimes := 2, finalPreConsumedQuota := 3,
      dispatch := fun _ => some ⟨"boom", .channelResponseError, 500, false, false, true⟩ }
    PreConsumed env .openAI ∧ 0 ≤ env.retryTimes ∧ Settled env .openAI (relay env .openAI default) :=
  ⟨⟨by simp, rfl⟩, by decide, (relay_settled _ .openAI default).1 ⟨by simp, rfl⟩ (by decide)⟩

/-- With a negative `RetryTimes` the loop body never runs: a run past `PreConsumeQuota` leaves
`newAPIError` unset, makes no attempt, renders nothing and keeps the pre-consumed quota. -/
theorem relay_negative_retryTimes {env : RelayEnv} {relayFormat : RelayFormat}
    (hp : PreConsumed env relayFormat) (hR : env.retryTimes < 0) (c : Ctx) :
    relay env relayFormat c = ⟨none, c, retryLog c.useChannel⟩ := by
  rw [relay_of_preConsumed hp]
  have h : (env.retryTimes + 1).toNat = 0 := by omega
  simp [relayAfterPreConsume, h, refundDeferred, renderDeferred]

theorem relay_negative_retryTimes_unsettled :
    let env : RelayEnv := { (default : RelayEnv) with retryTimes := -1, finalPreConsumedQuota := 1 }
    PreConsumed env .openAI ∧ ¬ Settled env .openAI (relay env .openAI default) := by
  intro env
  have hp : PreConsumed env .openAI := ⟨by simp, rfl⟩
  refine ⟨hp, ?_⟩
  rw [relay_negative_retryTimes hp (by decide)]
  simp [Settled, retryLog]

/-! ## Retries -/

/-- Modelled from the spec: the retry decision of spec §4.5, for an error with budget left: no retry for
a skip-retry error or a pinned channel; otherwise retry on a channel error, on 429, 307 and 5xx
other than 504 and 524, no retry on 400, 408 and 2xx, and retry on anything else. -/
def specRetryDecision (pinned : Bool) (e : NewAPIError) : Bool :=
  if e.skipRetry || pinned then false
  else if e.channelError then true
  else if e.statusCode = 429 ∨ e.statusCode = 307 then true
  else if e.statusCode.tdiv 100 = 5 then !(e.statusCode = 504 ∨ e.statusCode = 524)
  else !(e.statusCode = 400 ∨ e.statusCode = 408 ∨ e.statusCode.tdiv 100 = 2)

/-- `shouldRetry`'s decision and the spec's differ exactly on a channel error that is also
skip-retry or comes with a pinned channel: `shouldRetry` checks the channel error first. -/
theorem retryDecision_ne_spec_iff (pinned : Bool) (e : NewAPIError) :
    retryDecision pinned e ≠ specRetryDecision pinned e ↔
      e.channelError = true ∧ (e.skipRetry = true ∨ pinned = true) := by
  unfold retryDecision specRetryDecision
  rw [retryOnStatus_false]
  cases e.channelError <;> cases e.skipRetry <;> cases pinned <;> simp

/-- Every attempt after the first is made exactly when the attempt before it was dispatched and
failed with an error `retryDecision` retries; and a run makes the attempts `0, 1, …, j - 1` for
some `j ≤ RetryTimes + 1`. -/
theorem relay_next_attempt_iff (env : RelayEnv) (relayFormat : RelayFormat) (c : Ctx)
    (hR : 0 ≤ env.retryTimes) :
    (∀ i : Nat, (i : Int) < env.retryTimes →
      (Event.getChannel (i + 1) ∈ (relay env relayFormat c).events ↔
        ∃ ch e, Event.dispatch i ch ∈ (relay env relayFormat c).events ∧
          env.dispatch i = some e ∧ retryDecision c.specificChannelId e = true)) ∧
    ∃ j : Nat, (j : Int) ≤ env.retryTimes + 1 ∧
      attempts (relay env relayFormat c).events = List.range j := by
  by_cases hp : PreConsumed env relayFormat
  · rw [relay_of_preConsumed hp]
    obtain ⟨hg, hd, ha⟩ := relayAfterPreConsume_mem env relayFormat c
    refine ⟨fun i hi => ?_, ?_⟩
    · simp only [hg, hd]
      exact relayLoop_next_iff hi _ 0 c none (Nat.zero_le _) (by omega)
    · obtain ⟨j, hj, h⟩ :=
        @relayLoop_attempts env c.usingGroup c.originalModel (env.retryTimes + 1).toNat 0 c none
      exact ⟨j, by omega, by rw [ha, h, List.range_eq_range']⟩
  · have h := relay_of_not_preConsumed hp c
    refine ⟨fun i _ => iff_of_false (fun hm => ?_) ?_, 0, by omega, ?_⟩
    · rcases h _ hm with ⟨m, hm⟩ | ⟨v, e, hm⟩ <;> cases hm
    · rintro ⟨ch, e, hm, -⟩
      rcases h _ hm with ⟨m, hm⟩ | ⟨v, e, hm⟩ <;> cases hm
    · rw [List.range_zero, attempts, List.filterMap_eq_nil_iff]
      intro ev hev
      rcases h ev hev with ⟨m, rfl⟩ | ⟨v, e, rfl⟩ <;> rfl

/-- Dispatches that all fail with a retried 500, with two retries allowed. -/
theorem relay_attempts_failed_retries :
    let env : RelayEnv := { (default : RelayEnv) with
      retryTimes := 2, dispatch := fun _ => some ⟨"boom", .channelResponseError, 500, false, false, true⟩ }
    0 ≤ env.retryTimes ∧
      (∀ i : Nat, (i : Int) < env.retryTimes →
        (Event.getChannel (i + 1) ∈ (relay env .openAI default).events ↔
          ∃ ch e, Event.dispatch i ch ∈ (relay env .openAI default).events ∧
            env.dispatch i = some e ∧ retryDecision (default : Ctx).specificChannelId e = true)) ∧
      ∃ j : Nat, (j : Int) ≤ env.retryTimes + 1 ∧
        attempts (relay env .openAI default).events = List.range j :=
  ⟨by decide, relay_next_attempt_iff _ .openAI default (by decide)⟩

/-- A channel error that is also skip-retry gets another attempt, where the spec's order stops. -/
theorem relay_retries_skipRetry_channelError :
    let e : NewAPIError := ⟨"", .channelResponseError, 500, true, true, true⟩
    let env : RelayEnv := { (default : RelayEnv) with retryTimes := 1, dispatch := fun _ => some e }
    Event.dispatch 0 0 ∈ (relay env .openAI default).events ∧ env.dispatch 0 = some e ∧
      Event.getChannel 1 ∈ (relay env .openAI default).events ∧
      specRetryDecision false e = false := by
  decide

/-! ## The retry log -/

/-- The only info-level log of a run past `PreConsumeQuota` is the retry log.  It is written
when the request ends with an error after more than one channel was used, and it names the
channels in `use_channel` and then those dispatched to, in order.  A request that succeeds after
retries writes none, since the loop is left by `return`. -/
theorem relay_retryLog {env : RelayEnv} {relayFormat : RelayFormat} (c : Ctx)
    (h : PreConsumed env relayFormat) (hR : 0 ≤ env.retryTimes) :
    infoLogs (relay env relayFormat c).events =
      let used := c.useChannel ++ (dispatches (relay env relayFormat c).events).map toString
      if (relay env relayFormat c).newAPIError.isSome ∧ 1 < used.length then
        ["重试：" ++ "->".intercalate used]
      else [] := by
  rw [relay_of_preConsumed h]
  obtain ⟨hu, hi⟩ :=
    @relayLoop_useChannel env c.usingGroup c.originalModel (env.retryTimes + 1).toNat 0 c none
  rcases @relayLoop_exit env c.usingGroup c.originalModel (env.retryTimes + 1).toNat 0 c none
      (.inl (by omega)) with ⟨hret, hnone, -⟩ | ⟨hret, hsome⟩
  · simp [relayAfterPreConsume, hret, hnone, hi]
  · simp [relayAfterPreConsume, hret, hsome, hi, hu]

/-- The pinned channel `0` fails, the retry goes to channel `7`, which fails too: the log names
both. -/
theorem relay_retryLog_two_channels :
    infoLogs (relay { (default : RelayEnv) with
        retryTimes := 1,
        selector := { (default : SelectorEnv) with
          cacheGetRandomSatisfiedChannel := fun _ _ _ => ⟨some ⟨7, 0, "", none, ⟨false⟩⟩, "", none⟩ },
        dispatch := fun _ => some ⟨"", .channelResponseError, 500, true, true, true⟩ }
      .openAI default).events = ["重试：0->7"] :=
  Eq.trans (relay_retryLog default ⟨by simp, rfl⟩ (by decide)) (by decide)

/-! ## The channel error of the first attempt -/

theorem getAutoBan_pinnedChannel (c : Ctx) : (pinnedChannel c).getAutoBan = c.autoBan := by
  cases h : c.autoBan <;> simp [pinnedChannel, Channel.getAutoBan, h]

/-- When the first dispatch of a run past `PreConsumeQuota` fails, `processChannelError` is handed
the channel pinned in the context: its id, type, name, key and auto-ban flag, and a multi-key flag
that is unset whatever the context says. -/
theorem relay_first_attempt_channelError {env : RelayEnv} {relayFormat : RelayFormat}
    (hp : PreConsumed env relayFormat) (hR : 0 ≤ env.retryTimes) (c : Ctx) {e : NewAPIError}
    (hd : env.dispatch 0 = some e) :
    Event.processChannelError
      (newChannelError c.channelId c.channelType c.channelName false c.channelKey c.autoBan) e ∈
      (relay env relayFormat c).events := by
  rw [relay_of_preConsumed hp]
  obtain ⟨n, hn⟩ : ∃ n, (env.retryTimes + 1).toNat = n + 1 := ⟨(env.retryTimes).toNat, by omega⟩
  have hmem : ∀ x : LoopExit,
      relayLoop env c.usingGroup c.originalModel 0 (env.retryTimes + 1).toNat c none = x →
      Event.processChannelError
        (newChannelError c.channelId c.channelType c.channelName false c.channelKey c.autoBan) e ∈
        x.events → Event.processChannelError
        (newChannelError c.channelId c.channelType c.channelName false c.channelKey c.autoBan) e ∈
        (relayAfterPreConsume env relayFormat c).events := by
    rintro x hx hmem
    simp only [relayAfterPreConsume, hx, List.mem_append]
    exact .inl (.inl (.inl hmem))
  refine hmem _ rfl ?_
  rw [hn]
  have hpce := processChannelError_mem_failedAttempt env 0 (pinnedChannel c)
    (addUsedChannel c (pinnedChannel c).id) e
  rw [getAutoBan_pinnedChannel] at hpce
  rcases relayAttempt_cases env c.usingGroup c.originalModel 0 c with
    ⟨e', hg, -⟩ | ⟨ch, c₁, -, hd', -⟩ | ⟨ch, c₁, e', hg, hd', ha⟩
  · simp at hg
  · simp [hd] at hd'
  · simp only [getChannel_zero, Except.ok.injEq, Prod.mk.injEq] at hg
    obtain ⟨rfl, rfl⟩ := hg
    rw [hd, Option.some.injEq] at hd'
    subst hd'
    split_ifs at ha
    · rw [relayLoop_succ_next ha]
      exact List.mem_append_left _ hpce
    · rw [relayLoop_succ_exit ha]
      exact hpce

/-- The failing input: a multi-key channel pinned by the middleware whose first dispatch fails.
The `ChannelError` handed to `processChannelError` says the channel is not multi-key, while the
error-log row `processChannelError` records, read from the context, says it is. -/
theorem relay_multiKey_first_attempt :
    let c : Ctx := { (default : Ctx) with isMultiKey := true }
    let e : NewAPIError := ⟨"", .channelResponseError, 401, false, false, true⟩
    let env : RelayEnv :=
      { (default : RelayEnv) with errorLogEnabled := true, dispatch := fun _ => some e }
    c.isMultiKey = true ∧
      (∃ ce, Event.processChannelError ce e ∈ (relay env .openAI c).events ∧
        ce.isMultiKey = false) ∧
      ∃ row, Event.recordErrorLog row ∈ (relay env .openAI c).events ∧ row.multiKeyIndex = some 0 := by
  intro c e env
  have hp : PreConsumed env .openAI := ⟨by simp, rfl⟩
  exact ⟨rfl, ⟨_, relay_first_attempt_channelError hp le_rfl c (e := e) rfl, rfl⟩,
    errorLogRow (addUsedChannel c 0) e, by decide, rfl⟩

/-! ## Disabling channels -/

/-- `Relay` never disables a channel on its own account: every disabling a run schedules names a
channel the run dispatched to at an attempt that failed, whose channel has auto-ban set, with
`ShouldDisableChannel` agreeing on that attempt's error.  The reason is the error's message as
the goroutine reads it: as it was, or, for the error `Relay` returns with, after the deferred
renderer has appended the request id. -/
theorem relay_disableChannel {env : RelayEnv} {relayFormat : RelayFormat} {c : Ctx}
    {ce : ChannelError} {reason : String}
    (h : Event.disableChannel ce reason ∈ (relay env relayFormat c).events) :
    ∃ j err, env.dispatch j = some err ∧
      Event.dispatch j ce.channelId ∈ (relay env relayFormat c).events ∧
      ce.autoBan = true ∧ env.shouldDisableChannel ce.channelId err = true ∧
      (reason = err.message ∨ (reason = messageWithRequestId err.message env.requestId ∧
        (relay env relayFormat c).newAPIError = some err)) := by
  by_cases hp : PreConsumed env relayFormat
  · rw [relay_of_preConsumed hp] at h ⊢
    simp only [relayAfterPreConsume, List.mem_append] at h ⊢
    rcases h with ((h | h) | h) | h
    · have hn : 0 ≤ env.retryTimes + 1 := by
        by_contra hn
        rw [Int.toNat_of_nonpos (by omega)] at h
        simp at h
      obtain ⟨j, err, h₁, h₂, h₃, h₄, h₅⟩ := relayLoop_disableChannel _ _ _ _ h
      exact ⟨j, err, h₁, .inl (.inl (.inl h₂)), h₃, h₄,
        h₅.imp_right fun h => ⟨h.1, h.2 (by simp [hn])⟩⟩
    · split_ifs at h <;> simp [retryLog] at h
    · unfold refundDeferred at h
      split at h <;> (try split_ifs at h) <;> simp at h
    · unfold renderDeferred at h
      split at h <;> simp at h
  · rcases relay_of_not_preConsumed hp c _ h with ⟨m, hm⟩ | ⟨v, e, he⟩
    · cases hm
    · cases he

/-- The pinned channel `0`, with auto-ban set, fails and policy agrees: it is disabled, and it is
the channel of the failed dispatch. -/
theorem relay_disableChannel_pinned :
    let env : RelayEnv := { (default : RelayEnv) with
      dispatch := fun _ => some ⟨"boom", .channelResponseError, 500, true, true, true⟩,
      shouldDisableChannel := fun _ _ => true }
    let c : Ctx := { (default : Ctx) with autoBan := true }
    Event.disableChannel (newChannelError 0 0 "" false "" true) "boom" ∈
        (relay env .openAI c).events ∧
      ∃ j err, env.dispatch j = some err ∧
        Event.dispatch j (newChannelError 0 0 "" false "" true).channelId ∈
          (relay env .openAI c).events ∧
        (newChannelError 0 0 "" false "" true).autoBan = true ∧
        env.shouldDisableChannel (newChannelError 0 0 "" false "" true).channelId err = true ∧
        ("boom" = err.message ∨ ("boom" = messageWithRequestId err.message env.requestId ∧
          (relay env .openAI c).newAPIError = some err)) := by
  intro env c
  have h : Event.disableChannel (newChannelError 0 0 "" false "" true) "boom" ∈
      (relay env .openAI c).events := by decide
  exact ⟨h, relay_disableChannel h⟩

/-- When the goroutine runs after the renderer, the pinned channel is disabled for the message
with the request id. -/
example : Event.disableChannel (newChannelError 0 0 "" false "" true) "boom (request id: r)" ∈
    (relay { (default : RelayEnv) with
      requestId := "r", dispatch := fun _ => some ⟨"boom", .channelResponseError, 500, true, true, true⟩,
      shouldDisableChannel := fun _ _ => true, disableReadsLate := true } .openAI
      { (default : Ctx) with autoBan := true }).events := by
  decide

end NewApi
