import NewApi.Relay.Basic

/-!
# `Relay`: pre-consume, the retry loop, the refund

`Relay` in `controller/relay.go` runs a request through the stages of spec §4.5:

1. it validates the request, builds the relay info, checks for sensitive words, counts tokens,
   prices the request and pre-consumes quota, returning at the first stage that fails;
2. once `PreConsumeQuota` succeeded it defers the refund: on the way out, when `newAPIError`
   is set and `FinalPreConsumedQuota` is non-zero, `ReturnPreConsumedQuota` is called;
3. it loops `for i := 0; i <= common.RetryTimes; i++`: select a channel (`getChannel`), run the
   relay handler, and on an error hand it to `processChannelError` and ask `shouldRetry`;
4. a deferred function, registered first and so run last, renders `newAPIError` to the client.

The side effects are kept as a list of `Event`s in the order they happen, deferred ones last;
what the collaborators outside `src/` return is a `RelayEnv`.  The body of the loop is
`relayAttempt` (one step) and the loop `relayLoop` (the run): the facts about a run are proved
from one lemma per way an attempt can end.

The main results:

* `relayLoop_exit`: a loop that runs at least once is left either by `return` after a dispatch
  that succeeded, with `newAPIError` unset, or with `newAPIError` set;
* `relayLoop_attempts`: the loop's attempts are numbered `i, i+1, …` with no gaps, at most as
  many as its iterations;
* `relayLoop_next_iff`: attempt `i + 1` is made exactly when attempt `i` was dispatched and
  failed with an error `retryDecision` retries;
* `relayLoop_disableChannel`: every disabling the loop schedules names a channel of a failed
  attempt, for the reason of its error's message, which carries the request id only when the
  loop ends with that error.
-/

namespace NewApi

/-! ## Side effects -/

/-- `types.RelayFormat`, the dialect the client speaks. -/
inductive RelayFormat where
  | openAI
  | claude
  | gemini
  | openAIRealtime
  | task
  | mjProxy
  deriving DecidableEq, Repr

/-- How an error reaches the client: a realtime error frame (`helper.WssError`), the Claude
envelope `{"type": "error", "error": …}`, or the OpenAI envelope `{"error": …}`. -/
inductive Envelope where
  | wss
  | claude
  | openAI
  deriving DecidableEq, Repr

/-- The envelope the deferred renderer of `Relay` picks for a dialect. -/
def envelopeOf : RelayFormat → Envelope
  | .openAIRealtime => .wss
  | .claude => .claude
  | _ => .openAI

/-- The row `processChannelError` passes to `model.RecordErrorLog`: everything but the error
itself is read from the request context. -/
structure ErrorLogRow where
  userId : Int
  channelId : Int
  modelName : String
  tokenName : String
  tokenId : Int
  userGroup : String
  errorCode : ErrorCode
  statusCode : Int
  channelName : String
  channelType : Int
  useChannel : List String
  /-- `admin_info.multi_key_index`, present (with `is_multi_key`) only when the context says
  the channel is multi-key. -/
  multiKeyIndex : Option Int
  deriving DecidableEq, Repr

/-- A side effect of the relay controller. -/
inductive Event where
  /-- `getChannel` is called with this retry index. -/
  | getChannel (retryCount : Nat)
  /-- The relay handler runs attempt `attempt` on the channel with this id. -/
  | dispatch (attempt : Nat) (channelId : Int)
  /-- `taskRelayHandler` runs submission `submission` on the channel with this id. -/
  | dispatchTask (submission : Nat) (channelId : Int)
  | logError (msg : String)
  | logWarn (msg : String)
  | logInfo (msg : String)
  /-- `processChannelError` is called with this channel error and error. -/
  | processChannelError (channelError : ChannelError) (err : NewAPIError)
  /-- `service.DisableChannel`, scheduled on the worker pool. -/
  | disableChannel (channelError : ChannelError) (reason : String)
  | recordErrorLog (row : ErrorLogRow)
  | returnPreConsumedQuota (quota : Int)
  /-- The client is sent this error in this envelope. -/
  | render (envelope : Envelope) (err : NewAPIError)
  /-- `RelayTask` sends the client this task error. -/
  | renderTask (err : TaskError)
  deriving DecidableEq, Repr

/-- The quotas handed to `ReturnPreConsumedQuota`, in order. -/
def refunds (events : List Event) : List Int :=
  events.filterMap fun | .returnPreConsumedQuota q => some q | _ => none

/-- The errors rendered to the client, in order. -/
def renders (events : List Event) : List (Envelope × NewAPIError) :=
  events.filterMap fun | .render v e => some (v, e) | _ => none

/-- The retry indices `getChannel` is called with, in order: one per attempt. -/
def attempts (events : List Event) : List Nat :=
  events.filterMap fun | .getChannel i => some i | _ => none

/-- The ids of the channels dispatched to, in order. -/
def dispatches (events : List Event) : List Int :=
  events.filterMap fun | .dispatch _ id => some id | _ => none

/-- The info-level log lines, in order. -/
def infoLogs (events : List Event) : List String :=
  events.filterMap fun | .logInfo m => some m | _ => none

@[simp] theorem refunds_nil : refunds [] = [] := rfl
@[simp] theorem renders_nil : renders [] = [] := rfl
@[simp] theorem attempts_nil : attempts [] = [] := rfl

@[simp] theorem refunds_append (l l' : List Event) : refunds (l ++ l') = refunds l ++ refunds l' :=
  List.filterMap_append _ _ _
@[simp] theorem renders_append (l l' : List Event) : renders (l ++ l') = renders l ++ renders l' :=
  List.filterMap_append _ _ _
@[simp] theorem attempts_append (l l' : List Event) :
    attempts (l ++ l') = attempts l ++ attempts l' :=
  List.filterMap_append _ _ _
@[simp] theorem dispatches_append (l l' : List Event) :
    dispatches (l ++ l') = dispatches l ++ dispatches l' :=
  List.filterMap_append _ _ _
@[simp] theorem infoLogs_append (l l' : List Event) :
    infoLogs (l ++ l') = infoLogs l ++ infoLogs l' :=
  List.filterMap_append _ _ _

/-! ## The collaborators -/

/-- What the collaborators of `Relay` outside `src/` return on one request.  Each field is an
arbitrary value, so a theorem over every `RelayEnv` holds whatever they do; `dispatch i` is what
the relay handler the dialect selects returns at attempt `i`. -/
structure RelayEnv where
  selector : SelectorEnv
  /-- `common.RetryTimes`. -/
  retryTimes : Int
  /-- `c.GetString(common.RequestIdKey)`. -/
  requestId : String
  /-- The error of `upgrader.Upgrade`, for a realtime request. -/
  upgradeError : Option String
  /-- The error of `helper.GetAndValidateRequest`. -/
  validateError : Option String
  /-- The error of `relaycommon.GenRelayInfo`. -/
  genRelayInfoError : Option String
  /-- `setting.ShouldCheckPromptSensitive()`. -/
  checkPromptSensitive : Bool
  /-- `service.CheckSensitiveText(meta.CombineText)`: whether it found words, and which. -/
  checkSensitiveText : Bool × List String
  /-- The error of `service.CountRequestToken`. -/
  countTokenError : Option String
  /-- The error of `helper.ModelPriceHelper`. -/
  modelPriceError : Option String
  /-- The error of `service.PreConsumeQuota`. -/
  preConsumeError : Option NewAPIError
  /-- `relayInfo.FinalPreConsumedQuota` once `PreConsumeQuota` has run. -/
  finalPreConsumedQuota : Int
  /-- The relay handler at attempt `i`. -/
  dispatch : Nat → Option NewAPIError
  /-- `service.ShouldDisableChannel(channelId, err)`. -/
  shouldDisableChannel : Int → NewAPIError → Bool
  /-- Whether the worker pool runs the `DisableChannel` scheduled by the loop's last attempt only
  after the deferred renderer of `Relay` has set the message of the error it returns with. -/
  disableReadsLate : Bool
  /-- `constant.ErrorLogEnabled`. -/
  errorLogEnabled : Bool
  deriving Inhabited

/-- Modelled from the spec: `common.MessageWithRequestId` is not in `src/`.  §6: every error
message sent to the client is suffixed with `(request id: <id>)`. -/
def messageWithRequestId (message requestId : String) : String :=
  s!"{message} (request id: {requestId})"

/-- Attempt `i`, failed with `err`, is the loop's last: `shouldRetry` declines, or `i` has
reached `RetryTimes`. -/
def lastAttempt (env : RelayEnv) (i : Nat) (c : Ctx) (err : NewAPIError) : Bool :=
  !shouldRetry c (some err) (env.retryTimes - i) || decide (env.retryTimes ≤ i)

/-- What `err.Error()` gives in the goroutine `processChannelError` schedules at attempt `i`: the
error the loop ends with is the one whose message the deferred renderer sets, with the request
id appended, and the goroutine may read it after that. -/
def disableReason (env : RelayEnv) (i : Nat) (c : Ctx) (err : NewAPIError) : String :=
  if env.disableReadsLate && lastAttempt env i c err then
    messageWithRequestId err.message env.requestId
  else err.message

/-- The reason is the error's message, or, on the last attempt only, that message with the
request id. -/
theorem disableReason_cases (env : RelayEnv) (i : Nat) (c : Ctx) (err : NewAPIError) :
    disableReason env i c err = err.message ∨
      (disableReason env i c err = messageWithRequestId err.message env.requestId ∧
        lastAttempt env i c err = true) := by
  unfold disableReason
  split_ifs with hl
  · exact .inr ⟨rfl, (Bool.and_eq_true _ _ ▸ hl).2⟩
  · exact .inl rfl

/-! ## Channel errors -/

/-- The error-log row of `processChannelError`, read from the context. -/
def errorLogRow (c : Ctx) (err : NewAPIError) : ErrorLogRow :=
  ⟨c.userId, c.channelId, c.originalModel, c.tokenName, c.tokenId, c.group, err.errorCode,
    err.statusCode, c.channelName, c.channelType, c.useChannel,
    if c.isMultiKey then some c.multiKeyIndex else none⟩

/-- `processChannelError`: log the failure, schedule disabling the channel when policy says so
and the channel has auto-ban set, and record an error-log row when that is enabled.  `reason` is
what `err.Error()` gives when the scheduled goroutine runs. -/
def processChannelError (env : RelayEnv) (c : Ctx) (channelError : ChannelError)
    (err : NewAPIError) (reason : String) : List Event :=
  [.processChannelError channelError err,
   .logError s!"relay error (channel #{channelError.channelId}, status code: {err.statusCode}): {err.message}"] ++
  (if env.shouldDisableChannel channelError.channelId err && channelError.autoBan then
    [.disableChannel channelError reason] else []) ++
  (if env.errorLogEnabled && err.recordErrorLog then [.recordErrorLog (errorLogRow c err)] else [])

@[simp] theorem refunds_processChannelError (env : RelayEnv) (c : Ctx) (ce : ChannelError)
    (err : NewAPIError) (r : String) : refunds (processChannelError env c ce err r) = [] := by
  unfold processChannelError; split_ifs <;> rfl

@[simp] theorem renders_processChannelError (env : RelayEnv) (c : Ctx) (ce : ChannelError)
    (err : NewAPIError) (r : String) : renders (processChannelError env c ce err r) = [] := by
  unfold processChannelError; split_ifs <;> rfl

@[simp] theorem attempts_processChannelError (env : RelayEnv) (c : Ctx) (ce : ChannelError)
    (err : NewAPIError) (r : String) : attempts (processChannelError env c ce err r) = [] := by
  unfold processChannelError; split_ifs <;> rfl

@[simp] theorem dispatches_processChannelError (env : RelayEnv) (c : Ctx) (ce : ChannelError)
    (err : NewAPIError) (r : String) : dispatches (processChannelError env c ce err r) = [] := by
  unfold processChannelError; split_ifs <;> rfl

@[simp] theorem infoLogs_processChannelError (env : RelayEnv) (c : Ctx) (ce : ChannelError)
    (err : NewAPIError) (r : String) : infoLogs (processChannelError env c ce err r) = [] := by
  unfold processChannelError; split_ifs <;> rfl

@[simp] theorem dispatch_not_mem_processChannelError (env : RelayEnv) (c : Ctx)
    (ce : ChannelError) (err : NewAPIError) (r : String) (i : Nat) (id : Int) :
    Event.dispatch i id ∉ processChannelError env c ce err r := by
  unfold processChannelError; split_ifs <;> simp

@[simp] theorem getChannel_not_mem_processChannelError (env : RelayEnv) (c : Ctx)
    (ce : ChannelError) (err : NewAPIError) (r : String) (i : Nat) :
    Event.getChannel i ∉ processChannelError env c ce err r := by
  unfold processChannelError; split_ifs <;> simp

/-! ## One attempt -/

/-- How the retry loop is left: `newAPIError` at that point, the context, the loop's side
effects, and whether it was left by `return` (a dispatch succeeded) rather than by `break` or by
running out of iterations. -/
structure LoopExit where
  newAPIError : Option NewAPIError
  ctx : Ctx
  events : List Event
  returned : Bool

/-- Where one iteration of the retry loop goes: out of the loop, or on to the next iteration
with the context, the error the attempt failed with, and its side effects. -/
inductive Step where
  | exit (x : LoopExit)
  | next (c : Ctx) (err : NewAPIError) (events : List Event)

/-- The side effects of attempt `i` when the relay handler fails with `err` on `channel`: the
channel is selected and dispatched to, and `processChannelError` is handed a `ChannelError`
built from the channel, with the key read from the context `c`. -/
def failedAttempt (env : RelayEnv) (i : Nat) (channel : Channel) (c : Ctx) (err : NewAPIError) :
    List Event :=
  [.getChannel i, .dispatch i channel.id] ++
    processChannelError env c (newChannelError channel.id channel.type channel.name
      channel.channelInfo.isMultiKey c.channelKey channel.getAutoBan) err
      (disableReason env i c err)

@[simp] theorem attempts_failedAttempt (env : RelayEnv) (i : Nat) (ch : Channel) (c : Ctx)
    (err : NewAPIError) : attempts (failedAttempt env i ch c err) = [i] := by
  rw [failedAttempt, attempts_append, attempts_processChannelError]; rfl

@[simp] theorem refunds_failedAttempt (env : RelayEnv) (i : Nat) (ch : Channel) (c : Ctx)
    (err : NewAPIError) : refunds (failedAttempt env i ch c err) = [] := by
  rw [failedAttempt, refunds_append, refunds_processChannelError]; rfl

@[simp] theorem renders_failedAttempt (env : RelayEnv) (i : Nat) (ch : Channel) (c : Ctx)
    (err : NewAPIError) : renders (failedAttempt env i ch c err) = [] := by
  rw [failedAttempt, renders_append, renders_processChannelError]; rfl

@[simp] theorem dispatches_failedAttempt (env : RelayEnv) (i : Nat) (ch : Channel) (c : Ctx)
    (err : NewAPIError) : dispatches (failedAttempt env i ch c err) = [ch.id] := by
  rw [failedAttempt, dispatches_append, dispatches_processChannelError]; rfl

@[simp] theorem infoLogs_failedAttempt (env : RelayEnv) (i : Nat) (ch : Channel) (c : Ctx)
    (err : NewAPIError) : infoLogs (failedAttempt env i ch c err) = [] := by
  rw [failedAttempt, infoLogs_append, infoLogs_processChannelError]; rfl

@[simp] theorem getChannel_mem_failedAttempt (env : RelayEnv) (i j : Nat) (ch : Channel)
    (c : Ctx) (err : NewAPIError) : Event.getChannel j ∈ failedAttempt env i ch c err ↔ j = i := by
  simp [failedAttempt]

@[simp] theorem dispatch_mem_failedAttempt (env : RelayEnv) (i j : Nat) (id : Int) (ch : Channel)
    (c : Ctx) (err : NewAPIError) :
    Event.dispatch j id ∈ failedAttempt env i ch c err ↔ j = i ∧ id = ch.id := by
  simp [failedAttempt]

theorem processChannelError_mem_failedAttempt (env : RelayEnv) (i : Nat) (ch : Channel)
    (c : Ctx) (err : NewAPIError) :
    Event.processChannelError (newChannelError ch.id ch.type ch.name ch.channelInfo.isMultiKey
      c.channelKey ch.getAutoBan) err ∈ failedAttempt env i ch c err := by
  simp [failedAttempt, processChannelError]

/-- A failed attempt schedules disabling only the channel it dispatched to, with auto-ban set and
`ShouldDisableChannel` agreeing, giving what its goroutine reads of the error's message as the
reason. -/
theorem disableChannel_mem_failedAttempt {env : RelayEnv} {i : Nat} {ch : Channel} {c : Ctx}
    {err : NewAPIError} {ce : ChannelError} {reason : String}
    (h : Event.disableChannel ce reason ∈ failedAttempt env i ch c err) :
    ce.channelId = ch.id ∧ ce.autoBan = true ∧ env.shouldDisableChannel ch.id err = true ∧
      reason = disableReason env i c err := by
  simp only [failedAttempt, processChannelError, List.mem_append, List.mem_cons,
    List.mem_singleton, List.not_mem_nil, reduceCtorEq, false_or, or_false] at h
  split_ifs at h with hd hl <;>
    simp_all [newChannelError]

/-- The body of the retry loop at iteration `i`. -/
def relayAttempt (env : RelayEnv) (group originalModel : String) (i : Nat) (c : Ctx) : Step :=
  match getChannel env.selector c group originalModel i with
  | .error err => .exit ⟨some err, c, [.getChannel i, .logError err.message], false⟩
  | .ok (channel, c₁) =>
    let c₂ := addUsedChannel c₁ channel.id
    match env.dispatch i with
    | none => .exit ⟨none, c₂, [.getChannel i, .dispatch i channel.id], true⟩
    | some err =>
      let events := failedAttempt env i channel c₂ err
      if shouldRetry c₂ (some err) (env.retryTimes - i) then .next c₂ err events
      else .exit ⟨some err, c₂, events, false⟩

/-- The three ways an attempt ends: channel selection fails and the loop breaks; the dispatch
succeeds and the function returns; or the dispatch fails, the channel error is processed, and
the loop continues exactly when `shouldRetry` says so. -/
theorem relayAttempt_cases (env : RelayEnv) (group originalModel : String) (i : Nat) (c : Ctx) :
    (∃ err, getChannel env.selector c group originalModel i = .error err ∧
      relayAttempt env group originalModel i c =
        .exit ⟨some err, c, [.getChannel i, .logError err.message], false⟩) ∨
    (∃ ch c₁, getChannel env.selector c group originalModel i = .ok (ch, c₁) ∧
      env.dispatch i = none ∧
      relayAttempt env group originalModel i c =
        .exit ⟨none, addUsedChannel c₁ ch.id, [.getChannel i, .dispatch i ch.id], true⟩) ∨
    (∃ ch c₁ err, getChannel env.selector c group originalModel i = .ok (ch, c₁) ∧
      env.dispatch i = some err ∧
      relayAttempt env group originalModel i c =
        if shouldRetry (addUsedChannel c₁ ch.id) (some err) (env.retryTimes - i) then
          .next (addUsedChannel c₁ ch.id) err (failedAttempt env i ch (addUsedChannel c₁ ch.id) err)
        else .exit ⟨some err, addUsedChannel c₁ ch.id,
          failedAttempt env i ch (addUsedChannel c₁ ch.id) err, false⟩) := by
  unfold relayAttempt
  rcases hg : getChannel env.selector c group originalModel i with err | ⟨ch, c₁⟩
  · exact .inl ⟨err, rfl, rfl⟩
  · rcases hd : env.dispatch i with _ | err
    · exact .inr (.inl ⟨ch, c₁, rfl, rfl, rfl⟩)
    · exact .inr (.inr ⟨ch, c₁, err, rfl, rfl, rfl⟩)

/-! ## The loop -/

/-- The retry loop `for i := 0; i <= common.RetryTimes; i++` from iteration `i` on, with `n`
iterations left before `i` passes `RetryTimes`.  `newAPIError` is the variable's value when
iteration `i` begins; it is what the loop leaves with when no iteration is left. -/
def relayLoop (env : RelayEnv) (group originalModel : String) :
    Nat → Nat → Ctx → Option NewAPIError → LoopExit
  | _, 0, c, newAPIError => ⟨newAPIError, c, [], false⟩
  | i, n + 1, c, _ =>
    match relayAttempt env group originalModel i c with
    | .exit x => x
    | .next c' err events =>
      let r := relayLoop env group originalModel (i + 1) n c' (some err)
      { r with events := events ++ r.events }

section Loop

variable {env : RelayEnv} {group originalModel : String}

@[simp] theorem relayLoop_zero (i : Nat) (c : Ctx) (err : Option NewAPIError) :
    relayLoop env group originalModel i 0 c err = ⟨err, c, [], false⟩ := rfl

theorem relayLoop_succ_exit {i n : Nat} {c : Ctx} {err : Option NewAPIError} {x : LoopExit}
    (h : relayAttempt env group originalModel i c = .exit x) :
    relayLoop env group originalModel i (n + 1) c err = x := by
  simp [relayLoop, h]

theorem relayLoop_succ_next {i n : Nat} {c c' : Ctx} {err : Option NewAPIError}
    {e : NewAPIError} {events : List Event}
    (h : relayAttempt env group originalModel i c = .next c' e events) :
    relayLoop env group originalModel i (n + 1) c err =
      let r := relayLoop env group originalModel (i + 1) n c' (some e)
      { r with events := events ++ r.events } := by
  simp [relayLoop, h]

/-- The context an attempt goes on with keeps the caller's pin. -/
theorem specificChannelId_addUsedChannel {sel : SelectorEnv} {c c₁ : Ctx} {i : Nat}
    {ch : Channel} (h : getChannel sel c group originalModel i = .ok (ch, c₁)) :
    (addUsedChannel c₁ ch.id).specificChannelId = c.specificChannelId :=
  (getChannel_frame h).1

/-- Every iteration begins by calling `getChannel` with its own index. -/
theorem getChannel_mem_relayLoop (i n : Nat) (c : Ctx) (err : Option NewAPIError) :
    Event.getChannel i ∈ (relayLoop env group originalModel i (n + 1) c err).events := by
  rcases relayAttempt_cases env group originalModel i c with
    ⟨e, -, ha⟩ | ⟨ch, c₁, -, -, ha⟩ | ⟨ch, c₁, e, -, -, ha⟩
  · simp [relayLoop_succ_exit ha]
  · simp [relayLoop_succ_exit ha]
  · split_ifs at ha
    · simp [relayLoop_succ_next ha]
    · simp [relayLoop_succ_exit ha]

/-- A loop that runs at least once, or that starts with `newAPIError` set, is left either by
`return` after a dispatch that succeeded, with `newAPIError` unset, or with `newAPIError` set. -/
theorem relayLoop_exit : ∀ (n i : Nat) (c : Ctx) (err : Option NewAPIError),
    0 < n ∨ err.isSome →
    let x := relayLoop env group originalModel i n c err
    (x.returned = true ∧ x.newAPIError = none ∧
      ∃ j ch, Event.dispatch j ch ∈ x.events ∧ env.dispatch j = none) ∨
    (x.returned = false ∧ x.newAPIError.isSome) := by
  intro n
  induction n with
  | zero => intro i c err h; simpa using h
  | succ n ih =>
    intro i c err _
    rcases relayAttempt_cases env group originalModel i c with
      ⟨e, -, ha⟩ | ⟨ch, c₁, -, hd, ha⟩ | ⟨ch, c₁, e, -, -, ha⟩
    · simp [relayLoop_succ_exit ha]
    · exact .inl ⟨by simp [relayLoop_succ_exit ha], by simp [relayLoop_succ_exit ha],
        i, ch.id, by simp [relayLoop_succ_exit ha], hd⟩
    · split_ifs at ha
      · rw [relayLoop_succ_next ha]
        rcases ih (i + 1) _ (some e) (.inr rfl) with ⟨h₁, h₂, j, ch', hj, hd⟩ | h
        · exact .inl ⟨h₁, h₂, j, ch', List.mem_append_right _ hj, hd⟩
        · exact .inr h
      · simp [relayLoop_succ_exit ha]

/-- The loop's attempts are numbered from its first iteration on with no gap, at most one per
iteration. -/
theorem relayLoop_attempts : ∀ (n i : Nat) (c : Ctx) (err : Option NewAPIError),
    ∃ j ≤ n, attempts (relayLoop env group originalModel i n c err).events = List.range' i j := by
  intro n
  induction n with
  | zero => intro i c err; exact ⟨0, le_rfl, rfl⟩
  | succ n ih =>
    intro i c err
    rcases relayAttempt_cases env group originalModel i c with
      ⟨e, -, ha⟩ | ⟨ch, c₁, -, -, ha⟩ | ⟨ch, c₁, e, -, -, ha⟩
    · exact ⟨1, by omega, by simp [relayLoop_succ_exit ha, attempts]⟩
    · exact ⟨1, by omega, by simp [relayLoop_succ_exit ha, attempts]⟩
    · split_ifs at ha
      · obtain ⟨j, hj, h⟩ := ih (i + 1) (addUsedChannel c₁ ch.id) (some e)
        refine ⟨j + 1, by omega, ?_⟩
        simp [relayLoop_succ_next ha, h, List.range'_succ]
      · exact ⟨1, by omega, by simp [relayLoop_succ_exit ha]⟩

/-- The loop neither refunds nor renders: both are left to the deferred functions. -/
theorem relayLoop_refunds_renders : ∀ (n i : Nat) (c : Ctx) (err : Option NewAPIError),
    refunds (relayLoop env group originalModel i n c err).events = [] ∧
      renders (relayLoop env group originalModel i n c err).events = [] := by
  intro n
  induction n with
  | zero => intro i c err; exact ⟨rfl, rfl⟩
  | succ n ih =>
    intro i c err
    rcases relayAttempt_cases env group originalModel i c with
      ⟨e, -, ha⟩ | ⟨ch, c₁, -, -, ha⟩ | ⟨ch, c₁, e, -, -, ha⟩
    · simp [relayLoop_succ_exit ha, refunds, renders]
    · simp [relayLoop_succ_exit ha, refunds, renders]
    · split_ifs at ha
      · simp [relayLoop_succ_next ha, ih]
      · simp [relayLoop_succ_exit ha]

/-- The loop appends to `use_channel` the channels it dispatches to, in order, and logs nothing
at info level. -/
theorem relayLoop_useChannel : ∀ (n i : Nat) (c : Ctx) (err : Option NewAPIError),
    (relayLoop env group originalModel i n c err).ctx.useChannel =
        c.useChannel ++
          (dispatches (relayLoop env group originalModel i n c err).events).map toString ∧
      infoLogs (relayLoop env group originalModel i n c err).events = [] := by
  intro n
  induction n with
  | zero => intro i c err; simp [dispatches, infoLogs]
  | succ n ih =>
    intro i c err
    rcases relayAttempt_cases env group originalModel i c with
      ⟨e, -, ha⟩ | ⟨ch, c₁, hg, -, ha⟩ | ⟨ch, c₁, e, hg, -, ha⟩
    · simp [relayLoop_succ_exit ha, dispatches, infoLogs]
    · simp [relayLoop_succ_exit ha, dispatches, infoLogs, addUsedChannel, (getChannel_frame hg).2]
    · have hu : (addUsedChannel c₁ ch.id).useChannel = c.useChannel ++ [toString ch.id] := by
        simp [addUsedChannel, (getChannel_frame hg).2]
      split_ifs at ha
      · obtain ⟨h₁, h₂⟩ := ih (i + 1) (addUsedChannel c₁ ch.id) (some e)
        rw [relayLoop_succ_next ha]
        simp only [dispatches_append, infoLogs_append, dispatches_failedAttempt,
          infoLogs_failedAttempt, h₁, h₂, hu]
        simp
      · simp [relayLoop_succ_exit ha, hu]

/-- Attempt `i + 1` is made exactly when attempt `i` was dispatched and failed with an error
that `retryDecision` retries, provided budget is left after attempt `i` and the loop has an
iteration for attempt `i + 1`.  A failed channel selection never leads to another attempt. -/
theorem relayLoop_next_iff {i : Nat} (hR : (i : Int) < env.retryTimes) :
    ∀ (n k : Nat) (c : Ctx) (err : Option NewAPIError), k ≤ i → i + 1 < k + n →
    (Event.getChannel (i + 1) ∈ (relayLoop env group originalModel k n c err).events ↔
      ∃ ch e, Event.dispatch i ch ∈ (relayLoop env group originalModel k n c err).events ∧
        env.dispatch i = some e ∧ retryDecision c.specificChannelId e = true) := by
  intro n
  induction n with
  | zero => intro k c err hk hi; omega
  | succ n ih =>
    intro k c err hk hi
    rcases relayAttempt_cases env group originalModel k c with
      ⟨e, -, ha⟩ | ⟨ch, c₁, -, hd, ha⟩ | ⟨ch, c₁, e, hg, hd, ha⟩
    · simp only [relayLoop_succ_exit ha]
      simp; omega
    · simp only [relayLoop_succ_exit ha]
      simp only [List.mem_cons, Event.getChannel.injEq, Event.dispatch.injEq, reduceCtorEq,
        List.not_mem_nil, or_false, false_or]
      refine iff_of_false (by omega) ?_
      rintro ⟨_, e, ⟨rfl, -⟩, he, -⟩
      simp [hd] at he
    · have hpin := specificChannelId_addUsedChannel hg
      have hshould : shouldRetry (addUsedChannel c₁ ch.id) (some e) (env.retryTimes - k) =
          retryDecision c.specificChannelId e := by
        rw [shouldRetry_some _ _ (by omega), hpin]
      split_ifs at ha with hs
      · rw [relayLoop_succ_next ha]
        rcases Nat.eq_or_lt_of_le hk with rfl | hk'
        · obtain ⟨m, rfl⟩ : ∃ m, n = m + 1 := ⟨n - 1, by omega⟩
          simp only [List.mem_append, getChannel_mem_failedAttempt, dispatch_mem_failedAttempt]
          exact iff_of_true (.inr (getChannel_mem_relayLoop _ _ _ _))
            ⟨ch.id, e, .inl (by simp), hd, hshould ▸ hs⟩
        · have := ih (k + 1) (addUsedChannel c₁ ch.id) (some e) hk' (by omega)
          rw [hpin] at this
          simpa only [List.mem_append, getChannel_mem_failedAttempt, show i + 1 ≠ k by omega,
            false_or, dispatch_mem_failedAttempt, show i ≠ k by omega, false_and, exists_and_left,
            exists_and_right] using this
      · rw [relayLoop_succ_exit ha]
        simp only [getChannel_mem_failedAttempt, dispatch_mem_failedAttempt]
        refine iff_of_false (by omega) ?_
        rintro ⟨_, e', ⟨rfl, -⟩, he, hr⟩
        rw [hd, Option.some.injEq] at he
        subst he
        exact hs (hshould ▸ hr)

/-- Every disabling the loop schedules names a channel it dispatched to at an attempt that failed,
with auto-ban set and `ShouldDisableChannel` agreeing on that attempt's error.  The reason is the
error's message, or, when the goroutine reads it late, the message with the request id, and
then the loop, run up to `RetryTimes`, ends with that error. -/
theorem relayLoop_disableChannel {ce : ChannelError} {reason : String} :
    ∀ (n i : Nat) (c : Ctx) (e₀ : Option NewAPIError),
    Event.disableChannel ce reason ∈ (relayLoop env group originalModel i n c e₀).events →
    ∃ j err, env.dispatch j = some err ∧
      Event.dispatch j ce.channelId ∈ (relayLoop env group originalModel i n c e₀).events ∧
      ce.autoBan = true ∧ env.shouldDisableChannel ce.channelId err = true ∧
      (reason = err.message ∨ (reason = messageWithRequestId err.message env.requestId ∧
        (((i + n : Nat) : Int) = env.retryTimes + 1 →
          (relayLoop env group originalModel i n c e₀).newAPIError = some err))) := by
  intro n
  induction n with
  | zero => intro i c e₀ h; simp at h
  | succ n ih =>
    intro i c e₀ h
    rcases relayAttempt_cases env group originalModel i c with
      ⟨e, -, ha⟩ | ⟨ch, c₁, -, -, ha⟩ | ⟨ch, c₁, e, -, hd, ha⟩
    · simp [relayLoop_succ_exit ha] at h
    · simp [relayLoop_succ_exit ha] at h
    · split_ifs at ha with hs
      · rw [relayLoop_succ_next ha] at h ⊢
        rcases List.mem_append.1 h with h | h
        · obtain ⟨hid, hban, hdis, rfl⟩ := disableChannel_mem_failedAttempt h
          refine ⟨i, e, hd, List.mem_append_left _ (by simp [failedAttempt, hid]), hban, hid ▸ hdis,
            (disableReason_cases ..).imp_right fun hr => ⟨hr.1, fun hn => ?_⟩⟩
          have hlast := hr.2
          simp only [lastAttempt, hs, Bool.not_true, Bool.false_or, decide_eq_true_eq] at hlast
          obtain rfl : n = 0 := by omega
          rfl
        · obtain ⟨j, err, h₁, h₂, h₃, h₄, h₅⟩ := ih (i + 1) _ _ h
          exact ⟨j, err, h₁, List.mem_append_right _ h₂, h₃, h₄,
            h₅.imp_right fun h => ⟨h.1, fun hn => h.2 (by omega)⟩⟩
      · rw [relayLoop_succ_exit ha] at h ⊢
        obtain ⟨hid, hban, hdis, rfl⟩ := disableChannel_mem_failedAttempt h
        exact ⟨i, e, hd, by simp [failedAttempt, hid], hban, hid ▸ hdis,
          (disableReason_cases ..).imp_right fun hr => ⟨hr.1, fun _ => rfl⟩⟩

end Loop

end NewApi
