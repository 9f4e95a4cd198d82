import Mathlib

/-!
# The relay controller: errors, the request context and channel selection

`controller/relay.go` drives every relayed request.  This file models the data it works on
and the two helpers every attempt goes through:

* `NewAPIError`, `ChannelError` and `TaskError`, with the fields the controller reads;
* `Ctx`, the keys of the request's `gin.Context` that the controller reads and writes;
* `getChannel`: attempt `0` rebuilds the channel the routing middleware pinned into the
  context, every later attempt asks the channel cache and then
  `SetupContextForSelectedChannel`;
* `shouldRetry` and `shouldRetryTaskRelay`, the two retry predicates, which end in the same
  cascade over the HTTP status (`retryOnStatus`); with budget left, `shouldRetry` is
  `retryDecision`.

The `types`, `model` and `middleware` packages are not part of the sources.  What the
controller needs of them is modelled from the spec, and their doc comments say so; the
collaborators whose results the controller only branches on (the channel cache, key
rotation) are the fields of `SelectorEnv`, so every theorem holds for every behaviour of them.

The main facts are `getChannel_channel_ctx` (the channel `getChannel` returns is the one the
context then records, the multi-key flag apart at attempt `0`) and `shouldRetry_some` (the
decision `shouldRetry` makes, as one formula).
-/

namespace NewApi

/-! ## Errors -/

/-- Modelled from the spec: the error kinds of spec §7 (`types.ErrorCode` is not in `src/`). -/
inductive ErrorCode where
  | invalidRequest
  | getChannelFailed
  | genRelayInfoFailed
  | sensitiveWordsDetected
  | countTokenFailed
  | modelPriceError
  | insufficientQuota
  | preConsumeFailed
  | channelResponseError
  | streamDecodeError
  | internal
  deriving DecidableEq, Repr

/-- Modelled from the spec: `types.NewAPIError` (§3: kind, HTTP status, wrapped cause,
`skip_retry`, `channel_error`; §4.6: whether its kind is recorded in the error log). -/
structure NewAPIError where
  /-- `Error()`, the text of the wrapped cause. -/
  message : String
  errorCode : ErrorCode
  statusCode : Int
  skipRetry : Bool
  channelError : Bool
  recordErrorLog : Bool
  deriving DecidableEq, Repr

/-- Modelled from the spec: `types.NewError(err, code, opts...)`.  An error the gateway raises
itself carries its kind and the status of an internal error (§7, `Internal` (500)); it has the
`skip_retry` flag when `ErrOptionWithSkipRetry()` is passed, and never the `channel_error`
flag. -/
def newError (err : Option String) (code : ErrorCode) (skipRetry : Bool) : NewAPIError :=
  ⟨err.getD "", code, 500, skipRetry, false, true⟩

/-- Modelled from the spec: `types.IsChannelError`, the `channel_error` flag. -/
def isChannelError (e : NewAPIError) : Bool := e.channelError

/-- Modelled from the spec: `types.IsSkipRetryError`, the `skip_retry` flag. -/
def isSkipRetryError (e : NewAPIError) : Bool := e.skipRetry

/-- Modelled from the spec: `dto.TaskError`, with the fields `RelayTask` reads and writes. -/
structure TaskError where
  code : String
  message : String
  statusCode : Int
  localError : Bool
  deriving DecidableEq, Repr

/-- Modelled from the spec: `service.TaskErrorWrapperLocal(err, code, status)`, a task error
the gateway raises itself (`LocalError` set). -/
def taskErrorWrapperLocal (err code : String) (statusCode : Int) : TaskError :=
  ⟨code, err, statusCode, true⟩

/-! ## Channels -/

/-- Modelled from the spec: `model.ChannelInfo`, of which the controller reads whether the
channel holds several keys (§3, "multi-key credential bag"). -/
structure ChannelInfo where
  isMultiKey : Bool
  deriving DecidableEq, Repr

/-- Modelled from the spec: `model.Channel` (§3), with the fields the controller reads. -/
structure Channel where
  id : Int
  type : Int
  name : String
  /-- `AutoBan *int`; `none` is a nil pointer. -/
  autoBan : Option Int
  channelInfo : ChannelInfo
  deriving DecidableEq, Repr

/-- Modelled from the spec: `Channel.GetAutoBan`, the channel's auto-ban flag, set when the
stored value is `1` (the value `getChannel` stores for it). -/
def Channel.getAutoBan (ch : Channel) : Bool := ch.autoBan == some 1

/-- Modelled from the spec: `types.ChannelError` (§3: channel id, type, name, is-multi-key, key
value at the time of failure, `auto_ban`). -/
structure ChannelError where
  channelId : Int
  channelType : Int
  channelName : String
  isMultiKey : Bool
  usingKey : String
  autoBan : Bool
  deriving DecidableEq, Repr

/-- Modelled from the spec: `types.NewChannelError`, which records its arguments. -/
def newChannelError (channelId channelType : Int) (channelName : String) (isMultiKey : Bool)
    (usingKey : String) (autoBan : Bool) : ChannelError :=
  ⟨channelId, channelType, channelName, isMultiKey, usingKey, autoBan⟩

/-! ## The request context -/

/-- The keys of the request's `gin.Context` that the relay controller reads or writes.  A key
that was never set reads as Go's zero value. -/
structure Ctx where
  /-- `"id"`, the caller's user id. -/
  userId : Int
  /-- `"token_id"`. -/
  tokenId : Int
  /-- `"token_name"`. -/
  tokenName : String
  /-- `"group"`. -/
  group : String
  /-- `constant.ContextKeyUsingGroup`. -/
  usingGroup : String
  /-- `"original_model"`, which is also `constant.ContextKeyOriginalModel`. -/
  originalModel : String
  /-- `"channel_id"`. -/
  channelId : Int
  /-- `"channel_type"`. -/
  channelType : Int
  /-- `"channel_name"`. -/
  channelName : String
  /-- `"auto_ban"`. -/
  autoBan : Bool
  /-- `constant.ContextKeyChannelKey`. -/
  channelKey : String
  /-- `constant.ContextKeyChannelIsMultiKey`. -/
  isMultiKey : Bool
  /-- `constant.ContextKeyChannelMultiKeyIndex`. -/
  multiKeyIndex : Int
  /-- Whether `"specific_channel_id"` is set: the caller pinned a channel. -/
  specificChannelId : Bool
  /-- `"use_channel"`, the ids of the channels tried so far. -/
  useChannel : List String
  deriving DecidableEq, Repr, Inhabited

/-- `addUsedChannel`: append the channel's id to `"use_channel"`. -/
def addUsedChannel (c : Ctx) (channelId : Int) : Ctx :=
  { c with useChannel := c.useChannel ++ [toString channelId] }

/-! ## Channel selection -/

/-- What `model.CacheGetRandomSatisfiedChannel` returns: a channel (or nil), the group it
searched, and an error. -/
structure CacheResult where
  channel : Option Channel
  selectGroup : String
  err : Option String
  deriving Inhabited

/-- The collaborators of `getChannel` outside `src/`: the channel cache, and what
`SetupContextForSelectedChannel` decides for a selected channel. -/
structure SelectorEnv where
  /-- `model.CacheGetRandomSatisfiedChannel(c, group, model, retryCount)`. -/
  cacheGetRandomSatisfiedChannel : String → String → Nat → CacheResult
  /-- The error `SetupContextForSelectedChannel` fails with for a channel, if it fails. -/
  setupError : Channel → Option NewAPIError
  /-- The key, and its index in a multi-key channel, that key rotation resolves. -/
  resolveKey : Channel → String × Int
  deriving Inhabited

/-- Modelled from the spec: `middleware.SetupContextForSelectedChannel` is not in `src/`.  §4.3:
on success the selector records the channel's id, type and name, its resolved credential and,
for a multi-key channel, the key index in the request context. -/
def setupContextForSelectedChannel (sel : SelectorEnv) (c : Ctx) (channel : Channel)
    (_modelName : String) : Except NewAPIError Ctx :=
  match sel.setupError channel with
  | some e => .error e
  | none =>
    .ok { c with channelId := channel.id, channelType := channel.type,
                 channelName := channel.name, channelKey := (sel.resolveKey channel).1,
                 isMultiKey := channel.channelInfo.isMultiKey,
                 multiKeyIndex := (sel.resolveKey channel).2 }

/-- `getChannel`: attempt `0` rebuilds the channel pinned in the context, with no
`ChannelInfo`; every later attempt asks the channel cache and sets the context up for the
channel it returns. -/
def getChannel (sel : SelectorEnv) (c : Ctx) (group originalModel : String)
    (retryCount : Nat) : Except NewAPIError (Channel × Ctx) :=
  if retryCount = 0 then
    let autoBanInt : Int := if c.autoBan then 1 else 0
    .ok (⟨c.channelId, c.channelType, c.channelName, some autoBanInt, ⟨false⟩⟩, c)
  else
    let r := sel.cacheGetRandomSatisfiedChannel group originalModel retryCount
    match r.err, r.channel with
    | some err, _ =>
      .error (newError
        (some s!"获取分组 {r.selectGroup} 下模型 {originalModel} 的可用渠道失败（retry）: {err}")
        .getChannelFailed true)
    | none, none =>
      .error (newError
        (some s!"分组 {r.selectGroup} 下模型 {originalModel} 的可用渠道不存在（数据库一致性已被破坏，retry）")
        .getChannelFailed true)
    | none, some channel =>
      (setupContextForSelectedChannel sel c channel originalModel).map (channel, ·)

/-! ## The retry predicates -/

/-- The cascade over the HTTP status that `shouldRetry` and `shouldRetryTaskRelay` both end
with, from the `429` check on.  `localError` is the check `shouldRetryTaskRelay` alone makes
between `408` and `2xx`; `shouldRetry` passes `false`.  Go's `/` truncates, as `Int.tdiv`
does. -/
def retryOnStatus (statusCode : Int) (localError : Bool) : Bool :=
  if statusCode = 429 then true
  else if statusCode = 307 then true
  else if statusCode.tdiv 100 = 5 then
    -- 超时不重试
    if statusCode = 504 ∨ statusCode = 524 then false else true
  else if statusCode = 400 then false
  else if statusCode = 408 then false
  else if localError then false
  else if statusCode.tdiv 100 = 2 then false
  else true

/-- `shouldRetry`: whether to try another channel after `openaiErr`, with `retryTimes`
attempts of the budget left.  A channel error is retried before any other check. -/
def shouldRetry (c : Ctx) (openaiErr : Option NewAPIError) (retryTimes : Int) : Bool :=
  match openaiErr with
  | none => false
  | some e =>
    if isChannelError e then true
    else if isSkipRetryError e then false
    else if retryTimes ≤ 0 then false
    else if c.specificChannelId then false
    else retryOnStatus e.statusCode false

/-- `shouldRetryTaskRelay`: the retry predicate of `RelayTask`.  Its `channelId` argument is
not read. -/
def shouldRetryTaskRelay (c : Ctx) (_channelId : Int) (taskErr : Option TaskError)
    (retryTimes : Int) : Bool :=
  match taskErr with
  | none => false
  | some e =>
    if retryTimes ≤ 0 then false
    else if c.specificChannelId then false
    else retryOnStatus e.statusCode e.localError

/-- Without the local-error check the status cascade is three cases: retry on 429 and 307,
retry on 5xx other than 504 and 524, and otherwise no retry exactly on 400, 408 and 2xx. -/
theorem retryOnStatus_false (s : Int) : retryOnStatus s false =
    if s = 429 ∨ s = 307 then true
    else if s.tdiv 100 = 5 then !(s = 504 ∨ s = 524)
    else !(s = 400 ∨ s = 408 ∨ s.tdiv 100 = 2) := by
  unfold retryOnStatus
  by_cases h429 : s = 429
  · subst h429; rfl
  by_cases h307 : s = 307
  · subst h307; rfl
  by_cases h5 : s.tdiv 100 = 5
  · simp [h429, h307, h5]
  by_cases h400 : s = 400
  · subst h400; rfl
  by_cases h408 : s = 408
  · subst h408; rfl
  simp [h429, h307, h5, h400, h408]

/-- The decision `shouldRetry` makes with budget left: a channel error is retried whatever its
other flags; any other error is retried when it is not skip-retry, no channel is pinned, and
the status cascade says so. -/
def retryDecision (pinned : Bool) (e : NewAPIError) : Bool :=
  e.channelError || (!e.skipRetry && !pinned && retryOnStatus e.statusCode false)

theorem shouldRetry_some (c : Ctx) (e : NewAPIError) {retryTimes : Int} (h : 0 < retryTimes) :
    shouldRetry c (some e) retryTimes = retryDecision c.specificChannelId e := by
  simp only [shouldRetry, retryDecision, isChannelError, isSkipRetryError,
    if_neg (not_le.mpr h)]
  cases e.channelError <;> cases e.skipRetry <;> cases c.specificChannelId <;> rfl

/-- A channel error is retried whatever its flags and the budget. -/
theorem shouldRetry_channelError (c : Ctx) {e : NewAPIError} (h : e.channelError = true)
    (retryTimes : Int) : shouldRetry c (some e) retryTimes = true := by
  simp [shouldRetry, isChannelError, h]

/-! ## What `getChannel` returns -/

/-- The channel attempt `0` rebuilds from the context. -/
def pinnedChannel (c : Ctx) : Channel :=
  ⟨c.channelId, c.channelType, c.channelName, some (if c.autoBan then 1 else 0), ⟨false⟩⟩

@[simp] theorem getChannel_zero (sel : SelectorEnv) (c : Ctx) (group originalModel : String) :
    getChannel sel c group originalModel 0 = .ok (pinnedChannel c, c) := rfl

/-- A later attempt that succeeds has set the context up for the channel the cache chose. -/
theorem getChannel_pos {sel : SelectorEnv} {c c' : Ctx} {group originalModel : String}
    {i : Nat} {ch : Channel} (hi : 0 < i)
    (h : getChannel sel c group originalModel i = .ok (ch, c')) :
    setupContextForSelectedChannel sel c ch originalModel = .ok c' := by
  simp only [getChannel, Nat.pos_iff_ne_zero.mp hi, if_false] at h
  split at h
  · cases h
  · cases h
  · rename_i channel _ _
    cases hs : setupContextForSelectedChannel sel c channel originalModel with
    | error e => simp [hs, Except.map] at h
    | ok c₁ =>
      simp only [hs, Except.map, Except.ok.injEq, Prod.mk.injEq] at h
      obtain ⟨rfl, rfl⟩ := h
      exact hs

theorem setupContextForSelectedChannel_ok {sel : SelectorEnv} {c c' : Ctx} {ch : Channel}
    {modelName : String} (h : setupContextForSelectedChannel sel c ch modelName = .ok c') :
    c' = { c with channelId := ch.id, channelType := ch.type, channelName := ch.name,
                  channelKey := (sel.resolveKey ch).1, isMultiKey := ch.channelInfo.isMultiKey,
                  multiKeyIndex := (sel.resolveKey ch).2 } := by
  unfold setupContextForSelectedChannel at h
  split at h <;> cases h
  rfl

/-- The channel `getChannel` returns is the one the context then records: the same id, type
and name, and, from attempt `1` on, the same multi-key flag.  At attempt `0` the rebuilt
channel has no `ChannelInfo`, so its multi-key flag is `false` whatever the context says. -/
theorem getChannel_channel_ctx {sel : SelectorEnv} {c c' : Ctx} {group originalModel : String}
    {i : Nat} {ch : Channel} (h : getChannel sel c group originalModel i = .ok (ch, c')) :
    ch.id = c'.channelId ∧ ch.type = c'.channelType ∧ ch.name = c'.channelName ∧
      ch.channelInfo.isMultiKey = (if i = 0 then false else c'.isMultiKey) := by
  rcases Nat.eq_zero_or_pos i with rfl | hi
  · simp only [getChannel_zero, Except.ok.injEq, Prod.mk.injEq] at h
    obtain ⟨rfl, rfl⟩ := h
    exact ⟨rfl, rfl, rfl, rfl⟩
  · rw [setupContextForSelectedChannel_ok (getChannel_pos hi h), if_neg hi.ne']
    exact ⟨rfl, rfl, rfl, rfl⟩

/-- `getChannel` leaves the caller's pin and the list of channels tried as they were. -/
theorem getChannel_frame {sel : SelectorEnv} {c c' : Ctx} {group originalModel : String}
    {i : Nat} {ch : Channel} (h : getChannel sel c group originalModel i = .ok (ch, c')) :
    c'.specificChannelId = c.specificChannelId ∧ c'.useChannel = c.useChannel := by
  rcases Nat.eq_zero_or_pos i with rfl | hi
  · simp only [getChannel_zero, Except.ok.injEq, Prod.mk.injEq] at h
    rw [← h.2]
    exact ⟨rfl, rfl⟩
  · rw [setupContextForSelectedChannel_ok (getChannel_pos hi h)]
    exact ⟨rfl, rfl⟩

end NewApi
