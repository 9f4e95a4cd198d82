import NewApi.Relay.Basic

/-!
# `RelayMidjourney`: the Midjourney proxy's error answer

`RelayMidjourney` in `controller/relay.go` builds the relay info, hands the request to the
handler of package `relay` that its mode names, and, when that handler returns an error, answers
the client and logs the answer with the channel the context names.  There is no retry loop: the
request goes to one handler once.

The handlers and `GenRelayInfo` are outside the sources; they are the fields of
`MidjourneyEnv`, so the result holds for every behaviour of them.

* `relayMidjourney_answer`: an answer is written exactly when `GenRelayInfo` or the handler
  fails.  A handler's error is answered with `429` when its code is `30` (the group is saturated)
  and `400` otherwise, and logged once with the channel and the status and text of that answer.
-/

namespace NewApi

/-- The fields of `dto.MidjourneyResponse` that `RelayMidjourney` reads. -/
structure MidjourneyResponse where
  code : Int
  description : String
  result : String
  deriving DecidableEq, Repr

/-- `relayInfo.RelayMode` among the Midjourney modes, as far as `RelayMidjourney` tells them
apart: `submit` is every mode its `switch` does not name. -/
inductive MidjourneyMode where
  | notify
  | taskFetch
  | taskFetchByCondition
  | taskImageSeed
  | swapFace
  | submit
  deriving DecidableEq, Repr

/-- The handlers of package `relay` that `RelayMidjourney` calls. -/
inductive MidjourneyHandler where
  /-- `relay.RelayMidjourneyNotify`. -/
  | notify
  /-- `relay.RelayMidjourneyTask`, given the mode. -/
  | task (mode : MidjourneyMode)
  /-- `relay.RelayMidjourneyTaskImageSeed`. -/
  | taskImageSeed
  /-- `relay.RelaySwapFace`. -/
  | swapFace
  /-- `relay.RelayMidjourneySubmit`. -/
  | submit
  deriving DecidableEq, Repr

/-- The `switch` of `RelayMidjourney` over the relay mode. -/
def midjourneyHandler : MidjourneyMode → MidjourneyHandler
  | .notify => .notify
  | .taskFetch => .task .taskFetch
  | .taskFetchByCondition => .task .taskFetchByCondition
  | .taskImageSeed => .taskImageSeed
  | .swapFace => .swapFace
  | .submit => .submit

/-- What the collaborators of `RelayMidjourney` return on one request. -/
structure MidjourneyEnv where
  /-- The error of `relaycommon.GenRelayInfo`. -/
  genRelayInfoError : Option String
  /-- `relayInfo.RelayMode`. -/
  relayMode : MidjourneyMode
  /-- What each handler returns; `none` is a `nil` error. -/
  handle : MidjourneyHandler → Option MidjourneyResponse

/-- The body `gin.H{"description", "type", "code"}` of an error answer. -/
structure MidjourneyErrorBody where
  description : String
  type : String
  code : Int
  deriving DecidableEq, Repr

/-- What a run of `RelayMidjourney` leaves: the answer it writes, if any, as its status and body,
and the lines `logger.LogError` logs.  `log.Println(mjErr)` writes to the standard output only. -/
structure MidjourneyRun where
  response : Option (Nat × MidjourneyErrorBody)
  errorLogs : List String
  deriving DecidableEq, Repr

/-- The `Result` that `RelayMidjourney` writes for an error of code `30`. -/
def midjourneySaturated : String := "当前分组负载已饱和，请稍后再试，或升级账户以提升服务质量。"

/-- `RelayMidjourney`.  A code-`30` error has its `Result` replaced before it is written. -/
def relayMidjourney (env : MidjourneyEnv) (c : Ctx) : MidjourneyRun :=
  match env.genRelayInfoError with
  | some err =>
    ⟨some (500, ⟨s!"failed to generate relay info: {err}", "upstream_error", 4⟩), []⟩
  | none =>
    match env.handle (midjourneyHandler env.relayMode) with
    | none => ⟨none, []⟩
    | some mjErr =>
      let statusCode : Nat := if mjErr.code = 30 then 429 else 400
      let mjErr := if mjErr.code = 30 then { mjErr with result := midjourneySaturated } else mjErr
      let description := s!"{mjErr.description} {mjErr.result}"
      ⟨some (statusCode, ⟨description, "upstream_error", mjErr.code⟩),
        [s!"relay error (channel #{c.channelId}, status code {statusCode}): {description}"]⟩

/-- An answer is written exactly when `GenRelayInfo` or the handler of the mode fails.  A failed
`GenRelayInfo` is answered with `500` and code `4`, and nothing is logged.  A handler's error is
answered with its code, with `429` and the saturation message when the code is `30` and with
`400` and its own result otherwise, and one error is logged that names the context's channel and
the status and description of the answer. -/
theorem relayMidjourney_answer (env : MidjourneyEnv) (c : Ctx) :
    let run := relayMidjourney env c
    (run.response = none ↔
      env.genRelayInfoError = none ∧ env.handle (midjourneyHandler env.relayMode) = none) ∧
    (∀ err, env.genRelayInfoError = some err →
      run.response = some (500, ⟨s!"failed to generate relay info: {err}", "upstream_error", 4⟩) ∧
        run.errorLogs = []) ∧
    (∀ mjErr, env.genRelayInfoError = none →
      env.handle (midjourneyHandler env.relayMode) = some mjErr →
      ∃ status description,
        run.response = some (status, ⟨description, "upstream_error", mjErr.code⟩) ∧
        (status = if mjErr.code = 30 then 429 else 400) ∧
        description = mjErr.description ++ " " ++
          (if mjErr.code = 30 then midjourneySaturated else mjErr.result) ∧
        run.errorLogs =
          [s!"relay error (channel #{c.channelId}, status code {status}): {description}"]) := by
  intro run
  refine ⟨?_, fun err he => by simp [run, relayMidjourney, he], fun mjErr hg hh => ?_⟩
  · cases hg : env.genRelayInfoError <;> cases hh : env.handle (midjourneyHandler env.relayMode) <;>
      simp [run, relayMidjourney, hg, hh]
  · by_cases h30 : mjErr.code = 30 <;> simp only [run, relayMidjourney, hg, hh, h30, if_true,
      if_false] <;> exact ⟨_, _, rfl, rfl, by simp [toString, String.append_empty], rfl⟩

end NewApi
