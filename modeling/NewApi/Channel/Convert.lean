import NewApi.Json.Number

/-!
# Channel adaptors: the OpenAI request as it is sent upstream

Two channel adaptors change the OpenAI request before converting it to their provider's format
(`ConvertOpenAIRequest`).  The Ali adaptor (`relay/channel/ali`, `src/unnamed/part_000`)
enforces the provider's rule on `enable_thinking`.  A model whose name contains `thinking`
accepts only `enable_thinking: true`, so the request and the relay are switched to streaming.
A call that does not stream must send `enable_thinking: false`.  The Zhipu adaptor
(`src/relay/channel/zhipu_4v/adaptor.go`) caps `top_p` below 1, comparing the `float64` the body's
`top_p` decodes to (`Json/Number.lean`).

* `aliConvertOpenAIRequest_thinking`: after the Ali conversion thinking is on exactly for
  `thinking` models and for streaming calls that asked for it, and only ever on a streaming
  call.
* `zhipuConvertOpenAIRequest_topP`: after the Zhipu conversion `top_p` is not at least 1, and a
  value already below 1 is left as it is; a `top_p` written below 1 that rounds to `1.0` is
  capped.
-/

namespace NewApi

/-! ## The request -/

/-- The fields of `dto.GeneralOpenAIRequest` the two conversions read or write. -/
structure OpenAIRequest where
  model : String
  stream : Bool
  /-- `EnableThinking`. -/
  enableThinking : Bool
  /-- `TopP`, the `float64` the request body's `top_p` decodes to. -/
  topP : Float64
  deriving DecidableEq

/-- `strings.Contains(s, sub)`. -/
def stringsContains (s sub : String) : Bool := decide (sub.toList <:+: s.toList)

/-! ## Ali -/

/-- The Ali adaptor's `ConvertOpenAIRequest` up to `requestOpenAI2Ali`: the request it converts
and `info.IsStream` after it. -/
def aliConvertOpenAIRequest (isStream : Bool) :
    Option OpenAIRequest → Except String (OpenAIRequest × Bool)
  | none => .error "request is nil"
  | some request =>
    let (request, isStream) :=
      if stringsContains request.model "thinking" then
        ({ request with enableThinking := true, stream := true }, true)
      else (request, isStream)
    let request := if !isStream then { request with enableThinking := false } else request
    .ok (request, isStream)

/-- Thinking is on after the Ali conversion exactly for a `thinking` model and for a streaming
call that asked for it; the call streams exactly when it did or the model is a `thinking` one;
so thinking is never on for a call that does not stream. -/
theorem aliConvertOpenAIRequest_thinking (isStream : Bool) (request : OpenAIRequest) :
    ∃ request' isStream',
      aliConvertOpenAIRequest isStream (some request) = .ok (request', isStream') ∧
      (request'.enableThinking = true ↔
        stringsContains request.model "thinking" = true ∨
          (request.enableThinking = true ∧ isStream = true)) ∧
      (isStream' = true ↔ stringsContains request.model "thinking" = true ∨ isStream = true) ∧
      (request'.enableThinking = true → isStream' = true) := by
  unfold aliConvertOpenAIRequest
  by_cases ht : stringsContains request.model "thinking" = true <;> cases isStream <;> simp [ht]

/-! ## Zhipu -/

/-- The `float64` constant `0.99`. -/
def topPCap : Float64 := (JNum.ofDecimal 99 (-2)).toFloat64

/-- The Zhipu adaptor's `ConvertOpenAIRequest` up to `requestOpenAI2Zhipu`: `request.TopP >= 1`
compares `float64`s. -/
def zhipuConvertOpenAIRequest : Option OpenAIRequest → Except String OpenAIRequest
  | none => .error "request is nil"
  | some request =>
    .ok (if (Float64.finite 1).le request.topP then { request with topP := topPCap } else request)

/-- The Zhipu conversion always succeeds on a request, leaves a `top_p` that is not at least 1,
and changes nothing in a request whose `top_p` is already below 1. -/
theorem zhipuConvertOpenAIRequest_topP (request : OpenAIRequest) :
    ∃ request', zhipuConvertOpenAIRequest (some request) = .ok request' ∧
      (Float64.finite 1).le request'.topP = false ∧
      ((Float64.finite 1).le request.topP = false → request' = request) := by
  cases h : (Float64.finite 1).le request.topP
  · exact ⟨request, by simp [zhipuConvertOpenAIRequest, h], h, fun _ => rfl⟩
  · exact ⟨{ request with topP := topPCap }, by simp [zhipuConvertOpenAIRequest, h],
      (by decide : (Float64.finite 1).le topPCap = false), fun h' => absurd h' (by simp)⟩

/-- `top_p: 0.99999999999999999` is below 1 as written, but decodes to `1.0` and is capped. -/
example : (zhipuConvertOpenAIRequest (some ⟨"glm-4v", false, false,
    (JNum.ofDecimal 99999999999999999 (-17)).toFloat64⟩)).toOption =
      some ⟨"glm-4v", false, false, topPCap⟩ := by
  decide

end NewApi
