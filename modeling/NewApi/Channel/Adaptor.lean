import NewApi.Channel.Convert
import NewApi.Relay.Pipeline

/-!
# Channel adaptors: the upstream URL and the request headers

Besides converting the request (`NewApi.Channel.Convert`), a channel adaptor names the upstream
URL from the dialect and the relay mode (`GetRequestURL`) and sets the request's headers
(`SetupRequestHeader`) over the ones `channel.SetupApiRequestHeader` sets.  Both run when the
request is sent, after the conversion, on the relay info as the conversion left it.

The headers are an `http.Header`: `Set` and `Get` put the name in the canonical form of
`textproto.CanonicalMIMEHeaderKey` first, so `x-dashscope-sse` and `X-DashScope-SSE` are the same
header.

* `aliSetupRequestHeader_get`: the Ali headers, name by name, and every other header as the
  common setup left it.
* `aliConvertOpenAIRequest_sse`: thinking reaches Ali only on a request that carries the
  streaming header, and a `thinking` model's request always streams with it.
* `aliGetRequestURL_headers`: the image services' requests carry the headers those services
  need: the asynchronous flag for text-to-image, JSON for multimodal generation.
-/

namespace NewApi

/-! ## Header names -/

/-- `textproto.validHeaderFieldByte`: the characters of an HTTP token. -/
def validHeaderFieldByte (c : Char) : Bool :=
  c.isAlphanum || "!#$%&'*+-.^_`|~".toList.contains c

/-- A header name's characters as `CanonicalMIMEHeaderKey` writes them: the first letter and each
letter after a `-` upper case, every other letter lower case. -/
def canonicalKeyChars : (upper : Bool) → List Char → List Char
  | _, [] => []
  | upper, c :: cs => (if upper then c.toUpper else c.toLower) :: canonicalKeyChars (c == '-') cs

/-- `textproto.CanonicalMIMEHeaderKey`: a name with a character that is not a token character is
left as it is. -/
def canonicalMIMEHeaderKey (s : String) : String :=
  if s.toList.all validHeaderFieldByte then ⟨canonicalKeyChars true s.toList⟩ else s

@[simp] theorem canonicalMIMEHeaderKey_authorization :
    canonicalMIMEHeaderKey "Authorization" = "Authorization" := by decide

@[simp] theorem canonicalMIMEHeaderKey_sse :
    canonicalMIMEHeaderKey "X-DashScope-SSE" = "X-Dashscope-Sse" := by decide

@[simp] theorem canonicalMIMEHeaderKey_plugin :
    canonicalMIMEHeaderKey "X-DashScope-Plugin" = "X-Dashscope-Plugin" := by decide

@[simp] theorem canonicalMIMEHeaderKey_async :
    canonicalMIMEHeaderKey "X-DashScope-Async" = "X-Dashscope-Async" := by decide

@[simp] theorem canonicalMIMEHeaderKey_contentType :
    canonicalMIMEHeaderKey "Content-Type" = "Content-Type" := by decide

example : canonicalMIMEHeaderKey "x-dashscope-sse" = "X-Dashscope-Sse" := by decide

/-! ## Headers -/

/-- `http.Header`, as what `Get` reads under each canonical name (`""` when it is unset).  The
adaptors only `Set` and `Get`, so the other values under a name play no part. -/
def Header := String → String

namespace Header

/-- `Header.Set`: the name's canonical form holds the value, and nothing else changes. -/
def set (h : Header) (key value : String) : Header :=
  fun k => if k = canonicalMIMEHeaderKey key then value else h k

/-- `Header.Get`: the value under the name's canonical form. -/
def get (h : Header) (key : String) : String := h (canonicalMIMEHeaderKey key)

@[simp] theorem get_set (h : Header) (key value k : String) :
    (h.set key value).get k =
      if canonicalMIMEHeaderKey k = canonicalMIMEHeaderKey key then value else h.get k := rfl

@[simp] theorem get_ite {c : Prop} [Decidable c] (h h' : Header) (k : String) :
    (if c then h else h').get k = if c then h.get k else h'.get k :=
  apply_ite (fun h : Header => h.get k) c h h'

end Header

/-! ## The relay info -/

/-- `relayconstant.RelayMode`, as far as the two adaptors tell modes apart: `other` is every mode
they do not name, chat completions among them. -/
inductive RelayMode where
  | embeddings
  | rerank
  | imagesGenerations
  | imagesEdits
  | completions
  | other
  deriving DecidableEq, Repr

/-- The fields of `relaycommon.RelayInfo` that `GetRequestURL` and `SetupRequestHeader` read. -/
structure RelayInfo where
  relayFormat : RelayFormat
  relayMode : RelayMode
  /-- `ChannelBaseUrl`. -/
  channelBaseUrl : String
  apiKey : String
  isStream : Bool
  deriving DecidableEq, Repr

/-! ## Ali -/

/-- The Ali adaptor's `GetRequestURL` (its error is always `nil`). -/
def aliGetRequestURL (info : RelayInfo) : String :=
  match info.relayFormat with
  | .claude => info.channelBaseUrl ++ "/api/v2/apps/claude-code-proxy/v1/messages"
  | _ =>
    match info.relayMode with
    | .embeddings => info.channelBaseUrl ++ "/compatible-mode/v1/embeddings"
    | .rerank => info.channelBaseUrl ++ "/api/v1/services/rerank/text-rerank/text-rerank"
    | .imagesGenerations => info.channelBaseUrl ++ "/api/v1/services/aigc/text2image/image-synthesis"
    | .imagesEdits =>
      info.channelBaseUrl ++ "/api/v1/services/aigc/multimodal-generation/generation"
    | .completions => info.channelBaseUrl ++ "/compatible-mode/v1/completions"
    | .other => info.channelBaseUrl ++ "/compatible-mode/v1/chat/completions"

/-- The Ali adaptor's `SetupRequestHeader`, on the headers `channel.SetupApiRequestHeader` left
and the context's `plugin` (its error is always `nil`). -/
def aliSetupRequestHeader (info : RelayInfo) (plugin : String) (req : Header) : Header :=
  let req := req.set "Authorization" ("Bearer " ++ info.apiKey)
  let req := if info.isStream then req.set "X-DashScope-SSE" "enable" else req
  let req := if plugin ≠ "" then req.set "X-DashScope-Plugin" plugin else req
  let req :=
    if info.relayMode = .imagesGenerations then req.set "X-DashScope-Async" "enable" else req
  if info.relayMode = .imagesEdits then req.set "Content-Type" "application/json" else req

/-- The names the Ali adaptor sets. -/
def aliHeaderNames : List String :=
  ["Authorization", "X-DashScope-SSE", "X-DashScope-Plugin", "X-DashScope-Async", "Content-Type"]

/-- The Ali headers, name by name: the credential always, the streaming flag on a streaming call,
the plugin when the context names one, the asynchronous flag for image generation and JSON for
image edits.  Each of these whose condition fails, and every other header, is as the common
setup left it. -/
theorem aliSetupRequestHeader_get (info : RelayInfo) (plugin : String) (req : Header) :
    let req' := aliSetupRequestHeader info plugin req
    req'.get "Authorization" = "Bearer " ++ info.apiKey ∧
      req'.get "X-DashScope-SSE" =
        (if info.isStream then "enable" else req.get "X-DashScope-SSE") ∧
      req'.get "X-DashScope-Plugin" =
        (if plugin ≠ "" then plugin else req.get "X-DashScope-Plugin") ∧
      req'.get "X-DashScope-Async" =
        (if info.relayMode = .imagesGenerations then "enable" else req.get "X-DashScope-Async") ∧
      req'.get "Content-Type" =
        (if info.relayMode = .imagesEdits then "application/json" else req.get "Content-Type") ∧
      ∀ k, canonicalMIMEHeaderKey k ∉ aliHeaderNames.map canonicalMIMEHeaderKey →
        req'.get k = req.get k := by
  refine ⟨?_, ?_, ?_, ?_, ?_, fun k hk => ?_⟩
  · simp [aliSetupRequestHeader]
  · simp [aliSetupRequestHeader]
  · simp [aliSetupRequestHeader]
  · by_cases h : info.relayMode = .imagesGenerations <;> simp [aliSetupRequestHeader, h]
  · simp [aliSetupRequestHeader]
  · simp only [aliHeaderNames, List.map_cons, List.map_nil, List.mem_cons, List.not_mem_nil,
      canonicalMIMEHeaderKey_authorization, canonicalMIMEHeaderKey_sse,
      canonicalMIMEHeaderKey_plugin, canonicalMIMEHeaderKey_async,
      canonicalMIMEHeaderKey_contentType, or_false, not_or] at hk
    simp [aliSetupRequestHeader, hk]

/-- Thinking reaches Ali only on a request that streams: after the conversion and the headers set
on the relay info the conversion left, a request with thinking on carries
`X-DashScope-SSE: enable`, and a `thinking` model's request has thinking on, streams, and carries
the header. -/
theorem aliConvertOpenAIRequest_sse (info : RelayInfo) (plugin : String) (req : Header)
    (request : OpenAIRequest) :
    ∃ request' isStream',
      aliConvertOpenAIRequest info.isStream (some request) = .ok (request', isStream') ∧
      let headers := aliSetupRequestHeader { info with isStream := isStream' } plugin req
      (request'.enableThinking = true → headers.get "X-DashScope-SSE" = "enable") ∧
      (stringsContains request.model "thinking" = true →
        request'.enableThinking = true ∧ request'.stream = true ∧
          headers.get "X-DashScope-SSE" = "enable") := by
  have hsse (isStream : Bool) :=
    (aliSetupRequestHeader_get { info with isStream := isStream } plugin req).2.1
  unfold aliConvertOpenAIRequest
  by_cases ht : stringsContains request.model "thinking" = true <;>
    cases info.isStream <;> simp_all

/-- `b ++ p = b ++ q` only for `p = q`. -/
theorem string_append_left_inj (b p q : String) : b ++ p = b ++ q ↔ p = q := by
  simp only [String.ext_iff, String.data_append, List.append_cancel_left_eq]

/-- The image services' requests carry the headers those services need: a request the Ali
adaptor sends to the text-to-image service asks for the asynchronous call, and one it sends to
multimodal generation says it is JSON, whatever the dialect and the other headers. -/
theorem aliGetRequestURL_headers (info : RelayInfo) (plugin : String) (req : Header) :
    let headers := aliSetupRequestHeader info plugin req
    (aliGetRequestURL info =
        info.channelBaseUrl ++ "/api/v1/services/aigc/text2image/image-synthesis" →
      headers.get "X-DashScope-Async" = "enable") ∧
    (aliGetRequestURL info =
        info.channelBaseUrl ++ "/api/v1/services/aigc/multimodal-generation/generation" →
      headers.get "Content-Type" = "application/json") := by
  have hget := aliSetupRequestHeader_get info plugin req
  rcases info with ⟨format, mode, base, key, isStream⟩
  dsimp only at hget ⊢
  rw [hget.2.2.2.1, hget.2.2.2.2.1]
  cases format <;> cases mode <;> simp [aliGetRequestURL, string_append_left_inj]

/-! ## Zhipu -/

/-- The Zhipu adaptor's `GetRequestURL` (its error is always `nil`). -/
def zhipuGetRequestURL (info : RelayInfo) : String :=
  match info.relayFormat with
  | .claude => info.channelBaseUrl ++ "/api/anthropic/v1/messages"
  | _ =>
    match info.relayMode with
    | .embeddings => info.channelBaseUrl ++ "/api/paas/v4/embeddings"
    | _ => info.channelBaseUrl ++ "/api/paas/v4/chat/completions"

/-- The Zhipu adaptor's `SetupRequestHeader` (its error is always `nil`). -/
def zhipuSetupRequestHeader (info : RelayInfo) (req : Header) : Header :=
  req.set "Authorization" ("Bearer " ++ info.apiKey)

/-- The Zhipu headers: the credential, and every other header as the common setup left it. -/
theorem zhipuSetupRequestHeader_get (info : RelayInfo) (req : Header) (k : String) :
    (zhipuSetupRequestHeader info req).get k =
      if canonicalMIMEHeaderKey k = "Authorization" then "Bearer " ++ info.apiKey
      else req.get k := by
  simp [zhipuSetupRequestHeader]

end NewApi
