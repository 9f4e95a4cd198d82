import Mathlib

/-!
# `LoggingTransport`: one `api_log` row per chat completion

`model/model_log.go` wraps the HTTP transport so that calls to `/v1/chat/completions` are
written to the `api_log` table.  `RoundTrip` forwards every other request untouched.  For a
logged one it reads the request body into `l.Req`, and when reading it or the upstream call
fails it posts the row at once, with the error in `l.Err`.  Otherwise it hands the caller a
wrapper `rc` around the response body: a `TeeReader` copies what the caller reads into `buf`,
and the wrapper's first `Close` stores `buf` in `l.Res` and posts the row (`PostProcess`).
Later closes do nothing, because of the `closed` flag.

The caller's side is a sequence of reads and closes of the body (`BodyOp`), and a request's
effects are the rows posted and the closes of the upstream body (`Effect`).

* `bodyRun_wrapped`: whatever the caller does, the wrapper posts one row, at its first close,
  holding what was read before it, and never closes the upstream body.
* `serve_logged`: a logged call writes exactly one row when it fails or its body is closed,
  and none otherwise.
* `serve_unlogged`: any other call writes no row, and each close of its body closes the
  upstream body.
-/

namespace NewApi

/-! ## The transport -/

/-- `APILog`, without its times `Start` and `End`. -/
structure APILog where
  req : String
  res : String
  err : String
  deriving DecidableEq, Repr

/-- The one path whose calls are logged. -/
def loggedPath : String := "/v1/chat/completions"

/-- A request as `RoundTrip` reads it: its URL path, and its body, if it has one, as the text
`io.ReadAll` returns with the error it stopped on, if any. -/
structure HttpRequest where
  path : String
  body : Option (String × Option String)

/-- What the underlying transport answers: an error, or a response with a body. -/
inductive Upstream where
  | error (e : String)
  | response (body : String)

/-- The response body the caller holds, with what reading it has left of the upstream text. -/
inductive Body where
  /-- The upstream body itself. -/
  | upstream (rest : List Char)
  /-- The wrapper `rc`: the upstream text not read yet, `buf`, `rc.closed` and `*l`. -/
  | wrapped (rest buf : List Char) (closed : Bool) (log : APILog)

/-- What the caller does with the body: a read that returns `n` characters (fewer at the end
of the text), or `Close`. -/
inductive BodyOp where
  | read (n : Nat)
  | close
  deriving DecidableEq, Repr

/-- A side effect seen outside the transport. -/
inductive Effect where
  /-- `PostProcess(l)`: a row written to `api_log`. -/
  | postProcess (row : APILog)
  /-- `Close` of the upstream response body. -/
  | upstreamClose
  deriving DecidableEq, Repr

/-- What `RoundTrip` returns. -/
inductive RoundTripResult where
  | error (e : String)
  | response (b : Body)

/-- `LoggingTransport.RoundTrip`, with the rows it posts before it returns. -/
def roundTrip (req : HttpRequest) (up : Upstream) : RoundTripResult × List Effect :=
  if req.path ≠ loggedPath then
    match up with
    | .error e => (.error e, [])
    | .response t => (.response (.upstream t.toList), [])
  else
    match req.body with
    | some (text, some e) => (.error e, [.postProcess ⟨text, "", e⟩])
    | body =>
      let l : APILog := ⟨(body.map Prod.fst).getD "", "", ""⟩
      match up with
      | .error e => (.error e, [.postProcess { l with err := e }])
      | .response t => (.response (.wrapped t.toList [] false l), [])

/-- One operation on the body: a read of the wrapper also copies into `buf`, its first close
stores `buf` in `l.Res` and posts the row (`rc.Close` and `closeFunc`); a close of the upstream
body is one. -/
def bodyStep : Body → BodyOp → Body × List Effect
  | .upstream rest, .read n => (.upstream (rest.drop n), [])
  | .upstream rest, .close => (.upstream rest, [.upstreamClose])
  | .wrapped rest buf closed l, .read n =>
    (.wrapped (rest.drop n) (buf ++ rest.take n) closed l, [])
  | .wrapped rest buf closed l, .close =>
    if closed then (.wrapped rest buf closed l, [])
    else
      let l' := { l with res := ⟨buf⟩ }
      (.wrapped rest buf true l', [.postProcess l'])

/-- The caller's operations one after another. -/
def bodyRun : Body → List BodyOp → Body × List Effect
  | b, [] => (b, [])
  | b, op :: ops =>
    ((bodyRun (bodyStep b op).1 ops).1, (bodyStep b op).2 ++ (bodyRun (bodyStep b op).1 ops).2)

/-- A whole call: `RoundTrip`, then the caller's operations on the body it returns. -/
def serve (req : HttpRequest) (up : Upstream) (ops : List BodyOp) : List Effect :=
  match roundTrip req up with
  | (.error _, es) => es
  | (.response b, es) => es ++ (bodyRun b ops).2

/-! ## The caller's operations -/

/-- How much the caller reads before its first close. -/
def readBeforeClose : List BodyOp → Nat
  | [] => 0
  | .read n :: ops => n + readBeforeClose ops
  | .close :: _ => 0

@[simp] theorem bodyRun_nil (b : Body) : bodyRun b [] = (b, []) := rfl

theorem bodyRun_cons (b : Body) (op : BodyOp) (ops : List BodyOp) :
    (bodyRun b (op :: ops)).2 = (bodyStep b op).2 ++ (bodyRun (bodyStep b op).1 ops).2 := rfl

/-- The upstream body: each close is a close of it, and nothing else happens. -/
theorem bodyRun_upstream : ∀ (rest : List Char) (ops : List BodyOp),
    (bodyRun (.upstream rest) ops).2 = List.replicate (ops.count .close) .upstreamClose
  | _, [] => rfl
  | rest, .read n :: ops => by
    rw [bodyRun_cons, bodyStep, bodyRun_upstream]
    simp
  | rest, .close :: ops => by
    rw [bodyRun_cons, bodyStep, bodyRun_upstream]
    simp [List.replicate_succ]

/-- A closed wrapper does nothing more. -/
theorem bodyRun_wrapped_closed : ∀ (rest buf : List Char) (l : APILog) (ops : List BodyOp),
    (bodyRun (.wrapped rest buf true l) ops).2 = []
  | _, _, _, [] => rfl
  | rest, buf, l, .read n :: ops => by
    rw [bodyRun_cons, bodyStep, bodyRun_wrapped_closed]
    rfl
  | rest, buf, l, .close :: ops => by
    rw [bodyRun_cons, bodyStep, if_pos rfl, bodyRun_wrapped_closed]
    rfl

/-- The wrapper posts one row, at the first close, holding `buf` and what was read before that
close; it posts nothing if the caller never closes it, and never closes the upstream body. -/
theorem bodyRun_wrapped : ∀ (rest buf : List Char) (l : APILog) (ops : List BodyOp),
    (bodyRun (.wrapped rest buf false l) ops).2 =
      if BodyOp.close ∈ ops then
        [.postProcess { l with res := ⟨buf ++ rest.take (readBeforeClose ops)⟩ }]
      else []
  | _, _, _, [] => rfl
  | rest, buf, l, .read n :: ops => by
    rw [bodyRun_cons, bodyStep, bodyRun_wrapped]
    simp [readBeforeClose, List.take_add]
  | rest, buf, l, .close :: ops => by
    rw [bodyRun_cons, bodyStep, if_neg Bool.false_ne_true, bodyRun_wrapped_closed]
    simp [readBeforeClose]

/-! ## A whole call -/

/-- The text `RoundTrip` stores in `l.Req`. -/
def reqText (body : Option (String × Option String)) : String := (body.map Prod.fst).getD ""

/-- A logged call writes one row when reading the request fails, when the upstream call fails,
or when the caller closes the body (then with what it read before), and no row otherwise; it
never closes the upstream body. -/
theorem serve_logged {req : HttpRequest} (h : req.path = loggedPath) (up : Upstream)
    (ops : List BodyOp) :
    serve req up ops =
      match req.body, up with
      | some (text, some e), _ => [.postProcess ⟨text, "", e⟩]
      | body, .error e => [.postProcess ⟨reqText body, "", e⟩]
      | body, .response t =>
        if BodyOp.close ∈ ops then
          [.postProcess ⟨reqText body, ⟨t.toList.take (readBeforeClose ops)⟩, ""⟩]
        else [] := by
  obtain ⟨path, body⟩ := req
  subst h
  rcases body with _ | ⟨text, _ | e⟩ <;> cases up <;>
    simp [serve, roundTrip, bodyRun_wrapped, reqText]

/-- A caller that reads four characters of the answer and closes twice: one row, with those
four characters. -/
theorem serve_logged_read_then_close :
    serve ⟨"/v1/chat/completions", some ("q", none)⟩ (.response "answer")
      [.read 4, .close, .close] = [.postProcess ⟨"q", "answ", ""⟩] :=
  (@serve_logged ⟨"/v1/chat/completions", some ("q", none)⟩ rfl _ _).trans (by decide)

/-- Any other call writes no row; each close of its body closes the upstream body. -/
theorem serve_unlogged {req : HttpRequest} (h : req.path ≠ loggedPath) (up : Upstream)
    (ops : List BodyOp) :
    serve req up ops =
      match up with
      | .error _ => []
      | .response _ => List.replicate (ops.count .close) .upstreamClose := by
  cases up <;> simp [serve, roundTrip, h, bodyRun_upstream]

/-- Another path: two closes of the body are two closes of the upstream body. -/
theorem serve_unlogged_close_twice :
    serve ⟨"/v1/models", none⟩ (.response "[]") [.close, .read 1, .close] =
      [.upstreamClose, .upstreamClose] :=
  (@serve_unlogged ⟨"/v1/models", none⟩ (by decide) _ _).trans (by decide)

end NewApi
