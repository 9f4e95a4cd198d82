import NewApi.Override.Param

/-!
# `JWT2Session`: a bearer token copied into the session

`JWT2Session` (`src/middleware/patch.go`) runs before the handlers of a request.  With no
`Authorization` header it passes the request on.  Otherwise it removes the first `Bearer ` from
the header and parses the rest with `util.ParseToken`.  A token that does not parse aborts the
request with 401.  A token that parses has its ten claims set in the session, one key each, and
the session saved; a failed save aborts the request with 500.

The session is the map of values the store holds for the client (`session.Values`), and
`jwt2Session` gives the outcome with that map as stored after the request.

* `jwt2Session_abort`: an aborted request leaves the stored session as it was; it is aborted
  with 401 exactly when a header's token does not parse, and with 500 exactly when it parses
  but the session cannot be saved.
* `jwt2Session_next_lookup`: when the token parses and the session is saved, the request goes
  on, and the session holds each claim under its key and every other key as before.
* `jwt2Session_bearer`: the `Bearer ` prefix is optional.
-/

namespace NewApi

/-! ## Tokens -/

/-- `util.Claims`, without `jwt.RegisteredClaims`, which `JWT2Session` does not read. -/
structure Claims where
  id : Int
  username : String
  role : Int
  status : Int
  group : String
  turnstile : Bool
  pendingUsername : String
  /-- `PendingUserID`. -/
  pendingUserID : String
  affCode : String
  /-- `OAuthState`. -/
  oauthState : String
  deriving DecidableEq, Repr

/-- What the JWT library and the session store outside `src/` do on one request. -/
structure AuthEnv where
  /-- `jwt.ParseWithClaims(tokenString, &Claims{}, keyFunc)` with the public key: its error, or
  the claims and `token.Valid`. -/
  parseWithClaims : String → Except String (Claims × Bool)
  /-- The error of `session.Save()`. -/
  saveError : Option String

/-- `util.ParseToken`. -/
def parseToken (env : AuthEnv) (tokenString : String) : Except String Claims :=
  match env.parseWithClaims tokenString with
  | .error e => .error e
  | .ok (claims, valid) => if valid then .ok claims else .error "invalid token"

/-! ## The middleware -/

/-- `strings.Replace(token, "Bearer ", "", 1)`: the header without its first `Bearer `, wherever
that stands. -/
def stripBearer (token : String) : String := ⟨replaceOnce "Bearer ".toList [] token.toList⟩

/-- The values `JWT2Session` sets in the session, in order, under their keys; numbers are kept
as JSON numbers. -/
def claimEntries (claims : Claims) : List (String × JVal) :=
  [("id", .num (.ofInt claims.id)), ("username", .str claims.username),
    ("role", .num (.ofInt claims.role)), ("status", .num (.ofInt claims.status)),
    ("group", .str claims.group), ("turnstile", .bool claims.turnstile),
    ("pending_username", .str claims.pendingUsername),
    ("pending_user_id", .str claims.pendingUserID), ("aff", .str claims.affCode),
    ("oauth_state", .str claims.oauthState)]

/-- How the middleware ends: the chain goes on (`c.Next()`), or the request is aborted with a
status and a JSON body. -/
inductive Outcome where
  | next
  | abort (status : Nat) (body : JVal)
  deriving DecidableEq, Repr

/-- `c.AbortWithStatusJSON(status, gin.H{"success": false, "message": message})`, the map
written with its keys sorted. -/
def abortWith (status : Nat) (message : String) : Outcome :=
  .abort status (.obj [("message", .str message), ("success", .bool false)])

/-- The abort for a token that does not parse. -/
def unauthorized : Outcome := abortWith 401 "无权进行此操作，未提供有效的 Authorization"

/-- The abort for a session that cannot be saved. -/
def saveFailed : Outcome := abortWith 500 "无法保存 session 数据"

/-- `JWT2Session`, on the `Authorization` header and the session as stored before the request:
the outcome, and the session as stored after it.  Values set in a session that is not saved are
not stored. -/
def jwt2Session (env : AuthEnv) (authorization : String) (session : List (String × JVal)) :
    Outcome × List (String × JVal) :=
  if authorization = "" then (.next, session)
  else
    match parseToken env (stripBearer authorization) with
    | .error _ => (unauthorized, session)
    | .ok claims =>
      match env.saveError with
      | some _ => (saveFailed, session)
      | none => (.next, (claimEntries claims).foldl (fun s kv => mapSet kv.1 kv.2 s) session)

/-! ## What a request does to the session -/

theorem unauthorized_ne_saveFailed : unauthorized ≠ saveFailed := by decide

theorem nodup_keys_claimEntries (claims : Claims) : ((claimEntries claims).map Prod.fst).Nodup := by
  simp [claimEntries]

/-- An aborted request leaves the stored session as it was.  It is aborted with 401 exactly when
a header is there and its token does not parse, and with 500 exactly when the token parses but
the session cannot be saved. -/
theorem jwt2Session_abort (env : AuthEnv) (authorization : String)
    (session : List (String × JVal)) :
    ((jwt2Session env authorization session).1 ≠ .next →
        (jwt2Session env authorization session).2 = session) ∧
      ((jwt2Session env authorization session).1 = unauthorized ↔
        authorization ≠ "" ∧ ∃ e, parseToken env (stripBearer authorization) = .error e) ∧
      ((jwt2Session env authorization session).1 = saveFailed ↔
        authorization ≠ "" ∧ (∃ claims, parseToken env (stripBearer authorization) = .ok claims) ∧
          env.saveError.isSome) := by
  unfold jwt2Session
  by_cases ha : authorization = ""
  · simp [ha, unauthorized, saveFailed, abortWith]
  · rw [if_neg ha]
    rcases parseToken env (stripBearer authorization) with e | claims
    · simp [ha, unauthorized_ne_saveFailed]
    · rcases env.saveError with _ | e
      · simp [unauthorized, saveFailed, abortWith]
      · simp [ha, unauthorized_ne_saveFailed.symm]

/-- When the header's token parses and the session is saved, the request goes on, and the
stored session holds each claim under its key and every other key as before. -/
theorem jwt2Session_next_lookup {env : AuthEnv} {authorization : String} {claims : Claims}
    (ha : authorization ≠ "") (hp : parseToken env (stripBearer authorization) = .ok claims)
    (hs : env.saveError = none) (session : List (String × JVal)) :
    (jwt2Session env authorization session).1 = .next ∧
      ∀ k, (jwt2Session env authorization session).2.lookup k =
        ((claimEntries claims).lookup k).or (session.lookup k) := by
  have h : jwt2Session env authorization session =
      (.next, (claimEntries claims).foldl (fun s kv => mapSet kv.1 kv.2 s) session) := by
    simp only [jwt2Session, if_neg ha, hp, hs]
  rw [h]
  dsimp only
  exact ⟨rfl, fun k => lookup_foldl_mapSet (nodup_keys_claimEntries claims)⟩

/-- A token whose claims leave the pending fields empty, as `util.GenerateToken` issues them,
empties the `oauth_state` that an earlier request stored. -/
theorem jwt2Session_next_lookup_oauth_state :
    let claims : Claims := ⟨1, "root", 100, 1, "default", false, "", "", "", ""⟩
    let env : AuthEnv := ⟨fun _ => .ok (claims, true), none⟩
    "Bearer t" ≠ "" ∧ parseToken env (stripBearer "Bearer t") = .ok claims ∧
      env.saveError = none ∧
      (jwt2Session env "Bearer t" [("oauth_state", .str "s")]).2.lookup "oauth_state" =
        some (.str "") := by
  intro claims env
  exact ⟨by decide, rfl, rfl,
    ((@jwt2Session_next_lookup env "Bearer t" claims (by decide) rfl rfl _).2 "oauth_state").trans
      rfl⟩

/-- The header's token with or without the `Bearer ` prefix is the same token, provided it holds
no `Bearer ` of its own. -/
theorem stripBearer_bearer {t : String} (h : ¬ "Bearer ".toList <:+: t.toList) :
    stripBearer ("Bearer " ++ t) = t ∧ stripBearer t = t := by
  constructor
  · show String.mk (replaceOnce _ [] ("Bearer ".toList ++ t.toList)) = t
    rw [replaceOnce_at_start _ (by decide)]
    rfl
  · show String.mk (replaceOnce _ [] t.toList) = t
    rw [replaceOnce_of_no_occurrence h]
    rfl

/-- The `Bearer ` prefix is optional: a request carrying `Bearer t` is handled as one carrying
`t`. -/
theorem jwt2Session_bearer (env : AuthEnv) {t : String} (ht : t ≠ "")
    (h : ¬ "Bearer ".toList <:+: t.toList) (session : List (String × JVal)) :
    jwt2Session env ("Bearer " ++ t) session = jwt2Session env t session := by
  have hb : "Bearer " ++ t ≠ "" := fun e => by simpa using congrArg String.toList e
  simp only [jwt2Session, if_neg hb, if_neg ht, (stripBearer_bearer h).1, (stripBearer_bearer h).2]

/-- `Bearer abc` and `abc` are the same request. -/
theorem jwt2Session_bearer_abc :
    "abc" ≠ "" ∧ ¬ "Bearer ".toList <:+: "abc".toList ∧
      jwt2Session ⟨fun _ => .error "bad", none⟩ ("Bearer " ++ "abc") [] =
        jwt2Session ⟨fun _ => .error "bad", none⟩ "abc" [] :=
  ⟨by decide, by decide, jwt2Session_bearer _ (by decide) (by decide) _⟩

end NewApi
