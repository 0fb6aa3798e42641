import Bairelay.Rtsp.Url

/-!
# Authentication

The credentials of a request (`rtsp/protocol/auth.rs`, and `authenticate` in
`rtsp/server/connection.rs`). The decoding of Base64 and the hash are parameters
(`Digests`).

* `authenticate_user`: whom it admits is one of the users, and has shown that it knows the
  password.
-/

namespace Bairelay

/-- The methods of requests; others are refused. -/
inductive RtspMethod where
  | options
  | describe
  | setup
  | play
  | teardown
  | pause
  | getParameter
  deriving DecidableEq, Repr

/-- A request, reduced to what the server acts on. -/
structure ParsedRequest where
  method : RtspMethod
  uri : Bytes
  cseq : UInt32
  session : Option Bytes := none
  authorization : Option Bytes := none
  transport : Option Bytes := none
  deriving DecidableEq, Repr

/-- A user of the server and the password. -/
structure UserCred where
  name : Bytes
  password : Bytes
  deriving DecidableEq, Repr

/-- A random value to be hashed with the password, and when it was made. -/
structure Nonce where
  value : Bytes
  created : Instant
  deriving DecidableEq, Repr

/-- Whether a nonce is too old. -/
def Nonce.isStale (nonce : Nonce) (now : Instant) (ttl : Duration) : Bool :=
  ttl ≤ now - nonce.created

/-- The `base64` and `md5` crates. -/
structure Digests where
  base64 : Bytes → Option Bytes
  md5 : Bytes → Bytes

/-- Why an `Authorization` is refused. -/
inductive AuthError where
  | malformed
  | unknownScheme
  | badCredentials
  | staleNonce
  deriving DecidableEq, Repr

variable (digests : Digests)

/-- A user by name and password, both of which have to be those of one user. -/
def verifyBasic (authz : Bytes) (users : List UserCred) : Except AuthError Bytes :=
  match stripPrefixIgnoreCase (utf8 "Basic ") authz with
  | none => throw .unknownScheme
  | some rest =>
    match (digests.base64 (trim rest)).filter isUtf8 with
    | none => throw .malformed
    | some decoded =>
      match splitOnce 0x3a decoded with
      | none => throw .malformed
      | some (user, pass) =>
        match users.find? fun u => u.name = user ∧ u.password = pass with
        | some u => return u.name
        | none => throw .badCredentials

/-- Two digits for each byte. -/
def hexLower (s : Bytes) : Bytes :=
  s.flatMap fun b => [b / 16, b % 16].map fun d => if d < 10 then 0x30 + d else 0x57 + d

/-- The digest of some text, in hex. -/
def md5Hex (input : Bytes) : Bytes := hexLower (digests.md5 input)

/-- Parts with colons between them. -/
def joinColons (parts : List Bytes) : Bytes := parts.intersperse [0x3a] |>.flatten

/-- The hash over the password and the request. -/
def digestResponse (username realm password method uri nonce nc cnonce qop : Bytes) : Bytes :=
  let ha1 := md5Hex digests (joinColons [username, realm, password])
  let ha2 := md5Hex digests (joinColons [method, uri])
  md5Hex digests (joinColons [ha1, nonce, nc, cnonce, qop, ha2])

/-- Split at the commas that are not quoted. -/
def splitDigestParams : (inQuotes : Bool) → (cur : Bytes) → Bytes → List Bytes
  | _, cur, [] => if trim cur = [] then [] else [cur]
  | inQuotes, cur, ch :: rest =>
    if ch = 0x22 then splitDigestParams (!inQuotes) (cur ++ [ch]) rest
    else if ch = 0x2c ∧ !inQuotes then cur :: splitDigestParams inQuotes [] rest
    else splitDigestParams inQuotes (cur ++ [ch]) rest

/-- Quotes at both ends are left out, however many. -/
def trimQuotes (s : Bytes) : Bytes :=
  ((s.dropWhile (· = 0x22)).reverse.dropWhile (· = 0x22)).reverse

/-- The parameters of a header; of two of one name, the last counts. -/
def parseDigestParams (value : Bytes) : Except AuthError (Bytes → Option Bytes) :=
  match stripPrefixIgnoreCase (utf8 "Digest ") value with
  | none => throw .unknownScheme
  | some rest => do
    let params ← (splitDigestParams false [] rest).mapM fun part =>
      match splitOnce 0x3d part with
      | some (k, v) => return ((trim k).map toAsciiLowercase, trimQuotes (trim v))
      | none => throw .malformed
    return fun name => params.reverse.lookup name

/-- The path of a URI, with the query. -/
def uriPath (uri : Bytes) : Bytes :=
  match splitOn? (utf8 "://") uri with
  | some (_, after) =>
    match splitOnce 0x2f after with
    | some (_, path) => 0x2f :: path
    | none => [0x2f]
  | none => uri

/-- URIs are compared by their paths. -/
def digestUriPathsMatch (a b : Bytes) : Bool := uriPath a = uriPath b

/-- A user by a digest over the password, the request and the nonce. -/
def verifyDigest (authz method requestUri : Bytes) (users : List UserCred) (realm : Bytes)
    (nonceOk : Bytes → Bool) : Except AuthError Bytes := do
  let params ← parseDigestParams authz
  match params (utf8 "username"), params (utf8 "nonce"), params (utf8 "uri"),
    params (utf8 "response") with
  | some username, some nonce, some uri, some response =>
    let qop := (params (utf8 "qop")).getD []
    let nc := (params (utf8 "nc")).getD []
    let cnonce := (params (utf8 "cnonce")).getD []
    -- A stale nonce is reported before the credentials are looked at.
    if !nonceOk nonce then throw .staleNonce
    -- The path alone is compared, as clients send whole URIs or paths.
    else if !digestUriPathsMatch uri requestUri then throw .badCredentials
    else
      let shown := fun user : UserCred => user.name = username ∧
        digestResponse digests user.name realm user.password method uri nonce nc cnonce qop =
          -- Upper case digits are taken, too.
          response.map toAsciiLowercase
      match users.find? fun user => shown user with
      | some user => return user.name
      | none => throw .badCredentials
  | _, _, _, _ => throw .malformed

/-! ## Challenges -/

/-- The challenge for `Basic`. -/
def buildBasicChallenge (realm : Bytes) : Bytes :=
  utf8 "Basic realm=\"" ++ realm ++ utf8 "\""

/-- The challenge for `Digest`, which says if only the nonce was too old. -/
def buildDigestChallenge (realm : Bytes) (nonce : Nonce) (stale : Bool) : Bytes :=
  utf8 "Digest realm=\"" ++ realm ++ utf8 "\", qop=\"auth\", nonce=\"" ++ nonce.value ++
    utf8 "\", algorithm=MD5" ++ if stale then utf8 ",stale=true" else []

/-- Who it is, or what to answer. -/
inductive AuthOutcome where
  | ok (user : Bytes)
  | challenge (headers : List (Bytes × Bytes))
  | forbidden
  deriving DecidableEq, Repr

/-- How long a nonce is good for. -/
def nonceTtl : Duration := 300 * 10 ^ 9

/-- What a connection authenticates against. -/
structure Realm where
  users : List UserCred
  realm : Bytes
  isTls : Bool
  deriving DecidableEq, Repr

/-- Check the credentials of a request; a nonce that is stale is replaced by a fresh
    one. Passwords in the clear are taken over TLS only. -/
def authenticate (realm : Realm) (now : Instant) (nonce : Nonce) (fresh : Bytes)
    (request : ParsedRequest) (method : Bytes) : AuthOutcome × Nonce :=
  let wwwAuthenticate := utf8 "WWW-Authenticate"
  let digestChallenge := (wwwAuthenticate, buildDigestChallenge realm.realm nonce false)
  let basicChallenge := (wwwAuthenticate, buildBasicChallenge realm.realm)
  match request.authorization with
  -- In the clear only the digest is offered.
  | none =>
    (.challenge (digestChallenge :: if realm.isTls then [basicChallenge] else []), nonce)
  | some authz =>
    -- Basic is taken over TLS only; elsewhere the header is read as a digest.
    if realm.isTls ∧ (utf8 "basic ").isPrefixOf (authz.map toAsciiLowercase) then
      match verifyBasic digests authz realm.users with
      | .ok user => (.ok user, nonce)
      | .error .badCredentials => (.forbidden, nonce)
      | .error _ => (.challenge [basicChallenge], nonce)
    else
      let nonceOk := fun n => n = nonce.value ∧ !nonce.isStale now nonceTtl
      match verifyDigest digests authz method request.uri realm.users realm.realm
          (fun n => nonceOk n) with
      | .ok user => (.ok user, nonce)
      -- A fresh nonce, which is said to be stale so that the client tries again by itself.
      | .error .staleNonce =>
        let fresh : Nonce := ⟨fresh, now⟩
        (.challenge [(wwwAuthenticate, buildDigestChallenge realm.realm fresh true)], fresh)
      | .error .badCredentials => (.forbidden, nonce)
      | .error _ => (.challenge [digestChallenge], nonce)

/-- A request shows that it knows the password of a user. -/
inductive UserCred.ShownBy (realm : Realm) (nonce : Nonce) (request : ParsedRequest)
    (method : Bytes) (cred : UserCred) : Prop
  | basic {authz rest decoded : Bytes} (htls : realm.isTls)
      (hauthz : request.authorization = some authz)
      (hbasic : stripPrefixIgnoreCase (utf8 "Basic ") authz = some rest)
      (hdecoded : digests.base64 (trim rest) = some decoded)
      (hsplit : splitOnce 0x3a decoded = some (cred.name, cred.password)) :
      ShownBy realm nonce request method cred
  | digest {authz uri nc cnonce qop response : Bytes} {params : Bytes → Option Bytes}
      (hauthz : request.authorization = some authz) (hparams : parseDigestParams authz = .ok params)
      (hnonce : params (utf8 "nonce") = some nonce.value)
      (hresponse : params (utf8 "response") = some response)
      (hshown : digestResponse digests cred.name realm.realm cred.password method uri
        nonce.value nc cnonce qop = response.map toAsciiLowercase) :
      ShownBy realm nonce request method cred

section

variable {digests}

/-- A user who is accepted has shown the password. -/
theorem verifyBasic_user {authz user : Bytes} {users : List UserCred}
    (h : verifyBasic digests authz users = .ok user) :
    ∃ cred ∈ users, cred.name = user ∧ ∃ rest decoded,
      stripPrefixIgnoreCase (utf8 "Basic ") authz = some rest ∧
      digests.base64 (trim rest) = some decoded ∧
      splitOnce 0x3a decoded = some (cred.name, cred.password) := by
  rw [verifyBasic] at h
  split at h
  · cases h
  · next rest hrest =>
    split at h
    · cases h
    · next decoded hdecoded =>
      split at h
      · cases h
      · next user' pass hsplit =>
        split at h
        · next cred hfind =>
          cases h
          obtain ⟨rfl, rfl⟩ : cred.name = user' ∧ cred.password = pass := by
            simpa using List.find?_some hfind
          exact ⟨cred, List.mem_of_find?_eq_some hfind, rfl, rest, decoded, hrest,
            (Option.filter_eq_some_iff.1 hdecoded).1, hsplit⟩
        · cases h

/-- A user who is accepted has shown a digest over the password. -/
theorem verifyDigest_user {authz method requestUri realm user : Bytes} {users : List UserCred}
    {nonceOk : Bytes → Bool}
    (h : verifyDigest digests authz method requestUri users realm nonceOk = .ok user) :
    ∃ cred ∈ users, cred.name = user ∧ ∃ params nonce uri nc cnonce qop response,
      parseDigestParams authz = .ok params ∧ params (utf8 "nonce") = some nonce ∧ nonceOk nonce ∧
      params (utf8 "response") = some response ∧
      digestResponse digests cred.name realm cred.password method uri nonce nc cnonce qop =
        response.map toAsciiLowercase := by
  rw [verifyDigest] at h
  cases hparams : parseDigestParams authz with
  | error e =>
    rw [hparams] at h
    cases h
  | ok params =>
    rw [hparams] at h
    dsimp only [bind, Except.bind] at h
    split at h
    · next username nonce uri response husername hnonce huri hresponse =>
      split at h
      · cases h
      · next hok =>
        split at h
        · cases h
        · split at h
          · next cred hfind =>
            cases h
            have hshown := List.find?_some hfind
            simp only [decide_eq_true_eq] at hshown
            exact ⟨cred, List.mem_of_find?_eq_some hfind, rfl, params, nonce, uri, _, _, _,
              response, rfl, hnonce, by simpa using hok, hresponse, hshown.2⟩
          · cases h
    · cases h

/-- Whom a request is taken to be from is one of the users, and the request shows that it
    knows the password. -/
theorem authenticate_user {realm : Realm} {now : Instant} {nonce nonce' : Nonce} {fresh : Bytes}
    {request : ParsedRequest} {method user : Bytes}
    (h : authenticate digests realm now nonce fresh request method = (.ok user, nonce')) :
    ∃ cred ∈ realm.users, cred.name = user ∧ cred.ShownBy digests realm nonce request method := by
  rw [authenticate] at h
  split at h
  · cases h
  · next authz hauthz =>
    split at h
    · next htls =>
      split at h
      · next hbasic =>
        cases h
        obtain ⟨cred, hcred, hname, rest, decoded, hrest, hdecoded, hsplit⟩ :=
          verifyBasic_user hbasic
        exact ⟨cred, hcred, hname, .basic htls.1 hauthz hrest hdecoded hsplit⟩
      · cases h
      · cases h
    · dsimp only at h
      split at h
      · next hdigest =>
        cases h
        obtain ⟨cred, hcred, hname, params, value, uri, nc, cnonce, qop, response, hparams,
          hnonce, hok, hresponse, hshown⟩ := verifyDigest_user hdigest
        obtain ⟨rfl, -⟩ : value = nonce.value ∧ _ := by simpa using hok
        exact ⟨cred, hcred, hname, .digest hauthz hparams hnonce hresponse hshown⟩
      · cases h
      · cases h
      · cases h

end

end Bairelay
