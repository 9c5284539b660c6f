import FraudDetection.Gateway.Auth
import FraudDetection.Gateway.RetryAfter
import FraudDetection.Python.Split

/-!
# Whose budget a request counts against

The limiter counts a request with a verified token for its subject, and any other for an address
that the request may name itself.

`extractClientId_eq_user_iff` says which requests count for a subject. The limiter touches the key
of its client only, so the answers to a subject's requests are those it would get alone
(`respondAll_own`).
-/

namespace FraudDetection.Gateway

open Python Store

/-! ## The code -/

/-- A request: its path, its headers under their names in lower case, and the host of the peer, if
it is known. -/
structure Request where
  path : String
  headers : List (String × String)
  clientHost : Option String

/-- `str.isspace` for one character. -/
def isSpace (c : Char) : Bool :=
  let n := c.toNat
  (9 ≤ n ∧ n ≤ 13) ∨ (28 ≤ n ∧ n ≤ 32) ∨ n = 0x85 ∨ n = 0xa0 ∨ n = 0x1680 ∨
    (0x2000 ≤ n ∧ n ≤ 0x200a) ∨ n = 0x2028 ∨ n = 0x2029 ∨ n = 0x202f ∨ n = 0x205f ∨ n = 0x3000

/-- `text.strip()` -/
def strip (text : String) : String :=
  String.ofList ((text.toList.dropWhile isSpace).reverse.dropWhile isSpace).reverse

/-- The token of a header that starts with `bearer` and a blank, in any case: what follows the first
blank. -/
def bearerToken (header : String) : Option String :=
  if "bearer ".toList.isPrefixOf (header.toList.map Char.toLower) then
    some (String.ofList ((header.toList.dropWhile (· ≠ ' ')).drop 1))
  else none

section Code

variable (py : PyLib) (decode : Decode) (settings : JwtSettings)

/-- The subject of a request: that of the token it bears, if the token is verified and its subject
is not empty. The expiry is not verified. -/
def Request.subject? (request : Request) : Option String :=
  match (request.headers.lookup "authorization").bind bearerToken with
  | none => none
  | some token =>
      match decode token settings.jwtSecretKey [settings.jwtAlgorithm] with
      | .error _ => none
      | .ok payload =>
          match claim payload "sub" with
          | .str subject => if subject = "" then none else some subject
          | subject => if subject.truthy then some (py.str subject) else none

/-- The address of a request: the first one of the header for forwarded requests, if it has one. -/
def Request.address (request : Request) : String :=
  match request.headers.lookup "x-forwarded-for" with
  | some forwarded =>
      if forwarded = "" then request.clientHost.getD "unknown" else strip (firstPart forwarded ',')
  | none => request.clientHost.getD "unknown"

/-- `_extract_client_id` -/
def extractClientId (request : Request) : String :=
  match request.subject? py decode settings with
  | some subject => "user:" ++ subject
  | none => "ip:" ++ request.address

/-- A request that arrives: when, what the application answers, and what becomes of the pipeline of
the limiter, if there is one. -/
structure Arrival where
  request : Request
  now : ℚ
  rateLimiter : Option (Option Transaction)
  callNext : Response
  now_nonneg : 0 ≤ now

variable (lib : NumberLib) (rateLimitPerMinute : ℤ)

/-- `RateLimitMiddleware.dispatch` -/
def respond (a : Arrival) (ks : RateStore) : Response × RateStore :=
  dispatch lib rateLimitPerMinute a.rateLimiter a.request.path
    (extractClientId lib.toPyLib decode settings a.request) a.now a.now_nonneg a.callNext ks

/-- The answers to requests, one after the other. -/
def respondAll : List Arrival → RateStore → List (Arrival × Response)
  | [], _ => []
  | a :: arrivals, ks =>
      (a, (respond decode settings lib rateLimitPerMinute a ks).1) ::
        respondAll arrivals (respond decode settings lib rateLimitPerMinute a ks).2

/-- The call of the limiter for a request, if it makes one. -/
def Arrival.call? (a : Arrival) : Option Call :=
  if a.request.path = "/health" ∨ a.request.path = "/metrics" then none
  else a.rateLimiter.map fun pipeline =>
    ⟨extractClientId lib.toPyLib decode settings a.request, rateLimitPerMinute, 60, a.now, pipeline,
      a.now_nonneg⟩

end Code

/-! ## Buckets -/

section Buckets

variable {py : PyLib} {decode : Decode} {settings : JwtSettings} {request : Request} {subject : String}

/-- No address is a subject. -/
theorem ip_ne_user (address subject : String) : "ip:" ++ address ≠ "user:" ++ subject := by
  intro h
  have hlists := congrArg String.toList h
  rw [String.toList_append, String.toList_append] at hlists
  cases hlists

/-- A request counts for a subject exactly when its token is verified and is the subject's. -/
theorem extractClientId_eq_user_iff : extractClientId py decode settings request = "user:" ++ subject ↔
    request.subject? py decode settings = some subject := by
  unfold extractClientId
  cases request.subject? py decode settings with
  | none =>
    refine iff_of_false (ip_ne_user _ _) ?_
    rintro ⟨⟩
  | some subject' =>
    rw [Option.some_inj]
    exact String.append_right_inj "user:"

end Buckets

/-! ## One request -/

section One

variable {decode : Decode} {settings : JwtSettings} {lib : NumberLib} {rateLimitPerMinute : ℤ}
  {a : Arrival} {ks ks' : RateStore}

/-- The store after a request is that after its call. -/
theorem snd_respond : (respond decode settings lib rateLimitPerMinute a ks).2 =
    match a.call? decode settings lib rateLimitPerMinute with
    | none => ks
    | some call => (checkRateLimit lib call ks).2 := by
  unfold respond dispatch Arrival.call?
  split
  · rfl
  · cases a.rateLimiter with
    | none => rfl
    | some pipeline =>
      dsimp only [Option.map_some]
      split
      · rfl
      · rfl

/-- The response to a request is the application's if it makes no call, and else depends on the
verdict. -/
theorem fst_respond_congr
    (h : ∀ call, a.call? decode settings lib rateLimitPerMinute = some call →
      (checkRateLimit lib call ks).1 = (checkRateLimit lib call ks').1) :
    (respond decode settings lib rateLimitPerMinute a ks).1 =
      (respond decode settings lib rateLimitPerMinute a ks').1 := by
  unfold respond dispatch
  unfold Arrival.call? at h
  split
  · rfl
  · rename_i hpath
    rw [if_neg hpath] at h
    cases hlimiter : a.rateLimiter with
    | none => rfl
    | some pipeline =>
      rw [hlimiter] at h
      have hverdict := h _ rfl
      dsimp only
      rw [hverdict]
      split
      · rfl
      · rfl

theorem clientId_of_call {call : Call} (h : a.call? decode settings lib rateLimitPerMinute = some call) :
    call.clientId = extractClientId lib.toPyLib decode settings a.request ∧
      call.limit = rateLimitPerMinute ∧ call.window = 60 ∧ call.now = a.now := by
  unfold Arrival.call? at h
  split at h
  · cases h
  · obtain ⟨pipeline, -, rfl⟩ := Option.map_eq_some_iff.mp h
    exact ⟨rfl, rfl, rfl, rfl⟩

end One

/-! ## Runs -/

section Runs

variable {decode : Decode} {settings : JwtSettings} {lib : NumberLib} {rateLimitPerMinute : ℤ}
  {ks ks' : RateStore} {subject : String}

/-- The requests with the token of a subject. -/
def Arrival.Owned (decode : Decode) (settings : JwtSettings) (py : PyLib) (subject : String)
    (a : Arrival) : Bool :=
  a.request.subject? py decode settings = some subject

theorem owned_iff {py : PyLib} {a : Arrival} : a.Owned decode settings py subject = true ↔
    extractClientId py decode settings a.request = "user:" ++ subject := by
  rw [extractClientId_eq_user_iff]
  exact decide_eq_true_iff

/-- A request of another one leaves the entry of the subject alone. -/
theorem respond_frame {a : Arrival} (h : a.Owned decode settings lib.toPyLib subject = false) :
    (respond decode settings lib rateLimitPerMinute a ks).2 (rateKey ("user:" ++ subject)) =
      ks (rateKey ("user:" ++ subject)) := by
  rw [snd_respond]
  cases hcall : a.call? decode settings lib rateLimitPerMinute with
  | none => rfl
  | some call =>
    refine (actsOn_checkRateLimit call).frame ks _ ?_
    intro hkey
    obtain ⟨hclient, -⟩ := clientId_of_call hcall
    rw [rateKey_inj, hclient] at hkey
    rw [owned_iff.mpr hkey.symm] at h
    cases h

/-- A request of the subject sees the entry of the subject only. -/
theorem respond_congr {a : Arrival} (h : a.Owned decode settings lib.toPyLib subject = true)
    (hks : ks (rateKey ("user:" ++ subject)) = ks' (rateKey ("user:" ++ subject))) :
    (respond decode settings lib rateLimitPerMinute a ks).1 =
        (respond decode settings lib rateLimitPerMinute a ks').1 ∧
      (respond decode settings lib rateLimitPerMinute a ks).2 (rateKey ("user:" ++ subject)) =
        (respond decode settings lib rateLimitPerMinute a ks').2 (rateKey ("user:" ++ subject)) := by
  have hid : ∀ call, a.call? decode settings lib rateLimitPerMinute = some call →
      call.clientId = "user:" ++ subject := by
    intro call hcall
    rw [(clientId_of_call hcall).1, owned_iff.mp h]
  constructor
  · refine fst_respond_congr ?_
    intro call hcall
    refine fst_checkRateLimit_congr ?_
    rw [hid call hcall]
    exact hks
  · rw [snd_respond, snd_respond]
    cases hcall : a.call? decode settings lib rateLimitPerMinute with
    | none => exact hks
    | some call =>
      have hacts := (@actsOn_checkRateLimit lib call).congr ks ks'
      rw [hid call hcall] at hacts
      exact hacts hks

theorem respondAll_own (arrivals : List Arrival)
    (hks : ks (rateKey ("user:" ++ subject)) = ks' (rateKey ("user:" ++ subject))) :
    (respondAll decode settings lib rateLimitPerMinute arrivals ks).filter
        (fun x => x.1.Owned decode settings lib.toPyLib subject) =
      respondAll decode settings lib rateLimitPerMinute
        (arrivals.filter (Arrival.Owned decode settings lib.toPyLib subject)) ks' := by
  induction arrivals generalizing ks ks' with
  | nil => rfl
  | cons a arrivals ih =>
    rw [respondAll]
    cases hown : a.Owned decode settings lib.toPyLib subject with
    | true =>
      obtain ⟨hresponse, hstore⟩ :=
        @respond_congr decode settings lib rateLimitPerMinute ks ks' subject a hown hks
      have hkept : (a :: arrivals).filter (Arrival.Owned decode settings lib.toPyLib subject)
          = a :: arrivals.filter (Arrival.Owned decode settings lib.toPyLib subject) :=
        List.filter_cons_of_pos hown
      rw [hkept, respondAll, ← ih hstore, ← hresponse]
      exact List.filter_cons_of_pos hown
    | false =>
      have hno : ¬ a.Owned decode settings lib.toPyLib subject = true := by
        rw [hown]
        decide
      have hdropped : (a :: arrivals).filter (Arrival.Owned decode settings lib.toPyLib subject)
          = arrivals.filter (Arrival.Owned decode settings lib.toPyLib subject) :=
        List.filter_cons_of_neg hno
      rw [hdropped, ← ih ((respond_frame hown).trans hks)]
      exact List.filter_cons_of_neg hno

/-- The answers to the requests with the token of a subject are those they would get alone: requests
without that token use up nothing of the subject's budget, whatever they claim, whatever happens to
Redis, and whatever the budget was. -/
theorem budget_is_own (decode : Decode) (settings : JwtSettings) (lib : NumberLib)
    (rateLimitPerMinute : ℤ) (subject : String) (arrivals : List Arrival) (ks : RateStore) :
    (respondAll decode settings lib rateLimitPerMinute arrivals ks).filter
        (fun x => x.1.Owned decode settings lib.toPyLib subject) =
      respondAll decode settings lib rateLimitPerMinute
        (arrivals.filter (Arrival.Owned decode settings lib.toPyLib subject)) ks :=
  respondAll_own arrivals rfl

/-- The store after requests is that after their calls. -/
theorem foldl_respond (arrivals : List Arrival) (ks : RateStore) :
    arrivals.foldl (fun ks a => (respond decode settings lib rateLimitPerMinute a ks).2) ks =
      stateAfter lib (arrivals.filterMap (Arrival.call? decode settings lib rateLimitPerMinute)) ks := by
  induction arrivals generalizing ks with
  | nil => rfl
  | cons a arrivals ih =>
    rw [List.foldl_cons, ih, snd_respond, List.filterMap_cons]
    cases a.call? decode settings lib rateLimitPerMinute with
    | none => rfl
    | some call => rfl

/-- What makes the middleware answer with status 429. -/
theorem rejected_of_status {a : Arrival} (hnext : a.callNext.statusCode ≠ 429)
    (h : (respond decode settings lib rateLimitPerMinute a ks).1.statusCode = 429) :
    ∃ call, a.call? decode settings lib rateLimitPerMinute = some call ∧
      (checkRateLimit lib call ks).1.allowed = false := by
  unfold respond dispatch at h
  unfold Arrival.call?
  split at h
  · exact absurd h hnext
  · rename_i hpath
    rw [if_neg hpath]
    cases hlimiter : a.rateLimiter with
    | none =>
      rw [hlimiter] at h
      exact absurd h hnext
    | some pipeline =>
      rw [hlimiter] at h
      refine ⟨_, rfl, ?_⟩
      dsimp only at h
      split at h
      · exact absurd h hnext
      · rename_i hallowed
        exact Bool.not_eq_true _ ▸ hallowed

/-- A call is turned away only when more calls of its client than the limit are in its window. -/
theorem lt_callsInWindow_of_rejected {before : List Call} {call : Call}
    (hfresh : ks (rateKey call.clientId) = none)
    (htime : (before ++ [call]).Pairwise fun a b => a.now ≤ b.now)
    (h : (checkRateLimit lib call (stateAfter lib before ks)).1.allowed = false) :
    call.limit < callsInWindow before call := by
  by_contra hle
  have hcount := @count_le_callsInWindow lib before call ks hfresh htime
  have hallowed : (checkRateLimit lib call (stateAfter lib before ks)).1.allowed = true := by
    rw [fst_checkRateLimit]
    split
    · rw [judge_of_le (by omega)]
    · rfl
  rw [h] at hallowed
  cases hallowed

/-- A request is turned away only after as many requests of its own bucket in the last minute as the
limit allows: with the token of the same subject, or without a token and from the same address. -/
theorem rejection_justified (decode : Decode) (settings : JwtSettings) (lib : NumberLib)
    (rateLimitPerMinute : ℤ) (before : List Arrival) (a : Arrival) (ks : RateStore)
    (hfresh : ks (rateKey (extractClientId lib.toPyLib decode settings a.request)) = none)
    (htime : (before ++ [a]).Pairwise fun a b => a.now ≤ b.now)
    (hnext : a.callNext.statusCode ≠ 429)
    (hrejected : (respond decode settings lib rateLimitPerMinute a
      (before.foldl (fun ks b => (respond decode settings lib rateLimitPerMinute b ks).2) ks)).1.statusCode
        = 429) :
    rateLimitPerMinute ≤ before.countP fun b =>
      extractClientId lib.toPyLib decode settings b.request =
        extractClientId lib.toPyLib decode settings a.request ∧ a.now - 60 < b.now := by
  obtain ⟨call, hcall, hverdict⟩ := rejected_of_status hnext hrejected
  obtain ⟨hclient, hlimit, hwindow, hnow⟩ := clientId_of_call hcall
  rw [foldl_respond] at hverdict
  have hcalls : ((before ++ [a]).filterMap
      (Arrival.call? decode settings lib rateLimitPerMinute)).Pairwise fun a b => a.now ≤ b.now := by
    refine List.Pairwise.filterMap _ ?_ htime
    intro b c hle d hd e he
    rw [(clientId_of_call hd).2.2.2, (clientId_of_call he).2.2.2]
    exact hle
  rw [List.filterMap_append, List.filterMap_cons, hcall, List.filterMap_nil] at hcalls
  have hmany := lt_callsInWindow_of_rejected (hclient ▸ hfresh) hcalls hverdict
  rw [hlimit] at hmany
  have hcount : (before.filterMap (Arrival.call? decode settings lib rateLimitPerMinute)).countP
      (fun c => c.clientId = call.clientId ∧ call.now - call.window < c.now) ≤
      before.countP fun b => extractClientId lib.toPyLib decode settings b.request =
        extractClientId lib.toPyLib decode settings a.request ∧ a.now - 60 < b.now := by
    rw [List.countP_filterMap]
    refine List.countP_mono_left ?_
    intro b _ hb
    cases hb' : b.call? decode settings lib rateLimitPerMinute with
    | none =>
      rw [hb'] at hb
      cases hb
    | some c =>
      rw [hb'] at hb
      have hin : c.clientId = call.clientId ∧ call.now - call.window < c.now := of_decide_eq_true hb
      obtain ⟨hclient', -, -, hnow'⟩ := clientId_of_call hb'
      rw [hclient', hnow', hclient, hnow, hwindow] at hin
      exact decide_eq_true hin
  unfold callsInWindow at hmany
  push_cast at hmany
  omega

end Runs

/-- A request without a token that comes through a proxy. -/
def proxied (seconds : ℕ) : Arrival where
  request := ⟨"/transactions", [("x-forwarded-for", "203.0.113.7, 10.0.0.1")], some "10.0.0.1"⟩
  now := seconds
  rateLimiter := some (some .answered)
  callNext := ⟨200, .null, []⟩
  now_nonneg := seconds_nonneg seconds

/-- The second request of an address within ten seconds is one too many. -/
theorem rejection_justified_proxied :
    (1 : ℤ) ≤ [proxied 0].countP fun b =>
      extractClientId compactNumbers.toPyLib (decodesTo []) {} b.request =
        extractClientId compactNumbers.toPyLib (decodesTo []) {} (proxied 10).request ∧
          (proxied 10).now - 60 < b.now := by
  refine rejection_justified (decodesTo []) {} compactNumbers 1 [proxied 0] (proxied 10)
    (fun _ => none) rfl ?_ ?_ ?_
  · simp [proxied]
  · simp [proxied]
  · decide +kernel

end FraudDetection.Gateway
