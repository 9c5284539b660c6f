import FraudDetection.Python.CompactJson
import FraudDetection.Python.Compare

/-!
# Access by role

A token is decoded, its `sub` and `type` are checked, and its `roles` are compared with the roles
that an endpoint requires. Nothing checks that the roles are a list: `in` looks for a part of a
string and for a key of a dict, and raises a `TypeError` on a number or on `None`.

`currentUser_cases` says what becomes of a decoded payload before its roles are looked at, and
`roleChecker_iff` on which of the roles claims the membership test is that of a list.
-/

namespace FraudDetection.Gateway

open Python

/-! ## The code -/

/-- `HTTPException` -/
structure HttpException where
  statusCode : ℕ
  detail : String
  headers : List (String × String) := []

/-- What a dependency raises. -/
inductive Raised where
  | http (e : HttpException)
  | other (x : Exn)

/-- `raise HTTPException(...)` where the token is at fault. -/
def unauthorized (detail : String) : Raised :=
  .http { statusCode := 401, detail, headers := [("WWW-Authenticate", "Bearer")] }

/-- The claims of a token. -/
abbrev Payload := List (String × Json)

/-- `payload.get(key)` -/
def claim (payload : Payload) (key : String) : Json := (payload.lookup key).getD .null

/-- The settings of the tokens. -/
structure JwtSettings where
  jwtSecretKey : String := "dev-secret-key-change-in-production-a1b2c3d4e5f6"
  jwtAlgorithm : String := "HS256"

/-- `jwt.decode`: a token, a key and algorithms. -/
abbrev Decode := String → String → List String → Except Exn Payload

/-- `except JWTError`, which has subclasses. -/
def isJwtError (x : Exn) : Bool :=
  x.cls == .other "JWTError" || x.cls == .other "ExpiredSignatureError" ||
    x.cls == .other "JWTClaimsError"

section Code

variable (decode : Decode) (settings : JwtSettings)

/-- `verify_token` -/
def verifyToken (token : String) : Except Raised Payload :=
  match decode token settings.jwtSecretKey [settings.jwtAlgorithm] with
  | .ok payload =>
      -- this exception is raised inside the `try`, but is no `JWTError`
      if (claim payload "sub").isNone then
        .error (unauthorized "Token does not contain a valid subject claim")
      else .ok payload
  | .error x =>
      if isJwtError x then .error (unauthorized "Could not validate credentials")
      else .error (.other x)

/-- `get_current_user` -/
def getCurrentUser (credentials : String) : Except Raised Payload := do
  let payload ← verifyToken decode settings credentials
  if !(claim payload "type").eq (.str "access") then
    throw (unauthorized "Invalid token type; expected access token")
  return payload

/-- `JWTBearer.__call__` -/
def jwtBearer (scheme credentials : String) : Except Raised Payload := do
  if scheme.toLower ≠ "bearer" then
    throw (.http { statusCode := 403, detail := "Invalid authentication scheme; expected Bearer" })
  let payload ← verifyToken decode settings credentials
  if !(claim payload "type").eq (.str "access") then
    throw (unauthorized "Invalid token type; expected access token")
  return payload

/-- `_role_checker` -/
def roleChecker (py : PyLib) (roles : List String) (payload : Payload) : Except Raised Payload :=
  -- the default replaces a missing claim, not one that is `None`
  let userRoles := (payload.lookup "roles").getD (.list [])
  match roles.anyM userRoles.contains with
  | .ok true => .ok payload
  | .ok false => .error <| .http
      { statusCode := 403
        detail := "Insufficient permissions. Required roles: " ++ py.str (.list (roles.map .str)) }
  | .error x => .error (.other x)

/-- The dependency that `require_role` builds, with the one it depends on. -/
def requireRole (py : PyLib) (roles : List String) (credentials : String) :
    Except Raised Payload := do
  let payload ← getCurrentUser decode settings credentials
  roleChecker py roles payload

end Code

/-- The claims that are signed: a copy of the data, with the expiry and the type set. -/
def tokenClaims (type : String) (data : Payload) (expire : ℤ) : Payload :=
  CompactJson.setField (CompactJson.setField data "exp" (.int expire)) "type" (.str type)

/-- What `create_access_token` signs. -/
def accessClaims (data : Payload) (expire : ℤ) : Payload := tokenClaims "access" data expire

/-- What `create_refresh_token` signs. -/
def refreshClaims (data : Payload) (expire : ℤ) : Payload := tokenClaims "refresh" data expire

/-! ## What is required -/

/-- The payload is that of an access token with a subject, and one of the roles is in its list. -/
def Granted (roles : List String) (payload : Payload) : Prop :=
  claim payload "type" = .str "access" ∧ claim payload "sub" ≠ .null ∧
    ∃ vs, payload.lookup "roles" = some (.list vs) ∧ ∃ role ∈ roles, Json.str role ∈ vs

/-- Access is refused with an `HTTPException` of status 401 or 403. -/
def Refused (result : Except Raised Payload) : Prop :=
  ∃ e, result = .error (.http e) ∧ (e.statusCode = 401 ∨ e.statusCode = 403)

/-- Access is granted where it is due, and refused everywhere else. -/
def Exact (roles : List String) (payload : Payload) (result : Except Raised Payload) : Prop :=
  ((∃ granted, result = .ok granted) ↔ Granted roles payload) ∧
    (¬ Granted roles payload → Refused result)

/-- The roles claim is a list or missing, or a text or a dict in which no required role is found, or
no role is required. -/
def Listed (roles : List String) : Option Json → Prop
  | none => True
  | some (.list _) => True
  | some (.str s) => ∀ role ∈ roles, ¬ role.toList <:+: s.toList
  | some (.dict fs) => ∀ role ∈ roles, role ∉ fs.map Prod.fst
  | some _ => roles = []

/-! ## The membership test -/

section Roles

variable {py : PyLib} {roles : List String} {payload : Payload} {result : Except Raised Payload}

theorem anyM_ok {α ε : Type} {f : α → Except ε Bool} {g : α → Bool} (h : ∀ a, f a = .ok (g a))
    (l : List α) : l.anyM f = .ok (l.any g) := by
  induction l with
  | nil => rfl
  | cons a l ih =>
      rw [List.anyM, h a, ih, List.any_cons]
      cases g a <;> rfl

/-- Where access is not due, it has to be refused. -/
theorem exact_iff_refused (h : ¬ Granted roles payload) :
    Exact roles payload result ↔ Refused result := by
  constructor
  · intro hexact
    exact hexact.2 h
  · rintro ⟨e, rfl, hstatus⟩
    refine ⟨iff_of_false ?_ h, fun _ => ⟨e, rfl, hstatus⟩⟩
    rintro ⟨granted, ⟨⟩⟩

theorem not_granted (h : ∀ vs, payload.lookup "roles" ≠ some (.list vs)) :
    ¬ Granted roles payload := by
  rintro ⟨-, -, vs, hlookup, -⟩
  exact h vs hlookup

/-- Where the test is defined, the checker grants access if it finds a role, and refuses it if
not. -/
theorem roleChecker_of_ok {b : Bool}
    (h : roles.anyM ((payload.lookup "roles").getD (.list [])).contains = .ok b) :
    (b = true ∧ roleChecker py roles payload = .ok payload) ∨
      (b = false ∧ Refused (roleChecker py roles payload)) := by
  unfold roleChecker
  dsimp only
  rw [h]
  cases b with
  | true => exact Or.inl ⟨rfl, rfl⟩
  | false => exact Or.inr ⟨rfl, _, rfl, Or.inr rfl⟩

theorem refused_roleChecker {b : Bool}
    (h : roles.anyM ((payload.lookup "roles").getD (.list [])).contains = .ok b) :
    Refused (roleChecker py roles payload) ↔ b = false := by
  rcases roleChecker_of_ok h with ⟨rfl, hgranted⟩ | ⟨rfl, hrefused⟩
  · rw [hgranted]
    refine iff_of_false ?_ nofun
    rintro ⟨e, ⟨⟩, -⟩
  · exact iff_of_true hrefused rfl

/-- On a list, the test is that of the elements. -/
theorem exact_of_list {vs : List Json} (htype : claim payload "type" = .str "access")
    (hsub : claim payload "sub" ≠ .null) (h : payload.lookup "roles" = some (.list vs)) :
    Exact roles payload (roleChecker py roles payload) := by
  have hany : roles.anyM ((payload.lookup "roles").getD (.list [])).contains
      = .ok (roles.any fun role => vs.any fun v => v.eq (.str role)) := by
    rw [h]
    exact anyM_ok (fun _ => rfl) roles
  have hgranted : Granted roles payload ↔
      (roles.any fun role => vs.any fun v => v.eq (.str role)) = true := by
    simp only [List.any_eq_true, Json.eq_str_iff, exists_eq_right]
    constructor
    · rintro ⟨-, -, vs', hlookup, hrole⟩
      cases h.symm.trans hlookup
      exact hrole
    · intro hrole
      exact ⟨htype, hsub, vs, h, hrole⟩
  rcases roleChecker_of_ok hany with ⟨hfound, hok⟩ | ⟨hnone, hrefused⟩
  · have hdue := hgranted.mpr hfound
    exact ⟨iff_of_true ⟨payload, hok⟩ hdue, fun hnot => absurd hdue hnot⟩
  · refine (exact_iff_refused ?_).mpr hrefused
    rw [hgranted, Bool.not_eq_true]
    exact hnone

/-- On anything else where the test is defined, no role may be found. -/
theorem exact_of_contains {v : Json} {found : String → Bool}
    (hroles : (payload.lookup "roles").getD (.list []) = v)
    (hlist : ∀ vs, payload.lookup "roles" ≠ some (.list vs))
    (h : ∀ role, v.contains role = .ok (found role)) :
    Exact roles payload (roleChecker py roles payload) ↔ ∀ role ∈ roles, found role = false := by
  have hany : roles.anyM ((payload.lookup "roles").getD (.list [])).contains
      = .ok (roles.any found) := by
    rw [hroles]
    exact anyM_ok h roles
  rw [exact_iff_refused (not_granted hlist), refused_roleChecker hany, List.any_eq_false]
  simp only [Bool.not_eq_true]

/-- Where it is undefined, no role may be looked for. -/
theorem exact_of_error {v : Json} {x : Exn} (hroles : payload.lookup "roles" = some v)
    (hlist : ∀ vs, v ≠ .list vs) (h : ∀ role, v.contains role = .error x) :
    Exact roles payload (roleChecker py roles payload) ↔ roles = [] := by
  have hnot : ¬ Granted roles payload :=
    not_granted fun vs hvs => hlist vs (Option.some.inj (hroles.symm.trans hvs))
  rw [exact_iff_refused hnot]
  cases roles with
  | nil => exact iff_of_true ((refused_roleChecker rfl).mpr rfl) rfl
  | cons role roles =>
      -- the test raises at the first role
      refine iff_of_false ?_ nofun
      have hraises : roleChecker py (role :: roles) payload = .error (.other x) := by
        unfold roleChecker
        rw [hroles]
        dsimp only [Option.getD_some]
        rw [List.anyM, h role]
        rfl
      rw [hraises]
      rintro ⟨e, ⟨⟩, -⟩

/-- The checker is exact for access tokens with a subject exactly when it finds no role in anything
but a list, and never has to look for one in a number or in `None`. -/
theorem roleChecker_iff (htype : claim payload "type" = .str "access")
    (hsub : claim payload "sub" ≠ .null) :
    Exact roles payload (roleChecker py roles payload) ↔ Listed roles (payload.lookup "roles") := by
  cases hroles : payload.lookup "roles" with
  | none =>
      have hnone : (payload.lookup "roles").getD (.list []) = .list [] := by rw [hroles]; rfl
      rw [exact_of_contains hnone (by rw [hroles]; nofun) fun _ => rfl]
      simp [Listed]
  | some v =>
      have hsome : (payload.lookup "roles").getD (.list []) = v := by rw [hroles]; rfl
      -- only a list may hold a role; the test is undefined from `null` on
      cases v with
      | list vs => exact iff_of_true (exact_of_list htype hsub hroles) trivial
      | str s =>
          rw [exact_of_contains hsome (by rw [hroles]; nofun) fun _ => rfl]
          simp [Listed]
      | dict fs =>
          have hkey : ∀ role, (fs.any fun f => f.1 == role) = false ↔ role ∉ fs.map Prod.fst := by
            intro role
            rw [List.any_eq_false, List.mem_map]
            simp only [beq_iff_eq, not_exists, not_and]
          rw [exact_of_contains hsome (by rw [hroles]; nofun) fun _ => rfl]
          simp only [hkey, Listed]
      | null => exact exact_of_error hroles nofun fun _ => rfl
      | bool b => exact exact_of_error hroles nofun fun _ => rfl
      | int n => exact exact_of_error hroles nofun fun _ => rfl
      | float q => exact exact_of_error hroles nofun fun _ => rfl

end Roles

/-! ## The dependency -/

section Dependency

variable {decode : Decode} {settings : JwtSettings} {py : PyLib} {roles : List String}
  {credentials : String} {payload : Payload}

/-- A decoded payload has a subject and the right type, or it is refused. -/
theorem currentUser_cases
    (h : decode credentials settings.jwtSecretKey [settings.jwtAlgorithm] = .ok payload) :
    (claim payload "type" = .str "access" ∧ claim payload "sub" ≠ .null ∧
        getCurrentUser decode settings credentials = .ok payload) ∨
      (¬ (claim payload "type" = .str "access" ∧ claim payload "sub" ≠ .null) ∧
        ∃ detail, getCurrentUser decode settings credentials = .error (unauthorized detail)) := by
  have hverify : verifyToken decode settings credentials =
      if (claim payload "sub").isNone then
        .error (unauthorized "Token does not contain a valid subject claim")
      else .ok payload := by
    unfold verifyToken
    rw [h]
  have hnone : (claim payload "sub").isNone = true ↔ claim payload "sub" = .null := by
    cases claim payload "sub" <;> simp [Json.isNone]
  unfold getCurrentUser
  rw [hverify]
  by_cases hsub : claim payload "sub" = .null
  · rw [if_pos (hnone.mpr hsub)]
    exact Or.inr ⟨fun hboth => hboth.2 hsub, _, rfl⟩
  · rw [if_neg (hnone.not.mpr hsub)]
    by_cases htype : (claim payload "type").eq (.str "access") = true
    · left
      refine ⟨Json.eq_str_iff.mp htype, hsub, ?_⟩
      simp only [bind, Except.bind, htype]
      rfl
    · right
      refine ⟨fun hboth => htype (Json.eq_str_iff.mpr hboth.1),
        "Invalid token type; expected access token", ?_⟩
      simp only [bind, Except.bind, eq_false_of_ne_true htype]
      rfl

/-- Anything but an access token with a subject is refused. -/
theorem refused_of_not
    (h : decode credentials settings.jwtSecretKey [settings.jwtAlgorithm] = .ok payload)
    (hnot : ¬ (claim payload "type" = .str "access" ∧ claim payload "sub" ≠ .null)) :
    Refused (requireRole decode settings py roles credentials) := by
  rcases currentUser_cases h with ⟨htype, hsub, -⟩ | ⟨-, detail, huser⟩
  · exact absurd ⟨htype, hsub⟩ hnot
  · unfold requireRole
    rw [huser]
    exact ⟨_, rfl, Or.inl rfl⟩

/-- An access token with a subject is judged by its roles. -/
theorem requireRole_of_access
    (h : decode credentials settings.jwtSecretKey [settings.jwtAlgorithm] = .ok payload)
    (htype : claim payload "type" = .str "access") (hsub : claim payload "sub" ≠ .null) :
    requireRole decode settings py roles credentials = roleChecker py roles payload := by
  rcases currentUser_cases h with ⟨-, -, huser⟩ | ⟨hnot, -⟩
  · unfold requireRole
    rw [huser]
    rfl
  · exact absurd ⟨htype, hsub⟩ hnot

/-- A token that does not decode is refused. -/
theorem refused_of_isJwtError {x : Exn} (hx : isJwtError x = true)
    (h : decode credentials settings.jwtSecretKey [settings.jwtAlgorithm] = .error x) :
    Refused (requireRole decode settings py roles credentials) := by
  have hverify : verifyToken decode settings credentials
      = .error (unauthorized "Could not validate credentials") := by
    unfold verifyToken
    rw [h]
    exact if_pos hx
  unfold requireRole getCurrentUser
  rw [hverify]
  exact ⟨_, rfl, Or.inl rfl⟩

/-- `JWTBearer` asks for the scheme, and is otherwise `get_current_user`. -/
theorem jwtBearer_eq (scheme : String) :
    jwtBearer decode settings scheme credentials =
      if scheme.toLower = "bearer" then getCurrentUser decode settings credentials
      else .error (.http
        { statusCode := 403, detail := "Invalid authentication scheme; expected Bearer" }) := by
  unfold jwtBearer
  by_cases hscheme : scheme.toLower = "bearer"
  · rw [if_neg (not_not.mpr hscheme), if_pos hscheme]
    rfl
  · rw [if_pos hscheme, if_neg hscheme]
    rfl

/-! ## The tokens of the gateway -/

theorem lookup_map_set (fs : Payload) (k k' : String) (v : Json) :
    (fs.map fun kv => if kv.1 = k then (k, v) else kv).lookup k' =
      if k' = k ∧ k ∈ fs.map Prod.fst then some v else fs.lookup k' := by
  induction fs with
  | nil => simp
  | cons kv fs ih =>
      rw [List.map_cons, List.lookup_cons, List.lookup_cons, ih]
      by_cases hkv : kv.1 = k
      · rw [if_pos hkv, hkv]
        by_cases hk : k' = k
        · simp [hk, hkv]
        · rw [beq_false_of_ne hk, if_neg fun h => hk h.1, if_neg fun h => hk h.1]
      · rw [if_neg hkv]
        grind

/-- A field that is set is found, and the others are as they were. -/
theorem lookup_setField (fs : Payload) (k k' : String) (v : Json) :
    (CompactJson.setField fs k v).lookup k' = if k' = k then some v else fs.lookup k' := by
  by_cases hkey : k ∈ fs.map Prod.fst
  · rw [CompactJson.setField, if_pos hkey, lookup_map_set]
    simp [hkey]
  · rw [CompactJson.setField_of_notMem hkey, List.lookup_append]
    by_cases hk : k' = k
    · have hnone : fs.lookup k = none := by
        rw [List.lookup_eq_none_iff]
        intro kv hkv
        rw [bne_iff_ne]
        rintro rfl
        exact hkey (List.mem_map_of_mem hkv)
      rw [if_pos hk, hk, hnone, List.lookup_cons_self, Option.none_or]
    · rw [if_neg hk, List.lookup_cons, beq_false_of_ne hk]
      exact Option.or_none

theorem lookup_tokenClaims {type key : String} {data : Payload} {expire : ℤ} (hexp : key ≠ "exp")
    (htype : key ≠ "type") : (tokenClaims type data expire).lookup key = data.lookup key := by
  unfold tokenClaims
  rw [lookup_setField, if_neg htype, lookup_setField, if_neg hexp]

theorem type_tokenClaims (type : String) (data : Payload) (expire : ℤ) :
    claim (tokenClaims type data expire) "type" = .str type := by
  unfold claim tokenClaims
  rw [lookup_setField, if_pos rfl]
  rfl

/-- A refresh token is refused, whatever its data are. -/
theorem refused_refreshClaims {data : Payload} {expire : ℤ}
    (h : decode credentials settings.jwtSecretKey [settings.jwtAlgorithm]
      = .ok (refreshClaims data expire)) :
    Refused (requireRole decode settings py roles credentials) := by
  have htype : claim (refreshClaims data expire) "type" = .str "refresh" := type_tokenClaims ..
  refine refused_of_not h fun hboth => ?_
  have hsame := htype.symm.trans hboth.1
  revert hsame
  simp

/-- On an access token for a subject the dependency is exact exactly when the roles it was made for
are `Listed`; in particular if they are a list. -/
theorem exact_accessClaims {data : Payload} {expire : ℤ} (hsub : claim data "sub" ≠ .null)
    (h : decode credentials settings.jwtSecretKey [settings.jwtAlgorithm]
      = .ok (accessClaims data expire)) :
    Exact roles (accessClaims data expire) (requireRole decode settings py roles credentials) ↔
      Listed roles (data.lookup "roles") := by
  have htype : claim (accessClaims data expire) "type" = .str "access" := type_tokenClaims ..
  have hsub' : claim (accessClaims data expire) "sub" ≠ .null := by
    unfold claim accessClaims
    rw [lookup_tokenClaims (by decide) (by decide)]
    exact hsub
  have hroles : (accessClaims data expire).lookup "roles" = data.lookup "roles" :=
    lookup_tokenClaims (by decide) (by decide)
  rw [requireRole_of_access h htype hsub', roleChecker_iff htype hsub', hroles]

/-! ## Every token -/

/-- The dependency of `require_role` is exact on a decoded payload exactly when the payload is not
that of an access token with a subject, or its roles are `Listed`. -/
theorem requireRole_exact_iff
    (h : decode credentials settings.jwtSecretKey [settings.jwtAlgorithm] = .ok payload) :
    Exact roles payload (requireRole decode settings py roles credentials) ↔
      (claim payload "type" = .str "access" → claim payload "sub" ≠ .null →
        Listed roles (payload.lookup "roles")) := by
  by_cases haccess : claim payload "type" = .str "access" ∧ claim payload "sub" ≠ .null
  · obtain ⟨htype, hsub⟩ := haccess
    rw [requireRole_of_access h htype hsub, roleChecker_iff htype hsub]
    exact ⟨fun hlisted _ _ => hlisted, fun hlisted => hlisted htype hsub⟩
  · refine iff_of_true ?_ fun htype hsub => absurd ⟨htype, hsub⟩ haccess
    rw [exact_iff_refused fun hgranted => haccess ⟨hgranted.1, hgranted.2.1⟩]
    exact refused_of_not h haccess

end Dependency

/-! ### Samples -/

/-- A decoder that knows one token. -/
def decodesTo (payload : Payload) : Decode := fun token _ _ =>
  if token = "token" then .ok payload
  else .error ⟨.other "JWTError", "Signature verification failed."⟩

/-- The claims of an access token, with the roles as they are sent. -/
def accessPayload (roles : Json) : Payload :=
  [("sub", .str "user_01HXYZ789ABC"), ("type", .str "access"), ("roles", roles)]

/-- An analyst is let in where analysts are. -/
theorem requireRole_exact_analyst :
    Exact ["admin", "analyst"] (accessPayload (.list [.str "analyst"]))
      (requireRole (decodesTo (accessPayload (.list [.str "analyst"]))) {} CompactJson.compactJson
        ["admin", "analyst"] "token") :=
  (requireRole_exact_iff rfl).mpr fun _ _ => trivial

/-- A text in which the name of a role occurs is taken for the role. -/
theorem not_exact_administrator : ¬ ∀ (decode : Decode) (settings : JwtSettings) (py : PyLib)
    (roles : List String) (credentials : String) (payload : Payload),
    decode credentials settings.jwtSecretKey [settings.jwtAlgorithm] = .ok payload →
      Exact roles payload (requireRole decode settings py roles credentials) := by
  intro hexact
  have hadmin := hexact (decodesTo (accessPayload (.str "administrator"))) {}
    CompactJson.compactJson ["admin"] "token" (accessPayload (.str "administrator")) rfl
  have hgranted := hadmin.1.mp ⟨accessPayload (.str "administrator"), rfl⟩
  obtain ⟨-, -, vs, hroles, -⟩ := hgranted
  cases hroles

end FraudDetection.Gateway
