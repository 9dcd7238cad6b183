import PasswordHook.Go.Errors
import PasswordHook.Go.Text
import PasswordHook.Lib.Prog

/-!
# The Graph client

Package `graphclient`: `UpsertUserPassword` looks a user up and then changes their password, or
creates them with it.  The bodies of the requests are written by hand.
-/

namespace PasswordHook

structure User where
  upn : String
  displayName : String
  mail : String
  deriving DecidableEq

/-- An `HTTPClient`: its base URL as text, without query and fragment, and its scope. -/
structure GraphClient where
  baseURL : String
  scope : String

inductive GraphMethod where
  | get
  | patch
  | post
  deriving DecidableEq

/-- A request to Graph; a nil body is `none`. -/
structure GraphRequest where
  method : GraphMethod
  url : String
  accept : String
  authorization : String
  contentType : Option String
  body : Option Bytes
  deriving DecidableEq

/-! ## URLs -/

def graphURL (c : GraphClient) (path : String) : String :=
  String.ofList (c.baseURL.toList.rdropWhile (· == '/')) ++ path

def graphPathSegment (value : String) : String :=
  String.ofList ((pathEscape value).toList.flatMap fun c =>
    if c = '@' then ['%', '4', '0'] else [c])

def userPath (upn : String) : String := "/v1.0/users/" ++ graphPathSegment upn

/-! ## Bodies -/

def hexDigit (b : UInt8) : UInt8 := (bytesOf "0123456789abcdef").getD (b &&& 0x0f).toNat 0

/-- A byte inside a JSON string. -/
def jsonStringByte (b : UInt8) : Bytes :=
  if b = 0x5c || b = 0x22 then [0x5c, b]
  else if b = 0x0a then bytesOf "\\n"
  else if b = 0x0d then bytesOf "\\r"
  else if b = 0x09 then bytesOf "\\t"
  else if b < 0x20 then bytesOf "\\u00" ++ [hexDigit (b >>> 4), hexDigit b]
  else [b]

def appendJSONString (dst value : Bytes) : Bytes :=
  dst ++ 0x22 :: (value.flatMap jsonStringByte ++ [0x22])

def appendJSONStringFromString (dst : Bytes) (value : String) : Bytes :=
  appendJSONString dst (bytesOf value)

/-- The part of the name before the first `@`, unless it is blank or there is no `@`. -/
def mailNickname (upn : String) : String :=
  let before := String.ofList (upn.toList.takeWhile (· ≠ '@'))
  if '@' ∈ upn.toList ∧ trimSpace before ≠ "" then before else upn

def buildPatchBody (password : Bytes) : Bytes :=
  let body := bytesOf "\x7b\"passwordProfile\":\x7b\"password\":"
  let body := appendJSONString body password
  body ++ bytesOf ",\"forceChangePasswordNextSignIn\":false\x7d\x7d"

/-- `buildCreateBody` up to the password. -/
def createHead (user : User) : Bytes :=
  let body := bytesOf "\x7b\"accountEnabled\":true,\"displayName\":"
  let body := appendJSONStringFromString body user.displayName
  let body := body ++ bytesOf ",\"mailNickname\":"
  let body := appendJSONStringFromString body (mailNickname user.upn)
  let body := body ++ bytesOf ",\"userPrincipalName\":"
  let body := appendJSONStringFromString body user.upn
  let mail := trimSpace user.mail
  let body :=
    if mail ≠ "" then
      let body := body ++ bytesOf ",\"mail\":"
      let body := appendJSONStringFromString body mail
      let body := body ++ bytesOf ",\"otherMails\":["
      let body := appendJSONStringFromString body mail
      body ++ bytesOf "]"
    else body
  body ++ bytesOf ",\"passwordProfile\":\x7b\"password\":"

def buildCreateBody (user : User) (password : Bytes) : Bytes :=
  let body := appendJSONString (createHead user) password
  body ++ bytesOf ",\"forceChangePasswordNextSignIn\":false\x7d\x7d"

/-! ## Calls -/

inductive GraphCall where
  | getToken (scope : String)
  /-- `http.NewRequestWithContext` -/
  | newRequest (method : GraphMethod) (url : String)
  /-- `httpClient.Do` -/
  | doRequest (req : GraphRequest)
  | zeroBody (body : Bytes)
  deriving DecidableEq

def GraphCall.Resp : GraphCall → Type
  | .getToken _ => Except Err String
  | .newRequest _ _ => Option Err
  | .doRequest _ => Except Err ℤ
  | .zeroBody _ => Unit

def graphInterface : Interface := ⟨GraphCall, GraphCall.Resp⟩

abbrev GraphProg := Prog graphInterface

abbrev GraphEvent := Event graphInterface

def GraphCall.perform (c : GraphCall) : GraphProg c.Resp := Prog.perform (I := graphInterface) c

def classifyGraphResponse (operation : String) (status : ℤ) : Err :=
  if status = 400 ∨ status = 403 then .graphPermanent status operation .nil
  else .graphTransient status operation .nil

def doGraphRequest (c : GraphClient) (operation : String) (method : GraphMethod) (path : String)
    (body : Option Bytes) : GraphProg (Except Err ℤ) := do
  match ← GraphCall.perform (.getToken c.scope) with
  | .error err => return .error (.graphTransient 0 operation (.wrap "get graph token" err))
  | .ok token =>
    match ← GraphCall.perform (.newRequest method (graphURL c path)) with
    | some err => return .error (.graphTransient 0 operation (.wrap "build graph request" err))
    | none =>
      match ← GraphCall.perform (.doRequest
          { method := method
            url := graphURL c path
            accept := "application/json"
            authorization := "Bearer " ++ token
            contentType := body.map fun _ => "application/json"
            body := body }) with
      | .error err => return .error (.graphTransient 0 operation err)
      | .ok status => return .ok status

/-- A request with a body that holds the password; the body is zeroed afterwards. -/
def writePassword (c : GraphClient) (operation : String) (method : GraphMethod) (path : String)
    (body : Bytes) : GraphProg (Option Err) := do
  let answer ← doGraphRequest c operation method path (some body)
  GraphCall.perform (.zeroBody body)
  match answer with
  | .error err => return some err
  | .ok status =>
    if status < 200 ∨ 299 < status then return some (classifyGraphResponse operation status)
    else return none

def patchUserPassword (c : GraphClient) (upn : String) (password : Bytes) :
    GraphProg (Option Err) :=
  writePassword c "patch user" .patch (userPath upn) (buildPatchBody password)

def createUser (c : GraphClient) (user : User) (password : Bytes) : GraphProg (Option Err) :=
  writePassword c "create user" .post "/v1.0/users" (buildCreateBody user password)

/-- `UpsertUserPassword` once the user has been looked up. -/
def upsertLookedUp (c : GraphClient) (user : User) (upn : String) (password : Bytes)
    (status : ℤ) : GraphProg (Option Err) :=
  if status = 200 then patchUserPassword c upn password
  else if status = 404 then createUser c { user with upn := upn } password
  else return some (classifyGraphResponse "lookup user" status)

def upsertUserPassword (c : GraphClient) (user : User) (password : Bytes) :
    GraphProg (Option Err) :=
  let upn := trimSpace user.upn
  if upn = "" then
    return some (.graphPermanent 0 "validate user" (.new "user UPN is required"))
  else if password = [] then
    return some (.graphPermanent 0 "validate password" (.new "password is required"))
  else do
    match ← doGraphRequest c "lookup user" .get (userPath upn) none with
    | .error err => return some err
    | .ok status => upsertLookedUp c user upn password status

end PasswordHook
