import SiprecServer.Lib.FileSystem
import SiprecServer.Lib.Text
import SiprecServer.Lib.Transducer

/-!
# SIP digest authentication

`Authenticate` works on maps of users and nonces that other goroutines use too.  The model
is an interleaving of attempts: each has a stage, and one step runs it up to the next time
it takes the mutex.  A nonce is inspected and its count committed in two such steps.
-/

namespace SiprecServer.Auth

open Lib Lib.FileSystem

structure DigestCredentials where
  username : String := ""
  realm : String := ""
  nonce : String := ""
  uri : String := ""
  response : String := ""
  algorithm : String := ""
  opaqueText : String := ""
  qop : String := ""
  nc : String := ""
  cnonce : String := ""
deriving DecidableEq

def hexDigit (c : Char) : Option Nat :=
  if '0' ≤ c ∧ c ≤ '9' then some (c.toNat - '0'.toNat)
  else if 'a' ≤ c ∧ c ≤ 'f' then some (c.toNat - 'a'.toNat + 10)
  else if 'A' ≤ c ∧ c ≤ 'F' then some (c.toNat - 'A'.toNat + 10)
  else none

/-- Eight digits always fit into the 32 bits that `ParseUint` is asked for. -/
def parseNonceCount (nc : String) : Except String Nat :=
  if nc.utf8ByteSize ≠ 8 then
    .error "nonce count must contain exactly eight hexadecimal digits"
  else
    match nc.toList.mapM hexDigit with
    | none => .error "nonce count contains a non-hexadecimal digit"
    | some digits =>
      let value := digits.foldl (fun value digit => value * 16 + digit) 0
      if 2 ^ 31 - 1 < value then .error "nonce count exceeds supported maximum"
      else .ok value

def trimQuotes (text : String) : String :=
  String.ofList ((text.toList.dropWhile (· = '"')).reverse.dropWhile (· = '"')).reverse

/-- What is before and after the first equals sign, if there is one. -/
def splitPair (pair : String) : Option (String × String) :=
  match pair.toList.span (· ≠ '=') with
  | (_, []) => none
  | (key, _ :: value) => some (String.ofList key, String.ofList value)

def DigestCredentials.set (creds : DigestCredentials) (key value : String) : DigestCredentials :=
  match key with
  | "username" => { creds with username := value }
  | "realm" => { creds with realm := value }
  | "nonce" => { creds with nonce := value }
  | "uri" => { creds with uri := value }
  | "response" => { creds with response := value }
  | "algorithm" => { creds with algorithm := value }
  | "opaque" => { creds with opaqueText := value }
  | "qop" => { creds with qop := value }
  | "nc" => { creds with nc := value }
  | "cnonce" => { creds with cnonce := value }
  | _ => creds

def DigestCredentials.addPair (creds : DigestCredentials) (pair : String) : DigestCredentials :=
  match splitPair (Text.trimSpace pair) with
  | none => creds
  | some (key, value) =>
    creds.set (Text.trimSpace key) (trimQuotes (Text.trimSpace value))

/-- `EqualFold` with a text whose letters have no other case variants than the ASCII ones. -/
def equalFoldMD5 (algorithm : String) : Bool := algorithm.toList.map Char.toLower = "md5".toList

def parseDigestAuth (realm authHeader requestURI : String) : Except String DigestCredentials :=
  match authHeader.toList.dropPrefix? "Digest ".toList with
  | none => .error "not a digest authentication header"
  | some digestData =>
    let creds := (digestData.splitOn ',').foldl
      (fun creds pair => creds.addPair (String.ofList pair)) {}
    if creds.username = "" ∨ creds.realm = "" ∨ creds.nonce = "" ∨ creds.uri = "" ∨
        creds.response = "" then
      .error "missing required digest authentication fields"
    else if creds.realm ≠ realm then .error "digest realm does not match configured realm"
    else if creds.uri ≠ requestURI then
      .error "digest URI does not match authenticated request URI"
    else if !equalFoldMD5 creds.algorithm then .error "unsupported digest algorithm"
    else if creds.qop ≠ "auth" then .error "unsupported or missing digest qop"
    else if creds.cnonce = "" then .error "missing digest cnonce"
    else (parseNonceCount creds.nc).map fun _ => creds

/-- `md5Hex` is the digest in lower case hexadecimal digits. -/
def calculateResponse (md5Hex : String → String) (password method uri : String)
    (creds : DigestCredentials) : String :=
  let ha1 := md5Hex (creds.username ++ ":" ++ creds.realm ++ ":" ++ password)
  let ha2 := md5Hex (method ++ ":" ++ uri)
  if creds.qop = "auth" ∨ creds.qop = "auth-int" then
    md5Hex (ha1 ++ ":" ++ creds.nonce ++ ":" ++ creds.nc ++ ":" ++ creds.cnonce ++ ":" ++
      creds.qop ++ ":" ++ ha2)
  else md5Hex (ha1 ++ ":" ++ creds.nonce ++ ":" ++ ha2)

/-! ## The authenticator -/

structure SIPUser where
  username : String
  password : String
  realm : String
  enabled : Bool
deriving DecidableEq

structure NonceInfo where
  value : String
  timestamp : Int
  count : Nat
  clientIP : String
deriving DecidableEq

structure SIPAuthenticator where
  users : Store String SIPUser
  nonces : Store String NonceInfo
  realm : String
  nonceTimeout : Int

def defaultNonceTimeout : Int := 300 * 1000000000

def newSIPAuthenticator (realm : String) : SIPAuthenticator where
  users := empty
  nonces := empty
  realm
  nonceTimeout := defaultNonceTimeout

structure AuthResult where
  success : Bool
  username : String
  reason : String
  challenge : String := ""
deriving DecidableEq

namespace SIPAuthenticator

section

variable (s : SIPAuthenticator)

def addUser (username password : String) : SIPAuthenticator :=
  { s with users := write s.users username ⟨username, password, s.realm, true⟩ }

def removeUser (username : String) : SIPAuthenticator :=
  { s with users := remove s.users username }

/-- `DisableUser` and `EnableUser`; a user that is not there is left alone. -/
def setEnabled (username : String) (enabled : Bool) : SIPAuthenticator :=
  match s.users username with
  | none => s
  | some user => { s with users := write s.users username { user with enabled } }

def expired (now : Int) (info : NonceInfo) : Bool :=
  s.nonceTimeout < now - info.timestamp

def expire (nonce : String) (now : Int) : SIPAuthenticator :=
  match s.nonces nonce with
  | none => s
  | some info => if s.expired now info then { s with nonces := remove s.nonces nonce } else s

def storeNonce (nonce clientIP : String) (now : Int) : SIPAuthenticator :=
  { s with nonces := write s.nonces nonce ⟨nonce, now, 0, clientIP⟩ }

def challengeText (nonce : String) : String :=
  "Digest realm=\"" ++ s.realm ++ "\", nonce=\"" ++ nonce ++ "\", algorithm=MD5, qop=\"auth\""

/-- The first reading of the clock decides, the second one only whether to clean up. -/
def commitNonceCount (nonce : String) (expected next : Nat)
    (now later : Int) : SIPAuthenticator × Bool :=
  if next ≤ expected then (s, false)
  else
    match s.nonces nonce with
    | none => (s, false)
    | some info =>
      if info.count ≠ expected ∨ s.expired now info then (s.expire nonce later, false)
      else ({ s with nonces := write s.nonces nonce { info with count := next } }, true)

def cleanupNonces (now : Int) : SIPAuthenticator :=
  { s with nonces := fun nonce => (s.nonces nonce).filter fun info => !s.expired now info }

end

end SIPAuthenticator

structure AuthRequest where
  authHeader : String
  method : String
  uri : String
  clientIP : String

inductive Stage where
  | begins (request : AuthRequest)
  /-- About to look up the user. -/
  | findsUser (request : AuthRequest) (creds : DigestCredentials)
  /-- About to look up the nonce. -/
  | findsNonce (request : AuthRequest) (creds : DigestCredentials) (user : SIPUser)
  /-- Working on a copy of the nonce. -/
  | inspects (request : AuthRequest) (creds : DigestCredentials) (user : SIPUser)
      (ncVal : Nat) (info : NonceInfo)
  /-- About to delete a nonce that has expired. -/
  | expires (request : AuthRequest) (creds : DigestCredentials)
  /-- About to commit the count of the nonce. -/
  | commits (request : AuthRequest) (creds : DigestCredentials) (expected next : Nat)
  /-- About to issue a challenge. -/
  | challenges (request : AuthRequest) (username reason : String)
  | done (result : AuthResult)

/-- What a step gets from outside: two readings of the clock, and the nonce that is generated,
if there is enough randomness. -/
structure Surroundings where
  now : Int
  later : Int
  generated : Option String

inductive Observation where
  | issued (nonce clientIP : String) (now : Int)
  | accepted (attempt : Nat) (nonce : String) (count : Nat) (clientIP : String) (now : Int)
deriving DecidableEq

def unusableNonce : String := "Invalid or expired nonce"

section Steps

variable (md5Hex : String → String)

def inspectNonce (s : SIPAuthenticator) (now : Int) (request : AuthRequest)
    (creds : DigestCredentials) (user : SIPUser) (ncVal : Nat) (info : NonceInfo) : Stage :=
  if s.expired now info then .expires request creds
  else if info.clientIP ≠ request.clientIP ∨ ncVal ≤ info.count then
    .challenges request creds.username unusableNonce
  else if creds.response ≠
      calculateResponse md5Hex user.password request.method request.uri creds then
    .challenges request creds.username "Invalid credentials"
  else .commits request creds info.count ncVal

def Stage.advance (s : SIPAuthenticator) (attempt : Nat) (around : Surroundings) :
    Stage → SIPAuthenticator × Stage × List Observation
  | .begins request =>
    if request.authHeader = "" then
      (s, .challenges request "" "No authentication provided", [])
    else
      match parseDigestAuth s.realm request.authHeader request.uri with
      | .error _ => (s, .challenges request "" "Invalid authentication format", [])
      | .ok creds => (s, .findsUser request creds, [])
  | .findsUser request creds =>
    match s.users creds.username with
    | none => (s, .challenges request creds.username "User not found or disabled", [])
    | some user =>
      if user.enabled then (s, .findsNonce request creds user, [])
      else (s, .challenges request creds.username "User not found or disabled", [])
  | .findsNonce request creds user =>
    match parseNonceCount creds.nc, s.nonces creds.nonce with
    | .ok ncVal, some info => (s, .inspects request creds user ncVal info, [])
    | _, _ => (s, .challenges request creds.username unusableNonce, [])
  | .inspects request creds user ncVal info =>
    (s, inspectNonce md5Hex s around.now request creds user ncVal info, [])
  | .expires request creds =>
    (s.expire creds.nonce around.now, .challenges request creds.username unusableNonce, [])
  | .commits request creds expected next =>
    match s.commitNonceCount creds.nonce expected next around.now around.later with
    | (s, true) =>
      (s, .done ⟨true, creds.username, "Authentication successful", ""⟩,
        [.accepted attempt creds.nonce next request.clientIP around.now])
    | (s, false) => (s, .challenges request creds.username "Nonce replay detected", [])
  | .challenges request username reason =>
    match around.generated with
    | none => (s, .done ⟨false, username, reason, ""⟩, [])
    | some nonce =>
      (s.storeNonce nonce request.clientIP around.now,
        .done ⟨false, username, reason, s.challengeText nonce⟩,
        [.issued nonce request.clientIP around.now])
  | .done result => (s, .done result, [])

structure System where
  authenticator : SIPAuthenticator
  attempts : List Stage

inductive Event where
  | arrives (request : AuthRequest)
  | advances (attempt : Nat) (around : Surroundings)
  | addUser (username password : String)
  | removeUser (username : String)
  | setEnabled (username : String) (enabled : Bool)
  | cleanup (now : Int)

def step (system : System) : Event → System × List Observation
  | .arrives request =>
    ({ system with attempts := system.attempts ++ [.begins request] }, [])
  | .advances attempt around =>
    match system.attempts[attempt]? with
    | none => (system, [])
    | some stage =>
      let after := stage.advance md5Hex system.authenticator attempt around
      (⟨after.1, system.attempts.set attempt after.2.1⟩, after.2.2)
  | .addUser username password =>
    ({ system with authenticator := system.authenticator.addUser username password }, [])
  | .removeUser username =>
    ({ system with authenticator := system.authenticator.removeUser username }, [])
  | .setEnabled username enabled =>
    ({ system with authenticator := system.authenticator.setEnabled username enabled }, [])
  | .cleanup now =>
    ({ system with authenticator := system.authenticator.cleanupNonces now }, [])

end Steps

def newSystem (realm : String) : System := ⟨newSIPAuthenticator realm, []⟩

end SiprecServer.Auth
