import Ecclesia.Transport.CacheNode

namespace Ecclesia.Transport

/-!
# The HTTP transport and its session

The transport can log in to a service.  The service answers the login with a token, which
is sent with every later request, and with the location of the session, which is deleted
before the next login and when the transport is destroyed.  The definitions follow
`http.cc`.  The HTTP client, the parsing of bodies and the writing of the login payload
are parameters.
-/

/-- The functions of the HTTP client. -/
inductive Method where
  | get
  | post
  | patch
  | delete
  | put
deriving DecidableEq

/-- `HttpClient::HttpRequest` -/
structure HttpRequest where
  uri : Text
  unixSocketPath : Text
  body : Text
  headers : List (Text × Text)

/-- `HttpClient::HttpResponse` -/
structure HttpResponse where
  code : Int
  body : Text
  headers : List (Text × Text)

/-- The endpoint of the transport. -/
inductive Target where
  | tcp (endpoint : Text)
  | uds (path : Text)

/-- What a transport is made with: its target, a header, the client, and JSON. -/
structure HttpConfig (World : Type) where
  target : Target
  headerKey : Text
  matchedValues : List Text
  client : Method -> HttpRequest -> World -> StatusOr HttpResponse × World
  parse : Text -> Json
  dump : Json -> Evaluation Text

def kXAuthToken : Text := text "X-Auth-Token"

def kLocation : Text := text "Location"

def makeRequest (target : Target) (xAuthToken path data : Text) : HttpRequest :=
  let headers := if xAuthToken.isEmpty then [] else [(kXAuthToken, xAuthToken)]
  match target with
  | .tcp endpoint => ⟨endpoint ++ path, [], data, headers⟩
  | .uds socket => ⟨text "dummy" ++ path, socket, data, headers⟩

/-- The result that `RestHelper` makes of a response. -/
def restResult {World : Type} (config : HttpConfig World) (response : HttpResponse) : Response where
  code := response.code
  headers := response.headers
  body :=
    match response.headers.lookup config.headerKey with
    | some value =>
      if config.matchedValues.contains value then .json (config.parse response.body)
      else .bytes response.body
    | none => .bytes response.body

/-- What a request is made for. -/
inductive Origin where
  | login
  | closing
  | rest
deriving DecidableEq

/-- A request that was sent, with its answer; the position of its login is kept for the proofs. -/
structure Exchange where
  origin : Origin
  method : Method
  path : Text
  request : HttpRequest
  reply : StatusOr Response
  grantedBy : Option Nat

/-- `HttpRedfishTransport`, with the world and all requests that were sent. -/
structure HttpTransport (World : Type) where
  sessionUsername : Text
  sessionPassword : Text
  xAuthToken : Text
  sessionAuthUri : Text
  world : World
  exchanges : List Exchange
  grantedBy : Option Nat

variable {World : Type} (config : HttpConfig World)

def HttpTransport.start (world : World) : HttpTransport World := ⟨[], [], [], [], world, [], none⟩

/-- `RestHelper`, for a request that was made with the present token. -/
def send (origin : Origin) (method : Method) (path data : Text) (transport : HttpTransport World) :
    StatusOr Response × HttpTransport World :=
  let request := makeRequest config.target transport.xAuthToken path data
  let answered := config.client method request transport.world
  let reply := answered.1.map (restResult config)
  (reply, { transport with
    world := answered.2
    exchanges := transport.exchanges ++
      [⟨origin, method, path, request, reply, transport.grantedBy⟩] })

variable (transport : HttpTransport World)

def endCurrentSession : HttpTransport World :=
  let ended :=
    if !transport.sessionAuthUri.isEmpty then
      (send config .closing .delete transport.sessionAuthUri [] transport).2
    else transport
  { ended with sessionAuthUri := [], xAuthToken := [], grantedBy := none }

/-- A string property of a member of a value. -/
def odataId (value : Json) : Option Text :=
  (value.find (text "@odata.id")).bind Json.string?

def getSessionServicePostTarget (root : Json) : StatusOr Text :=
  let links := ((root.find (text "Links")).bind fun links =>
    links.find (text "Sessions")).bind odataId
  match links with
  | some target => .ok target
  | none =>
    match (root.find (text "SessionService")).bind odataId with
    | some service => .ok (service ++ text "/" ++ text "Sessions")
    | none => .error (.notFound (text "No Session URI target found."))

/-- The payload of a login. -/
def sessionPostPayload : Json :=
  .object [(text "Password", .string transport.sessionPassword),
    (text "UserName", .string transport.sessionUsername)]

/-- The end of a login, behind its POST: the session that the service has answered with. -/
def takeSession (reply : StatusOr Response) (transport : HttpTransport World) :
    Status × HttpTransport World :=
  match reply with
  | .error status =>
    (.internal (text "Could not establish session: " ++ status.message), transport)
  | .ok response =>
    match response.headers.lookup kXAuthToken with
    | none => (.internal (text "No X-Auth-Token returned for POST."), transport)
    | some token =>
      match response.headers.lookup kLocation with
      | none => (.internal (text "No session URI returned for POST."), transport)
      | some location =>
        (.okStatus, { transport with
          sessionAuthUri := location
          xAuthToken := token
          grantedBy :=
            if token.isEmpty then none else some (transport.exchanges.length - 1) })

/-- The login, behind the GET of the root.  The writing of the payload can throw. -/
def postSession (root : Response) (transport : HttpTransport World) :
    Except Failure Status × HttpTransport World :=
  match root.body with
  | .bytes _ => (.ok (.internal (text "Result from the root URI is not JSON")), transport)
  | .json value =>
    match getSessionServicePostTarget value with
    | .error status => (.ok status, transport)
    | .ok postUri =>
      match config.dump (sessionPostPayload transport) with
      | .error failure => (.error failure, transport)
      | .ok payload =>
        let posted := send config .login .post postUri payload transport
        let taken := takeSession posted.1 posted.2
        (.ok taken.1, taken.2)

def lockedDoSessionAuth : Except Failure Status × HttpTransport World :=
  if transport.sessionUsername.isEmpty && transport.sessionPassword.isEmpty then
    (.ok .okStatus, transport)
  else
    let got := send config .login .get (text "/redfish/v1") [] transport
    match got.1 with
    | .error status => (.ok status, got.2)
    | .ok root => postSession config root got.2

def doSessionAuth (username password : Text) (transport : HttpTransport World) :
    Except Failure Status × HttpTransport World :=
  lockedDoSessionAuth config { endCurrentSession config transport with
    sessionUsername := username
    sessionPassword := password }

/-- The calls of a user of the transport. -/
inductive HttpCall where
  | doSessionAuth (username password : Text)
  | rest (method : Method) (path data : Text)

def HttpTransport.call : HttpCall -> HttpTransport World
  | .doSessionAuth username password => (doSessionAuth config username password transport).2
  | .rest method path data => (send config .rest method path data transport).2

/-- Everything that a transport sends from its start to its destructor. -/
def life (calls : List HttpCall) (world : World) : HttpTransport World :=
  endCurrentSession config (calls.foldl (.call config) (.start world))

end Ecclesia.Transport
