import Azulejo.Interprocess.RESTServer

/-!
# The REST client

`RESTClient` sends a request, and makes one JSON value of its response or of the exception the
request ended with. The HTTP client belongs to another library: a request has a fate, by which
it reaches the server or does not, and by which the reply reaches the client or does not.
-/

namespace Azulejo

/-- `web::http::methods`. -/
inductive HttpMethod where
  | GET
  | HEAD
  | POST
  | PUT
  | DEL
  deriving DecidableEq

/-- What `client.request` is called with. -/
structure HttpRequest where
  httpMethod : HttpMethod
  requestURI : Str
  body : Option JValue

/-- `web::http::http_response`, with what `extract_json` returns or throws. -/
structure HttpResponse where
  statusCode : Nat
  json : Except BodyError JValue

namespace RESTClient

/-- `web::http::status_codes`. -/
def statusCode : StatusCode → Nat
  | .OK => 200
  | .BadRequest => 400

/-- `MakeRequestTask`. -/
def makeRequestTask (httpMethod : HttpMethod) (requestURI : Str) (jValue : JValue) : HttpRequest :=
  if httpMethod = .GET ∨ httpMethod = .HEAD then ⟨httpMethod, requestURI, none⟩
  else ⟨httpMethod, requestURI, some jValue⟩

/-- `MakeResponseTask`. -/
def makeResponseTask (httpResponse : HttpResponse) : Except BodyError JValue :=
  if httpResponse.statusCode = statusCode .OK then httpResponse.json else pure .null

/-- `GetJSON`. -/
def getJSON : Except BodyError JValue → Except Exception JValue
  | .ok jValue => pure jValue
  | .error (.http what) => pure (.string ("ERROR: RESTClient: ".toList ++ what))
  | .error (.json what) => throw (.exception what)

variable {σ : Type}

/-- `MakeRequest`. `respond` says what the task of a request ends with; its first continuation is
left out when it ends with an exception. -/
def makeRequest (respond : HttpRequest → σ → Except BodyError HttpResponse × σ)
    (httpMethod : HttpMethod) (requestURI : Str) (jValue : JValue) (s : σ) :
    Except Exception JValue × σ :=
  let (requestTask, s) := respond (makeRequestTask httpMethod requestURI jValue) s
  (getJSON (requestTask.bind makeResponseTask), s)

variable (respond : HttpRequest → σ → Except BodyError HttpResponse × σ)

/-- `GETRequest`. -/
def getRequest (requestURI : Str) := makeRequest respond .GET requestURI .null

/-- `HEADRequest`. -/
def headRequest (requestURI : Str) := makeRequest respond .HEAD requestURI .null

/-- `PUTRequest`. -/
def putRequest (requestURI : Str) (jValue : JValue) := makeRequest respond .PUT requestURI jValue

/-- `POSTRequest`. -/
def postRequest (requestURI : Str) (jValue : JValue) := makeRequest respond .POST requestURI jValue

/-- `DELRequest`. -/
def delRequest (requestURI : Str) (jValue : JValue) := makeRequest respond .DEL requestURI jValue

/-! ## The way to the server and back -/

/-- What becomes of a request; `what` is the text of the `http_exception`. -/
inductive Fate where
  | answered
  /-- It does not reach the server. -/
  | requestLost (what : Str)
  /-- The server cannot read its body. -/
  | bodyUnreadable (what : Str)
  /-- The reply does not reach the client. -/
  | replyLost (what : Str)

/-- The request as the listener of the server gets it. -/
def arrives (request : HttpRequest) (body : Except BodyError JValue) : RestRequest :=
  match request.httpMethod with
  | .GET => .GET
  | .HEAD => .HEAD
  | .POST => .POST body
  | .PUT => .PUT body
  | .DEL => .DEL body

/-- The server handles a request. When its handler throws and nothing is replied, `unanswered` is
what the task of the client ends with. -/
def served (unanswered : Except BodyError HttpResponse) (request : RestRequest)
    (reply : Reply → Except BodyError HttpResponse) (d : Dictionary) :
    Except BodyError HttpResponse × Dictionary :=
  match (RESTServer.handle request).run d with
  | .ok answer d => (reply answer, d)
  | .error _ d => (unanswered, d)

/-- What the client gets of a reply. -/
def response (reply : Reply) : HttpResponse := ⟨statusCode reply.code, .ok reply.answer⟩

/-- `client.request`, with a `RESTServer` on the other side. -/
def request (unanswered : Except BodyError HttpResponse) (fate : Fate) (request : HttpRequest)
    (d : Dictionary) : Except BodyError HttpResponse × Dictionary :=
  let body := request.body.getD .null
  match fate with
  | .answered => served unanswered (arrives request (.ok body)) (fun r => .ok (response r)) d
  | .requestLost what => (.error (.http what), d)
  | .bodyUnreadable what =>
    served unanswered (arrives request (.error (.http what))) (fun r => .ok (response r)) d
  | .replyLost what =>
    served unanswered (arrives request (.ok body)) (fun _ => .error (.http what)) d

/-- A call of one of the functions of the client, and what becomes of its request. -/
structure RestCall where
  httpMethod : HttpMethod
  requestURI : Str
  jValue : JValue
  fate : Fate

def RestCall.make (unanswered : Except BodyError HttpResponse) (call : RestCall) :
    Dictionary → Except Exception JValue × Dictionary :=
  let respond := request unanswered call.fate
  match call.httpMethod with
  | .GET => getRequest respond call.requestURI
  | .HEAD => headRequest respond call.requestURI
  | .POST => postRequest respond call.requestURI call.jValue
  | .PUT => putRequest respond call.requestURI call.jValue
  | .DEL => delRequest respond call.requestURI call.jValue

/-- Calls one after the other: what they return, and the dictionary of the server at the end. -/
def session (unanswered : Except BodyError HttpResponse) :
    List RestCall → Dictionary → List (Except Exception JValue) × Dictionary
  | [], d => ([], d)
  | call :: calls, d =>
    let (result, d) := call.make unanswered d
    let (results, d) := session unanswered calls d
    (result :: results, d)

end RESTClient

end Azulejo
