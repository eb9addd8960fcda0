import Azulejo.Interprocess.RESTClient
import Azulejo.Properties.RestMap

/-!
# A client and its server

What a client gets from a server, over any sequence of calls with any bodies and any fates of the
requests. An object is what the map of the server answers. An error text does not say whether
the server has handled the request, and a reply that is not `OK` comes back as `null`, without the
text the server put into it.
-/

namespace Azulejo

open AssocList Stateful RESTServer RESTClient

/-! ## What is to be expected -/

/-- What a server with the map `m` answers for each key; it replies nothing to a body that is
neither `null` nor of the type its handler expects. -/
def answers (m : TextMap) : HttpMethod → JValue → Option TextMap
  | .GET, _ => some m
  | .HEAD, _ => some fun _ => none
  | _, .null => some fun _ => none
  | .POST, .array elements => some ((MapRequest.post elements).answered m)
  | .PUT, .object members => some ((MapRequest.put members).answered m)
  | .DEL, .array elements => some ((MapRequest.del elements).answered m)
  | _, _ => none

/-- The map after the request. -/
def nextMap (m : TextMap) : HttpMethod → JValue → TextMap
  | .PUT, .object members => (MapRequest.put members).next m
  | .DEL, .array elements => (MapRequest.del elements).next m
  | _, _ => m

/-- The error text of the client. -/
def errorText (what : Str) : JValue := .string ("ERROR: RESTClient: ".toList ++ what)

namespace RESTClient

variable (unanswered : Except BodyError HttpResponse)

/-- What the client returns when the reply reaches it: an object with the answers, or what comes
of a request that is not replied to. -/
def Gives (result : Except Exception JValue) : Option TextMap → Prop
  | some f => ∃ answer, result = .ok (.object answer) ∧ Shows answer f
  | none => result = getJSON (unanswered.bind makeResponseTask)

/-- What a call returns, by the fate of its request. -/
def RestCall.Returns (m : TextMap) (call : RestCall) (result : Except Exception JValue) : Prop :=
  match call.fate with
  | .answered => Gives unanswered result (answers m call.httpMethod call.jValue)
  | .requestLost what => result = .ok (errorText what)
  | .bodyUnreadable _ =>
    if call.httpMethod = .GET ∨ call.httpMethod = .HEAD then
      Gives unanswered result (answers m call.httpMethod call.jValue)
    else result = .ok .null
  | .replyLost what =>
    if (answers m call.httpMethod call.jValue).isSome then result = .ok (errorText what)
    else Gives unanswered result none

/-- The map after a call. -/
def RestCall.next (m : TextMap) (call : RestCall) : TextMap :=
  match call.fate with
  | .answered | .replyLost _ => nextMap m call.httpMethod call.jValue
  | .requestLost _ | .bodyUnreadable _ => m

/-- The results are those of the calls, and the map ends as `last`. -/
def Follows : TextMap → List RestCall → List (Except Exception JValue) → TextMap → Prop
  | m, [], [], last => last = m
  | m, call :: calls, result :: results, last =>
    call.Returns unanswered m result ∧ Follows (call.next m) calls results last
  | _, _, _, _ => False

/-! ## One request -/

variable {d : Dictionary} {m : TextMap}

end RESTClient

end Azulejo
