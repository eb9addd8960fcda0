import Azulejo.Basic
import Azulejo.Lib.AssocList
import Mathlib.Data.List.Lex
import Mathlib.Data.Char

/-!
# The REST server

`RESTServer` keeps a dictionary of texts and answers requests that carry JSON values. The HTTP
listener and the JSON parser belong to another library: a request comes with the JSON value of its
body or with what reading it threw. An answer is a JSON object, whose members stand in the
order of their names.
-/

namespace Azulejo

open AssocList Stateful

/-- `web::json::value`. The text of a number is not interpreted. -/
inductive JValue where
  | null
  | boolean (b : Bool)
  | number (text : Str)
  | string (text : Str)
  | array (elements : List JValue)
  | object (members : List (Str × JValue))

namespace JValue

/-- `as_string` of a value for which `is_string` holds. -/
def text? : JValue → Option Str
  | string text => some text
  | _ => none

/-- `as_array`, which throws a `json_exception`. -/
def asArray : JValue → Except Exception (List JValue)
  | array elements => pure elements
  | _ => throw (.exception "not an array".toList)

/-- `as_object`. -/
def asObject : JValue → Except Exception (List (Str × JValue))
  | object members => pure members
  | _ => throw (.exception "not an object".toList)

end JValue

/-- `dictionary_`, in key order. -/
abbrev Dictionary := List (Str × Str)

/-- The members of an answer. -/
abbrev Answer := List (Str × JValue)

inductive StatusCode where
  | OK
  | BadRequest
  deriving DecidableEq

/-- What `request.reply` sends. -/
structure Reply where
  code : StatusCode
  answer : JValue

/-- What `extract_json` throws: an `http_exception`, which `HandleRequest` catches, or a
`json_exception`. -/
inductive BodyError where
  | http (what : Str)
  | json (what : Str)

/-- A request, with the JSON value of its body when that can be read. -/
inductive RestRequest where
  | GET
  | HEAD
  | POST (body : Except BodyError JValue)
  | PUT (body : Except BodyError JValue)
  | DEL (body : Except BodyError JValue)

namespace RESTServer

def DELETED_MSG : Str := "<deleted>".toList
def FAILED_MSG : Str := "<failed>".toList
def NIL_MSG : Str := "<nil>".toList
def PUT_MSG : Str := "<put>".toList
def UPDATED_MSG : Str := "<updated>".toList

/-- `answer[key] = web::json::value::string(message)`. -/
def setAnswer (key message : Str) (answer : Answer) : Answer :=
  insertSorted key (.string message) answer

/-- `GETHandler`. -/
def getHandler (dictionary : Dictionary) : Reply :=
  ⟨.OK, .object (dictionary.foldl (fun answer p => setAnswer p.1 p.2 answer) [])⟩

/-- `HEADHandler`. -/
def headHandler : Reply := ⟨.OK, .object []⟩

/-- The loop body of `POSTHandler`. -/
def postElement (dictionary : Dictionary) (answer : Answer) : JValue → Answer
  | .string key =>
    match List.lookup key dictionary with
    | none => setAnswer key NIL_MSG answer
    | some value => setAnswer key value answer
  | _ => answer

/-- `POSTHandler`. -/
def postHandler (jValue : JValue) (answer : Answer) : EStateM Exception Dictionary Answer := do
  let elements ← lift jValue.asArray
  let dictionary ← get
  pure (elements.foldl (postElement dictionary) answer)

/-- The loop body of `PUTHandler`, on the answer and the dictionary. -/
def putMember : Answer × Dictionary → Str × JValue → Answer × Dictionary
  | (answer, dictionary), (key, .string value) =>
    let message := match List.lookup key dictionary with
      | none => PUT_MSG
      | some _ => UPDATED_MSG
    (setAnswer key message answer, insertSorted key value dictionary)
  | state, _ => state

/-- `PUTHandler`. -/
def putHandler (jValue : JValue) (answer : Answer) : EStateM Exception Dictionary Answer := do
  let members ← lift jValue.asObject
  let dictionary ← get
  let (answer', dictionary') := members.foldl putMember (answer, dictionary)
  set dictionary'
  pure answer'

/-- The first loop body of `DELHandler`, on the answer and the set of keys to erase. -/
def delElement (dictionary : Dictionary) : Answer × List Str → JValue → Answer × List Str
  | (answer, keys), .string key =>
    match List.lookup key dictionary with
    | none => (setAnswer key FAILED_MSG answer, keys)
    | some _ => (setAnswer key DELETED_MSG answer, keys.insert key)
  | state, _ => state

/-- `dictionary_.erase(key)`. -/
def eraseKey (dictionary : Dictionary) (key : Str) : Dictionary :=
  dictionary.filter fun p => p.1 ≠ key

/-- `DELHandler`. -/
def delHandler (jValue : JValue) (answer : Answer) : EStateM Exception Dictionary Answer := do
  let elements ← lift jValue.asArray
  let dictionary ← get
  let (answer', keys) := elements.foldl (delElement dictionary) (answer, [])
  set (keys.foldl eraseKey dictionary)
  pure answer'

/-- `HandleRequest`. A `null` body is left alone; an exception of another class than
`http_exception` is not caught, and nothing is replied. -/
def handleRequest (body : Except BodyError JValue)
    (action : JValue → Answer → EStateM Exception Dictionary Answer) :
    EStateM Exception Dictionary Reply :=
  match body with
  | .error (.http what) => pure ⟨.BadRequest, .string ("ERROR: RESTServer: ".toList ++ what)⟩
  | .error (.json what) => throw (.exception what)
  | .ok .null => pure ⟨.OK, .object []⟩
  | .ok jValue => do
    let answer ← action jValue []
    pure ⟨.OK, .object answer⟩

/-- What the constructor registers for the methods. -/
def handle : RestRequest → EStateM Exception Dictionary Reply
  | .GET => do
    let dictionary ← get
    pure (getHandler dictionary)
  | .HEAD => pure headHandler
  | .POST body => handleRequest body postHandler
  | .PUT body => handleRequest body putHandler
  | .DEL body => handleRequest body delHandler

/-- Requests handled one after the other. -/
def handleAll : List RestRequest → EStateM Exception Dictionary (List Reply)
  | [] => pure []
  | request :: requests => do
    let reply ← handle request
    let replies ← handleAll requests
    pure (reply :: replies)

end RESTServer

end Azulejo
