import Azulejo.Interprocess.RESTServer

/-!
# The replies to requests with a body

`HandleRequest` replies after it has awaited the extraction of the body and the action, and catches
an `http_exception` of the two. The `json_exception` that malformed JSON and a value of another kind
than the action needs end in is not caught, so that such a request gets no reply.
-/

namespace Azulejo

open Stateful RESTServer

/-- The methods whose requests carry a body. -/
inductive BodyMethod where
  | POST
  | PUT
  | DEL

namespace BodyMethod

def request (body : Except BodyError JValue) : BodyMethod → RestRequest
  | POST => .POST body
  | PUT => .PUT body
  | DEL => .DEL body

/-- What `HandleRequest` is given for the method. -/
def action : BodyMethod → JValue → Answer → EStateM Exception Dictionary Answer
  | POST => postHandler
  | PUT => putHandler
  | DEL => delHandler

/-- The payload has the kind the action needs. -/
def Takes : BodyMethod → JValue → Prop
  | POST, .array _ => True
  | PUT, .object _ => True
  | DEL, .array _ => True
  | _, _ => False

theorem handle_request (method : BodyMethod) (body : Except BodyError JValue) :
    handle (method.request body) = handleRequest body method.action := by
  cases method <;> rfl

theorem not_takes_null (method : BodyMethod) : ¬ method.Takes .null := by
  cases method <;> exact id

/-- The action returns on a payload of its kind. -/
theorem action_returns {method : BodyMethod} {jValue : JValue} (h : method.Takes jValue)
    (answer : Answer) (dictionary : Dictionary) :
    ∃ answer' dictionary', (method.action jValue answer).run dictionary =
      .ok answer' dictionary' := by
  cases method with
  | POST =>
    cases jValue with
    | array elements => exact ⟨_, _, rfl⟩
    | _ => cases h
  | PUT =>
    cases jValue with
    | object members => exact ⟨_, _, rfl⟩
    | _ => cases h
  | DEL =>
    cases jValue with
    | array elements => exact ⟨_, _, rfl⟩
    | _ => cases h

/-- On any other it throws before it does anything. -/
theorem action_throws {method : BodyMethod} {jValue : JValue} (h : ¬ method.Takes jValue)
    (answer : Answer) (dictionary : Dictionary) :
    ∃ what, (method.action jValue answer).run dictionary =
      .error (.exception what) dictionary := by
  cases method with
  | POST =>
    cases jValue with
    | array elements => exact absurd trivial h
    | _ => exact ⟨_, rfl⟩
  | PUT =>
    cases jValue with
    | object members => exact absurd trivial h
    | _ => exact ⟨_, rfl⟩
  | DEL =>
    cases jValue with
    | array elements => exact absurd trivial h
    | _ => exact ⟨_, rfl⟩

end BodyMethod

/-- The reply that a request with the body should get: `OK` with an empty answer for `null`, `OK`
with the action's answer for a payload of its kind, and otherwise `BadRequest`. -/
inductive Answered (method : BodyMethod) (dictionary dictionary' : Dictionary) :
    Except BodyError JValue → Reply → Prop where
  | null : dictionary' = dictionary →
      Answered method dictionary dictionary' (.ok .null) ⟨.OK, .object []⟩
  | answer {jValue : JValue} {answer : Answer} : method.Takes jValue →
      (method.action jValue []).run dictionary = .ok answer dictionary' →
      Answered method dictionary dictionary' (.ok jValue) ⟨.OK, .object answer⟩
  | badKind {jValue : JValue} {message : JValue} : jValue ≠ .null → ¬ method.Takes jValue →
      Answered method dictionary dictionary' (.ok jValue) ⟨.BadRequest, message⟩
  | badBody {err : BodyError} {message : JValue} :
      Answered method dictionary dictionary' (.error err) ⟨.BadRequest, message⟩

/-- The request is answered: the call returns, which it does after its one call of `reply`, and the
reply is the right one. -/
def AnsweredOnce (method : BodyMethod) (body : Except BodyError JValue) (dictionary : Dictionary) :
    Prop :=
  ∃ reply dictionary', (handle (method.request body)).run dictionary = .ok reply dictionary' ∧
    Answered method dictionary dictionary' body reply

/-- A payload that is not null goes to the action, and its exception goes out of the call. -/
theorem handleRequest_throws {method : BodyMethod} {jValue : JValue} (hnull : jValue ≠ .null)
    (h : ¬ method.Takes jValue) (dictionary : Dictionary) :
    ∃ what, (handleRequest (.ok jValue) method.action).run dictionary =
      .error (.exception what) dictionary := by
  obtain ⟨what, hthrow⟩ := BodyMethod.action_throws h [] dictionary
  cases jValue with
  | null => exact absurd rfl hnull
  | _ => exact ⟨what, bind_error hthrow⟩

theorem handleRequest_answers {method : BodyMethod} {jValue : JValue} (h : method.Takes jValue)
    {answer : Answer} {dictionary dictionary' : Dictionary}
    (hrun : (method.action jValue []).run dictionary = .ok answer dictionary') :
    (handleRequest (.ok jValue) method.action).run dictionary =
      .ok ⟨.OK, .object answer⟩ dictionary' := by
  cases jValue with
  | null => exact absurd h method.not_takes_null
  | _ => exact bind_ok hrun

/-- **Which requests are answered.** A POST, PUT or DEL gets its one reply exactly when reading the
body ends in an `http_exception` or in `null` or in a value of the kind the action needs. -/
theorem answeredOnce_iff (method : BodyMethod) (body : Except BodyError JValue)
    (dictionary : Dictionary) :
    AnsweredOnce method body dictionary ↔
      (∃ what, body = .error (.http what)) ∨ body = .ok .null ∨
        ∃ jValue, body = .ok jValue ∧ method.Takes jValue := by
  unfold AnsweredOnce
  rw [method.handle_request]
  constructor
  · rintro ⟨reply, dictionary', hrun, -⟩
    rcases body with err | jValue
    · cases err with
      | http what => exact Or.inl ⟨what, rfl⟩
      | json what => cases hrun
    · by_cases hnull : jValue = .null
      · exact Or.inr (Or.inl (congrArg _ hnull))
      · by_cases htakes : method.Takes jValue
        · exact Or.inr (Or.inr ⟨jValue, rfl, htakes⟩)
        · obtain ⟨what, hthrow⟩ := handleRequest_throws hnull htakes dictionary
          rw [hthrow] at hrun
          cases hrun
  · rintro (⟨what, rfl⟩ | rfl | ⟨jValue, rfl, htakes⟩)
    · exact ⟨_, dictionary, rfl, Answered.badBody⟩
    · exact ⟨_, dictionary, rfl, Answered.null rfl⟩
    · obtain ⟨answer, dictionary', hrun⟩ := BodyMethod.action_returns htakes [] dictionary
      exact ⟨_, dictionary', handleRequest_answers htakes hrun, Answered.answer htakes hrun⟩

/-- A PUT with an array, and a POST with text that is not JSON. -/
theorem wrong_kind_not_answered :
    ¬ AnsweredOnce .PUT (.ok (.array [])) [] ∧
      ¬ AnsweredOnce .POST (.error (.json "Syntax error: Malformed token".toList)) [] := by
  constructor
  · rintro ⟨reply, dictionary', hrun, -⟩
    cases hrun
  · rintro ⟨reply, dictionary', hrun, -⟩
    cases hrun

end Azulejo
