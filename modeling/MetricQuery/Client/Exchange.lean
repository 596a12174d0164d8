import MetricQuery.Client.Basic
import MetricQuery.Response.Decode

/-!
# Exchanges

What a reply means. The body is read when the request succeeded, and before that when the status is
one at which the server reports errors and the body is said to be JSON. A session is a sequence of
events, in which no request is made any more after the client was closed.
-/

namespace MetricQuery

/-- A reply of the server. -/
structure Reply where
  status : Nat
  contentType : Option String
  body : ByteArray

/-- A fault on the way to the server or back. -/
inductive TransportFault where
  | noConnection
  | noReply
deriving DecidableEq

inductive Failure where
  | response (problems : List Problem)
  | server (e : ServerError)
  | status (code : Nat)
  | transport (fault : TransportFault)
  | closed

/-- The text of the failure of a client that was closed. -/
def Failure.closedText : String := "Cannot send a request, as the client has been closed."

namespace Reply

def isSuccess (r : Reply) : Bool := 200 ≤ r.status && r.status < 300

/-- The statuses at which the server reports errors in its own form. -/
def errorStatuses : List Nat := [400, 422, 503]

/-- Whether one text occurs in another. -/
def occursIn (part : List Char) : List Char → Bool
  | [] => part.isEmpty
  | c :: rest => part.isPrefixOf (c :: rest) || occursIn part rest

def isJson (r : Reply) : Bool := occursIn "application/json".toList (r.contentType.getD "").toList

/-- Whether the reply may hold an error in the form of the server. -/
def mayReport (r : Reply) : Bool := errorStatuses.contains r.status && r.isJson

/-- The answer in the body, unless it is none or reports an error. -/
def answer (r : Reply) : Except Failure Response := do
  let response ← (Response.ofBytes r.body).toExcept.mapError .response
  response.orError.mapError .server

/-- The failure of a status that is not one of success. -/
def checkStatus (r : Reply) : Except Failure Unit :=
  if r.isSuccess then .ok () else .error (.status r.status)

/-- What a reply means for the query. An error in the form of the server comes before the status,
and the status before the answer. -/
def outcome (r : Reply) : Except Failure Response := do
  if r.mayReport then
    let _ ← r.answer
  r.checkStatus
  r.answer

end Reply

namespace Response

/-- The message that a query is done. -/
def completed (r : Response) : LogMessage :=
  ⟨.info, "查询完成 type=" ++ r.resultType?.getD "None" ++ " size=" ++ toString r.size⟩

/-- The messages that an answer leaves in the log. -/
def logMessages (r : Response) : List LogMessage :=
  r.completed ::
    match r.warnings with
    | some (w :: ws) =>
      [⟨.warning, "Prometheus warnings: " ++ Display.list ((w :: ws).map Display.text)⟩]
    | _ => []

end Response

/-- What happens to a client. -/
inductive Event where
  | close
  | execute (q : Query) (reply : Except TransportFault Reply)

/-- What comes of an event. -/
inductive Exchange where
  | closed
  | executed (result : Except Failure Response) (requests : List Request) (log : List LogMessage)

namespace Client

/-- The execution of a query by a client that is open. -/
def execute (c : Client) (q : Query) (reply : Except TransportFault Reply) : Exchange :=
  let result := (reply.mapError Failure.transport).bind Reply.outcome
  let log := match result with
    | .ok response => response.logMessages
    | .error _ => []
  .executed result [c.request q] log

/-- The exchange of an event, and whether the client is open after it. -/
def perform (c : Client) (isOpen : Bool) : Event → Exchange × Bool
  | .close => (.closed, false)
  | .execute q reply =>
    (if isOpen then c.execute q reply else .executed (.error .closed) [] [], isOpen)

/-- The exchanges of a sequence of events, where the client is open or not at the beginning. -/
def exchanges (c : Client) (isOpen : Bool) : List Event → List Exchange
  | [] => []
  | e :: rest => (c.perform isOpen e).1 :: exchanges c (c.perform isOpen e).2 rest

end Client
end MetricQuery
