import MetricQuery.Client.Url
import MetricQuery.Keyed
import MetricQuery.Query.Basic
import MetricQuery.Settings

/-!
# Clients

A client knows the address of the server, how long it waits, and whether it sends queries in the
address or as a form. `Client.request` is the one request that it makes for a query.
-/

namespace MetricQuery

structure Client where
  baseUrl : String
  usePost : Bool
  /-- How long a request may take, in seconds. -/
  timeout : Binary64
deriving DecidableEq

inductive Method where
  | get
  | post
deriving DecidableEq

def Method.name : Method → String
  | .get => "GET"
  | .post => "POST"

/-- A request: the pairs in its address and those in its form. -/
structure Request where
  method : Method
  url : String
  params : List (String × String)
  form : List (String × String)
deriving DecidableEq

/-- The address with the pairs of the request, which replace a query that it has already. -/
def Request.address (r : Request) : Url :=
  let url := Url.ofText r.url
  if r.params = [] then url else { url with query := some r.params }

namespace Client

/-- How long a client waits that is not told otherwise, in seconds. -/
def defaultTimeout : Nat := 30

/-- The timeout that a text writes, in seconds. An empty text counts as none. -/
def readTimeout : Option String → Except Error Binary64
  | none => .ok (.ofRatio false defaultTimeout 1)
  | some s =>
    if s = "" then .ok (.ofRatio false defaultTimeout 1)
    else do totalSeconds (← (Value.text s).durations)

def make (baseUrl : String) (timeout : Option String) (usePost : Bool) : Except Error Client :=
  (readTimeout timeout).map fun seconds =>
    ⟨Url.withoutTrailingSlashes baseUrl, usePost, seconds⟩

def ofSettings (s : Settings) : Except Error Client := make s.baseUrl s.timeout s.usePost

/-- The request for a query: all its pairs go either into the address, as they are, or into the
form, by their names. -/
def request (c : Client) (q : Query) : Request :=
  let url := c.baseUrl ++ q.endpoint
  if c.usePost then ⟨.post, url, [], Keyed.ofPairs q.params⟩ else ⟨.get, url, q.params, []⟩

end Client
end MetricQuery
