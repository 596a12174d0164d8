import MetricQuery.Response.Basic

/-!
# Errors that the server reports

An answer of status `error` names the type of its error and gives a message. The types that are
known form an enumeration; any other text is kept as it is.
-/

namespace MetricQuery

inductive ServerErrorKind where
  | timeout
  | canceled
  | execution
  | badData
  | internal
  | unavailable
  | notFound
deriving DecidableEq

namespace ServerErrorKind

def all : List ServerErrorKind :=
  [timeout, canceled, execution, badData, internal, unavailable, notFound]

/-- The name of an error type in answers. -/
def name : ServerErrorKind → String
  | timeout => "timeout"
  | canceled => "canceled"
  | execution => "execution"
  | badData => "bad_data"
  | internal => "internal"
  | unavailable => "unavailable"
  | notFound => "not_found"

def ofName? (s : String) : Option ServerErrorKind := all.find? (·.name == s)

end ServerErrorKind

/-- An error that the server reports. -/
structure ServerError where
  errorType : Option String
  message : String
deriving DecidableEq

namespace ServerError

/-- The error of the given type and message; without a message the text is empty. -/
def ofParts (errorType message : Option String) : ServerError := ⟨errorType, message.getD ""⟩

def kind? (e : ServerError) : Option ServerErrorKind := e.errorType.bind ServerErrorKind.ofName?

/-- The type and the message in one line. -/
def text (e : ServerError) : String := e.errorType.getD "None" ++ ": " ++ e.message

end ServerError

namespace Response

def isSuccess (r : Response) : Bool := r.status == .success

def isError (r : Response) : Bool := r.status == .error

def errorKind? (r : Response) : Option ServerErrorKind :=
  r.errorType.bind ServerErrorKind.ofName?

/-- The response itself, or the error that it reports. -/
def orError (r : Response) : Except ServerError Response :=
  match r.status with
  | .success => .ok r
  | .error => .error (.ofParts r.errorType r.error)

def result? (r : Response) : Option Result := r.data.map (·.result)

def stats? (r : Response) : Option Stats := r.data.bind (·.stats)

def resultType? (r : Response) : Option String := r.result?.map Result.typeName

/-- The samples of a vector, if the result is one. -/
def vector? (r : Response) : Option (List LabeledSample) := r.result?.bind Result.vector?

/-- The series of a matrix, if the result is one. -/
def matrix? (r : Response) : Option (List Series) := r.result?.bind Result.matrix?

def scalar? (r : Response) : Option Sample := r.result?.bind Result.scalar?

def string? (r : Response) : Option Sample := r.result?.bind Result.string?

/-- The number of samples or series of the result, or zero without a result. -/
def size (r : Response) : Nat := (r.result?.map Result.size).getD 0

end Response
end MetricQuery
