import MetricQuery.Json.Reader
import MetricQuery.Log
import MetricQuery.Schema.Container
import MetricQuery.Value.Number

/-!
# Settings

The settings of a client: the address of the server, the time after which a request is given up,
and the way in which queries are sent. They stand in a document with other fields, which are left
alone. The timeout is stored in its canonical form.
-/

namespace MetricQuery

structure Settings where
  baseUrl : String
  timeout : Option String
  usePost : Bool
deriving DecidableEq

namespace Settings

open Schema

/-- The canonical text of a timeout. -/
def decodeTimeout (v : Json) : Checked String :=
  match text v with
  | .sound s =>
    match (Value.text s).durationText with
    | .ok canonical => .sound canonical
    | .error e => .problem (.refused e.message)
  | .faulty ps => .faulty ps

/-- The settings of a document, which stand in a field of it. -/
def decode : Decoder Settings :=
  openRecord fun document =>
    required document "prometheusConfig" <| openRecord fun fields =>
      Settings.mk <$> required fields "baseUrl" text <*>
        nullableField fields "queryTimeout" decodeTimeout <*> optional fields "usePost" false bool

/-- The file that holds the settings: the one that is asked for, else the one that the environment
names, else `config.json`. Empty names count as none. -/
def location (asked environment : Option String) : String :=
  ([asked, environment].filterMap id).find? (· != "") |>.getD "config.json"

/-- Why settings cannot be loaded. -/
inductive LoadFault where
  | noFile
  | notUtf8
  | notJson (fault : Json.Fault)
  | problems (ps : List Problem)

/-- The settings that a text writes. -/
def ofText (s : String) : Except LoadFault Settings :=
  match Json.read .lenient s.toList with
  | .ok v => (decode v).toExcept.mapError .problems
  | .error fault => .error (.notJson fault)

/-- The settings in a file, where `file?` gives the contents of the files that exist. -/
def load (file? : String → Option ByteArray) (asked environment : Option String) :
    Except LoadFault Settings :=
  match file? (location asked environment) with
  | none => .error .noFile
  | some bytes =>
    match String.fromUTF8? bytes with
    | none => .error .notUtf8
    | some s => ofText s

/-- The message that loaded settings leave in the log. -/
def loadedMessage (s : Settings) : LogMessage :=
  ⟨.info, "配置加载成功: promBase=" ++ s.baseUrl ++ " timeout=" ++ s.timeout.getD "default" ++
    " post=" ++ Display.bool s.usePost⟩

end Settings
end MetricQuery
