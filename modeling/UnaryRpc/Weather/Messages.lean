import UnaryRpc.Message

namespace UnaryRpc.Weather

/-- What kind of place a station stands at. -/
inductive StationKind where
  | unspecified
  | ground
  | buoy
  | sat
deriving DecidableEq, Repr

namespace StationKind

def number : StationKind → Int32
  | unspecified => 0
  | ground => 1
  | buoy => 2
  | sat => 3

/-- The kind with a number, if it is declared. -/
def ofNumber? (n : Int32) : Option StationKind :=
  [unspecified, ground, buoy, sat].find? (fun k => k.number == n)

def label : StationKind → String
  | unspecified => "Unspecified"
  | ground => "Ground"
  | buoy => "Buoy"
  | sat => "Sat"

end StationKind

structure WeatherStationId where
  id : String := ""
deriving DecidableEq, Inhabited

/-- A station. Its context data is filled in by whoever answers. -/
structure WeatherStation where
  wsId : Option WeatherStationId := none
  kind : Int32 := 0
  name : String := ""
  contextData : String := ""
deriving DecidableEq, Inhabited

namespace WeatherStationId

def schema : Schema := .field ⟨"id", 1, false⟩ .text .nil

instance : Message WeatherStationId where
  name := "WeatherStationId"
  schema := schema
  toValue m := (m.id, ())
  ofValue v := ⟨v.1⟩
  ofValue_toValue _ := rfl
  toValue_ofValue _ := rfl

def inspect (m : WeatherStationId) : String :=
  Inspect.record "WeatherStationId" [("id", Inspect.quoted m.id)]

end WeatherStationId

namespace WeatherStation

def schema : Schema :=
  .message ⟨"wsId", 1, false⟩ WeatherStationId.schema
    (.field ⟨"kind", 2, false⟩ .int32
      (.field ⟨"name", 3, false⟩ .text
        (.field ⟨"contextData", 4, false⟩ .text .nil)))

instance : Message WeatherStation where
  name := "WeatherStation"
  schema := schema
  toValue m := (m.wsId.map Message.toValue, m.kind, m.name, m.contextData, ())
  ofValue v := ⟨v.1.map Message.ofValue, v.2.1, v.2.2.1, v.2.2.2.1⟩
  ofValue_toValue m := by
    obtain ⟨_ | _, _, _, _⟩ := m <;> rfl
  toValue_ofValue v := by
    obtain ⟨_ | _, _, _, _, _⟩ := v <;> rfl

/-- The identity as text; a station without one has the empty text. -/
def stationId (m : WeatherStation) : String :=
  (m.wsId.map WeatherStationId.id).getD ""

/-- The declared kind; a number that is not declared counts as unspecified. -/
def stationKind (m : WeatherStation) : StationKind :=
  (StationKind.ofNumber? m.kind).getD .unspecified

/-- Inspection text. An undeclared kind shows its number. -/
def inspect (m : WeatherStation) : String :=
  Inspect.record "WeatherStation"
    [("ws_id", Inspect.optional (m.wsId.map WeatherStationId.inspect)),
     ("kind", match StationKind.ofNumber? m.kind with
       | some kind => kind.label
       | none => toString m.kind.toInt),
     ("name", Inspect.quoted m.name),
     ("context_data", Inspect.quoted m.contextData)]

end WeatherStation

end UnaryRpc.Weather
