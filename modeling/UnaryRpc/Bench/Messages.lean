import UnaryRpc.Message

namespace UnaryRpc.Bench

/-- A note. Its text has to be given. -/
structure Note where
  text : String := ""
deriving DecidableEq, Inhabited

/-- A note that cannot be written as JSON if its text starts with an exclamation mark. -/
structure Picky where
  text : String := ""
deriving DecidableEq, Inhabited

structure Sample where
  stationName : String := ""
  reading : UInt64 := 0
  labels : List String := []
deriving DecidableEq, Inhabited

structure SensorId where
  id : String := ""
deriving DecidableEq, Inhabited

structure Sensor where
  sensorId : Option SensorId := none
  contextData : String := ""
deriving DecidableEq, Inhabited

def Note.schema : Schema := .field ⟨"text", 1, true⟩ .text .nil

instance : Message Note where
  name := "Note"
  schema := Note.schema
  toValue m := (m.text, ())
  ofValue v := ⟨v.1⟩
  ofValue_toValue _ := rfl
  toValue_ofValue _ := rfl

/-- Why a picky note cannot be written as JSON. -/
def Picky.refusal? (m : Picky) : Option String :=
  if m.text.startsWith "!" then some ("picky about " ++ m.text) else none

instance : Message Picky where
  name := "Picky"
  schema := Note.schema
  toValue m := (m.text, ())
  ofValue v := ⟨v.1⟩
  ofValue_toValue _ := rfl
  toValue_ofValue _ := rfl
  refusal? := Picky.refusal?

def Sample.schema : Schema :=
  .field ⟨"stationName", 1, false⟩ .text
    (.field ⟨"reading", 2, false⟩ .uint64
      (.field ⟨"labels", 3, false⟩ .texts .nil))

instance : Message Sample where
  name := "Sample"
  schema := Sample.schema
  toValue m := (m.stationName, m.reading, m.labels, ())
  ofValue v := ⟨v.1, v.2.1, v.2.2.1⟩
  ofValue_toValue _ := rfl
  toValue_ofValue _ := rfl

def SensorId.schema : Schema := .field ⟨"id", 1, false⟩ .text .nil

instance : Message SensorId where
  name := "SensorId"
  schema := SensorId.schema
  toValue m := (m.id, ())
  ofValue v := ⟨v.1⟩
  ofValue_toValue _ := rfl
  toValue_ofValue _ := rfl

def Sensor.schema : Schema :=
  .message ⟨"sensorId", 1, false⟩ SensorId.schema
    (.field ⟨"contextData", 2, false⟩ .text .nil)

instance : Message Sensor where
  name := "Sensor"
  schema := Sensor.schema
  toValue m := (m.sensorId.map Message.toValue, m.contextData, ())
  ofValue v := ⟨v.1.map Message.ofValue, v.2.1⟩
  ofValue_toValue m := by
    obtain ⟨_ | _, _⟩ := m <;> rfl
  toValue_ofValue v := by
    obtain ⟨_ | _, _, _⟩ := v <;> rfl

end UnaryRpc.Bench
