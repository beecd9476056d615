import UnaryRpc.Bench.Messages
import UnaryRpc.Weather.Messages

namespace UnaryRpc.Bench

inductive MessageType where
  | note
  | picky
  | sample
  | sensorId
  | sensor
  | stationId
  | station
deriving DecidableEq

namespace MessageType

abbrev Carrier : MessageType → Type
  | note => Note
  | picky => Picky
  | sample => Sample
  | sensorId => SensorId
  | sensor => Sensor
  | stationId => Weather.WeatherStationId
  | station => Weather.WeatherStation

instance (t : MessageType) : Message t.Carrier :=
  match t with
  | note => inferInstanceAs (Message Note)
  | picky => inferInstanceAs (Message Picky)
  | sample => inferInstanceAs (Message Sample)
  | sensorId => inferInstanceAs (Message SensorId)
  | sensor => inferInstanceAs (Message Sensor)
  | stationId => inferInstanceAs (Message Weather.WeatherStationId)
  | station => inferInstanceAs (Message Weather.WeatherStation)

def all : List MessageType := [note, picky, sample, sensorId, sensor, stationId, station]

def ofName? (name : String) : Option MessageType :=
  all.find? (fun t => Message.name t.Carrier == name)

end MessageType

end UnaryRpc.Bench
