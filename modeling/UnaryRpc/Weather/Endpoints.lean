import UnaryRpc.Client.Stub
import UnaryRpc.Weather.Stations

namespace UnaryRpc.Weather

def serviceName : String := "weather.WSProvider"

variable {ε : Type} [ContextKeys ε] [DecidableEq ε]

def descriptor : Descriptor (Key ε) Sky :=
  (((Descriptor.new serviceName).unary "FindWeatherStation" find).unary
    "DeleteWeatherStation" delete).unary "UpdateWeatherStation" update

def service : Service (Key ε) Sky := descriptor.toService

/-- The header in which clients tell their names. -/
def clientHeader : Http.HeaderName := ⟨"x-weather-client"⟩

/-- Takes the client's name from its header, if there is one. -/
def nameClient {σ : Type} : Server.Interceptor (Key ε) σ := fun inbound => do
  match inbound.request.headers.get? clientHeader with
  | none => pure ()
  | some value =>
    match Http.HeaderValue.text? value with
    | none => throw WeatherFault.clientName.status
    | some name => modify (fun x => { x with context := x.context.set .clientName name })

/-- A server of the weather service alone. -/
def server : Server (Key ε) Sky :=
  (({} : Server (Key ε) Sky).register service).addInterceptor nameClient

def client {κ σ : Type} [ContextKeys κ] (sender : Client.Sender κ σ) (encoding : Encoding) :
    Client.Stub κ σ :=
  ⟨sender, serviceName, encoding⟩

namespace Client

open UnaryRpc.Client

variable {κ σ : Type} [ContextKeys κ]

def find (stub : Stub κ σ) (context : Context κ) (request : WeatherStationId) :
    Action (Caller σ) (Owned WeatherStation) :=
  stub.call context "FindWeatherStation" request

def delete (stub : Stub κ σ) (context : Context κ) (request : WeatherStationId) :
    Action (Caller σ) (Owned WeatherStationId) :=
  stub.call context "DeleteWeatherStation" request

def update (stub : Stub κ σ) (context : Context κ) (request : WeatherStation) :
    Action (Caller σ) (Owned WeatherStation) :=
  stub.call context "UpdateWeatherStation" request

end Client

end UnaryRpc.Weather
