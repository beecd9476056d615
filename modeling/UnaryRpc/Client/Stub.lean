import UnaryRpc.Client.Gateway

namespace UnaryRpc.Client

structure Stub (κ σ : Type) [ContextKeys κ] where
  sender : Sender κ σ
  service : String
  encoding : Encoding

namespace Stub

variable {κ σ : Type} [ContextKeys κ]

def call {I O : Type} [Message I] [Message O] (s : Stub κ σ) (context : Context κ)
    (method : String) (input : I) : Action (Caller σ) (Owned O) := do
  match Message.write s.encoding input with
  | .error fault => throw fault.status
  | .ok bytes =>
    let reply ← s.sender
      { context, encoding := s.encoding, service := s.service, method, body := .ofBytes bytes }
    Caller.withStore (Message.receive s.encoding reply)

def inspect (s : Stub κ σ) : String :=
  Inspect.record "ServiceClient"
    [("service", Inspect.quoted s.service), ("encoding", s.encoding.inspect)]

end Stub

end UnaryRpc.Client
