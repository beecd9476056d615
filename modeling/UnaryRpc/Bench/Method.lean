import UnaryRpc.Bench.Messages
import UnaryRpc.Bench.Recording
import UnaryRpc.Weather.Endpoints

namespace UnaryRpc.Bench

/-- What a method does. -/
inductive Deed where
  | fail (status : Status)
  | shout
  | independent
  | hello
  | attempt
  | scope
  | picky
  | reflect
  | sample

structure Method where
  name : String
  deed : Deed

/-- A service: one of the bench's own, possibly listing methods that it cannot invoke, or a
weather service with its sky. -/
inductive ServiceDescription where
  | weather (sky : Nat)
  | bench (name : String) (methods : List Method) (extra : List String)

namespace Deed

open Scope

abbrev Stage := Scope RequestKey Recording

/-- Records that a method was called, and what it is about to answer. -/
def report (method : String) (note : Owned Note) : Action Stage (Owned Note) := do
  withWorld (Recording.record (.called method (some note.ownership)))
  return note

/-- The name of the caller, if it is set. -/
def caller? : Action Stage (Option String) := do
  return (← get).context.get? (.other .caller)

/-- The name of the caller, or the name of a stranger. -/
def caller : Action Stage String := do
  return (← get).context.get (.other .caller)

/-- Counts an attempt; the answer is how many there were. -/
def countAttempt : Action Stage UInt32 := do
  let n : UInt32 := (← get).context.get (.other .attempts)
  modify (fun s => { s with context := s.context.set (.other .attempts) (n + 1) })
  return n + 1

/-- What a method sees of its scope. A crowded context is not shown. -/
def outline (s : Stage) : String :=
  "arena=" ++ (s.store.map (fun arena => toString arena.size)).getD "none" ++
  " context=" ++ toString s.context.size ++
  " " ++ (if s.context.size < 2 then s.inspect else "")

/-- What a note is answered with. -/
def answer (note : Note) : Deed → Action Stage (Owned Note)
  | shout => alloc (⟨note.text.map Char.toUpper⟩ : Note)
  | hello => do alloc (⟨note.text ++ " " ++ (← caller) ++ "!"⟩ : Note)
  | attempt => do alloc (⟨note.text ++ toString (← countAttempt)⟩ : Note)
  | scope => do alloc (⟨note.text ++ " " ++ outline (← get)⟩ : Note)
  | _ => return .independent note

def register (d : Descriptor RequestKey Recording) (m : Method) :
    Descriptor RequestKey Recording :=
  match m.deed with
  | .fail status => d.unary m.name (fun (_ : Note) => do
      withWorld (Recording.record (.called m.name none))
      (throw status : Action Stage (Owned Note)))
  | .picky => d.unary m.name (fun (note : Note) =>
      (alloc (⟨note.text⟩ : Picky) : Action Stage (Owned Picky)))
  | .reflect => d.unary m.name (fun (id : SensorId) => do
      let name : String := (← caller?).getD ""
      (alloc ({ sensorId := some ⟨"Reflected" ++ id.id⟩, contextData := name } : Sensor) :
        Action Stage (Owned Sensor)))
  | .sample => d.unary m.name (fun (sample : Sample) =>
      (alloc sample : Action Stage (Owned Sample)))
  | deed => d.unary m.name (fun (note : Note) => do report m.name (← answer note deed))

end Deed

namespace ServiceDescription

def describe (name : String) (methods : List Method) : Descriptor RequestKey Recording :=
  methods.foldl Deed.register (Descriptor.new name)

def service : ServiceDescription → Service RequestKey Recording
  | weather sky => Weather.service.focus (Recording.sky sky)
  | bench name methods extra =>
    let service := (describe name methods).toService
    { service with methods := service.methods ++ extra }

def inspect : ServiceDescription → String
  | weather _ => (Weather.descriptor (ε := Key)).inspect
  | bench name methods _ => (describe name methods).inspect

end ServiceDescription

end UnaryRpc.Bench
