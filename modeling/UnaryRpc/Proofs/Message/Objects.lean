import UnaryRpc.Proofs.Message.Body

namespace UnaryRpc

open Json

namespace Schema

theorem ofJson?_object {s : Schema} {members : List (RawText × Tree)} {body : List UInt8}
    (h : (Tree.object members).Spelled body) :
    s.ofJson? body =
      (Tree.object members).members?.bind (fun named => s.ofGiven? (.members named)) := by
  rw [ofJson?, Tree.parse_of_spelled h, Option.bind_some, Given.ofTree?, Option.bind_map]
  rfl

/-- Members that give fields are read as what they give, in any arrangement and in any spelling. -/
theorem ofJson?_arranged {s : Schema} (hs : s.Lawful) {choice : s.Choice}
    (hsuffices : s.Suffices choice) {fields : List (String × Tree)}
    (hgives : s.Gives choice fields) {members : List (RawText × Tree)}
    (harranged : Arranged s.labels fields members) {body : List UInt8}
    (h : (Tree.object members).Spelled body) : s.ofJson? body = some (s.fill choice) := by
  obtain ⟨named, extras, hnames, hperm, hextras⟩ := harranged
  rw [ofJson?_object h, Tree.members?_of_names hnames, Option.bind_some]
  exact ofGiven?_gives hs hsuffices hgives hperm hextras

theorem ofJson?_doubled {s : Schema} {members : List (RawText × Tree)} (hd : s.Doubled members)
    {body : List UInt8} (h : (Tree.object members).Spelled body) : s.ofJson? body = none := by
  rw [ofJson?_object h, Option.bind_eq_none_iff]
  exact fun named hnamed => ofGiven?_doubled hd hnamed

end Schema

namespace Message

/-- A message type that is received from what the members of an object give its fields. The others
have their initial values. Neither the order of the members matters, nor members of other names,
whatever they hold, nor blanks and escapes; but a name of a field that occurs twice does. -/
def ReadsMembers (M : Type) [Message M] : Prop :=
  ∀ (members : List (RawText × Tree)) (body : List UInt8) (store : Store),
    (Tree.object members).Spelled body → body.length < 0x7fffffff →
    let received : Except Status (Owned M) × Store := (receive .json (.ofBytes body)).outcome store
    (∀ choice fields, (schema M).Gives choice fields →
      Arranged (schema M).labels fields members →
      received = delivered store (ofValue ((schema M).fill choice))) ∧
    ((schema M).Doubled members →
      received = (.error (.malformed "Can't deserialize JSON request"), store))

theorem readsMembers_of_lawful {M : Type} [Message M] [Lawful M] (hlenient : (schema M).Lenient) :
    ReadsMembers M := by
  intro members body store hspelled hlen received
  refine ⟨?_, ?_⟩
  · intro choice fields hgives harranged
    have hread := Schema.ofJson?_arranged Lawful.apart (hlenient.suffices choice) hgives harranged
      hspelled
    exact receive_of_some hlen (by rw [decode?, hread, Option.map_some]) store
  · intro hdoubled
    have hread := Schema.ofJson?_doubled hdoubled hspelled
    exact receive_of_none hlen (by rw [decode?, hread, Option.map_none]) store

/-- All message types are received from what the members of an object give their fields. -/
theorem receive_members :
    ReadsMembers Bench.Sample ∧ ReadsMembers Bench.SensorId ∧ ReadsMembers Bench.Sensor ∧
    ReadsMembers Weather.WeatherStationId ∧ ReadsMembers Weather.WeatherStation :=
  ⟨readsMembers_of_lawful (by decide), readsMembers_of_lawful (by decide),
    readsMembers_of_lawful (by decide), readsMembers_of_lawful (by decide),
    readsMembers_of_lawful (by decide)⟩

end Message

end UnaryRpc
