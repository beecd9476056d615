import UnaryRpc.Proofs.Message.Members

namespace UnaryRpc

open Json

namespace Scalar

theorem plain_toTree (kind : Scalar) (v : kind.Value) : (kind.toTree v).Plain := by
  cases kind with
  | text => exact Tree.plain_ofText v
  | uint64 => exact Tree.plain_ofInt _
  | int32 => exact Tree.plain_ofInt _
  | texts =>
    apply Tree.plain_array
    intro t ht
    obtain ⟨s, _, rfl⟩ := List.mem_map.mp ht
    exact Tree.plain_ofText s

end Scalar

namespace Schema

/-- The members that write message contents, by name. -/
def named : (s : Schema) → s.Value → List (String × Tree)
  | .nil, _ => []
  | .field label kind rest, (v, vs) => (label.name, kind.toTree v) :: rest.named vs
  | .message label inner rest, (v, vs) =>
    (label.name,
      match v with
      | none => .null
      | some m => .ofMembers (inner.named m)) :: rest.named vs

theorem members_eq_named (s : Schema) (v : s.Value) :
    s.members v = (s.named v).map (fun m => (RawText.ofText m.1, m.2)) := by
  induction s with
  | nil => rfl
  | field label kind rest ih =>
    obtain ⟨v, vs⟩ := v
    simp only [members, named, List.map_cons, ih vs]
  | message label inner rest ihm ih =>
    obtain ⟨v, vs⟩ := v
    cases v with
    | none => simp only [members, named, List.map_cons, ih vs]
    | some m => simp only [members, named, List.map_cons, ih vs, ihm m, Tree.ofMembers]

theorem plain_named (s : Schema) (v : s.Value) : ∀ m ∈ s.named v, m.2.Plain := by
  induction s with
  | nil => simp [named]
  | field label kind rest ih =>
    obtain ⟨v, vs⟩ := v
    intro m hm
    rcases List.mem_cons.mp hm with rfl | hm
    · exact kind.plain_toTree v
    · exact ih vs m hm
  | message label inner rest ihm ih =>
    obtain ⟨v, vs⟩ := v
    intro m hm
    rcases List.mem_cons.mp hm with rfl | hm
    · cases v with
      | none => exact Tree.plain_null
      | some x => exact Tree.plain_ofMembers (ihm x)
    · exact ih vs m hm

/-- The choice of all contents. -/
def given : (s : Schema) → s.Value → s.Choice
  | .nil, _ => ()
  | .field _ _ rest, (v, vs) => (some v, rest.given vs)
  | .message _ inner rest, (v, vs) => (some (v.map inner.given), rest.given vs)

theorem fill_given (s : Schema) (v : s.Value) : s.fill (s.given v) = v := by
  induction s with
  | nil => rfl
  | field label kind rest ih =>
    obtain ⟨v, vs⟩ := v
    exact congrArg (fun vs => (v, vs)) (ih vs)
  | message label inner rest ihm ih =>
    obtain ⟨v, vs⟩ := v
    cases v with
    | none => exact congrArg (fun vs => (none, vs)) (ih vs)
    | some m => exact congrArg₂ (fun m vs => (some m, vs)) (ihm m) (ih vs)

theorem suffices_given (s : Schema) (v : s.Value) : s.Suffices (s.given v) := by
  induction s with
  | nil => trivial
  | field label kind rest ih =>
    obtain ⟨v, vs⟩ := v
    exact ⟨nofun, ih vs⟩
  | message label inner rest ihm ih =>
    obtain ⟨v, vs⟩ := v
    refine ⟨fun c hc => ?_, ih vs⟩
    cases v with
    | none => exact absurd (Option.some.inj hc) nofun
    | some m =>
      obtain rfl := Option.some.inj (Option.some.inj hc)
      exact ihm m

/-- The members that write contents give all of them. -/
theorem gives_named (s : Schema) (v : s.Value) : s.Gives (s.given v) (s.named v) := by
  induction s with
  | nil => rfl
  | field label kind rest ih =>
    obtain ⟨v, vs⟩ := v
    exact ⟨_, _, rfl, kind.stands_toTree v, ih vs⟩
  | message label inner rest ihm ih =>
    obtain ⟨v, vs⟩ := v
    refine ⟨_, _, rfl, ?_, ih vs⟩
    cases v with
    | none => rfl
    | some m =>
      refine ⟨_, inner.named m, rfl, ihm m, inner.named m, [], Tree.names_ofText _, ?_, by simp⟩
      rw [List.append_nil]

theorem plain_members (s : Schema) (v : s.Value) : (Tree.object (s.members v)).Plain := by
  rw [members_eq_named]
  exact Tree.plain_ofMembers (s.plain_named v)

/-- The JSON form of contents is read back as those contents. -/
theorem ofJson?_toJson {s : Schema} (hs : s.Lawful) (v : s.Value) :
    s.ofJson? (s.toJson v) = some v := by
  have hparse : Tree.parse (s.toJson v) = some (.object (s.members v)) :=
    Tree.parse_render (s.plain_members v)
  have hgiven : Given.ofTree? (.object (s.members v)) = some (.members (s.named v)) := by
    rw [Given.ofTree?, members_eq_named, Tree.members?_of_names (Tree.names_ofText _),
      Option.map_some]
  rw [ofJson?, hparse, Option.bind_some, hgiven, Option.bind_some]
  have hperm : (s.named v).Perm (s.named v ++ []) := by rw [List.append_nil]
  rw [ofGiven?_gives hs (s.suffices_given v) (s.gives_named v) hperm (by simp), fill_given]

end Schema

end UnaryRpc
