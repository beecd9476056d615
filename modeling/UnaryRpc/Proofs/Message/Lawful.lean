import UnaryRpc.Message.Binary
import UnaryRpc.Message.Structured

namespace UnaryRpc

/-- A label with a number that fits a key, and with a name and a number that the others lack. -/
structure Label.ApartFrom (label : Label) (others : List Label) : Prop where
  positive : 0 < label.number
  bounded : label.number < 0x20000000
  names : ∀ other ∈ others, other.name ≠ label.name
  numbers : ∀ other ∈ others, other.number ≠ label.number

instance (label : Label) (others : List Label) : Decidable (label.ApartFrom others) :=
  decidable_of_iff
    ((0 < label.number ∧ label.number < 0x20000000) ∧
      (∀ other ∈ others, other.name ≠ label.name) ∧
      ∀ other ∈ others, other.number ≠ label.number)
    ⟨fun ⟨⟨hp, hb⟩, hn, hk⟩ => ⟨hp, hb, hn, hk⟩,
      fun ⟨hp, hb, hn, hk⟩ => ⟨⟨hp, hb⟩, hn, hk⟩⟩

namespace Schema

/-- Whether the fields are told apart, here and in every message inside. -/
def Lawful : Schema → Prop
  | .nil => True
  | .field label _ rest => label.ApartFrom rest.labels ∧ rest.Lawful
  | .message label inner rest => label.ApartFrom rest.labels ∧ inner.Lawful ∧ rest.Lawful

instance decidableLawful : (s : Schema) → Decidable s.Lawful
  | .nil => inferInstanceAs (Decidable True)
  | .field label _ rest =>
    have := rest.decidableLawful
    inferInstanceAs (Decidable (label.ApartFrom rest.labels ∧ rest.Lawful))
  | .message label inner rest =>
    have := inner.decidableLawful
    have := rest.decidableLawful
    inferInstanceAs (Decidable (label.ApartFrom rest.labels ∧ inner.Lawful ∧ rest.Lawful))

/-- How many messages stand inside one another. -/
def depth : Schema → Nat
  | .nil => 0
  | .field _ _ rest => rest.depth
  | .message _ inner rest => max (inner.depth + 1) rest.depth

end Schema

end UnaryRpc
