import UnaryRpc.Proofs.Json.Object
import UnaryRpc.Proofs.Message.Lawful

namespace UnaryRpc

open Json

namespace Json

/-- A name that two members of an object have. -/
def Twice (name : String) (members : List (RawText × Tree)) : Prop :=
  ∃ k t k' t', [(k, t), (k', t')].Sublist members ∧ k.Spells name.toList ∧ k'.Spells name.toList

/-- Members of an object that are the given ones, in any order, with members of other names anywhere
between them. -/
def Arranged (labels : List Label) (fields : List (String × Tree))
    (members : List (RawText × Tree)) : Prop :=
  ∃ named extras, Names members named ∧ named.Perm (fields ++ extras) ∧
    ∀ m ∈ extras, ∀ label ∈ labels, m.1 ≠ label.name

end Json

namespace Scalar

/-- A value that a field can be given. Numbers are written in digits. -/
def Stands : (k : Scalar) → k.Value → Tree → Prop
  | .text, s, t => t.IsText s
  | .uint64, n, t => t = .number (.ofInt n.toNat)
  | .int32, n, t => t = .number (.ofInt n.toInt)
  | .texts, l, t => ∃ items, t = .array items ∧ List.Forall₂ Tree.IsText l items

theorem intWithin?_ofInt {low high i : Int} (hlow : low ≤ i) (hhigh : i ≤ high) :
    intWithin? low high (.number (.ofInt i)) = some i := by
  simp [intWithin?, Numeral.int?_ofInt, Option.filter, hlow, hhigh]

/-- A value is read from whatever stands for it. -/
theorem Stands.ofTree? {kind : Scalar} {v : kind.Value} {t : Tree} (h : kind.Stands v t) :
    kind.ofTree? t = some v := by
  cases kind with
  | text => exact Tree.IsText.text? h
  | uint64 =>
    obtain rfl : t = .number (.ofInt (UInt64.toNat v)) := h
    have hlt := UInt64.toNat_lt v
    rw [Scalar.ofTree?, intWithin?_ofInt (by omega) (by omega)]
    simp
  | int32 =>
    obtain rfl : t = .number (.ofInt (Int32.toInt v)) := h
    have hlow := Int32.le_toInt v
    have hhigh := Int32.toInt_lt v
    rw [Scalar.ofTree?, intWithin?_ofInt (by omega) (by omega)]
    simp
  | texts =>
    obtain ⟨items, rfl, hitems⟩ := h
    exact mapM_eq_some_iff.mpr (hitems.flip.imp (fun _ _ ht => Tree.IsText.text? ht))

/-- What a field is written as stands for it. -/
theorem stands_toTree (kind : Scalar) (v : kind.Value) : kind.Stands v (kind.toTree v) := by
  cases kind with
  | text => exact Tree.isText_ofText v
  | uint64 => rfl
  | int32 => rfl
  | texts =>
    refine ⟨_, rfl, ?_⟩
    rw [List.forall₂_map_right_iff, List.forall₂_same]
    exact fun s _ => Tree.isText_ofText s

end Scalar

namespace Schema

/-- What is given for the fields of a message: for each of them a value or nothing. A message inside
can be given as null, or by what is given for its own fields. -/
def Choice : Schema → Type
  | .nil => Unit
  | .field _ kind rest => Option kind.Value × rest.Choice
  | .message _ inner rest => Option (Option inner.Choice) × rest.Choice

/-- The contents that are given. Fields of which nothing is given have their initial values. -/
def fill : (s : Schema) → s.Choice → s.Value
  | .nil, _ => ()
  | .field _ kind rest, (v, vs) => (v.getD kind.initial, rest.fill vs)
  | .message _ inner rest, (v, vs) => (v.join.map inner.fill, rest.fill vs)

/-- Whether something is given for every required field. -/
def Suffices : (s : Schema) → s.Choice → Prop
  | .nil, _ => True
  | .field label _ rest, (v, vs) => (v = none → label.required = false) ∧ rest.Suffices vs
  | .message _ inner rest, (v, vs) =>
    (∀ c, v = some (some c) → inner.Suffices c) ∧ rest.Suffices vs

/-- Whether every field, here and in every message inside, may be left out. -/
def Lenient : Schema → Prop
  | .nil => True
  | .field label _ rest => label.required = false ∧ rest.Lenient
  | .message _ inner rest => inner.Lenient ∧ rest.Lenient

instance decidableLenient : (s : Schema) → Decidable s.Lenient
  | .nil => inferInstanceAs (Decidable True)
  | .field label _ rest =>
    have := rest.decidableLenient
    inferInstanceAs (Decidable (label.required = false ∧ rest.Lenient))
  | .message _ inner rest =>
    have := inner.decidableLenient
    have := rest.decidableLenient
    inferInstanceAs (Decidable (inner.Lenient ∧ rest.Lenient))

theorem Lenient.suffices {s : Schema} (h : s.Lenient) (choice : s.Choice) : s.Suffices choice := by
  induction s with
  | nil => trivial
  | field label kind rest ih => exact ⟨fun _ => h.1, ih h.2 choice.2⟩
  | message label inner rest ihm ih => exact ⟨fun c _ => ihm h.1 c, ih h.2 choice.2⟩

/-- Members that give the fields what is chosen for them, in the order of the fields. -/
def Gives : (s : Schema) → s.Choice → List (String × Tree) → Prop
  | .nil, _, fields => fields = []
  | .field label kind rest, (v, vs), fields =>
    match v with
    | none => rest.Gives vs fields
    | some v => ∃ t others, fields = (label.name, t) :: others ∧ kind.Stands v t ∧
        rest.Gives vs others
  | .message label inner rest, (v, vs), fields =>
    match v with
    | none => rest.Gives vs fields
    | some v => ∃ t others, fields = (label.name, t) :: others ∧
        (match v with
          | none => t = .null
          | some c => ∃ members inside, t = .object members ∧ inner.Gives c inside ∧
              Arranged inner.labels inside members) ∧
        rest.Gives vs others

/-- Members of an object that give a field twice, or hold an object that does so for a message
inside. -/
def Doubled : Schema → List (RawText × Tree) → Prop
  | .nil, _ => False
  | .field label _ rest, members => Twice label.name members ∨ rest.Doubled members
  | .message label inner rest, members =>
    Twice label.name members ∨
      (∃ k inside, (k, .object inside) ∈ members ∧ k.Spells label.name.toList ∧
        inner.Doubled inside) ∨
      rest.Doubled members

theorem take_absent {named : List (String × Tree)} {name : String} (h : ∀ m ∈ named, m.1 ≠ name) :
    Given.take name (.members named) = some (none, .members named) := by
  have hfilter : named.filter (fun m => m.1 == name) = [] := by
    simpa [List.filter_eq_nil_iff] using h
  simp only [Given.take, hfilter]

/-- A field takes the one member of its name and leaves all members for the others. -/
theorem take_member {named others : List (String × Tree)} {name : String} {t : Tree}
    (hperm : named.Perm ((name, t) :: others)) (h : ∀ m ∈ others, m.1 ≠ name) :
    Given.take name (.members named) = some (some t, .members named) := by
  have hothers : others.filter (fun m => m.1 == name) = [] := by
    simpa [List.filter_eq_nil_iff] using h
  have hfilter : (named.filter (fun m => m.1 == name)).Perm [(name, t)] := by
    simpa [hothers] using hperm.filter (fun m => m.1 == name)
  simp only [Given.take, List.perm_singleton.mp hfilter]

/-- Members that give fields have names of fields. -/
theorem Gives.name {s : Schema} {choice : s.Choice} {fields : List (String × Tree)}
    (h : s.Gives choice fields) : ∀ m ∈ fields, ∃ label ∈ s.labels, m.1 = label.name := by
  induction s generalizing fields with
  | nil =>
    obtain rfl : fields = [] := h
    simp
  | field label kind rest ih | message label inner rest _ ih =>
    obtain ⟨v, vs⟩ := choice
    have hrest {others : List (String × Tree)} (h : rest.Gives vs others) :
        ∀ m ∈ others, ∃ l ∈ label :: rest.labels, m.1 = l.name :=
      fun m hm => (ih h m hm).imp (fun _ hl => ⟨List.mem_cons_of_mem _ hl.1, hl.2⟩)
    cases v with
    | none => exact hrest h
    | some v =>
      obtain ⟨t, others, rfl, -, hothers⟩ := h
      exact List.forall_mem_cons.mpr ⟨⟨label, List.mem_cons_self, rfl⟩, hrest hothers⟩

theorem Gives.apart {label : Label} {rest : Schema} (hl : label.ApartFrom rest.labels)
    {vs : rest.Choice} {fields : List (String × Tree)} (h : rest.Gives vs fields) :
    ∀ m ∈ fields, m.1 ≠ label.name := by
  intro m hm
  obtain ⟨l, hlabel, hname⟩ := h.name m hm
  rw [hname]
  exact hl.names l hlabel

section

variable {label : Label} {rest : Schema} {vs : rest.Choice}
  {fields named others : List (String × Tree)} {t : Tree}

theorem take_chosen (hl : label.ApartFrom rest.labels) (hgives : rest.Gives vs fields)
    (hperm : named.Perm ((label.name, t) :: fields ++ others))
    (hothers : ∀ m ∈ others, m.1 ≠ label.name) :
    Given.take label.name (.members named) = some (some t, .members named) :=
  take_member hperm (List.forall_mem_append.mpr ⟨hgives.apart hl, hothers⟩)

theorem take_unchosen (hl : label.ApartFrom rest.labels) (hgives : rest.Gives vs fields)
    (hperm : named.Perm (fields ++ others)) (hothers : ∀ m ∈ others, m.1 ≠ label.name) :
    Given.take label.name (.members named) = some (none, .members named) := by
  refine take_absent (fun m hm => ?_)
  exact List.forall_mem_append.mpr ⟨hgives.apart hl, hothers⟩ m (hperm.mem_iff.mp hm)

/-- A member that was taken is one of the others for the remaining fields. -/
theorem others_chosen (hl : label.ApartFrom rest.labels)
    (hothers : ∀ m ∈ others, ∀ l ∈ rest.labels, m.1 ≠ l.name) :
    ∀ m ∈ (label.name, t) :: others, ∀ l ∈ rest.labels, m.1 ≠ l.name :=
  List.forall_mem_cons.mpr ⟨fun l hlab => (hl.names l hlab).symm, hothers⟩

end

/-- Contents are read from members that give them, in any order and between members of other
names. -/
theorem ofGiven?_gives {s : Schema} (hs : s.Lawful) {choice : s.Choice}
    (hsuffices : s.Suffices choice) {fields named others : List (String × Tree)}
    (hgives : s.Gives choice fields) (hperm : named.Perm (fields ++ others))
    (hothers : ∀ m ∈ others, ∀ label ∈ s.labels, m.1 ≠ label.name) :
    s.ofGiven? (.members named) = some (s.fill choice) := by
  induction s generalizing fields named others with
  | nil => rfl
  | field label kind rest ih =>
    obtain ⟨v, vs⟩ := choice
    obtain ⟨hl, hrest⟩ := hs
    obtain ⟨hrequired, hsuffices⟩ := hsuffices
    have hlabel : ∀ m ∈ others, m.1 ≠ label.name :=
      fun m hm => hothers m hm label (by simp [labels])
    have hlabels : ∀ m ∈ others, ∀ l ∈ rest.labels, m.1 ≠ l.name :=
      fun m hm l hlab => hothers m hm l (by simp [labels, hlab])
    cases v with
    | none =>
      have htake := take_unchosen hl hgives hperm hlabel
      have hread := ih hrest hsuffices hgives hperm hlabels
      simp only [ofGiven?, htake, Option.bind_eq_bind, Option.bind_some, hrequired rfl,
        Bool.false_eq_true, ↓reduceIte, hread]
      rfl
    | some v =>
      obtain ⟨t, fields, rfl, hstands, hgives⟩ := hgives
      have htake := take_chosen hl hgives hperm hlabel
      have hread := ih hrest hsuffices hgives (hperm.trans List.perm_middle.symm)
        (others_chosen hl hlabels)
      simp only [ofGiven?, htake, Option.bind_eq_bind, Option.bind_some, hstands.ofTree?, hread]
      rfl
  | message label inner rest ihm ih =>
    obtain ⟨v, vs⟩ := choice
    obtain ⟨hl, hinner, hrest⟩ := hs
    obtain ⟨hsufficesInner, hsuffices⟩ := hsuffices
    have hlabel : ∀ m ∈ others, m.1 ≠ label.name :=
      fun m hm => hothers m hm label (by simp [labels])
    have hlabels : ∀ m ∈ others, ∀ l ∈ rest.labels, m.1 ≠ l.name :=
      fun m hm l hlab => hothers m hm l (by simp [labels, hlab])
    cases v with
    | none =>
      have htake := take_unchosen hl hgives hperm hlabel
      have hread := ih hrest hsuffices hgives hperm hlabels
      simp only [ofGiven?, htake, Option.bind_eq_bind, Option.bind_some, hread]
      rfl
    | some v =>
      obtain ⟨t, fields, rfl, hstands, hgives⟩ := hgives
      have htake := take_chosen hl hgives hperm hlabel
      have hread := ih hrest hsuffices hgives (hperm.trans List.perm_middle.symm)
        (others_chosen hl hlabels)
      cases v with
      | none =>
        obtain rfl : t = .null := hstands
        simp only [ofGiven?, htake, Option.bind_eq_bind, Option.bind_some, hread]
        rfl
      | some c =>
        obtain ⟨members, inside, rfl, hinside, namedInside, extras, hnames, hpermInside, hextras⟩ :=
          hstands
        have hreadInside := ihm hinner (hsufficesInner c rfl) hinside hpermInside hextras
        simp only [ofGiven?, htake, Option.bind_eq_bind, Option.bind_some, Given.ofTree?,
          Tree.members?_of_names hnames, Option.map_some, hreadInside, hread]
        rfl

/-- A field that takes something leaves all members for the others, and no member but the one it
takes has its name. -/
theorem of_take_members {name : String} {named : List (String × Tree)} {t? : Option Tree}
    {left : Given} (h : Given.take name (.members named) = some (t?, left)) :
    left = .members named ∧
      named.filter (fun m => m.1 == name) = (t?.map (fun t => (name, t))).toList := by
  simp only [Given.take] at h
  split at h
  · rename_i hfilter
    obtain ⟨rfl, rfl⟩ := Prod.mk.inj (Option.some.inj h)
    exact ⟨rfl, hfilter⟩
  · rename_i m hfilter
    obtain ⟨rfl, rfl⟩ := Prod.mk.inj (Option.some.inj h)
    have hm : m ∈ named.filter (fun m => m.1 == name) := by simp [hfilter]
    have hname : m.1 = name := by simpa using (List.mem_filter.mp hm).2
    refine ⟨rfl, ?_⟩
    rw [hfilter, ← hname]
    rfl
  · contradiction

/-- Members whose keys spell a name are found by that name, in the same order. -/
theorem sublist_named {members : List (RawText × Tree)} {named : List (String × Tree)}
    (hnamed : (Tree.object members).members? = some named) (name : String)
    {found : List (RawText × Tree)} (hfound : found.Sublist members)
    (hname : ∀ m ∈ found, m.1.Spells name.toList) :
    (found.map (fun m => (name, m.2))).Sublist (named.filter (fun m => m.1 == name)) := by
  have hmembers := Tree.members?_eq_some_iff.mp hnamed
  clear hnamed
  induction hfound generalizing named with
  | slnil => simp
  | cons m _ ih =>
    cases hmembers with
    | cons _ hothers => exact (ih hname hothers).trans ((List.sublist_cons_self _ _).filter _)
  | cons_cons m _ ih =>
    cases hmembers with
    | @cons _ n _ others hm hothers =>
      obtain ⟨hkey, hvalue⟩ := hm
      obtain ⟨hspells, hname⟩ := List.forall_mem_cons.mp hname
      have hn : n = (name, m.2) :=
        Prod.ext (Option.some.inj (hkey.symm.trans hspells.text?)) hvalue.symm
      rw [hn, List.map_cons, List.filter_cons_of_pos (by simp)]
      exact (ih hname hothers).cons_cons _

/-- A field of which two members have the name takes neither. -/
theorem take_twice {members : List (RawText × Tree)} {named : List (String × Tree)}
    (hnamed : (Tree.object members).members? = some named) {name : String}
    (htwice : Twice name members) : Given.take name (.members named) = none := by
  obtain ⟨k, t, k', t', hsub, hk, hk'⟩ := htwice
  have hfound := sublist_named hnamed name hsub (by simp [hk, hk'])
  rw [Option.eq_none_iff_forall_ne_some]
  rintro ⟨t?, left⟩ htake
  rw [(of_take_members htake).2] at hfound
  have hlength := hfound.length_le
  cases t? <;> simp at hlength

/-- A field takes the member of its name if it takes any. -/
theorem take_mem {members : List (RawText × Tree)} {named : List (String × Tree)}
    (hnamed : (Tree.object members).members? = some named) {name : String} {k : RawText} {t : Tree}
    (hmem : (k, t) ∈ members) (hk : k.Spells name.toList) {t? : Option Tree} {left : Given}
    (htake : Given.take name (.members named) = some (t?, left)) : t? = some t := by
  have hfound := sublist_named hnamed name (List.singleton_sublist.mpr hmem) (by simpa using hk)
  rw [(of_take_members htake).2] at hfound
  cases t? with
  | none => simp at hfound
  | some u => simpa [eq_comm] using hfound

theorem of_ofGiven?_field {label : Label} {kind : Scalar} {rest : Schema}
    {named : List (String × Tree)} {w : kind.Value × rest.Value}
    (h : (Schema.field label kind rest).ofGiven? (.members named) = some w) :
    (∃ t?, Given.take label.name (.members named) = some (t?, .members named)) ∧
      ∃ vs, rest.ofGiven? (.members named) = some vs := by
  simp only [ofGiven?, Option.bind_eq_bind] at h
  obtain ⟨⟨t?, left⟩, htake, h⟩ := Option.bind_eq_some_iff.mp h
  obtain rfl := (of_take_members htake).1
  refine ⟨⟨t?, htake⟩, ?_⟩
  have hrest {v? : Option kind.Value} (h : (v?.bind fun v =>
      (rest.ofGiven? (.members named)).bind fun vs => some (v, vs)) = some w) :
      ∃ vs, rest.ofGiven? (.members named) = some vs := by
    obtain ⟨v, -, h⟩ := Option.bind_eq_some_iff.mp h
    obtain ⟨vs, hvs, -⟩ := Option.bind_eq_some_iff.mp h
    exact ⟨vs, hvs⟩
  cases t? with
  | none =>
    dsimp only at h
    split at h
    · exact hrest h
    · exact hrest h
  | some t => exact hrest h

theorem of_ofGiven?_message {label : Label} {inner rest : Schema} {named : List (String × Tree)}
    {w : Option inner.Value × rest.Value}
    (h : (Schema.message label inner rest).ofGiven? (.members named) = some w) :
    (∃ t?, Given.take label.name (.members named) = some (t?, .members named) ∧
      ∀ members, t? = some (.object members) →
        ∃ inside, (Tree.object members).members? = some inside ∧
          ∃ m, inner.ofGiven? (.members inside) = some m) ∧
      ∃ vs, rest.ofGiven? (.members named) = some vs := by
  simp only [ofGiven?, Option.bind_eq_bind] at h
  obtain ⟨⟨t?, left⟩, htake, h⟩ := Option.bind_eq_some_iff.mp h
  obtain rfl := (of_take_members htake).1
  have hrest {v? : Option (Option inner.Value)} (h : (v?.bind fun v =>
      (rest.ofGiven? (.members named)).bind fun vs => some (v, vs)) = some w) :
      (∃ v, v? = some v) ∧ ∃ vs, rest.ofGiven? (.members named) = some vs := by
    obtain ⟨v, hv, h⟩ := Option.bind_eq_some_iff.mp h
    obtain ⟨vs, hvs, -⟩ := Option.bind_eq_some_iff.mp h
    exact ⟨⟨v, hv⟩, vs, hvs⟩
  dsimp only at h
  split at h
  · exact ⟨⟨_, htake, nofun⟩, (hrest h).2⟩
  · exact ⟨⟨_, htake, nofun⟩, (hrest h).2⟩
  · obtain ⟨⟨v, hv⟩, hvs⟩ := hrest h
    refine ⟨⟨_, htake, ?_⟩, hvs⟩
    intro members hobject
    obtain rfl := Option.some.inj hobject
    obtain ⟨m, hm, -⟩ := Option.map_eq_some_iff.mp hv
    obtain ⟨given, hgiven, hm⟩ := Option.bind_eq_some_iff.mp hm
    rw [Given.ofTree?] at hgiven
    obtain ⟨inside, hinside, rfl⟩ := Option.map_eq_some_iff.mp hgiven
    exact ⟨inside, hinside, m, hm⟩

/-- An object that gives a field twice is refused. -/
theorem ofGiven?_doubled {s : Schema} {members : List (RawText × Tree)} (hd : s.Doubled members)
    {named : List (String × Tree)} (hnamed : (Tree.object members).members? = some named) :
    s.ofGiven? (.members named) = none := by
  rw [Option.eq_none_iff_forall_ne_some]
  intro w hw
  induction s generalizing members named with
  | nil => exact hd
  | field label kind rest ih =>
    obtain ⟨⟨t?, htake⟩, vs, hvs⟩ := of_ofGiven?_field hw
    rcases hd with htwice | hd
    · rw [take_twice hnamed htwice] at htake
      contradiction
    · exact ih hd hnamed vs hvs
  | message label inner rest ihm ih =>
    obtain ⟨⟨t?, htake, hinner⟩, vs, hvs⟩ := of_ofGiven?_message hw
    rcases hd with htwice | ⟨k, members', hmem, hk, hinside⟩ | hd
    · rw [take_twice hnamed htwice] at htake
      contradiction
    · obtain ⟨inside, hnamed', m, hm⟩ := hinner members' (take_mem hnamed hmem hk htake)
      exact ihm hinside hnamed' m hm
    · exact ih hd hnamed vs hvs

end Schema

end UnaryRpc
