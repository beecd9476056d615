import Mathlib.Data.List.Forall2
import UnaryRpc.Proofs.Json.Tree

namespace UnaryRpc

/-- Items are mapped together if each of them is. -/
theorem mapM_eq_some_iff {α β : Type} {f : α → Option β} {l : List α} {out : List β} :
    l.mapM f = some out ↔ List.Forall₂ (fun a b => f a = some b) l out := by
  induction l generalizing out with
  | nil =>
    rw [List.mapM_nil, List.forall₂_nil_left_iff]
    exact Option.some_inj.trans eq_comm
  | cons a l ih =>
    simp only [List.mapM_cons, Option.bind_eq_bind, Option.bind_eq_some_iff, Option.pure_def,
      Option.some.injEq, ih]
    constructor
    · rintro ⟨b, hb, rest, hrest, rfl⟩
      exact .cons hb hrest
    · intro h
      cases h with
      | cons hb hrest => exact ⟨_, hb, _, hrest, rfl⟩

namespace Json

/-- The members of an object by name, whatever the spelling of their keys. -/
def Names (members : List (RawText × Tree)) (named : List (String × Tree)) : Prop :=
  List.Forall₂ (fun m n => m.1.Spells n.1.toList ∧ m.2 = n.2) members named

namespace Tree

theorem members?_eq_some_iff {members : List (RawText × Tree)} {named : List (String × Tree)} :
    (object members).members? = some named ↔
      List.Forall₂ (fun m n => m.1.text? = some n.1 ∧ m.2 = n.2) members named := by
  have hmember (m : RawText × Tree) (n : String × Tree) :
      m.1.text?.map (fun key => (key, m.2)) = some n ↔ m.1.text? = some n.1 ∧ m.2 = n.2 := by
    simp [Option.map_eq_some_iff, Prod.ext_iff]
  simp only [members?, mapM_eq_some_iff, hmember]

/-- The members of an object are found by their names. -/
theorem members?_of_names {members : List (RawText × Tree)} {named : List (String × Tree)}
    (h : Names members named) : (object members).members? = some named :=
  members?_eq_some_iff.mpr (h.imp (fun _ _ hm => ⟨hm.1.text?, hm.2⟩))

/-- An object with the given members. -/
def ofMembers (ms : List (String × Tree)) : Tree :=
  .object (ms.map (fun m => (RawText.ofText m.1, m.2)))

@[simp] theorem text?_ofText (s : String) : (ofText s).text? = some s :=
  RawText.text?_ofText s

theorem names_ofText (ms : List (String × Tree)) :
    Names (ms.map (fun m => (RawText.ofText m.1, m.2))) ms := by
  rw [Names, List.forall₂_map_left_iff, List.forall₂_same]
  exact fun m _ => ⟨RawText.spells_ofText m.1, rfl⟩

@[simp] theorem members?_ofMembers (ms : List (String × Tree)) :
    (ofMembers ms).members? = some ms :=
  members?_of_names (names_ofText ms)

theorem plain_ofMembers {ms : List (String × Tree)} (h : ∀ m ∈ ms, Plain m.2) :
    Plain (ofMembers ms) := by
  apply plain_object
  intro m hm
  obtain ⟨e, he, rfl⟩ := List.mem_map.mp hm
  exact ⟨RawText.plain_ofText e.1, h e he⟩

theorem membersStrict_iff {depth : Nat} {members : List (RawText × Tree)} :
    membersStrict depth members = true ↔
      ∀ m ∈ members, m.1.text?.isSome = true ∧ isStrict depth m.2 = true := by
  induction members with
  | nil => simp [membersStrict]
  | cons m members ih => simp [membersStrict, ih]

theorem isStrict_object_iff {depth : Nat} {members : List (RawText × Tree)} :
    isStrict depth (.object members) = true ↔
      depth ≠ 0 ∧ ∀ m ∈ members, m.1.text?.isSome = true ∧ isStrict (depth - 1) m.2 = true := by
  simp [isStrict, membersStrict_iff]

@[simp] theorem isStrict_ofText (depth : Nat) (s : String) : isStrict depth (ofText s) = true := by
  simp [ofText, isStrict]

theorem isStrict_ofMembers (depth : Nat) {ms : List (String × Tree)}
    (h : ∀ m ∈ ms, isStrict depth m.2 = true) : isStrict (depth + 1) (ofMembers ms) = true := by
  refine isStrict_object_iff.mpr ⟨by omega, ?_⟩
  intro m hm
  obtain ⟨e, he, rfl⟩ := List.mem_map.mp hm
  exact ⟨by simp, h e he⟩

/-- A plain value that can be taken whole is taken from its compact text. -/
theorem parseStrict_render {t : Tree} (hplain : t.Plain) (hstrict : isStrict maxDepth t = true) :
    parseStrict t.render = some t := by
  rw [parseStrict, parse_render hplain]
  simp [Option.filter, hstrict]

/-- A value that is a text, in any spelling. -/
def IsText (s : String) (t : Tree) : Prop :=
  ∃ raw : RawText, t = .text raw ∧ raw.Spells s.toList

theorem IsText.text? {s : String} {t : Tree} (h : t.IsText s) : t.text? = some s := by
  obtain ⟨raw, rfl, hraw⟩ := h
  exact hraw.text?

theorem isText_ofText (s : String) : (ofText s).IsText s :=
  ⟨RawText.ofText s, rfl, RawText.spells_ofText s⟩

/-- A value of which every quoted text stands for a text, keys included. -/
def Legible (t : Tree) : Prop :=
  ∀ raw, .text raw ∈ t.tokens → ∃ s : String, raw.Spells s.toList

/-- An object has a value under a name. What stands last under it counts. -/
def HasMember (t : Tree) (name : String) (value : Tree) : Prop :=
  ∃ before k after, t = .object (before ++ (k, value) :: after) ∧ k.Spells name.toList ∧
    ∀ m ∈ after, ¬m.1.Spells name.toList

/-- An object has a text under a name. -/
def HasText (t : Tree) (name s : String) : Prop :=
  ∃ value, t.HasMember name value ∧ value.IsText s

theorem text_mem_memberTokens {members : List (RawText × Tree)} {raw : RawText} :
    .text raw ∈ memberTokens members ↔
      ∃ m ∈ members, raw = m.1 ∨ .text raw ∈ m.2.tokens := by
  induction members with
  | nil => simp [memberTokens]
  | cons m members ih => simp [memberTokens, ih, or_assoc]

/-- The quoted texts of an object are its keys and those of its values. -/
theorem text_mem_tokens_object {members : List (RawText × Tree)} {raw : RawText} :
    .text raw ∈ (object members).tokens ↔
      ∃ m ∈ members, raw = m.1 ∨ .text raw ∈ m.2.tokens := by
  cases members with
  | nil => simp [tokens]
  | cons m members => simp [tokens, text_mem_memberTokens, or_assoc]

theorem legible_object_iff {members : List (RawText × Tree)} :
    (object members).Legible ↔
      ∀ m ∈ members, (∃ s : String, m.1.Spells s.toList) ∧ m.2.Legible := by
  constructor
  · intro h m hm
    exact ⟨h m.1 (text_mem_tokens_object.mpr ⟨m, hm, .inl rfl⟩),
      fun raw hraw => h raw (text_mem_tokens_object.mpr ⟨m, hm, .inr hraw⟩)⟩
  · intro h raw hraw
    obtain ⟨m, hm, hraw⟩ := text_mem_tokens_object.mp hraw
    rcases hraw with rfl | hraw
    · exact (h m hm).1
    · exact (h m hm).2 raw hraw

theorem Legible.text?_eq_some_iff {t : Tree} (h : t.Legible) {s : String} :
    t.text? = some s ↔ t.IsText s := by
  constructor
  · intro htext
    cases t with
    | text raw =>
      obtain ⟨s', hraw⟩ := h raw (by simp [tokens])
      obtain rfl : s' = s := Option.some.inj (hraw.text?.symm.trans htext)
      exact ⟨raw, rfl, hraw⟩
    | _ => contradiction
  · exact IsText.text?

section

variable {members : List (RawText × Tree)} {m : RawText × Tree}

theorem Legible.key_text?_eq_some_iff (h : (object members).Legible) (hm : m ∈ members)
    {name : String} : m.1.text? = some name ↔ m.1.Spells name.toList := by
  obtain ⟨s, hs⟩ := (legible_object_iff.mp h m hm).1
  constructor
  · intro htext
    obtain rfl : s = name := Option.some.inj (hs.text?.symm.trans htext)
    exact hs
  · exact RawText.Spells.text?

theorem Legible.members? (h : (object members).Legible) :
    (object members).members? = some (members.map (fun m => (m.1.text?.getD "", m.2))) := by
  rw [members?_eq_some_iff, List.forall₂_map_right_iff, List.forall₂_same]
  intro m hm
  obtain ⟨s, hs⟩ := (legible_object_iff.mp h m hm).1
  simp [hs.text?]

end

theorem Legible.member?_eq_find? {members : List (RawText × Tree)}
    (h : (object members).Legible) (name : String) :
    (object members).member? name =
      (members.reverse.find? (fun m => m.1.text?.getD "" == name)).map Prod.snd := by
  rw [member?, h.members?, Option.bind_some, ← List.map_reverse, List.find?_map, Option.map_map]
  rfl

/-- A member is looked up by its name. -/
theorem Legible.member?_eq_some_iff {t : Tree} (h : t.Legible) {name : String} {value : Tree} :
    t.member? name = some value ↔ t.HasMember name value := by
  cases t with
  | object members =>
    have hspells : ∀ m ∈ members, m.1.text?.getD "" == name ↔ m.1.Spells name.toList := by
      intro m hm
      obtain ⟨s, hs⟩ := (legible_object_iff.mp h m hm).1
      rw [← h.key_text?_eq_some_iff hm, hs.text?, Option.getD_some, Option.some_inj, beq_iff_eq]
    rw [h.member?_eq_find?, Option.map_eq_some_iff]
    constructor
    · rintro ⟨m, hfind, rfl⟩
      obtain ⟨hname, after, before, hreverse, hafter⟩ := List.find?_eq_some_iff_append.mp hfind
      have hsplit : members = before.reverse ++ m :: after.reverse := by
        simpa using congrArg List.reverse hreverse
      refine ⟨before.reverse, m.1, after.reverse, by rw [hsplit], ?_, ?_⟩
      · exact (hspells m (by simp [hsplit])).mp hname
      · intro m' hm' hspelled
        have hother := hafter m' (List.mem_reverse.mp hm')
        have hmem : m' ∈ members := by simp [hsplit, List.mem_reverse.mp hm']
        simp [(hspells m' hmem).mpr hspelled] at hother
    · rintro ⟨before, k, after, hobject, hk, hafter⟩
      obtain rfl := Tree.object.inj hobject
      refine ⟨(k, value), List.find?_eq_some_iff_append.mpr ⟨?_, after.reverse, before.reverse,
        by simp, ?_⟩, rfl⟩
      · exact (hspells (k, value) (by simp)).mpr hk
      · intro m hm
        have hm' := List.mem_reverse.mp hm
        have hother := mt (hspells m (by simp [hm'])).mp (hafter m hm')
        simpa using hother
  | _ =>
    constructor
    · intro hmember
      contradiction
    · rintro ⟨before, k, after, hobject, -⟩
      contradiction

theorem HasMember.legible {t : Tree} (h : t.Legible) {name : String} {value : Tree}
    (hvalue : t.HasMember name value) : value.Legible := by
  obtain ⟨before, k, after, rfl, -⟩ := hvalue
  exact (legible_object_iff.mp h (k, value) (by simp)).2

/-- A text is looked up by the name of its member. -/
theorem Legible.member?_text?_eq_some_iff {t : Tree} (h : t.Legible) {name s : String} :
    (t.member? name).bind text? = some s ↔ t.HasText name s := by
  simp only [Option.bind_eq_some_iff, h.member?_eq_some_iff, HasText]
  refine exists_congr (fun value => and_congr_right (fun hvalue => ?_))
  exact (hvalue.legible h).text?_eq_some_iff

theorem Legible.member?_text?_eq_none_iff {t : Tree} (h : t.Legible) {name : String} :
    (t.member? name).bind text? = none ↔ ∀ s, ¬t.HasText name s := by
  simp only [Option.eq_none_iff_forall_ne_some, ne_eq, h.member?_text?_eq_some_iff]

/-- One value in place of another is found where that was found, and all else as before. -/
theorem member?_replaced {before after : List (RawText × Tree)} {k : RawText} {t t' : Tree}
    (h : (object (before ++ (k, t) :: after)).Legible)
    (h' : (object (before ++ (k, t') :: after)).Legible) {key : String}
    (hk : k.Spells key.toList) :
    (∀ name, name ≠ key → (object (before ++ (k, t) :: after)).member? name =
      (object (before ++ (k, t') :: after)).member? name) ∧
    ((object (before ++ (k, t) :: after)).member? key =
        (object (before ++ (k, t') :: after)).member? key ∨
      (object (before ++ (k, t) :: after)).member? key = some t ∧
        (object (before ++ (k, t') :: after)).member? key = some t') := by
  simp only [h.member?_eq_find?, h'.member?_eq_find?, List.reverse_append, List.reverse_cons,
    List.find?_append, List.find?_singleton, hk.text?, Option.getD_some]
  constructor
  · intro name hname
    simp [Ne.symm hname]
  · cases after.reverse.find? (fun m => m.1.text?.getD "" == key) with
    | none => simp
    | some m => simp

/-- Members of which no two have the same name. -/
def Distinct (members : List (RawText × Tree)) : Prop :=
  members.Pairwise (fun m m' => ∀ name : String, m.1.Spells name.toList →
    ¬m'.1.Spells name.toList)

/-- An object and the same members in another order. -/
def Reordered (t t' : Tree) : Prop :=
  ∃ members members', t = .object members ∧ t' = .object members' ∧ Distinct members ∧
    members.Perm members'

theorem hasMember_iff_mem {members : List (RawText × Tree)} (h : Distinct members) {name : String}
    {value : Tree} :
    (object members).HasMember name value ↔ ∃ k, (k, value) ∈ members ∧ k.Spells name.toList := by
  constructor
  · rintro ⟨before, k, after, hobject, hk, -⟩
    obtain rfl := Tree.object.inj hobject
    exact ⟨k, by simp, hk⟩
  · rintro ⟨k, hmem, hk⟩
    obtain ⟨before, after, rfl⟩ := List.append_of_mem hmem
    have hlast := (List.pairwise_cons.mp (List.pairwise_append.mp h).2.1).1
    exact ⟨before, k, after, rfl, hk, fun m hm => hlast m hm name hk⟩

/-- What an object has does not depend on the order of its members. -/
theorem Reordered.hasMember_iff {t t' : Tree} (h : t.Reordered t') {name : String} {value : Tree} :
    t.HasMember name value ↔ t'.HasMember name value := by
  obtain ⟨members, members', rfl, rfl, hdistinct, hperm⟩ := h
  have hdistinct' : Distinct members' :=
    hdistinct.perm hperm (fun hab name hb ha => hab name ha hb)
  rw [hasMember_iff_mem hdistinct, hasMember_iff_mem hdistinct']
  simp only [hperm.mem_iff]

theorem Reordered.member?_eq {t t' : Tree} (h : t.Reordered t') (ht : t.Legible)
    (ht' : t'.Legible) (name : String) : t.member? name = t'.member? name := by
  apply Option.ext
  intro value
  rw [ht.member?_eq_some_iff, ht'.member?_eq_some_iff, h.hasMember_iff]

theorem Reordered.legible_iff {t t' : Tree} (h : t.Reordered t') : t.Legible ↔ t'.Legible := by
  obtain ⟨members, members', rfl, rfl, -, hperm⟩ := h
  simp only [legible_object_iff, hperm.mem_iff]

theorem Reordered.isStrict_iff {t t' : Tree} (h : t.Reordered t') {depth : Nat} :
    isStrict depth t = true ↔ isStrict depth t' = true := by
  obtain ⟨members, members', rfl, rfl, -, hperm⟩ := h
  simp only [isStrict_object_iff, hperm.mem_iff]

end Tree

end Json

end UnaryRpc
