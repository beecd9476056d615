import UnaryRpc.Text.Bytes

namespace UnaryRpc.Http

/-- A header name, in lower case. -/
structure HeaderName where
  text : String
deriving DecidableEq

namespace HeaderName

def isNameChar (c : Char) : Bool :=
  c.isAlphanum || "!#$%&'*+-.^_\x60|~".toList.contains c

def maxLength : Nat := 65535

/-- The name spelled by a text; names do not distinguish case. -/
def ofText? (s : String) : Option HeaderName :=
  if s.toList ≠ [] ∧ s.toList.all isNameChar ∧ s.toList.length ≤ maxLength then
    some ⟨s.map Char.toLower⟩
  else none

/-- The name of the header that tells a body's encoding. -/
def contentType : HeaderName := ⟨"content-type"⟩

end HeaderName

abbrev HeaderValue := List UInt8

namespace HeaderValue

def isValueByte (b : UInt8) : Bool :=
  (32 ≤ b && b != 127) || b == 9

def ofBytes? (bs : List UInt8) : Option HeaderValue :=
  if bs.all isValueByte then some bs else none

/-- The text of a value of visible characters, blanks and tabs. -/
def text? (v : HeaderValue) : Option String :=
  if v.all (fun b => (32 ≤ b && b < 127) || b == 9) then Text.ofBytes? v else none

end HeaderValue

/-- Header values by name, in the order of their arrival. A name may occur more than once. -/
structure Headers where
  pairs : List (HeaderName × HeaderValue) := []
deriving DecidableEq, Inhabited

namespace Headers

def empty : Headers := ⟨[]⟩

def values (h : Headers) (name : HeaderName) : List HeaderValue :=
  (h.pairs.filter (fun p => p.1 == name)).map Prod.snd

def get? (h : Headers) (name : HeaderName) : Option HeaderValue :=
  (h.values name).head?

def contentType? (h : Headers) : Option String :=
  (h.get? .contentType).bind HeaderValue.text?

def append (h : Headers) (name : HeaderName) (value : HeaderValue) : Headers :=
  ⟨h.pairs ++ [(name, value)]⟩

def set (h : Headers) (name : HeaderName) (value : HeaderValue) : Headers :=
  ⟨h.pairs.filter (fun p => p.1 != name) ++ [(name, value)]⟩

/-- All headers in ascending order of their names, the values of a name in order. -/
def sorted (h : Headers) : List (HeaderName × HeaderValue) :=
  h.pairs.mergeSort (fun a b => !decide (Text.Before b.1.text a.1.text))

@[simp] theorem values_append_self (h : Headers) (name : HeaderName) (value : HeaderValue) :
    (h.append name value).values name = h.values name ++ [value] := by
  simp [values, append]

theorem values_append_other (h : Headers) {name other : HeaderName} (hne : other ≠ name)
    (value : HeaderValue) : (h.append name value).values other = h.values other := by
  simp [values, append, Ne.symm hne]

@[simp] theorem values_set_self (h : Headers) (name : HeaderName) (value : HeaderValue) :
    (h.set name value).values name = [value] := by
  simp [values, set, List.filter_filter]

theorem values_set_other (h : Headers) {name other : HeaderName} (hne : other ≠ name)
    (value : HeaderValue) : (h.set name value).values other = h.values other := by
  have hf : ∀ l : List (HeaderName × HeaderValue),
      (l.filter (fun p => p.1 != name)).filter (fun p => p.1 == other) =
        l.filter (fun p => p.1 == other) := by
    intro l
    rw [List.filter_filter]
    apply List.filter_congr
    intro p _
    by_cases hp : p.1 = other <;> simp [hp, hne]
  simp [values, set, hf, Ne.symm hne]

/-- Setting a header leaves all others, in their order. -/
theorem others_set (h : Headers) (name : HeaderName) (value : HeaderValue) :
    (h.set name value).pairs.filter (fun p => p.1 != name) =
      h.pairs.filter (fun p => p.1 != name) := by
  simp [set, List.filter_filter]

@[simp] theorem get?_set_self (h : Headers) (name : HeaderName) (value : HeaderValue) :
    (h.set name value).get? name = some value := by
  simp [get?]

end Headers

end UnaryRpc.Http
