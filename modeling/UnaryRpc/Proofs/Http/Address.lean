import Mathlib.Data.List.DropRight
import Mathlib.Data.List.TakeDrop
import UnaryRpc.Http.Uri

namespace UnaryRpc.Http

theorem span_stops {α : Type} {p : α → Bool} {xs ys : List α} (hxs : ∀ x ∈ xs, p x = true)
    (hys : ∀ y ∈ ys.head?, p y = false) : (xs ++ ys).span p = (xs, ys) := by
  rw [List.span_eq_takeWhile_dropWhile, List.takeWhile_append_of_pos hxs,
    List.dropWhile_append_of_pos hxs]
  cases ys with
  | nil => simp
  | cons y ys =>
    have hy : p y = false := hys y rfl
    simp [hy]

theorem trimSlashes_of_getLast {s : String} (h : s.toList.getLast? ≠ some '/') :
    trimSlashes s = s := by
  have hdrop : s.toList.reverse.dropWhile (· == '/') = s.toList.reverse := by
    cases hr : s.toList.reverse with
    | nil => rfl
    | cons c cs =>
      have hlast : s.toList.getLast? = some c := by
        rw [← List.head?_reverse, hr, List.head?_cons]
      have hc : (c == '/') = false := by
        rw [hlast] at h
        simpa using h
      rw [List.dropWhile_cons, hc]
      rfl
  rw [trimSlashes, hdrop, List.reverse_reverse, String.ofList_toList]

theorem toList_trimSlashes (s : String) :
    (trimSlashes s).toList = s.toList.rdropWhile (· == '/') :=
  String.toList_ofList

theorem trimSlashes_push (s : String) : trimSlashes (s.push '/') = trimSlashes s := by
  rw [← String.toList_inj, toList_trimSlashes, toList_trimSlashes, String.toList_push]
  exact List.rdropWhile_concat_pos _ _ _ rfl

/-- Any number of slashes at the end of a text is trimmed with it. -/
theorem trimSlashes_pushn (s : String) (n : Nat) : trimSlashes (s.pushn '/' n) = trimSlashes s := by
  induction n with
  | zero => rfl
  | succ n ih =>
    have hpush : s.pushn '/' (n + 1) = (s.pushn '/' n).push '/' := rfl
    rw [hpush, trimSlashes_push, ih]

theorem trimSlashes_part (s : String) : (trimSlashes s).toList <+: s.toList := by
  rw [toList_trimSlashes]
  exact List.rdropWhile_prefix _ _

/-- A text without its slashes starts as before, or nothing is left of it. -/
theorem trimSlashes_start {s : String} (h : s = "" ∨ s.toList.head? = some '/') :
    trimSlashes s = "" ∨ (trimSlashes s).toList.head? = some '/' := by
  obtain ⟨dropped, hs⟩ := trimSlashes_part s
  cases htrim : (trimSlashes s).toList with
  | nil => exact .inl (String.toList_inj.mp htrim)
  | cons c cs =>
    right
    rw [htrim] at hs
    rcases h with rfl | hhead
    · cases hs
    · rw [← hs] at hhead
      exact hhead

namespace Uri

theorem splitScheme_mark {name rest : List Char} (hname : ∀ c ∈ name, isSchemeChar c = true)
    (hrest : rest ≠ []) :
    splitScheme (name ++ ':' :: '/' :: '/' :: rest) =
      if maxScheme < name.length then .error .schemeTooLong else .ok (some name, rest) := by
  have hspan : (name ++ ':' :: '/' :: '/' :: rest).span isSchemeChar =
      (name, ':' :: '/' :: '/' :: rest) := by
    apply span_stops hname
    intro c hc
    obtain rfl := Option.some.inj hc
    decide
  rw [splitScheme, hspan]
  simp only [hrest, and_false, ↓reduceIte]

theorem splitAuthority_ok {authority rest : List Char} {parts : List Char × List Char}
    (hauthority : ∀ c ∈ authority, endsAuthority c = false)
    (hrest : rest.head? = some '/') (h : splitAuthority (authority ++ rest) = .ok parts) :
    parts = (authority, rest) := by
  have hspan : (authority ++ rest).span (fun c => !endsAuthority c) = (authority, rest) := by
    apply span_stops
    · intro c hc
      rw [hauthority c hc]
      rfl
    · intro c hc
      rw [hrest] at hc
      obtain rfl := Option.some.inj hc
      decide
  rw [splitAuthority, hspan] at h
  dsimp only at h
  cases hscan : authority.foldlM AuthorityScan.step {} with
  | error fault =>
    rw [hscan] at h
    cases h
  | ok scan =>
    rw [hscan] at h
    simp only [bind, Except.bind] at h
    split at h
    · cases h
    · exact (Except.ok.inj h).symm

/-- Without a query or a fragment, the target is all that follows the authority. -/
theorem ofTarget_target {scheme : Option String} {authority : String} {cs : List Char} {uri : Uri}
    (hplain : ∀ c ∈ cs, c ≠ '?' ∧ c ≠ '#') (h : ofTarget scheme authority cs = .ok uri) :
    uri.target = String.ofList cs := by
  have hspan : cs.span (fun c => c != '?' && c != '#') = (cs, []) := by
    have hall : ∀ c ∈ cs, (c != '?' && c != '#') = true := by simpa using hplain
    have hnone : ∀ c ∈ ([] : List Char).head?, (c != '?' && c != '#') = false := by simp
    have hstop := span_stops hall hnone
    rwa [List.append_nil] at hstop
  rw [ofTarget, splitTarget, hspan] at h
  cases hchars : cs.all isPathChar with
  | false => simp [hchars, bind, Except.bind] at h
  | true =>
    simp only [hchars, Bool.not_true, Bool.false_eq_true, ↓reduceIte, bind, Except.bind] at h
    obtain rfl := Except.ok.inj h
    rfl

theorem ofTarget_path {scheme authority : String} {cs : List Char} {uri : Uri}
    (hstart : cs.head? = some '/') (hplain : ∀ c ∈ cs, c ≠ '?' ∧ c ≠ '#')
    (h : ofTarget (some scheme) authority cs = .ok uri) : uri.path = String.ofList cs := by
  rw [← ofTarget_target hplain h, path, if_neg]
  rw [ofTarget_target hplain h]
  cases cs with
  | nil => simp at hstart
  | cons c cs => simp

theorem parse_full {s : String} {c d : Char} {cs : List Char} {uri : Uri}
    (hs : s.toList = c :: d :: cs) (hc : c ≠ '/') (h : parse s = .ok uri) :
    parseFull (c :: d :: cs) = .ok uri := by
  rw [parse, hs] at h
  split at h
  · cases h
  · split at h
    · cases h
    · rename_i heq
      cases (List.cons.inj heq).2
    · rename_i heq
      exact absurd (List.cons.inj heq).1 hc
    · rename_i heq
      cases (List.cons.inj heq).2
    · exact h

/-- An absolute address that is read has the path that is written in it. -/
theorem parse_absolute {scheme authority path : String} {uri : Uri}
    (hscheme : ∀ c ∈ scheme.toList, isSchemeChar c = true) (hnonempty : authority ≠ "")
    (hauthority : ∀ c ∈ authority.toList, endsAuthority c = false)
    (hstart : path.toList.head? = some '/') (hplain : ∀ c ∈ path.toList, c ≠ '?' ∧ c ≠ '#')
    (h : parse (scheme ++ "://" ++ authority ++ path) = .ok uri) : uri.path = path := by
  have hlist : (scheme ++ "://" ++ authority ++ path).toList =
      scheme.toList ++ ':' :: '/' :: '/' :: (authority.toList ++ path.toList) := by
    simp
  have hauth : authority.toList ≠ [] := by
    intro he
    exact hnonempty (String.toList_inj.mp he)
  have hrest : authority.toList ++ path.toList ≠ [] := by
    simp [hauth]
  have hfull : parseFull (scheme.toList ++ ':' :: '/' :: '/' ::
      (authority.toList ++ path.toList)) = .ok uri := by
    cases hcs : scheme.toList with
    | nil =>
      rw [hcs, List.nil_append] at hlist
      exact parse_full hlist (by decide) h
    | cons c cs =>
      have hc : c ≠ '/' := by
        rintro rfl
        have hslash := hscheme '/' (by rw [hcs]; simp)
        revert hslash
        decide
      rw [hcs] at hlist
      cases cs with
      | nil => exact parse_full hlist hc h
      | cons d cs => exact parse_full hlist hc h
  rw [parseFull, splitScheme_mark hscheme hrest] at hfull
  split at hfull
  · cases hfull
  · simp only [bind, Except.bind, hrest, ↓reduceIte] at hfull
    cases hsplit : splitAuthority (authority.toList ++ path.toList) with
    | error fault => simp [hsplit] at hfull
    | ok parts =>
      obtain rfl := splitAuthority_ok hauthority hstart hsplit
      simp only [hsplit, hauth, ↓reduceIte] at hfull
      have hpath := ofTarget_path hstart hplain hfull
      rwa [String.ofList_toList] at hpath

end Uri

end UnaryRpc.Http
