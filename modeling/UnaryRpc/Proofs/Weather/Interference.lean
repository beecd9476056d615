import Mathlib.Data.List.Forall2
import UnaryRpc.Proofs.Weather.Direct

namespace UnaryRpc.Weather

/-- The identity that a command is about. -/
def Command.subject : Command → String
  | find id | delete id => id.id
  | update station => station.stationId

/-- Commands that are the same, but for the context data that a client sends. -/
inductive Command.Alike : Command → Command → Prop
  | find (id : WeatherStationId) : Alike (.find id) (.find id)
  | delete (id : WeatherStationId) : Alike (.delete id) (.delete id)
  | update {station station' : WeatherStation} (h : station.shownTo "" = station'.shownTo "") :
      Alike (.update station) (.update station')

theorem Command.Alike.refl (c : Command) : c.Alike c := by
  cases c with
  | find id => exact .find id
  | delete id => exact .delete id
  | update station => exact .update rfl

/-- Skies that have the same station under an identity, but for its context data. -/
def Agree (id : String) (sky sky' : Sky) : Prop :=
  (sky.stations.get? id).map (fun station => station.shownTo "") =
    (sky'.stations.get? id).map (fun station => station.shownTo "")

section

variable {station station' : WeatherStation} (h : station.shownTo "" = station'.shownTo "")
include h

theorem shownTo_congr (client : String) : station.shownTo client = station'.shownTo client := by
  have hshown : (station.shownTo "").shownTo client = (station'.shownTo "").shownTo client := by
    rw [h]
  exact hshown

theorem stationId_congr : station.stationId = station'.stationId := by
  have hid : (station.shownTo "").stationId = (station'.shownTo "").stationId := by rw [h]
  exact hid

/-- Skies agree about what was just kept, but for its context data. -/
theorem agree_keeping (sky sky' : Sky) :
    Agree station.stationId (sky.keeping station) (sky'.keeping station') := by
  unfold Agree Sky.keeping
  rw [Table.get?_insert_self, stationId_congr h, Table.get?_insert_self, Option.map_some,
    Option.map_some, h]

end

/-- Skies agree about what was just forgotten. -/
theorem agree_without (id client client' : String) (sky sky' : Sky) :
    Agree id (sky.without id client) (sky'.without id client') := by
  unfold Agree Sky.without
  rw [Table.get?_erase, Table.get?_erase, if_pos rfl, if_pos rfl]

theorem Agree.refl (id : String) (sky : Sky) : Agree id sky sky := rfl

/-- Both skies have a station, or neither has one. -/
theorem Agree.split {id : String} {sky sky' : Sky} (h : Agree id sky sky') :
    (sky.stations.get? id = none ∧ sky'.stations.get? id = none) ∨
      ∃ station station', sky.stations.get? id = some station ∧
        sky'.stations.get? id = some station' ∧ station.shownTo "" = station'.shownTo "" := by
  unfold Agree at h
  cases hfirst : sky.stations.get? id with
  | none =>
    rw [hfirst, Option.map_none] at h
    exact .inl ⟨rfl, Option.map_eq_none_iff.mp h.symm⟩
  | some station =>
    rw [hfirst, Option.map_some] at h
    obtain ⟨station', hsecond, hshown⟩ := Option.map_eq_some_iff.mp h.symm
    exact .inr ⟨station, station', rfl, hsecond, hshown.symm⟩

section

variable {ε : Type} [ContextKeys ε] [DecidableEq ε] {s t : Scope (Key ε) Sky} {id : String}

namespace Command

theorem run_find (id : WeatherStationId) (s : Scope (Key ε) Sky) :
    (find id).run ε s =
      match s.world.stations.get? id.id with
      | some station => (.ok (.station (station.shownTo (s.context.get .clientName))), s.world)
      | none => (.error (WeatherFault.noStation id.id).status, s.world) := by
  cases hknown : s.world.stations.get? id.id with
  | none => exact run_of_error (c := .find id) (find_unknown hknown)
  | some station =>
    obtain ⟨output, t, hrun, hworld, hvalue⟩ := find_known hknown
    rw [run_of_ok (c := .find id) hrun, hworld, hvalue]
    rfl

theorem run_delete (id : WeatherStationId) (s : Scope (Key ε) Sky) :
    (delete id).run ε s =
      match s.world.stations.get? id.id with
      | some _ => (.ok (.identity id), s.world.without id.id (s.context.get .clientName))
      | none => (.error (WeatherFault.noStation id.id).status, s.world) := by
  cases hknown : s.world.stations.get? id.id with
  | none => exact run_of_error (c := .delete id) (delete_unknown hknown)
  | some station =>
    obtain ⟨output, t, hrun, hworld, hvalue⟩ := delete_known hknown
    rw [run_of_ok (c := .delete id) hrun, hworld, hvalue]
    rfl

theorem run_update (station : WeatherStation) (s : Scope (Key ε) Sky) :
    (update station).run ε s =
      if station.stationId = "" then (.error WeatherFault.noIdentity.status, s.world)
      else (.ok (.station (station.shownTo (s.context.get .clientName))),
        s.world.keeping station) := by
  split
  · rename_i hempty
    exact run_of_error (c := .update station) (update_anonymous hempty)
  · rename_i hidentified
    obtain ⟨output, t, hrun, hworld, hvalue⟩ := update_identified (s := s) hidentified
    rw [run_of_ok (c := .update station) hrun, hworld, hvalue]
    rfl

/-- A command leaves the stations of other identities alone. -/
theorem run_other (c : Command) (h : c.subject ≠ id) (s : Scope (Key ε) Sky) :
    (c.run ε s).2.stations.get? id = s.world.stations.get? id := by
  cases c with
  | find other =>
    rw [run_find]
    split <;> rfl
  | delete other =>
    rw [run_delete]
    split
    · exact (Table.get?_erase _ _ _).trans (if_neg (Ne.symm h))
    · rfl
  | update station =>
    rw [run_update]
    split
    · rfl
    · exact Table.get?_insert_other _ (Ne.symm h) station

/-- Alike commands are answered alike under skies that agree about their subject, and the skies go
on to agree. -/
theorem Alike.run_agree {c c' : Command} (h : c.Alike c')
    (hclient : s.context.get .clientName = t.context.get .clientName)
    (hsky : Agree c.subject s.world t.world) :
    (c.run ε s).1 = (c'.run ε t).1 ∧ Agree c.subject (c.run ε s).2 (c'.run ε t).2 := by
  cases h with
  | find id =>
    have hsky : Agree id.id s.world t.world := hsky
    simp only [run_find]
    rcases hsky.split with ⟨hfirst, hsecond⟩ | ⟨station, station', hfirst, hsecond, hshown⟩
    · simp only [hfirst, hsecond]
      exact ⟨trivial, hsky⟩
    · simp only [hfirst, hsecond, hclient, shownTo_congr hshown]
      exact ⟨trivial, hsky⟩
  | delete id =>
    have hsky : Agree id.id s.world t.world := hsky
    simp only [run_delete]
    rcases hsky.split with ⟨hfirst, hsecond⟩ | ⟨station, station', hfirst, hsecond, _⟩
    · simp only [hfirst, hsecond]
      exact ⟨trivial, hsky⟩
    · simp only [hfirst, hsecond]
      exact ⟨trivial, agree_without id.id _ _ _ _⟩
  | @update station station' hshown =>
    simp only [run_update, ← stationId_congr hshown]
    by_cases hempty : station.stationId = ""
    · simp only [hempty, ↓reduceIte]
      exact ⟨trivial, hsky⟩
    · simp only [hempty, ↓reduceIte, hclient, shownTo_congr hshown]
      exact ⟨trivial, agree_keeping hshown _ _⟩

end Command

end

/-- A call of a method: what is asked, and the arena and the context that it is asked in. -/
structure Ask (ε : Type) [ContextKeys ε] where
  command : Command
  store : Message.Store
  context : Context (Key ε)

section

variable {ε : Type} [ContextKeys ε] [DecidableEq ε]

namespace Ask

/-- Whether a call is about an identity. -/
def about (id : String) (ask : Ask ε) : Bool := ask.command.subject == id

/-- Calls that ask alike for clients of the same name. -/
structure Alike (ask ask' : Ask ε) : Prop where
  command : ask.command.Alike ask'.command
  client : ask.context.get .clientName = ask'.context.get .clientName

/-- What a call is answered, and the sky after it. -/
def run (ask : Ask ε) (sky : Sky) : Except Status Reply × Sky :=
  ask.command.run ε ⟨ask.store, ask.context, sky⟩

end Ask

/-- What calls are answered, one after another. -/
def answers : List (Ask ε) → Sky → List (Except Status Reply)
  | [], _ => []
  | ask :: rest, sky => (ask.run sky).1 :: answers rest (ask.run sky).2

/-- What those of the calls are answered that are about an identity. -/
def answersAbout (id : String) (asks : List (Ask ε)) (sky : Sky) : List (Except Status Reply) :=
  ((asks.zip (answers asks sky)).filter (fun step => step.1.about id)).map Prod.snd

variable {id : String} {ask ask' : Ask ε} {asks asks' : List (Ask ε)} {sky sky' : Sky}

theorem Ask.run_other (h : ask.about id = false) (hsky : Agree id sky sky') :
    Agree id (ask.run sky).2 sky' := by
  have hsubject : ask.command.subject ≠ id := by simpa [about] using h
  unfold Agree Ask.run
  rw [Command.run_other ask.command hsubject]
  exact hsky

theorem Ask.Alike.run_agree (h : ask.Alike ask') (habout : ask.about id = true)
    (hsky : Agree id sky sky') :
    (ask.run sky).1 = (ask'.run sky').1 ∧ Agree id (ask.run sky).2 (ask'.run sky').2 := by
  obtain rfl : ask.command.subject = id := by simpa [about] using habout
  exact h.command.run_agree h.client hsky

theorem answersAbout_cons_about (h : ask.about id = true) :
    answersAbout id (ask :: asks) sky =
      (ask.run sky).1 :: answersAbout id asks (ask.run sky).2 := by
  simp [answersAbout, answers, h]

theorem answersAbout_cons_other (h : ask.about id = false) :
    answersAbout id (ask :: asks) sky = answersAbout id asks (ask.run sky).2 := by
  simp [answersAbout, answers, h]

/-- What is answered about an identity is what its own calls are answered without the others, also
under another sky that agrees about it. -/
theorem answersAbout_eq (asks : List (Ask ε)) (hsky : Agree id sky sky') :
    answersAbout id asks sky = answers (asks.filter (Ask.about id)) sky' := by
  induction asks generalizing sky sky' with
  | nil => rfl
  | cons ask asks ih =>
    cases habout : ask.about id with
    | false =>
      rw [answersAbout_cons_other habout, List.filter_cons_of_neg (by simp [habout])]
      exact ih (Ask.run_other habout hsky)
    | true =>
      have hself : ask.Alike ask := ⟨.refl _, rfl⟩
      obtain ⟨hanswer, hafter⟩ := hself.run_agree habout hsky
      rw [answersAbout_cons_about habout, List.filter_cons_of_pos habout, answers, hanswer,
        ih hafter]

/-- Alike calls about an identity are answered alike. -/
theorem answers_congr (h : List.Forall₂ Ask.Alike asks asks')
    (habout : ∀ ask ∈ asks, ask.about id = true) (hsky : Agree id sky sky') :
    answers asks sky = answers asks' sky' := by
  induction h generalizing sky sky' with
  | nil => rfl
  | cons halike _ ih =>
    obtain ⟨hanswer, hafter⟩ := halike.run_agree (habout _ (List.mem_cons_self ..)) hsky
    rw [answers, answers, hanswer, ih (fun ask hask => habout ask (List.mem_cons_of_mem _ hask)) hafter]

/-- Runs whose calls about an identity are alike are answered the same about it, whatever other calls
stand between and whatever context data clients send. -/
theorem answers_undisturbed (id : String) (asks asks' : List (Ask ε)) (sky sky' : Sky)
    (hsky : Agree id sky sky')
    (halike : List.Forall₂ Ask.Alike (asks.filter (Ask.about id)) (asks'.filter (Ask.about id))) :
    answersAbout id asks sky = answersAbout id asks' sky' := by
  have habout : ∀ ask ∈ asks.filter (Ask.about id), ask.about id = true := by
    intro ask hask
    exact (List.mem_filter.mp hask).2
  calc answersAbout id asks sky
      = answers (asks.filter (Ask.about id)) sky := answersAbout_eq asks (Agree.refl id sky)
    _ = answers (asks'.filter (Ask.about id)) sky' := answers_congr halike habout hsky
    _ = answersAbout id asks' sky' := (answersAbout_eq asks' (Agree.refl id sky')).symm

end

/-- A call by a client with a name. -/
def namedAsk (client : String) (command : Command) : Ask Empty :=
  ⟨command, some .empty, Context.empty.set .clientName client⟩

/-- A call by a client without a name. -/
def namelessAsk (command : Command) : Ask Empty := ⟨command, none, .empty⟩

/-- The life of a station in a busy sky. -/
def busyAsks : List (Ask Empty) :=
  [namedAsk "pilot" (.update { wsId := some ⟨"harbor"⟩, kind := 1, contextData := "mine" }),
    namedAsk "buoy" (.update { wsId := some ⟨"reef"⟩, contextData := "pilot" }),
    namelessAsk (.find ⟨"harbor"⟩), namedAsk "buoy" (.delete ⟨"reef"⟩),
    namedAsk "pilot" (.delete ⟨"harbor"⟩), namelessAsk (.find ⟨"harbor"⟩)]

/-- The life of the same station in a quiet sky. -/
def quietAsks : List (Ask Empty) :=
  [namedAsk "pilot" (.update { wsId := some ⟨"harbor"⟩, kind := 1, contextData := "yours" }),
    namelessAsk (.find ⟨"harbor"⟩), namedAsk "pilot" (.delete ⟨"harbor"⟩),
    namelessAsk (.find ⟨"reef"⟩), namelessAsk (.find ⟨"harbor"⟩)]

theorem answers_undisturbed_harbor :
    answersAbout "harbor" busyAsks {} =
      answersAbout "harbor" quietAsks (Sky.keeping {} { wsId := some ⟨"reef"⟩ }) ∧
    answersAbout "harbor" busyAsks {} =
      [.ok (.station { wsId := some ⟨"harbor"⟩, kind := 1, contextData := "pilot" }),
        .ok (.station { wsId := some ⟨"harbor"⟩, kind := 1, contextData := "anonymous" }),
        .ok (.identity ⟨"harbor"⟩), .error (WeatherFault.noStation "harbor").status] := by
  have halike : List.Forall₂ Ask.Alike (busyAsks.filter (Ask.about "harbor"))
      (quietAsks.filter (Ask.about "harbor")) :=
    .cons ⟨.update rfl, rfl⟩ (.cons ⟨.find _, rfl⟩ (.cons ⟨.delete _, rfl⟩
      (.cons ⟨.find _, rfl⟩ .nil)))
  exact ⟨answers_undisturbed "harbor" busyAsks quietAsks {} _ rfl halike, by decide +kernel⟩

end UnaryRpc.Weather
