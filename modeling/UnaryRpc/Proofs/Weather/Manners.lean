import Mathlib.Data.List.Forall2
import UnaryRpc.Proofs.Weather.Errands

namespace UnaryRpc.Weather

open Http Json Protobuf UnaryRpc.Client

section

variable {κ : Type} [ContextKeys κ] (ε : Type) [ContextKeys ε] [DecidableEq ε]

/-- Whether what is written in either encoding is shorter than a bound. -/
def Shorter (bound : Nat) (write : Encoding → Except Fault (List UInt8)) : Prop :=
  ∀ e bytes, write e = .ok bytes → bytes.length < bound

instance (bound : Nat) (write : Encoding → Except Fault (List UInt8)) :
    Decidable (Shorter bound write) :=
  decidable_of_iff
    (∀ e ∈ [Encoding.json, .protobuf], ∀ bytes ∈ (write e).toOption, bytes.length < bound) (by
      constructor
      · intro h e bytes hwrite
        exact h e (by cases e <;> decide) bytes (by rw [hwrite]; rfl)
      · intro h e _ bytes hbytes
        cases hwrite : write e with
        | error fault =>
          rw [hwrite] at hbytes
          cases hbytes
        | ok written =>
          rw [hwrite] at hbytes
          obtain rfl : written = bytes := Option.some.inj hbytes
          exact h e written hwrite)

/-- What errands come to one after another, whatever their manners. -/
def directs (pathPrefix : String) :
    List (Errand κ) → Sky → List (Except Status Reply × Sky)
  | [], _ => []
  | errand :: rest, sky =>
    let step := errand.direct ε pathPrefix sky
    step :: directs pathPrefix rest step.2

/-- What a run shows: the replies and failures, and the skies, but not who owns a reply. -/
def seen (steps : List (Except Status (Owned Reply) × Sky)) : List (Except Status Reply × Sky) :=
  steps.map (fun (result, sky) => (result.map Owned.value, sky))

/-- Errands whose inputs a server takes, and whose replies a client can read, in both encodings. -/
structure Fitting (settings : Server.Settings) (errands : List (Errand κ)) (sky : Sky) : Prop where
  input_taken : ∀ errand ∈ errands, Shorter (settings.maxRequestLength + 1) errand.command.write
  reply_read : ∀ step ∈ directs ε settings.pathPrefix errands sky, ∀ reply ∈ step.1.toOption,
    Shorter 0x7fffffff reply.write

/-- Fitting errands whose inputs the server can read too, in both encodings, and whose addresses lead
to no methods but their own. -/
structure Arriving (settings : Server.Settings) (errands : List (Errand κ)) (sky : Sky) : Prop
    extends Fitting ε settings errands sky where
  input_read : ∀ errand ∈ errands, Shorter 0x7fffffff errand.command.write
  straight : ∀ errand ∈ errands, errand.Straight ε settings.pathPrefix

variable {ε} {settings : Server.Settings} {errand : Errand κ} {rest : List (Errand κ)} {sky : Sky}

namespace Arriving

theorem input (h : Arriving ε settings (errand :: rest) sky) {e : Encoding}
    {bytes : List UInt8} (hwrite : errand.command.write e = .ok bytes) :
    bytes.length ≤ settings.maxRequestLength ∧ bytes.length < 0x7fffffff := by
  have htaken := h.input_taken errand (List.mem_cons_self ..) e bytes hwrite
  exact ⟨Nat.le_of_lt_succ htaken, h.input_read errand (List.mem_cons_self ..) e bytes hwrite⟩

end Arriving

end

section

variable {n : Nat} {bytes : List UInt8}

end

section

variable {n : Nat} (hlength : n + 49 = 0x7fffffff)
include hlength

end

end UnaryRpc.Weather
