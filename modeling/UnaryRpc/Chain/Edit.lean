import UnaryRpc.Chain

namespace UnaryRpc

abbrev Chains (U : Type) := List (Chain U)

/-- An edit of several chains. -/
inductive ChainEdit (U : Type) where
  | push (chain : Nat) (unit : U)
  | copy (chain : Nat)
  | collect (units : List U)
  | create

namespace ChainEdit

variable {U : Type}

/-- Makes an edit. There is none of a chain that does not exist. -/
def apply (chains : Chains U) : ChainEdit U → Option (Chains U)
  | push n unit => chains[n]?.map (fun chain => chains.set n (chain.push unit))
  | copy n => chains[n]?.map (fun chain => chains ++ [chain])
  | collect units => some (chains ++ [.ofList units])
  | create => some (chains ++ [.empty])

def applyAll (chains : Chains U) (edits : List (ChainEdit U)) : Option (Chains U) :=
  edits.foldlM apply chains

end ChainEdit

end UnaryRpc
