/-!
# Refusals

* `Refusal`: why an event was not accepted; `Refusal.message`.
-/

namespace LiveGraph

inductive Refusal where
  /-- A predicate could not decide. -/
  | predicate (key reason : String)
  /-- The observer behind this registration is handling another event. -/
  | busy (registration : Nat)
  /-- An observer said so. -/
  | observer (text : String)
deriving DecidableEq

namespace Refusal

def message : Refusal → String
  | predicate key reason => "predicate failed on attribute '" ++ key ++ "': " ++ reason
  | busy id => "observer #" ++ toString id ++ " is already handling an event"
  | observer text => "observer error: " ++ text

end Refusal

end LiveGraph
