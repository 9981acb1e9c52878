import LiveGraph.Proofs.Graph.Faults
import LiveGraph.Proofs.Graph.Recording

/-!
# Rejected operations

An operation that fails, and was not refused, has done nothing: the graph is as it was, and nobody
has heard of it. It fails because of what was wrong from the start, so an element that is there when
an operation begins is never missing later on.

* `Course.play_failed`: an operation that is refused by nobody failed by itself.
* `Session.operate_rejected`: a rejected operation leaves a session as it was.
* **`reachable_rejected`**: rejected operations change nothing and announce nothing.
-/

namespace LiveGraph

variable {α ω : Type} {g : Graph} {op : Op} {fault : Fault} {tell : Audience ω} {w : ω}

/-- Before an audience an operation fails by itself, unless it is refused. -/
theorem Course.play_failed {c : Course α} (unrefused : ∀ r, fault ≠ .refused r)
    (failed : (c.play tell w).1 = .error fault) : c.outcome = .error fault := by
  rcases c.play_cases tell w with ⟨hout, -⟩ | ⟨_, _, r, hout, -⟩
  · exact hout.symm.trans failed
  · exact absurd (Except.error.inj (failed.symm.trans hout)) (unrefused r)

/-- An operation that fails by itself does so because of what was wrong when it began. -/
theorem Op.fault?_of_failed (hg : Integrity g) (failed : (op.perform g).outcome = .error fault) :
    op.fault? g = some fault ∧ op.perform g = ⟨[], g, .error fault⟩ := by
  have hop := op.foretold hg
  cases hf : op.fault? g with
  | none =>
    rw [hf] at hop
    obtain ⟨y, hy⟩ := hop
    exact nomatch hy.symm.trans failed
  | some fault' =>
    rw [hf] at hop
    obtain ⟨-, hop⟩ := hop
    rw [hop] at failed
    obtain rfl := Except.error.inj failed
    exact ⟨rfl, hop⟩

/-- **Rejected operations change nothing and announce nothing.** In every graph that a run leads to:
an operation that fails before some audience, and is not refused, fails because of what is wrong
with it in that graph; its graph and those who listen are as before, and nothing was announced. An
operation with which nothing is wrong does not fail by itself, however far it has got. -/
theorem reachable_rejected {id : String} (h : Reachable .any id g) (op : Op) (tell : Audience ω)
    (w : ω) :
    (∀ fault, (∀ r, fault ≠ .refused r) → ((op.perform g).play tell w).1 = .error fault →
      op.fault? g = some fault ∧ (op.perform g).play tell w = (.error fault, g, w) ∧
        tell.told (op.perform g).stages w = []) ∧
      (op.fault? g = none → ∃ y, (op.perform g).outcome = .ok y) := by
  have hg := h.integrity
  constructor
  · intro fault unrefused failed
    obtain ⟨hfault, hop⟩ := Op.fault?_of_failed hg (Course.play_failed unrefused failed)
    rw [hop]
    exact ⟨hfault, rfl, rfl⟩
  · intro hnone
    have hop := op.foretold hg
    rw [hnone] at hop
    exact hop

/-- A sprite cannot be put where `left` is. -/
theorem reachable_rejected_left : ∃ g, Reachable .any "g" g ∧
    (let op : Op := .onSprite "s" (.setAttribute "position" (.text "left"))
     let tell : Audience (List Event) := fun e es => (.ok (), es ++ [e])
     let fault : Fault := .invalidPosition (.notAPosition "s")
     op.fault? g = some fault ∧ (op.perform g).play tell [] = (.error fault, g, []) ∧
      tell.told (op.perform g).stages [] = []) := by
  have h₁ : Reachable .any "g" _ := Reachable.start.silent (.addSprite "s") trivial
  have h₂ := h₁.silent (.onSprite "s" (.setAttribute "label" (.text "up"))) trivial
  exact ⟨_, h₂, (reachable_rejected h₂ _ _ _).1 _ nofun rfl⟩

/-- A rejected operation leaves a session as it was, with its observers and their lists. -/
theorem Session.operate_rejected {s : Session} (hg : Integrity s.graph)
    (unrefused : ∀ r, fault ≠ .refused r) (failed : (s.operate op).1 = .error fault) :
    s.operate op = (.error fault, s) := by
  obtain ⟨-, hop⟩ := Op.fault?_of_failed hg (Course.play_failed unrefused failed)
  rw [operate, run, hop]
  rfl

end LiveGraph
