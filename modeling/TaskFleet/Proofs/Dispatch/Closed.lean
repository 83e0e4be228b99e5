import Mathlib.Logic.Relation
import TaskFleet.Proofs.Dispatch.Pool

/-!
# A closed pool

What waits when a pool is closed still runs, but nothing more comes in: whoever asks is told
so, and the pool does not count that it was asked (`submit_closed`).  Workers do not open a
closed pool again (`Works.closed`), so this stays so.
-/

namespace TaskFleet.Pool

variable {α : Type} {p p' p'' : Pool α}

/-- A worker moves. -/
inductive Moves : Pool α → Pool α → Prop
  | take {p p' : Pool α} {worker : Nat} {d : Destination} {i : Invocation α}
      (h : p.take? worker d = some (i, p')) : Moves p p'
  | goOn (p : Pool α) (worker : Nat) (content : α) : Moves p (p.goOn worker content)
  | finish (p : Pool α) (worker : Nat) (failed : Bool) : Moves p (p.finish worker failed)

/-- Workers move, and nobody asks for anything. -/
def Works (p p' : Pool α) : Prop :=
  Relation.ReflTransGen Moves p p'

/-- Somebody asks for an invocation and is answered.  Workers may move while there is no room,
and afterwards. -/
def Submits (p : Pool α) (answer : Except DispatchError Unit) (p' : Pool α) : Prop :=
  ∃ q, ∃ hash : String → Nat, ∃ key content, p.Works q ∧
    answer = (q.submit hash key content).1.map (fun _ => ()) ∧
    (q.submit hash key content).2.Works p'

theorem Works.refl (p : Pool α) : p.Works p :=
  Relation.ReflTransGen.refl

theorem Works.trans (h : p.Works p') (h' : p'.Works p'') : p.Works p'' :=
  Relation.ReflTransGen.trans h h'

theorem Moves.closed (h : Moves p p') : p'.closed = p.closed := by
  cases h with
  | take h => exact (taken_of_take? h).closed
  | goOn => rfl
  | finish => exact closed_finish ..

theorem Moves.dispatched (h : Moves p p') : p'.tracker.dispatched = p.tracker.dispatched := by
  cases h with
  | take h =>
      unfold take? at h
      split at h
      · split at h
        · cases h
        · cases h
          rfl
      · cases h
  | goOn => rfl
  | finish worker failed =>
      unfold Pool.finish
      split <;> rfl

/-- Workers neither open nor close a pool. -/
theorem Works.closed (h : p.Works p') : p'.closed = p.closed := by
  induction h with
  | refl => rfl
  | tail _ hlast ih => exact hlast.closed.trans ih

theorem Works.dispatched (h : p.Works p') :
    p'.tracker.dispatched = p.tracker.dispatched := by
  induction h with
  | refl => rfl
  | tail _ hlast ih => exact hlast.dispatched.trans ih

/-- A closed pool refuses, and is not touched. -/
theorem submit_closed {κ : Type} (hclosed : p.closed = true) (hash : κ → Nat)
    (key : Option κ) (content : α) : p.submit hash key content = (.error .shutdown, p) := by
  rw [submit, if_pos hclosed]

theorem Submits.of_closed {answer : Except DispatchError Unit} (h : p.Submits answer p')
    (hclosed : p.closed = true) : answer = .error .shutdown ∧ p.Works p' := by
  obtain ⟨q, hash, key, content, hbefore, hanswer, hafter⟩ := h
  rw [submit_closed (hbefore.closed.trans hclosed)] at hanswer hafter
  exact ⟨hanswer, hbefore.trans hafter⟩

end TaskFleet.Pool
