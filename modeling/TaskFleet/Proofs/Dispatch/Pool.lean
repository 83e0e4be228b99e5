import TaskFleet.Dispatch.Pool

/-!
# What the moves of a pool do

A pool keeps its queues as one list and what its workers run as another.  Here each is
read off by a lookup, `Pool.queue` for a destination and `Pool.runningAt?` for a worker,
and each move is told by what it does to the two.  A queue grows at its end and is taken
from at its head, and no move touches two queues or two workers.
-/

namespace TaskFleet.Pool

variable {α : Type} {p p' : Pool α} {i j : Invocation α} {d d' : Destination} {worker v : Nat}

/-- Settings without a fault have a worker. -/
theorem create_ok {config : DispatcherConfig} (h : create config = .ok p) :
    p = idle config ∧ 0 < config.workers.toNat := by
  unfold create at h
  split at h
  · cases h
  · next hfault =>
    cases h
    refine ⟨rfl, Nat.pos_of_ne_zero fun hzero => ?_⟩
    have hnone : config.workers = 0 := UInt64.toNat_inj.mp hzero
    simp [DispatcherConfig.fault?, hnone] at hfault

/-! ## Queues -/

theorem mem_queue_iff : i ∈ p.queue d ↔ i ∈ p.waiting ∧ i.destination = d := by
  rw [queue, List.mem_filter, decide_eq_true_iff]

@[simp] theorem queue_attempt (p : Pool α) (hash : Option Nat) (content : α) (d : Destination) :
    (p.attempt hash content).2.queue d = p.queue d := rfl

@[simp] theorem queue_giveUp (p : Pool α) (i : Invocation α) (d : Destination) :
    (p.giveUp i).queue d = p.queue d := rfl

@[simp] theorem queue_goOn (p : Pool α) (worker : Nat) (content : α) (d : Destination) :
    (p.goOn worker content).queue d = p.queue d := rfl

@[simp] theorem queue_shutdown (p : Pool α) (d : Destination) :
    p.shutdown.queue d = p.queue d := rfl

@[simp] theorem waiting_finish (p : Pool α) (worker : Nat) (failed : Bool) :
    (p.finish worker failed).waiting = p.waiting := by
  unfold finish
  split <;> rfl

@[simp] theorem config_finish (p : Pool α) (worker : Nat) (failed : Bool) :
    (p.finish worker failed).config = p.config := by
  unfold finish
  split <;> rfl

@[simp] theorem closed_finish (p : Pool α) (worker : Nat) (failed : Bool) :
    (p.finish worker failed).closed = p.closed := by
  unfold finish
  split <;> rfl

@[simp] theorem queue_finish (p : Pool α) (worker : Nat) (failed : Bool) (d : Destination) :
    (p.finish worker failed).queue d = p.queue d := by
  rw [queue, waiting_finish, queue]

theorem queue_accept (p : Pool α) (i : Invocation α) (d : Destination) :
    (p.accept i).queue d = if i.destination = d then p.queue d ++ [i] else p.queue d := by
  show (p.waiting ++ [i]).filter _ = _
  rw [List.filter_append]
  split
  · next hd => simp [queue, hd]
  · next hd => simp [queue, hd]

/-! ## Workers -/

theorem isFree_iff :
    p.isFree worker = true ↔ worker < p.config.workers.toNat ∧ p.runningAt? worker = none := by
  simp [isFree, runningAt?, List.find?_eq_none]

@[simp] theorem runningAt?_accept (p : Pool α) (i : Invocation α) (v : Nat) :
    (p.accept i).runningAt? v = p.runningAt? v := rfl

@[simp] theorem runningAt?_giveUp (p : Pool α) (i : Invocation α) (v : Nat) :
    (p.giveUp i).runningAt? v = p.runningAt? v := rfl

theorem runningAt?_goOn (p : Pool α) (worker : Nat) (content : α) (v : Nat) :
    (p.goOn worker content).runningAt? v =
      if v = worker then (p.runningAt? v).map fun i => { i with content } else p.runningAt? v := by
  unfold goOn runningAt?
  induction p.running with
  | nil => simp
  | cons head rest ih =>
      obtain ⟨u, i⟩ := head
      by_cases huv : u = v
      · subst huv
        by_cases hu : u = worker <;> simp [hu]
      · by_cases hu : u = worker
        · subst hu
          simpa [huv] using ih
        · simpa [huv, hu] using ih

/-- What a worker runs is gone when it has finished, and no other worker notices. -/
theorem runningAt?_finish (p : Pool α) (worker : Nat) (failed : Bool) (v : Nat) :
    (p.finish worker failed).runningAt? v = if v = worker then none else p.runningAt? v := by
  unfold finish
  split
  · next hnone =>
    split
    · next hv => rw [hv, hnone]
    · rfl
  · show ((p.running.filter fun r => decide (r.1 ≠ worker)).find? _).map Prod.snd = _
    rw [List.find?_filter]
    split
    · next hv =>
      subst hv
      simp
    · next hv =>
      refine congrArg _ (congrArg (List.find? · p.running) (funext fun r => ?_))
      by_cases hr : r.1 = v <;> simp [hr, hv]

/-! ## Taking -/

theorem filter_eraseP_self {β : Type} (q : β → Bool) (l : List β) :
    (l.eraseP q).filter q = (l.filter q).tail := by
  induction l with
  | nil => rfl
  | cons b l ih => cases h : q b <;> simp [h, ih]

theorem filter_eraseP_of_disjoint {β : Type} {q r : β → Bool} (h : ∀ b, q b = true → r b = false)
    (l : List β) : (l.eraseP q).filter r = l.filter r := by
  induction l with
  | nil => rfl
  | cons b l ih =>
      cases hq : q b with
      | true => simp [hq, h b hq]
      | false => simp [hq, List.filter_cons, ih]

/-- All that a take does: a free worker that serves a queue runs what was its head. -/
structure Taken (p p' : Pool α) (worker : Nat) (d : Destination) (i : Invocation α) : Prop where
  free : p.isFree worker = true
  serves : serves worker d = true
  queue : p.queue d = i :: p'.queue d
  others : ∀ d', d' ≠ d → p'.queue d' = p.queue d'
  running : ∀ v, p'.runningAt? v = if v = worker then some i else p.runningAt? v
  config : p'.config = p.config
  closed : p'.closed = p.closed

theorem taken_of_take? (h : p.take? worker d = some (i, p')) : Taken p p' worker d i := by
  unfold take? at h
  split at h
  · next hready =>
    obtain ⟨hfree, hserves⟩ := Bool.and_eq_true_iff.mp hready
    cases hhead : (p.queue d).head? with
    | none =>
        rw [hhead] at h
        cases h
    | some head =>
        rw [hhead] at h
        cases h
        obtain ⟨rest, hrest⟩ := List.head?_eq_some_iff.mp hhead
        refine ⟨hfree, hserves, ?_, fun d' hd' => ?_, fun v => ?_, rfl, rfl⟩
        · show _ = i :: (p.waiting.eraseP _).filter _
          rw [filter_eraseP_self]
          show p.queue d = i :: (p.queue d).tail
          rw [hrest, List.tail_cons]
        · refine filter_eraseP_of_disjoint (fun j hj => ?_) _
          rw [of_decide_eq_true hj]
          exact decide_eq_false (Ne.symm hd')
        · -- the worker ran nothing, so what it takes is what it runs
          have hidle := (isFree_iff.mp hfree).2
          show ((p.running ++ [(worker, i)]).find? _).map Prod.snd = _
          rw [List.find?_append, Option.map_or]
          split
          · next hv =>
            subst hv
            show (p.runningAt? v).or _ = _
            rw [hidle]
            simp
          · next hv =>
            show (p.runningAt? v).or _ = _
            simp [Ne.symm hv]
  · cases h

theorem Taken.mem_queue (h : Taken p p' worker d i) : i ∈ p.queue d := by
  rw [h.queue]
  exact List.mem_cons_self

/-- Whoever waits after a take has waited before. -/
theorem Taken.mem_waiting (h : Taken p p' worker d i) (hj : j ∈ p'.waiting) : j ∈ p.waiting := by
  have hmem : j ∈ p'.queue j.destination := mem_queue_iff.mpr ⟨hj, rfl⟩
  refine (mem_queue_iff.mp (?_ : j ∈ p.queue j.destination)).1
  by_cases hd : j.destination = d
  · rw [hd] at hmem ⊢
    rw [h.queue]
    exact List.mem_cons_of_mem _ hmem
  · rw [← h.others _ hd]
    exact hmem

end TaskFleet.Pool
