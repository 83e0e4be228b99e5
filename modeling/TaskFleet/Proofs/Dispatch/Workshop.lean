import Mathlib.Data.List.Perm.Basic
import Mathlib.Logic.Function.Basic
import Mathlib.Logic.Relation
import TaskFleet.Proofs.Dispatch.Pool

/-!
# Workers at work

A `Workshop` is a pool in use: callers in the middle of a call, workers with a place in
their loop, and a history of what happened.  Its steps come in any order, and whoever may
move next may be anyone.

A caller that finds the pool open holds on to the queue that it was shown until there is
room or it gives up, so a queue is shut only when the pool is closed and no caller holds on
to it.  With several workers each chooses between the shared queue and its own lane until it
finds one of the two shut and empty, drains the other one, and leaves when that is shut and
empty as well; a single worker drains the shared queue from the beginning.

`Accounts` says where every call is at any time.  Order and completeness are drawn from it.
-/

namespace TaskFleet

/-- A call that asks for work: how many calls there were before it, its key, if it has one,
and the work. -/
structure Job (κ α : Type) where
  number : Nat
  key : Option κ
  work : α
deriving DecidableEq

/-- What a worker does: the work of a job or, when that has panicked, telling the hook. -/
inductive Duty (κ α : Type) where
  | work (job : Job κ α)
  | report (job : Job κ α)

/-- The job that a duty belongs to. -/
def Duty.job {κ α : Type} : Duty κ α → Job κ α
  | work job | report job => job

/-- The job that an invocation belongs to. -/
def Invocation.job {κ α : Type} (i : Invocation (Duty κ α)) : Job κ α :=
  i.content.job

/-- Something that happens to a job. -/
inductive Happening (κ α : Type) where
  | accepted (job : Job κ α)
  | refused (job : Job κ α)
  | started (worker : Nat) (job : Job κ α)
  | reported (worker : Nat) (job : Job κ α) (panicked : Bool)
  | finished (worker : Nat) (job : Job κ α) (failed : Bool)
deriving DecidableEq

/-- Where a worker is in its loop. -/
inductive Station where
  | choosing
  | draining (d : Destination)
  | gone
deriving DecidableEq

/-- A worker may take from a queue. -/
def Station.permits (d : Destination) : Station → Prop
  | choosing => True
  | draining d' => d' = d
  | gone => False

/-- The number of a key, which work panics, and the panic hook, if there is one: whether it
panics itself when it is told of a work that has. -/
structure Rules (κ α : Type) where
  hash : κ → Nat
  panics : α → Bool
  hook : Option (α → Bool)

/-- A pool in use. -/
structure Workshop (κ α : Type) where
  pool : Pool (Duty κ α)
  calls : Nat
  attempts : List (Invocation (Duty κ α))
  station : Nat → Station
  history : List (Happening κ α)

variable {κ α : Type}

/-- Where the jobs of a key wait. -/
def Rules.place (rules : Rules κ α) (config : DispatcherConfig) (job : Job κ α) : Destination :=
  .ofHash config.workers.toNat (job.key.map rules.hash)

namespace Workshop

/-- A pool that nobody has used. -/
def opening (pool : Pool (Duty κ α)) : Workshop κ α where
  pool := pool
  calls := 0
  attempts := []
  station _ := if 1 < pool.config.workers.toNat then .choosing else .draining .shared
  history := []

/-- A worker reads the shared queue and, if it is not alone, a lane. -/
def Reads (config : DispatcherConfig) (worker : Nat) (d : Destination) : Prop :=
  d = .shared ∨ 1 < config.workers.toNat ∧ d = .lane worker

/-- Nothing more comes into a queue. -/
structure Shut (w : Workshop κ α) (d : Destination) : Prop where
  closed : w.pool.closed = true
  released : ∀ i ∈ w.attempts, i.destination ≠ d

/-- A queue is empty for good, and who reads it is told so. -/
structure Exhausted (w : Workshop κ α) (d : Destination) : Prop where
  shut : w.Shut d
  empty : w.pool.queue d = []

/-- What happens at once. -/
inductive Step (rules : Rules κ α) : Workshop κ α → Workshop κ α → Prop
  /-- A call finds the pool closed. -/
  | refuse {w : Workshop κ α} (hclosed : w.pool.closed = true) (key : Option κ) (work : α) :
      Step rules w { w with
        calls := w.calls + 1
        history := w.history ++ [.refused ⟨w.calls, key, work⟩] }
  /-- A call finds the pool open and is shown a queue. -/
  | attempt {w : Workshop κ α} {i : Invocation (Duty κ α)} {pool : Pool (Duty κ α)}
      (hopen : w.pool.closed = false) (key : Option κ) (work : α)
      (h : w.pool.attempt (key.map rules.hash) (.work ⟨w.calls, key, work⟩) = (i, pool)) :
      Step rules w { w with pool, calls := w.calls + 1, attempts := w.attempts ++ [i] }
  /-- There is room. -/
  | accept {w : Workshop κ α} {before after : List (Invocation (Duty κ α))}
      {i : Invocation (Duty κ α)} (h : w.attempts = before ++ i :: after)
      (hroom : w.pool.isFull i.destination = false) :
      Step rules w { w with
        pool := w.pool.accept i
        attempts := before ++ after
        history := w.history ++ [.accepted i.job] }
  /-- There is no room, or there was none for too long. -/
  | giveUp {w : Workshop κ α} {before after : List (Invocation (Duty κ α))}
      {i : Invocation (Duty κ α)} (h : w.attempts = before ++ i :: after) :
      Step rules w { w with
        pool := w.pool.giveUp i
        attempts := before ++ after
        history := w.history ++ [.refused i.job] }
  | take {w : Workshop κ α} {worker : Nat} {d : Destination} {i : Invocation (Duty κ α)}
      {pool : Pool (Duty κ α)} (hplace : (w.station worker).permits d)
      (h : w.pool.take? worker d = some (i, pool)) :
      Step rules w { w with pool, history := w.history ++ [.started worker i.job] }
  /-- The work has panicked and there is a hook. -/
  | report {w : Workshop κ α} {worker : Nat} {i : Invocation (Duty κ α)} {job : Job κ α}
      (h : w.pool.runningAt? worker = some i) (hjob : i.content = .work job)
      (hpanics : rules.panics job.work = true) (hhook : rules.hook ≠ none) :
      Step rules w { w with pool := w.pool.goOn worker (.report job) }
  /-- The work has returned, or there is nobody to be told that it has panicked. -/
  | finish {w : Workshop κ α} {worker : Nat} {i : Invocation (Duty κ α)} {job : Job κ α}
      (h : w.pool.runningAt? worker = some i) (hjob : i.content = .work job)
      (hdone : rules.panics job.work = true → rules.hook = none) :
      Step rules w { w with
        pool := w.pool.finish worker (rules.panics job.work)
        history := w.history ++ [.finished worker job (rules.panics job.work)] }
  /-- The hook has returned or panicked; that makes no difference. -/
  | finishReport {w : Workshop κ α} {worker : Nat} {i : Invocation (Duty κ α)} {job : Job κ α}
      {hook : α → Bool} (h : w.pool.runningAt? worker = some i) (hjob : i.content = .report job)
      (hhook : rules.hook = some hook) :
      Step rules w { w with
        pool := w.pool.finish worker true
        history := w.history ++
          [.reported worker job (hook job.work), .finished worker job true] }
  | shutdown {w : Workshop κ α} : Step rules w { w with pool := w.pool.shutdown }
  /-- A worker finds one of its queues exhausted and turns to the other one. -/
  | turn {w : Workshop κ α} {worker : Nat} {d d' : Destination}
      (hfree : w.pool.isFree worker = true) (hstation : w.station worker = .choosing)
      (hd : Reads w.pool.config worker d) (hd' : Reads w.pool.config worker d') (hne : d ≠ d')
      (hexhausted : w.Exhausted d) :
      Step rules w { w with station := Function.update w.station worker (.draining d') }
  /-- A worker finds its last queue exhausted. -/
  | leave {w : Workshop κ α} {worker : Nat} {d : Destination}
      (hfree : w.pool.isFree worker = true) (hstation : w.station worker = .draining d)
      (hexhausted : w.Exhausted d) :
      Step rules w { w with station := Function.update w.station worker .gone }

/-- What can become of a pool with these settings. -/
inductive Reachable (rules : Rules κ α) (config : DispatcherConfig) : Workshop κ α → Prop
  | opening {pool : Pool (Duty κ α)} (h : Pool.create config = .ok pool) :
      Reachable rules config (.opening pool)
  | step {w w' : Workshop κ α} (hw : Reachable rules config w) (h : Step rules w w') :
      Reachable rules config w'

end Workshop

/-! ## Reading the history -/

namespace Happening

/-- The job that is accepted. -/
def accepted? : Happening κ α → Option (Job κ α)
  | accepted job => some job
  | _ => none

/-- The job that is refused. -/
def refused? : Happening κ α → Option (Job κ α)
  | refused job => some job
  | _ => none

/-- The worker that starts with a job. -/
def started? : Happening κ α → Option (Nat × Job κ α)
  | started worker job => some (worker, job)
  | _ => none

/-- The worker that is done with a job. -/
def finished? : Happening κ α → Option (Nat × Job κ α)
  | finished worker job _ => some (worker, job)
  | _ => none

end Happening

namespace Workshop

/-- The jobs that were accepted, in order. -/
def accepted (history : List (Happening κ α)) : List (Job κ α) :=
  history.filterMap Happening.accepted?

/-- The jobs that were refused, in order. -/
def refused (history : List (Happening κ α)) : List (Job κ α) :=
  history.filterMap Happening.refused?

/-- Who started with which job, in order. -/
def started (history : List (Happening κ α)) : List (Nat × Job κ α) :=
  history.filterMap Happening.started?

/-- Who was done with which job, in order. -/
def finished (history : List (Happening κ α)) : List (Nat × Job κ α) :=
  history.filterMap Happening.finished?

variable {rules : Rules κ α} {config : DispatcherConfig} {w w' : Workshop κ α}
  {history : List (Happening κ α)}

/-- What an answer says of a job. -/
def told (job : Job κ α) : Except DispatchError Nat → Happening κ α
  | .ok _ => .accepted job
  | .error _ => .refused job

/-- A caller that does not wait for room makes one or two of the steps at once. -/
theorem steps_submit {key : Option κ} {work : α} {answer : Except DispatchError Nat}
    {pool : Pool (Duty κ α)}
    (h : w.pool.submit rules.hash key (.work ⟨w.calls, key, work⟩) = (answer, pool)) :
    ∃ w', Relation.ReflTransGen (Step rules) w w' ∧ w'.pool = pool ∧
      w'.history = w.history ++ [told ⟨w.calls, key, work⟩ answer] := by
  unfold Pool.submit at h
  split at h
  · next hclosed =>
    cases h
    exact ⟨_, .single (.refuse hclosed key work), rfl, rfl⟩
  · next hopen =>
    cases hasked : w.pool.attempt (key.map rules.hash) (.work ⟨w.calls, key, work⟩) with
    | mk i asked =>
        have hattempt : Step rules w { w with
            pool := asked, calls := w.calls + 1, attempts := w.attempts ++ [i] } :=
          .attempt (Bool.not_eq_true _ ▸ hopen) key work hasked
        have hsame : asked.isFull i.destination = w.pool.isFull i.destination := by
          cases hasked
          rfl
        have hjob : i.job = ⟨w.calls, key, work⟩ := by
          cases hasked
          rfl
        rw [hasked] at h
        rw [← hjob]
        dsimp only at h
        split at h
        · cases h
          exact ⟨_, .tail (.single hattempt) (.giveUp rfl), rfl, rfl⟩
        · next hroom =>
          cases h
          have hspace := hsame.trans (Bool.not_eq_true _ ▸ hroom)
          exact ⟨_, .tail (.single hattempt) (.accept rfl hspace), rfl, rfl⟩

private theorem filterMap_concat {β γ : Type} (f : β → Option γ) (bs : List β) (b : β) :
    (bs ++ [b]).filterMap f = bs.filterMap f ++ (f b).toList := by
  rw [List.filterMap_append]
  cases h : f b <;> simp [h]

@[simp] theorem accepted_concat (history : List (Happening κ α)) (e : Happening κ α) :
    accepted (history ++ [e]) = accepted history ++ e.accepted?.toList :=
  filterMap_concat ..

@[simp] theorem refused_concat (history : List (Happening κ α)) (e : Happening κ α) :
    refused (history ++ [e]) = refused history ++ e.refused?.toList :=
  filterMap_concat ..

@[simp] theorem started_concat (history : List (Happening κ α)) (e : Happening κ α) :
    started (history ++ [e]) = started history ++ e.started?.toList :=
  filterMap_concat ..

@[simp] theorem finished_concat (history : List (Happening κ α)) (e : Happening κ α) :
    finished (history ++ [e]) = finished history ++ e.finished?.toList :=
  filterMap_concat ..

/-- The jobs of a list that wait, or have waited, in one queue. -/
def jobsAt (rules : Rules κ α) (config : DispatcherConfig) (d : Destination)
    (jobs : List (Job κ α)) : List (Job κ α) :=
  jobs.filter fun job => decide (rules.place config job = d)

/-- What one worker had to do with. -/
def jobsOf (worker : Nat) (jobs : List (Nat × Job κ α)) : List (Nat × Job κ α) :=
  jobs.filter fun job => decide (job.1 = worker)

/-- How often the call with a number is in a list. -/
def tally (n : Nat) (jobs : List (Job κ α)) : Nat :=
  (jobs.map Job.number).count n

/-- Where every call is. -/
structure Accounts (rules : Rules κ α) (config : DispatcherConfig) (w : Workshop κ α) :
    Prop where
  settings : w.pool.config = config
  /-- Every call was accepted or refused or is still being made, and only one of these. -/
  calls : ∀ n, tally n (accepted w.history) + tally n (refused w.history) +
    tally n (w.attempts.map Invocation.job) = if n < w.calls then 1 else 0
  attempted : ∀ i ∈ w.attempts, i.destination = rules.place config i.job
  waiting : ∀ i ∈ w.pool.waiting, i.destination = rules.place config i.job
  /-- What was accepted for a queue has been started or waits in it, in this order. -/
  queues : ∀ d, jobsAt rules config d (accepted w.history) =
    jobsAt rules config d ((started w.history).map Prod.snd) ++
      (w.pool.queue d).map Invocation.job
  /-- What a worker has started it has finished, but for what it runs. -/
  running : ∀ v, jobsOf v (started w.history) = jobsOf v (finished w.history) ++
    (w.pool.runningAt? v).toList.map fun i => (v, i.job)
  served : ∀ r ∈ started w.history, r.1 < config.workers.toNat ∧
    Pool.serves r.1 (rules.place config r.2) = true

@[simp] theorem tally_nil (n : Nat) : tally n ([] : List (Job κ α)) = 0 := rfl

theorem tally_append (n : Nat) (jobs jobs' : List (Job κ α)) :
    tally n (jobs ++ jobs') = tally n jobs + tally n jobs' := by
  rw [tally, List.map_append, List.count_append, tally, tally]

theorem tally_cons (n : Nat) (job : Job κ α) (jobs : List (Job κ α)) :
    tally n (job :: jobs) = tally n jobs + if job.number = n then 1 else 0 := by
  rw [tally, List.map_cons, List.count_cons, tally]
  simp only [beq_iff_eq]

theorem jobsAt_append (rules : Rules κ α) (config : DispatcherConfig) (d : Destination)
    (jobs jobs' : List (Job κ α)) :
    jobsAt rules config d (jobs ++ jobs') =
      jobsAt rules config d jobs ++ jobsAt rules config d jobs' :=
  List.filter_append ..

theorem jobsAt_singleton (rules : Rules κ α) (config : DispatcherConfig) (d : Destination)
    (job : Job κ α) :
    jobsAt rules config d [job] = if rules.place config job = d then [job] else [] := by
  simp [jobsAt, List.filter_cons]

theorem jobsOf_append (worker : Nat) (jobs jobs' : List (Nat × Job κ α)) :
    jobsOf worker (jobs ++ jobs') = jobsOf worker jobs ++ jobsOf worker jobs' :=
  List.filter_append ..

theorem jobsOf_singleton (worker v : Nat) (job : Job κ α) :
    jobsOf worker [(v, job)] = if v = worker then [(v, job)] else [] := by
  simp [jobsOf, List.filter_cons]

theorem accounts_opening {pool : Pool (Duty κ α)} (h : Pool.create config = .ok pool) :
    Accounts rules config (opening pool) := by
  obtain ⟨rfl, -⟩ := Pool.create_ok h
  exact ⟨rfl, fun n => rfl, nofun, nofun, fun d => rfl, fun v => rfl, nofun⟩

theorem Accounts.refuse (hw : Accounts rules config w) (key : Option κ) (work : α) :
    Accounts rules config { w with
      calls := w.calls + 1
      history := w.history ++ [.refused ⟨w.calls, key, work⟩] } where
  settings := hw.settings
  calls n := by
    have hold := hw.calls n
    simp only [accepted_concat, refused_concat, Happening.accepted?, Happening.refused?,
      Option.toList, List.append_nil, tally_append, tally_cons, tally_nil]
    grind
  attempted := hw.attempted
  waiting := hw.waiting
  queues := by simpa [Happening.accepted?, Happening.started?] using hw.queues
  running := by simpa [Happening.started?, Happening.finished?] using hw.running
  served := by simpa [Happening.started?] using hw.served

theorem Accounts.attempt (hw : Accounts rules config w) {i : Invocation (Duty κ α)}
    {pool : Pool (Duty κ α)} (key : Option κ) (work : α)
    (h : w.pool.attempt (key.map rules.hash) (.work ⟨w.calls, key, work⟩) = (i, pool)) :
    Accounts rules config
      { w with pool, calls := w.calls + 1, attempts := w.attempts ++ [i] } := by
  cases h
  refine ⟨hw.settings, fun n => ?_, ?_, hw.waiting, hw.queues, hw.running, hw.served⟩
  · have hold := hw.calls n
    rw [List.map_append, tally_append, List.map_singleton, tally_cons, tally_nil]
    show _ + _ + (_ + (0 + if w.calls = n then 1 else 0)) = _
    grind
  · intro i hi
    rcases List.mem_append.mp hi with hi | hi
    · exact hw.attempted i hi
    · cases List.mem_singleton.mp hi
      rw [hw.settings]
      rfl

theorem mem_of_mem_without {β : Type} {before after : List β} {b c : β}
    (h : b ∈ before ++ after) : b ∈ before ++ c :: after := by
  rw [List.mem_append] at h ⊢
  exact h.imp_right (List.mem_cons_of_mem c)

theorem Accounts.accept (hw : Accounts rules config w) {before after : List (Invocation (Duty κ α))}
    {i : Invocation (Duty κ α)} (h : w.attempts = before ++ i :: after) :
    Accounts rules config { w with
      pool := w.pool.accept i
      attempts := before ++ after
      history := w.history ++ [.accepted i.job] } := by
  have hplace : i.destination = rules.place config i.job :=
    hw.attempted i (by simp [h])
  refine ⟨hw.settings, fun n => ?_, fun j hj => hw.attempted j ?_, fun j hj => ?_, fun d => ?_,
    ?_, ?_⟩
  · have hold := hw.calls n
    rw [h] at hold
    simp only [accepted_concat, refused_concat, Happening.accepted?, Happening.refused?,
      Option.toList, List.append_nil, List.map_append, List.map_cons, tally_append, tally_cons,
      tally_nil] at hold ⊢
    omega
  · exact h ▸ mem_of_mem_without hj
  · rcases List.mem_append.mp hj with hj | hj
    · exact hw.waiting j hj
    · exact List.mem_singleton.mp hj ▸ hplace
  · have hold := hw.queues d
    simp only [accepted_concat, started_concat, Happening.accepted?, Happening.started?,
      Option.toList, List.append_nil, jobsAt_append, jobsAt_singleton, Pool.queue_accept]
    rw [hold, ← hplace]
    split <;> simp
  · simpa [Happening.started?, Happening.finished?] using hw.running
  · simpa [Happening.started?] using hw.served

theorem Accounts.giveUp (hw : Accounts rules config w) {before after : List (Invocation (Duty κ α))}
    {i : Invocation (Duty κ α)} (h : w.attempts = before ++ i :: after) :
    Accounts rules config { w with
      pool := w.pool.giveUp i
      attempts := before ++ after
      history := w.history ++ [.refused i.job] } := by
  refine ⟨hw.settings, fun n => ?_, fun j hj => hw.attempted j ?_, hw.waiting, ?_, ?_, ?_⟩
  · have hold := hw.calls n
    rw [h] at hold
    simp only [accepted_concat, refused_concat, Happening.accepted?, Happening.refused?,
      Option.toList, List.append_nil, List.map_append, List.map_cons, tally_append, tally_cons,
      tally_nil] at hold ⊢
    omega
  · exact h ▸ mem_of_mem_without hj
  · simpa [Happening.accepted?, Happening.started?] using hw.queues
  · simpa [Happening.started?, Happening.finished?] using hw.running
  · simpa [Happening.started?] using hw.served

/-- The head of a queue is the job that was accepted first of those that were not started. -/
theorem Accounts.take (hw : Accounts rules config w) {worker : Nat} {d : Destination}
    {i : Invocation (Duty κ α)} {pool : Pool (Duty κ α)}
    (h : Pool.Taken w.pool pool worker d i) :
    Accounts rules config { w with
      pool, history := w.history ++ [.started worker i.job] } := by
  obtain ⟨hwaiting, hd⟩ := Pool.mem_queue_iff.mp h.mem_queue
  have hplace : rules.place config i.job = d := hw.waiting i hwaiting ▸ hd
  obtain ⟨hworker, hidle⟩ := Pool.isFree_iff.mp h.free
  refine ⟨h.config.trans hw.settings, ?_, hw.attempted, fun j hj => hw.waiting j (h.mem_waiting hj),
    fun d' => ?_, fun v => ?_, fun r hr => ?_⟩
  · simpa [Happening.accepted?, Happening.refused?] using hw.calls
  · have hold := hw.queues d'
    simp only [accepted_concat, started_concat, Happening.accepted?, Happening.started?,
      Option.toList, List.append_nil, List.map_append, List.map_cons, List.map_nil,
      jobsAt_append, jobsAt_singleton, hplace]
    rw [hold]
    split
    · next heq =>
      rw [← heq, h.queue]
      simp
    · next hne => rw [h.others d' (Ne.symm hne), List.append_nil]
  · have hold := hw.running v
    simp only [started_concat, finished_concat, Happening.started?, Happening.finished?,
      Option.toList, List.append_nil, jobsOf_append, jobsOf_singleton, h.running]
    rw [hold]
    by_cases hv : v = worker
    · subst hv
      simp [hidle]
    · simp [hv, Ne.symm hv]
      rfl
  · rw [started_concat] at hr
    rcases List.mem_append.mp hr with hr | hr
    · exact hw.served r hr
    · cases List.mem_singleton.mp hr
      rw [hplace]
      exact ⟨hw.settings ▸ hworker, h.serves⟩

theorem Accounts.report (hw : Accounts rules config w) {worker : Nat}
    {i : Invocation (Duty κ α)} {job : Job κ α} (h : w.pool.runningAt? worker = some i)
    (hjob : i.job = job) :
    Accounts rules config { w with pool := w.pool.goOn worker (.report job) } := by
  refine ⟨hw.settings, hw.calls, hw.attempted, hw.waiting, hw.queues, fun v => ?_, hw.served⟩
  rw [hw.running v, Pool.runningAt?_goOn]
  split
  · next hv =>
    rw [hv, h, ← hjob]
    rfl
  · rfl

/-- A worker is done with the job that it ran. -/
theorem Accounts.finish (hw : Accounts rules config w) {worker : Nat} {failed : Bool}
    {i : Invocation (Duty κ α)} {history : List (Happening κ α)}
    (h : w.pool.runningAt? worker = some i)
    (haccepted : accepted history = accepted w.history)
    (hrefused : refused history = refused w.history)
    (hstarted : started history = started w.history)
    (hfinished : finished history = finished w.history ++ [(worker, i.job)]) :
    Accounts rules config { w with pool := w.pool.finish worker failed, history } := by
  refine ⟨?_, fun n => ?_, hw.attempted, ?_, fun d => ?_, fun v => ?_, fun r hr => ?_⟩
  · rw [Pool.config_finish]
    exact hw.settings
  · rw [haccepted, hrefused]
    exact hw.calls n
  · rw [Pool.waiting_finish]
    exact hw.waiting
  · rw [haccepted, hstarted, Pool.queue_finish]
    exact hw.queues d
  · rw [hstarted, hfinished, hw.running v, jobsOf_append, jobsOf_singleton,
      Pool.runningAt?_finish]
    by_cases hv : v = worker
    · rw [hv, h, if_pos rfl, if_pos rfl]
      exact (List.append_nil _).symm
    · rw [if_neg (Ne.symm hv), if_neg hv, List.append_nil]
  · rw [hstarted] at hr
    exact hw.served r hr

theorem Accounts.step (hw : Accounts rules config w) (h : Step rules w w') :
    Accounts rules config w' := by
  cases h with
  | refuse _ key work => exact hw.refuse key work
  | attempt _ key work h => exact hw.attempt key work h
  | accept h _ => exact hw.accept h
  | giveUp h => exact hw.giveUp h
  | take _ h => exact hw.take (Pool.taken_of_take? h)
  | report h hjob _ _ => exact hw.report h (congrArg Duty.job hjob)
  | finish h hjob _ =>
      obtain rfl := congrArg Duty.job hjob
      refine hw.finish h ?_ ?_ ?_ ?_
      · simp [Happening.accepted?]
      · simp [Happening.refused?]
      · simp [Happening.started?]
      · rw [finished_concat]
        rfl
  | finishReport h hjob _ =>
      obtain rfl := congrArg Duty.job hjob
      rw [List.append_cons]
      refine hw.finish h ?_ ?_ ?_ ?_
      · rw [accepted_concat, accepted_concat]
        simp [Happening.accepted?]
      · rw [refused_concat, refused_concat]
        simp [Happening.refused?]
      · rw [started_concat, started_concat]
        simp [Happening.started?]
      · rw [finished_concat, finished_concat]
        simp [Happening.finished?]
        rfl
  | shutdown | turn | leave =>
      exact ⟨hw.settings, hw.calls, hw.attempted, hw.waiting, hw.queues, hw.running, hw.served⟩

theorem Reachable.accounts (hw : Reachable rules config w) : Accounts rules config w := by
  induction hw with
  | opening h => exact accounts_opening h
  | step _ h ih => exact ih.step h

end Workshop

end TaskFleet
