import TaskFleet.Proofs.Scheduler.RequestLife

/-!
# What the cluster is asked for

The client keeps what is outstanding at the cluster for each cookie; the ledger knows which
requests were submitted.  Nobody compares the two.  They agree because of the effects: for
each cookie, what the effects decided so far ask the cluster for (`Effect.revise`, folded
over the journal) is what the ledger says was submitted, after every move.  The client in
turn has done what was carried out.  So the two agree whenever nothing is pending
(`Fleet.client_mirrors`).

In the middle of an operation a new request has a cookie and was not submitted yet.  It
never stays so: an operation that issues a cookie submits its request or serves it before
it ends.
-/

namespace TaskFleet

/-! ## One cookie at the client -/

/-- What is outstanding for a cookie once an effect was carried out. -/
def Effect.revise (c : Cookie) (asked : Option (List ContainerRequest)) :
    Effect → Option (List ContainerRequest)
  | .call (.submit r) => if r.cookie = c then some (asked.getD [] ++ [r]) else asked
  | .call (.withdraw c') => if c' = c then none else asked
  | _ => asked

theorem Client.get?_call (d : Client) (call : ContainerCall) (c : Cookie) :
    (d.call call).outstanding.get? c =
      Effect.revise c (d.outstanding.get? c) (.call call) := by
  cases call with
  | submit r =>
      show (d.outstanding.insert r.cookie _).get? c = _
      rw [SortedMap.get?_insert, Effect.revise]
      by_cases hc : r.cookie = c
      · rw [if_pos hc.symm, if_pos hc, hc]
      · rw [if_neg (Ne.symm hc), if_neg hc]
  | withdraw c' =>
      show (d.outstanding.erase c').get? c = _
      rw [SortedMap.get?_erase, Effect.revise]
      by_cases hc : c' = c
      · rw [if_pos hc.symm, if_pos hc]
      · rw [if_neg (Ne.symm hc), if_neg hc]
  | giveBack id => rfl

/-- Effects that do not concern a request change nothing of what is asked for it. -/
theorem foldl_revise_about (c : Cookie) (es : List Effect)
    (asked : Option (List ContainerRequest)) :
    (about c es).foldl (Effect.revise c) asked = es.foldl (Effect.revise c) asked := by
  induction es generalizing asked with
  | nil => rfl
  | cons e es ih =>
      by_cases he : e.concerns c = true
      · have hcons : about c (e :: es) = e :: about c es := List.filter_cons_of_pos he
        rw [hcons, List.foldl_cons, List.foldl_cons, ih]
      · have hskip : about c (e :: es) = about c es := List.filter_cons_of_neg he
        have hsame : e.revise c asked = asked := by
          cases e with
          | call call =>
              cases call with
              | submit r => simp_all [Effect.concerns, Effect.revise]
              | withdraw c' => simp_all [Effect.concerns, Effect.revise]
              | giveBack id => rfl
          | notify notice => rfl
        rw [hskip, List.foldl_cons, ih, hsame]

theorem foldl_revise_submit {c : Cookie} {rs : List ContainerRequest}
    (hrs : ∀ r ∈ rs, r.cookie = c) (asked : List ContainerRequest) :
    (rs.map fun r => Effect.call (.submit r)).foldl (Effect.revise c) (some asked) =
      some (asked ++ rs) := by
  induction rs generalizing asked with
  | nil => simp
  | cons r rs ih =>
      have hr : Effect.revise c (some asked) (.call (.submit r)) = some (asked ++ [r]) := by
        simp [Effect.revise, hrs r List.mem_cons_self]
      rw [List.map_cons, List.foldl_cons, hr,
        ih fun r' hr' => hrs r' (List.mem_cons_of_mem _ hr')]
      simp

/-- There is always some place at which a request may be served. -/
theorem TaskRequest.places_ne_nil (r : TaskRequest) : r.places ≠ [] := by
  unfold places
  simp only
  split
  · simp
  · next h =>
    intro hnil
    rw [hnil] at h
    simp at h

/-- The tiers of a request, submitted one after another, are all outstanding. -/
theorem foldl_revise_tiers (c : Cookie) (request : TaskRequest) :
    ((request.tiers c).map fun r => Effect.call (.submit r)).foldl (Effect.revise c) none =
      some (request.tiers c) := by
  have hcookie : ∀ r ∈ request.tiers c, r.cookie = c := by
    intro r hr
    obtain ⟨tier, -, rfl⟩ := List.mem_map.mp hr
    rfl
  cases htiers : request.tiers c with
  | nil => exact absurd (List.map_eq_nil_iff.mp htiers) request.places_ne_nil
  | cons r rs =>
      -- the first submission makes the entry at the client, the others join it
      rw [htiers] at hcookie
      have hr : Effect.revise c none (.call (.submit r)) = some [r] := by
        simp [Effect.revise, hcookie r List.mem_cons_self]
      rw [List.map_cons, List.foldl_cons, hr,
        foldl_revise_submit fun r' hr' => hcookie r' (List.mem_cons_of_mem _ hr')]
      rfl

/-! ## One cookie in the ledger -/

/-- What the cluster should be asked for on behalf of an entry. -/
def submitted? (c : Cookie) (entry : Option Entry) : Option (List ContainerRequest) :=
  entry.bind fun entry =>
    if entry.phase.state = .requested then some (entry.request.tiers c) else none

theorem submitted?_withdrawal (c : Cookie) (entry : Entry) :
    (withdrawal entry.phase.state c).foldl (Effect.revise c) (submitted? c (some entry)) =
      none := by
  unfold withdrawal submitted?
  by_cases h : entry.phase.state = .requested
  · simp [h, Effect.revise]
  · simp [h]

/-- The effects of a turn ask for just what the entry then stands for. -/
theorem Turns.submitted? {c : Cookie} {entry entry' : Option Entry} {es : List Effect}
    (h : Turns c entry es entry') :
    es.foldl (Effect.revise c) (submitted? c entry) = TaskFleet.submitted? c entry' := by
  cases h with
  | stay => rfl
  | ask request => exact foldl_revise_tiers c request
  | @allocate request phase container hwaiting =>
      rw [List.foldl_append]
      exact submitted?_withdrawal c ⟨request, phase⟩
  | @withdraw request phase hwaiting => exact submitted?_withdrawal c ⟨request, phase⟩
  | lose request id => rfl
  | @finish entry hserved =>
      obtain ⟨request, phase⟩ := entry
      cases phase <;> first | rfl | cases hserved

/-- No turn leads back to a request that was not submitted. -/
theorem Turns.settled {c : Cookie} {entry entry' : Option Entry} {es : List Effect}
    (h : Turns c entry es entry') (hentry : entry.map Entry.phase ≠ some .pending) :
    entry'.map Entry.phase ≠ some .pending := by
  cases h with
  | stay => exact hentry
  | _ => simp

/-! ## The journal asks for what the ledger has submitted -/

namespace Scheduler

variable {policy : Policy} {s t : Scheduler} {es : List Effect}

theorem Move.submitted? (h : Move policy s es t) (hs : s.ledger.Coherent) (c : Cookie) :
    es.foldl (Effect.revise c) (submitted? c (s.ledger.entries.get? c)) =
      TaskFleet.submitted? c (t.ledger.entries.get? c) := by
  rcases h.turns hs with ⟨request, -, rfl, rfl⟩ | ⟨-, hturns⟩
  · -- a new entry is not submitted, and there was none before
    by_cases hc : c = ⟨s.ledger.nextCookie⟩
    · have hfresh := Option.map_eq_none_iff.mp hs.phase?_nextCookie
      rw [hc, get?_enter, hfresh]
      rfl
    · rw [s.get?_enter_of_ne request hc]
      rfl
  · rw [← foldl_revise_about]
    exact (hturns c).submitted?

/-- The effects decided so far ask for what the ledger has submitted. -/
theorem Underway.submitted? (hs : Underway policy s) (c : Cookie) :
    s.journal.foldl (Effect.revise c) none =
      TaskFleet.submitted? c (s.ledger.entries.get? c) := by
  refine hs.induct (P := fun s => s.journal.foldl (Effect.revise c) none =
    TaskFleet.submitted? c (s.ledger.entries.get? c)) rfl ?_
  intro s es t hs h ih
  rw [h.journal, List.foldl_append, ih, h.submitted? hs.coherent c]

/-! ## Nothing stays pending -/

/-- Every live request was submitted or served. -/
def Settled (s : Scheduler) : Prop :=
  ∀ c, s.ledger.phase? c ≠ some .pending

theorem settled_adopt {o : Outcome} (h : Decision policy s o) (hs : s.ledger.Coherent)
    {c : Cookie} (hc : s.ledger.phase? c ≠ some .pending) :
    (s.adopt o).ledger.phase? c ≠ some .pending :=
  (h.turns hs c).settled hc

theorem Decisions.settled (h : Decisions policy s t) (hs : s.ledger.Coherent)
    (hsettled : s.Settled) : t.Settled := by
  have hboth := h.keeps (P := fun s => s.ledger.Coherent ∧ s.Settled)
    (fun s o ho ih => ⟨ho.coherent ih.1, fun c => settled_adopt ho ih.1 (ih.2 c)⟩)
    ⟨hs, hsettled⟩
  exact hboth.2

theorem settled_after (hs : s.ledger.Coherent) (hsettled : s.Settled) (cx : Context)
    (op : Operation) (hnext : op.isRequest = true → s.ledger.HasCookies) :
    (s.after cx op).Settled := by
  cases hop : op.isRequest with
  | false => exact (decisions_after s cx hop).decisions.settled hs hsettled
  | true =>
      obtain ⟨request, rfl⟩ := op.eq_request hop
      rcases request_spec cx hs request with ⟨cause, hrefused⟩ | htaken
      · rw [after, hrefused]
        exact hsettled
      · obtain ⟨o, ho, -, hfirst, hrest⟩ := htaken.settled
        have hentered : (s.enter request).ledger.Coherent := hs.add (hnext rfl) request
        -- the first decision settles the new request, and no other is unsettled by it
        refine hrest.decisions.settled (ho.coherent hentered) fun c => ?_
        by_cases hc : c = ⟨s.ledger.nextCookie⟩
        · rw [hc]
          exact hfirst
        · refine settled_adopt ho hentered ?_
          show (s.ledger.add request).2.phase? c ≠ some .pending
          rw [Ledger.phase?_add, if_neg hc]
          exact hsettled c

/-! ## Deciding carries nothing out -/

theorem Decisions.carriedOut (h : Decisions policy s t) : t.carriedOut = s.carriedOut :=
  h.keeps (P := fun t => t.carriedOut = s.carriedOut) (fun _ _ _ ih => ih) rfl

theorem carriedOut_after (hs : s.ledger.Coherent) (cx : Context) (op : Operation) :
    (s.after cx op).carriedOut = s.carriedOut :=
  keeps_after (P := fun t => t.carriedOut = s.carriedOut) hs cx op (fun _ h => h)
    (fun _ _ _ h => h) rfl

theorem carriedOut_takeUp? {e : Effect} (h : s.takeUp? = some (e, t)) :
    t.carriedOut = s.carriedOut ++ [e] := by
  unfold takeUp? at h
  split at h <;> cases h
  rfl

end Scheduler

/-! ## The client mirrors the ledger -/

namespace Fleet

variable {policy : Policy} {w : Fleet}

theorem Reachable.settled (hw : w.Reachable policy) : w.1.Settled := by
  have hstart : Scheduler.fresh.Settled := fun c => by
    simp [Scheduler.fresh, Ledger.phase?, Ledger.empty]
  refine hw.induct (P := fun w => w.1.Settled) (fun _ => hstart) ?_
  intro w w' hw h ih
  have hcoherent := hw.underway.coherent
  cases h with
  | operate op now headroom hnext =>
      exact Scheduler.settled_after hcoherent ih ⟨policy, now, headroom⟩ op hnext
  | call h => exact fun c => Scheduler.ledger_takeUp? h ▸ ih c
  | deliver h => exact fun c => Scheduler.ledger_takeUp? h ▸ ih c
  | refuse now notice cause =>
      obtain ⟨t, reports, ht, heq⟩ := Scheduler.refused_eq policy _ now notice cause
      rw [heq]
      exact ht.decisions.settled hcoherent ih
  | aside => exact ih
  | client => exact ih

/-- The client has done what was carried out. -/
theorem Reachable.carriedOut (hw : w.Reachable policy) (c : Cookie) :
    w.2.outstanding.get? c = w.1.carriedOut.foldl (Effect.revise c) none := by
  refine hw.induct (P := fun w => w.2.outstanding.get? c =
    w.1.carriedOut.foldl (Effect.revise c) none) (fun max => rfl) ?_
  intro w w' hw h ih
  cases h with
  | operate op now headroom hnext =>
      rw [Scheduler.carriedOut_after hw.underway.coherent]
      exact ih
  | call h =>
      rw [Scheduler.carriedOut_takeUp? h, List.foldl_append, ← ih]
      exact Client.get?_call _ _ c
  | deliver h =>
      rw [Scheduler.carriedOut_takeUp? h, List.foldl_append, ← ih]
      rfl
  | refuse now notice cause =>
      obtain ⟨t, reports, ht, heq⟩ := Scheduler.refused_eq policy _ now notice cause
      rw [heq, ht.decisions.carriedOut]
      exact ih
  | aside => exact ih
  | client h =>
      show SortedMap.get? _ c = _
      rw [h]
      exact ih

/-- Whenever nothing is left to carry out, the cluster is asked for exactly the tiers of
the requests that the ledger has submitted, and no request is left unsubmitted. -/
theorem client_mirrors (hw : w.Reachable policy) (hflushed : w.1.pending = []) (c : Cookie) :
    (∀ entry, w.1.ledger.entries.get? c = some entry → entry.phase.state = .requested →
      w.2.outstanding.get? c = some (entry.request.tiers c)) ∧
    (w.1.ledger.state? c ≠ some .requested → w.2.outstanding.get? c = none) ∧
    w.1.ledger.state? c ≠ some .pending := by
  have hclient : w.2.outstanding.get? c = submitted? c (w.1.ledger.entries.get? c) := by
    rw [hw.carriedOut, ← hw.underway.submitted?, Scheduler.journal, hflushed, List.append_nil]
  have hsettled := hw.settled c
  rw [hclient, Ledger.state?]
  rw [Ledger.phase?] at hsettled
  cases hentry : w.1.ledger.entries.get? c with
  | none => simp [submitted?]
  | some entry =>
      rw [hentry] at hsettled
      refine ⟨fun entry hentry hstate => ?_, fun hstate => ?_, ?_⟩
      · cases hentry
        rw [submitted?, Option.bind_some, if_pos hstate]
      · have hother : entry.phase.state ≠ .requested := fun h => hstate (congrArg some h)
        rw [submitted?, Option.bind_some, if_neg hother]
      · cases hphase : entry.phase <;> simp_all [Phase.state]

/-- One request was served by the container that another left, and a third still waits at a
host and elsewhere. -/
theorem client_mirrors_waiting :
    let cx : Context := ⟨⟨.standard, .alwaysMatch⟩, .epoch, none⟩
    let request (task : UInt64) (mb : UInt64) : TaskRequest :=
      ⟨⟨task⟩, ⟨mb, 1⟩, ⟨5⟩, ⟨["host1"], [], true⟩, ⟨0, ⟨⟨1024, 1⟩, .empty, .empty⟩⟩⟩
    let container : Container := ⟨⟨"c_1"⟩, ⟨"host1", 8041⟩, none, ⟨1024, 1⟩, ⟨5⟩, some ⟨1⟩, none⟩
    let ops : List Scheduler.Operation := [.request (request 7 1024), .request (request 8 1024),
      .hear (.allocated [container]), .deallocateTask ⟨1⟩ true, .request (request 9 2048)]
    let w : Fleet := Fleet.flushed (ops.foldl (fun s op => s.after cx op) .fresh, .connect .zero)
    w.2.outstanding.get? ⟨3⟩ = some ((request 9 2048).tiers ⟨3⟩) ∧
      w.2.outstanding.get? ⟨2⟩ = none ∧ w.1.ledger.containerOf? ⟨2⟩ = some ⟨"c_1"⟩ := by
  intro cx request container ops w
  have hw : w.Reachable cx.policy := by
    refine Reachable.run ?_ (.flushed _)
    apply (Reachable.start .zero).operations
    decide
  obtain ⟨hwaiting, -, -⟩ := client_mirrors hw rfl ⟨3⟩
  obtain ⟨-, hserved, -⟩ := client_mirrors hw rfl ⟨2⟩
  have hentry : w.1.ledger.entries.get? ⟨3⟩ =
      some ⟨request 9 2048, .requested ((request 9 2048).tiers ⟨3⟩)⟩ := by
    decide +kernel
  refine ⟨hwaiting _ hentry rfl, hserved ?_, ?_⟩
  · decide +kernel
  · decide +kernel

end Fleet

end TaskFleet
