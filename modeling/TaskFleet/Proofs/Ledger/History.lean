import TaskFleet.Proofs.Ledger.Ownership

/-!
# Cookies tell what was done

A ledger does not remember its past.  It has a counter of cookies and the requests on
record, and five of its operations write that record; `classify` reads the past back from
these two.

Here the past of a run is written down beside it, from the answers of the operations alone:
`issues` are the cookies that additions answered, each with its request, and `endings` those
whose requests were removed, or left with a container that was given back or completed.
`Chronicle` says what a ledger has to do with its past.  One operation keeps it
(`Chronicle.after`), so a run does (`Chronicle.run`), and everything that a cookie tells is
read off it.

That a cookie comes at most once, and ends at most once, is nowhere checked: an addition
writes over whatever has the next cookie, and a completion erases the request that the
container names.  Both are harmless because the two tables agree (`Coherent`).
-/

namespace TaskFleet.Ledger

variable {l l' : Ledger} {now : Instant} {cookie c : Cookie} {id : ContainerId}
  {request : TaskRequest} {ops : List Operation}

/-! ## The past of a run -/

/-- The cookie that an operation answers, with the request that it stands for. -/
def issued? (l : Ledger) : Operation → Option (Cookie × TaskRequest)
  | .add request => some ((l.add request).1, request)
  | _ => none

/-- The request that an operation ends. -/
def ended? (l : Ledger) : Operation → Option Cookie
  | .remove now cookie => (l.remove now cookie).1.toOption.map RemovedRequest.cookie
  | .release id => (l.release id).1.toOption.bind fun _ => l.ownerOf? id
  | .complete id => (l.complete id).1.toOption.bind CompletedContainer.cookie
  | _ => none

/-- The cookies that a run answers, first to last. -/
def issues (l : Ledger) : List Operation → List (Cookie × TaskRequest)
  | [] => []
  | op :: ops => (l.issued? op).toList ++ (l.after op).issues ops

/-- The requests that a run ends, first to last. -/
def endings (l : Ledger) : List Operation → List Cookie
  | [] => []
  | op :: ops => (l.ended? op).toList ++ (l.after op).endings ops

/-- At some time in the run the request was added and answered by the cookie; the addition
left the ledger `start`, and `since` is what was done after it. -/
def Added (l : Ledger) (ops : List Operation) (c : Cookie) (request : TaskRequest)
    (start : Ledger) (since : List Operation) : Prop :=
  ∃ earlier, ops = earlier ++ .add request :: since ∧
    (l.run earlier).add request = (c, start)

theorem issues_append (l : Ledger) (ops later : List Operation) :
    l.issues (ops ++ later) = l.issues ops ++ (l.run ops).issues later := by
  induction ops generalizing l with
  | nil => rfl
  | cons op ops ih =>
      simp only [List.cons_append, issues, ih, List.append_assoc]
      rfl

theorem endings_append (l : Ledger) (ops later : List Operation) :
    l.endings (ops ++ later) = l.endings ops ++ (l.run ops).endings later := by
  induction ops generalizing l with
  | nil => rfl
  | cons op ops ih =>
      simp only [List.cons_append, endings, ih, List.append_assoc]
      rfl

theorem mem_issues_iff :
    (c, request) ∈ l.issues ops ↔ ∃ start since, l.Added ops c request start since := by
  constructor
  · intro h
    induction ops generalizing l with
    | nil => cases h
    | cons op ops ih =>
        rcases List.mem_append.mp h with hnow | hlater
        · cases op with
          | add added =>
              obtain ⟨rfl, rfl⟩ : c = _ ∧ request = added := by
                simpa [issued?] using hnow
              exact ⟨_, ops, [], rfl, rfl⟩
          | _ => simp [issued?] at hnow
        · obtain ⟨start, since, earlier, hops, hadd⟩ := ih hlater
          exact ⟨start, since, op :: earlier, by rw [hops, List.cons_append], hadd⟩
  · rintro ⟨start, since, earlier, hops, hadd⟩
    have hc : ((l.run earlier).add request).1 = c := congrArg Prod.fst hadd
    rw [hops, issues_append]
    refine List.mem_append_right _ ?_
    simp [issues, issued?, hc]

/-! ## The record of requests -/

/-- The request on record under a cookie. -/
def request? (l : Ledger) (c : Cookie) : Option TaskRequest :=
  (l.entries.get? c).map Entry.request

theorem lookup_eq_ok_iff : l.lookup c = .ok request ↔ l.request? c = some request := by
  rw [lookup, request?]
  cases l.entries.get? c <;> simp

theorem request?_ne_none_iff : l.request? c ≠ none ↔ l.phase? c ≠ none := by
  simp [request?, phase?]

/-- What is known of a cookie, from the record and the counter. -/
theorem classify_cases (l : Ledger) (c : Cookie) :
    (∃ state, l.classify c = .live state ∧ l.state? c = some state ∧ l.request? c ≠ none) ∨
    (l.classify c = .retired ∧ l.state? c = none ∧ l.request? c = none ∧
      0 < c.val.toNat ∧ c.val.toNat < l.nextCookie.toNat) ∨
    (l.classify c = .unknown ∧ l.state? c = none ∧ l.request? c = none ∧
      ¬ (0 < c.val.toNat ∧ c.val.toNat < l.nextCookie.toNat)) := by
  have hissued : l.wasIssued c = true ↔
      0 < c.val.toNat ∧ c.val.toNat < l.nextCookie.toNat := by
    simp [wasIssued, UInt64.lt_iff_toNat_lt]
  rw [← hissued]
  cases hentry : l.entries.get? c with
  | some entry =>
      exact .inl ⟨entry.phase.state, by simp [classify, hentry], by simp [state?, hentry],
        by simp [request?, hentry]⟩
  | none =>
      right
      cases hwas : l.wasIssued c <;> simp [classify, state?, request?, hentry, hwas]

theorem request?_add (l : Ledger) (request : TaskRequest) (c : Cookie) :
    (l.add request).2.request? c =
      if c = ⟨l.nextCookie⟩ then some request else l.request? c := by
  simp only [add, request?, SortedMap.get?_insert]
  split <;> rfl

/-- An entry that is written anew keeps its request. -/
private theorem request?_insert {entry : Entry} (hentry : l.entries.get? cookie = some entry)
    (phase : Phase) (hentries : l'.entries = l.entries.insert cookie { entry with phase })
    (c : Cookie) : l'.request? c = l.request? c := by
  rw [request?, hentries, SortedMap.get?_insert]
  split
  · next hc => simp [request?, hc, hentry]
  · rfl

theorem request?_markRequested {asked : List ContainerRequest}
    (h : l.markRequested cookie asked = (.ok (), l')) (c : Cookie) :
    l'.request? c = l.request? c := by
  obtain ⟨request, hentry, rfl⟩ := markRequested_ok h
  exact request?_insert hentry _ rfl c

theorem request?_allocate {container : Container} {previous : RequestState}
    (h : l.allocate now cookie container = (.ok previous, l')) (c : Cookie) :
    l'.request? c = l.request? c := by
  obtain ⟨entry, -, hentry, -, -, rfl⟩ := allocate_ok h
  exact request?_insert hentry _ rfl c

theorem request?_assignIdle {container : Container} {previous : RequestState}
    (h : l.assignIdle now cookie id = (.ok (container, previous), l')) (c : Cookie) :
    l'.request? c = l.request? c := by
  obtain ⟨entry, held, hentry, -, -, -, -, -, rfl⟩ := assignIdle_ok h
  exact request?_insert hentry _ rfl c

theorem request?_beginRelease {victim : Cookie} (h : l.beginRelease id = (.ok victim, l'))
    (c : Cookie) : l'.request? c = l.request? c := by
  obtain ⟨held, -, -, rfl⟩ := beginRelease_ok h
  simp only [request?, SortedMap.get?_modify]
  split
  · cases l.entries.get? c <;> rfl
  · rfl

theorem request?_remove {removed : RemovedRequest}
    (h : l.remove now cookie = (.ok removed, l')) (c : Cookie) :
    l'.request? c = if c = cookie then none else l.request? c := by
  obtain ⟨entry, -, -, -, -, hentries, -⟩ := remove_ok h
  simp only [request?, hentries, SortedMap.get?_erase]
  split <;> rfl

theorem request?_release {task : Option TaskId} (h : l.release id = (.ok task, l'))
    (c : Cookie) :
    l'.request? c = if l.ownerOf? id = some c then none else l.request? c := by
  obtain ⟨held, hheld, -, -, -, -, hentries⟩ := release_ok h
  simp only [request?, hentries, ownerOf?_of_get? hheld]
  split <;> rfl

theorem request?_complete {done : CompletedContainer} (h : l.complete id = (.ok done, l'))
    (c : Cookie) :
    l'.request? c = if l.ownerOf? id = some c then none else l.request? c := by
  obtain ⟨held, hheld, -, -, -, -, hentries⟩ := complete_ok h
  simp only [request?, hentries, ownerOf?_of_get? hheld]
  split <;> rfl

/-! ## What an operation does to the record -/

theorem ended?_remove {removed : RemovedRequest} (h : l.remove now cookie = (.ok removed, l')) :
    l.ended? (.remove now cookie) = some cookie := by
  have hcookie : removed.cookie = cookie := by
    unfold remove at h
    split at h
    · cases h
    · cases h
      rfl
  simp [ended?, h, Except.toOption, hcookie]

theorem ended?_release {task : Option TaskId} (h : l.release id = (.ok task, l')) :
    l.ended? (.release id) = l.ownerOf? id := by
  simp [ended?, h, Except.toOption]

theorem ended?_complete {done : CompletedContainer} (h : l.complete id = (.ok done, l')) :
    l.ended? (.complete id) = l.ownerOf? id := by
  obtain ⟨held, hheld, -, hcookie, -⟩ := complete_ok h
  simp [ended?, h, Except.toOption, hcookie, ownerOf?_of_get? hheld]

/-- What is refused ends nothing. -/
theorem ended?_of_refused {op : Operation} {cause : LedgerError}
    (h : l.answer op = .error cause) : l.ended? op = none := by
  cases op with
  | remove now cookie =>
      have hrefused : (l.remove now cookie).1 = .error cause := error_of_reply h
      simp [ended?, hrefused, Except.toOption]
  | release id =>
      have hrefused : (l.release id).1 = .error cause := error_of_reply h
      simp [ended?, hrefused, Except.toOption]
  | complete id =>
      have hrefused : (l.complete id).1 = .error cause := error_of_reply h
      simp [ended?, hrefused, Except.toOption]
  | _ => rfl

/-- The record loses what an operation ends and, additions apart, is otherwise as it was. -/
theorem request?_after {op : Operation} (hop : op.isAdd = false) (c : Cookie) :
    (l.after op).request? c = if l.ended? op = some c then none else l.request? c := by
  rcases l.refused_or_goes op with ⟨cause, hrefused, hsame⟩ | h
  · rw [hsame, ended?_of_refused hrefused, if_neg nofun]
  · cases h with
    | add request => cases hop
    | markRequested h => exact request?_markRequested h c
    | allocate h => exact request?_allocate h c
    | assignIdle h => exact request?_assignIdle h c
    | beginRelease h => exact request?_beginRelease h c
    | remove h =>
        rw [ended?_remove h, request?_remove h]
        simp [eq_comm]
    | release h => rw [ended?_release h, request?_release h]
    | complete h => rw [ended?_complete h, request?_complete h]

/-- A request that a container names is live. -/
theorem Coherent.phase?_of_ownerOf? (hl : l.Coherent) (h : l.ownerOf? id = some c) :
    l.phase? c ≠ none := by
  have hnamed := (hl.containerOf?_eq_iff c id).mpr h
  intro hgone
  rw [containerOf?_eq, hgone] at hnamed
  cases hnamed

/-- What an operation ends was on record. -/
theorem Coherent.request?_of_ended (hl : l.Coherent) {op : Operation}
    (h : l.ended? op = some c) : l.request? c ≠ none := by
  rcases l.refused_or_goes op with ⟨cause, hrefused, -⟩ | hgoes
  · rw [ended?_of_refused hrefused] at h
    cases h
  · cases hgoes with
    | remove hremove =>
        obtain ⟨entry, hentry, -⟩ := remove_ok hremove
        obtain rfl := Option.some.inj ((ended?_remove hremove).symm.trans h)
        simp [request?, hentry]
    | release hrelease =>
        rw [ended?_release hrelease] at h
        exact request?_ne_none_iff.mpr (hl.phase?_of_ownerOf? h)
    | complete hcomplete =>
        rw [ended?_complete hcomplete] at h
        exact request?_ne_none_iff.mpr (hl.phase?_of_ownerOf? h)
    | _ => cases h

/-! ## A ledger and its past -/

/-- The ledger is what is left of the cookies that were issued and of those that ended. -/
structure Chronicle (l : Ledger) (issues : List (Cookie × TaskRequest))
    (endings : List Cookie) : Prop where
  coherent : l.Coherent
  increasing : issues.Pairwise fun a b => a.1 < b.1
  /-- The counter stands behind the cookies that were issued. -/
  counted : ∀ c, (∃ request, (c, request) ∈ issues) ↔
    0 < c.val.toNat ∧ c.val.toNat < l.nextCookie.toNat
  /-- On record is what was issued and has not ended. -/
  recorded : ∀ c request, l.request? c = some request ↔ (c, request) ∈ issues ∧ c ∉ endings
  /-- What ended had been issued. -/
  ended : ∀ c ∈ endings, ∃ request, (c, request) ∈ issues

theorem chronicle_empty : empty.Chronicle [] [] where
  coherent := coherent_empty
  increasing := .nil
  counted c := by
    have hstart : empty.nextCookie.toNat = 1 := rfl
    simp only [List.not_mem_nil, exists_false, false_iff]
    omega
  recorded c request := by simp [request?, empty]
  ended c h := by cases h

variable {issues : List (Cookie × TaskRequest)} {endings : List Cookie}

/-- The next cookie is none of those that were issued. -/
theorem Chronicle.nextCookie_notMem (h : l.Chronicle issues endings) :
    (∀ request, (⟨l.nextCookie⟩, request) ∉ issues) ∧ ⟨l.nextCookie⟩ ∉ endings := by
  have hnone : ∀ request, (⟨l.nextCookie⟩, request) ∉ issues := fun request hmem =>
    Nat.lt_irrefl _ ((h.counted ⟨l.nextCookie⟩).mp ⟨request, hmem⟩).2
  refine ⟨hnone, fun hmem => ?_⟩
  obtain ⟨request', hissued⟩ := h.ended _ hmem
  exact hnone request' hissued

theorem Chronicle.add (h : l.Chronicle issues endings) (hnext : l.HasCookies)
    (request : TaskRequest) :
    (l.add request).2.Chronicle (issues ++ [(⟨l.nextCookie⟩, request)]) endings := by
  have hsucc := toNat_nextCookie_add hnext request
  have hmem : ∀ c request', (c, request') ∈ issues ++ [(⟨l.nextCookie⟩, request)] ↔
      (c, request') ∈ issues ∨ c = ⟨l.nextCookie⟩ ∧ request' = request := by simp
  refine ⟨h.coherent.add hnext request, ?_, fun c => ?_, fun c request' => ?_, fun c hc => ?_⟩
  · refine List.pairwise_append.mpr ⟨h.increasing, List.pairwise_singleton _ _, ?_⟩
    intro a ha b hb
    obtain rfl := List.mem_singleton.mp hb
    exact UInt64.lt_iff_toNat_lt.mpr ((h.counted a.1).mp ⟨a.2, ha⟩).2
  · have hval : c = ⟨l.nextCookie⟩ ↔ c.val.toNat = l.nextCookie.toNat := by
      rw [UInt64.toNat_inj]
      exact ⟨congrArg Cookie.val, fun heq => Cookie.eq_of_val heq⟩
    have hstarted := h.coherent.started
    simp only [hmem, exists_or, h.counted, exists_and_left, exists_eq, and_true, hval]
    omega
  · rw [request?_add, hmem]
    split
    · next hc =>
      obtain ⟨hfresh, hunended⟩ := h.nextCookie_notMem
      simp [hc, hfresh, hunended, eq_comm]
    · next hc => simp [hc, h.recorded]
  · obtain ⟨request', hissued⟩ := h.ended c hc
    exact ⟨request', List.mem_append_left _ hissued⟩

theorem Chronicle.after_of_not_add (h : l.Chronicle issues endings) {op : Operation}
    (hop : op.isAdd = false) :
    (l.after op).Chronicle issues (endings ++ (l.ended? op).toList) where
  coherent := h.coherent.after op (by simp [hop])
  increasing := h.increasing
  counted c := by rw [nextCookie_after hop, h.counted]
  recorded c request := by
    rw [request?_after hop, List.mem_append, Option.mem_toList]
    split
    · next hends => simp [hends]
    · next hends => simp [hends, h.recorded]
  ended c hc := by
    rcases List.mem_append.mp hc with hbefore | hnow
    · exact h.ended c hbefore
    · have hlive := h.coherent.request?_of_ended (Option.mem_toList.mp hnow)
      obtain ⟨request, hrequest⟩ := Option.ne_none_iff_exists'.mp hlive
      exact ⟨request, ((h.recorded c request).mp hrequest).1⟩

theorem Chronicle.after (h : l.Chronicle issues endings) (op : Operation)
    (hnext : op.isAdd = true → l.HasCookies) :
    (l.after op).Chronicle (issues ++ (l.issued? op).toList)
      (endings ++ (l.ended? op).toList) := by
  cases hop : op.isAdd with
  | false =>
      have hnone : l.issued? op = none := by
        cases op <;> first | rfl | cases hop
      rw [hnone, Option.toList_none, List.append_nil]
      exact h.after_of_not_add hop
  | true =>
      obtain ⟨request, rfl⟩ : ∃ request, op = .add request := by
        cases op <;> first | exact ⟨_, rfl⟩ | cases hop
      have hadd := h.add (hnext rfl) request
      rw [← List.append_nil endings] at hadd
      exact hadd

/-- A run writes its past on. -/
theorem Chronicle.run (h : l.Chronicle issues endings) (ops : List Operation)
    (hadds : l.nextCookie.toNat + ops.countP Operation.isAdd < 2 ^ 64) :
    (l.run ops).Chronicle (issues ++ l.issues ops) (endings ++ l.endings ops) := by
  induction ops generalizing l issues endings with
  | nil =>
      rw [Ledger.issues, Ledger.endings, List.append_nil, List.append_nil]
      exact h
  | cons op ops ih =>
      obtain ⟨hnext, hrest⟩ := hasCookies_of_countP hadds
      have hlater := ih (h.after op hnext) hrest
      rw [List.append_assoc, List.append_assoc] at hlater
      exact hlater

theorem chronicle_run (ops : List Operation)
    (hadds : ops.countP Operation.isAdd < 2 ^ 64 - 1) :
    (empty.run ops).Chronicle (empty.issues ops) (empty.endings ops) :=
  chronicle_empty.run ops (cookies_of_empty hadds)

/-! ## What a cookie tells -/

/-- A cookie that was issued ended if it ended since, for it was fresh then. -/
theorem Added.mem_endings_iff {start : Ledger} {since : List Operation}
    (h : empty.Added ops c request start since)
    (hadds : ops.countP Operation.isAdd < 2 ^ 64 - 1) :
    c ∈ empty.endings ops ↔ c ∈ start.endings since := by
  obtain ⟨earlier, hops, hadd⟩ := h
  have hpast : (empty.run earlier).Chronicle (empty.issues earlier) (empty.endings earlier) := by
    refine chronicle_run earlier ?_
    rw [hops, List.countP_append] at hadds
    omega
  have hstart : (empty.run earlier).after (.add request) = start := congrArg Prod.snd hadd
  have hfresh : c ∉ empty.endings earlier := by
    have hc : ⟨(empty.run earlier).nextCookie⟩ = c := congrArg Prod.fst hadd
    exact hc ▸ hpast.nextCookie_notMem.2
  rw [hops, endings_append, Ledger.endings, hstart]
  simp [hfresh, ended?]

theorem Chronicle.classify_eq_live_iff (h : l.Chronicle issues endings) {s : RequestState} :
    l.classify c = .live s ↔ ∃ request, (c, request) ∈ issues ∧ c ∉ endings ∧
      l.lookup c = .ok request ∧ l.state? c = some s := by
  simp only [lookup_eq_ok_iff, h.recorded]
  rcases l.classify_cases c with ⟨s', hc, hstate, hlive⟩ | ⟨hc, hstate, -⟩ | ⟨hc, hstate, -⟩
  · obtain ⟨request, hrequest⟩ := Option.ne_none_iff_exists'.mp hlive
    obtain ⟨hissued, hunended⟩ := (h.recorded c request).mp hrequest
    rw [hc, hstate]
    grind
  · simp [hc, hstate]
  · simp [hc, hstate]

theorem Chronicle.classify_eq_retired_iff (h : l.Chronicle issues endings) :
    l.classify c = .retired ↔ ∃ request, (c, request) ∈ issues ∧ c ∈ endings := by
  have hrecorded := h.recorded c
  have hcounted := h.counted c
  rcases l.classify_cases c with ⟨s, hc, -, hlive⟩ | ⟨hc, -, hgone, hissued⟩ | ⟨hc, -, -, hnever⟩
  · obtain ⟨request, hrequest⟩ := Option.ne_none_iff_exists'.mp hlive
    obtain ⟨-, hunended⟩ := (hrecorded request).mp hrequest
    simp [hc, hunended]
  · obtain ⟨request, hmem⟩ := hcounted.mpr hissued
    have hended : c ∈ endings := by
      refine Classical.byContradiction fun hunended => ?_
      rw [(hrecorded request).mpr ⟨hmem, hunended⟩] at hgone
      cases hgone
    exact iff_of_true hc ⟨request, hmem, hended⟩
  · rw [← hcounted] at hnever
    refine iff_of_false (by simp [hc]) ?_
    rintro ⟨request, hmem, -⟩
    exact hnever ⟨request, hmem⟩

theorem Chronicle.classify_eq_unknown_iff (h : l.Chronicle issues endings) :
    l.classify c = .unknown ↔ ∀ request, (c, request) ∉ issues := by
  rw [← not_exists, h.counted]
  rcases l.classify_cases c with ⟨s, hc, -, hlive⟩ | ⟨hc, -, -, hissued⟩ | ⟨hc, -, -, hnever⟩
  · have hissued := h.coherent.issued c (request?_ne_none_iff.mp hlive)
    simp [hc, hissued]
  · simp [hc, hissued]
  · simp only [hc, hnever, not_false_eq_true]

/-- Whatever is asked of a ledger, cookies come in increasing order, so none comes twice.
From the addition that answers a cookie until an operation ends its request, the cookie
stands for that very request.  In every state a cookie tells what was done: that its request
is on record still and where it stands, that it was issued and ended since, and then it will
say so forever, or that it was never issued. -/
theorem cookies_tell_history (ops later : List Operation)
    (hadds : (ops ++ later).countP Operation.isAdd < 2 ^ 64 - 1) :
    ((empty.issues (ops ++ later)).Pairwise fun a b => a.1 < b.1) ∧
    (∀ c request start since, empty.Added ops c request start since →
      c ∉ start.endings since → (empty.run ops).lookup c = .ok request) ∧
    (∀ c s, (empty.run ops).classify c = .live s ↔
      ∃ request start since, empty.Added ops c request start since ∧
        c ∉ start.endings since ∧ (empty.run ops).lookup c = .ok request ∧
        (empty.run ops).state? c = some s) ∧
    (∀ c, (empty.run ops).classify c = .retired ↔
      ∃ request start since, empty.Added ops c request start since ∧
        c ∈ start.endings since) ∧
    (∀ c, (empty.run ops).classify c = .unknown ↔
      ∀ request start since, ¬ empty.Added ops c request start since) ∧
    ∀ c, (empty.run ops).classify c = .retired →
      (empty.run (ops ++ later)).classify c = .retired := by
  have hsoFar : ops.countP Operation.isAdd < 2 ^ 64 - 1 := by
    rw [List.countP_append] at hadds
    omega
  have hpast := chronicle_run ops hsoFar
  have hfinally := chronicle_run (ops ++ later) hadds
  refine ⟨hfinally.increasing, ?_, fun c s => ?_, fun c => ?_, fun c => ?_, fun c hretired => ?_⟩
  · intro c request start since hadded hunended
    rw [lookup_eq_ok_iff, hpast.recorded, mem_issues_iff, hadded.mem_endings_iff hsoFar]
    exact ⟨⟨start, since, hadded⟩, hunended⟩
  · rw [hpast.classify_eq_live_iff]
    simp only [mem_issues_iff, ← exists_and_right]
    exact exists₃_congr fun request start since => and_congr_right fun hadded =>
      and_congr_left' (not_congr (hadded.mem_endings_iff hsoFar))
  · rw [hpast.classify_eq_retired_iff]
    simp only [mem_issues_iff, ← exists_and_right]
    exact exists₃_congr fun request start since => and_congr_right fun hadded =>
      hadded.mem_endings_iff hsoFar
  · rw [hpast.classify_eq_unknown_iff]
    simp only [mem_issues_iff, not_exists]
  · -- what a run adds to the past takes nothing back
    obtain ⟨request, hissued, hended⟩ := hpast.classify_eq_retired_iff.mp hretired
    rw [hfinally.classify_eq_retired_iff, issues_append, endings_append]
    exact ⟨request, List.mem_append_left _ hissued, List.mem_append_left _ hended⟩

/-- Three requests: the first is removed while it waits and cannot be removed again, the
second is made to leave its container and ends with it, and the third gets a container of
the same name. -/
theorem cookies_tell_history_three :
    let request (n : UInt64) : TaskRequest :=
      ⟨⟨n⟩, ⟨1024, 1⟩, ⟨5⟩, ⟨[], [], true⟩, ⟨0, ⟨⟨1024, 1⟩, .empty, .empty⟩⟩⟩
    let container : Container := ⟨⟨"c_1"⟩, ⟨"host1", 8041⟩, none, ⟨1024, 1⟩, ⟨5⟩, none, none⟩
    let ops : List Operation := [.add (request 7), .add (request 8), .remove .epoch ⟨1⟩,
      .remove .epoch ⟨1⟩, .allocate .epoch ⟨2⟩ container, .beginRelease ⟨"c_1"⟩,
      .add (request 9)]
    let later : List Operation := [.complete ⟨"c_1"⟩, .allocate .epoch ⟨3⟩ container]
    ((empty.issues (ops ++ later)).Pairwise fun a b => a.1 < b.1) ∧
      (empty.issues (ops ++ later)).map (·.1) = [⟨1⟩, ⟨2⟩, ⟨3⟩] ∧
      ((empty.run ops).lookup ⟨2⟩).toOption = some (request 8) ∧
      (empty.run ops).classify ⟨1⟩ = .retired ∧ (empty.run ops).classify ⟨2⟩ = .live .releasing ∧
      (empty.run ops).classify ⟨4⟩ = .unknown ∧
      (empty.run (ops ++ later)).classify ⟨1⟩ = .retired ∧
      (empty.run (ops ++ later)).classify ⟨2⟩ = .retired ∧
      (empty.run (ops ++ later)).classify ⟨3⟩ = .live .allocated := by
  intro request container ops later
  obtain ⟨hincreasing, -, -, -, -, hforever⟩ := cookies_tell_history ops later (by decide)
  exact ⟨hincreasing, by decide, by decide, by decide, by decide, by decide,
    hforever ⟨1⟩ (by decide), by decide, by decide⟩

end TaskFleet.Ledger
