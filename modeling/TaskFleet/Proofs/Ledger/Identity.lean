import TaskFleet.Proofs.Ledger.Refusals
import TaskFleet.Proofs.Ledger.Tenancy

/-!
# A held container stays the one that was granted

Who uses a container changes, and with it several fields of what is held.  What the container
is does not: its name, its place, its allotment, its priority, and the signature that it was
launched with (`Holding.identity`).  The signature matters most, since two of them may be
equal in content and still be different instances, and it is kept twice.

An operation that hands a held container to nobody changes its use only (`Change`), and one
that hands it to a request writes the fields that say so.  Neither touches the identity, so one
operation keeps it (`identity_after`), and so does all that is done until the completion
(`identity_run`).  The cookie on the container is written by a handing and by nothing else, so
it names the request to which the container was handed last (`LastHanded.cookie`).

None of this needs the two tables to agree, nor cookies to be left.
-/

namespace TaskFleet

/-- What a container is, whoever uses it. -/
structure Identity where
  id : ContainerId
  node : NodeId
  rack : Option String
  resource : Resource
  priority : Priority
  signature : Signature
  /-- The signature on the container itself. -/
  carried : Option Signature
deriving DecidableEq

/-- What a held container is. -/
def Holding.identity (h : Holding) : Identity where
  id := h.container.id
  node := h.container.node
  rack := h.container.rack
  resource := h.container.resource
  priority := h.container.priority
  signature := h.signature
  carried := h.container.signature

/-- What a container is that is granted for a request.  If the cluster reports no signature it
has the one of the request, and either way it carries it. -/
def Container.identityFor (container : Container) (request : TaskRequest) : Identity where
  id := container.id
  node := container.node
  rack := container.rack
  resource := container.resource
  priority := container.priority
  signature := container.signature.getD request.signature
  carried := some (container.signature.getD request.signature)

namespace Ledger

variable {l l' start : Ledger} {now : Instant} {c : Cookie} {k : ContainerId}
  {container : Container} {request : TaskRequest} {op : Operation}
  {ops since : List Operation} {old new : Holding}

/-- At some time in the run the container was granted for the request, and it did not complete
in what was done after it. -/
def Granted (l : Ledger) (ops : List Operation) (k : ContainerId) (container : Container)
    (request : TaskRequest) (since : List Operation) : Prop :=
  ∃ earlier now c l' previous, ops = earlier ++ .allocate now c container :: since ∧
    container.id = k ∧ (l.run earlier).lookup c = .ok request ∧
    (l.run earlier).allocate now c container = (.ok previous, l') ∧
    ∀ op ∈ since, op ≠ .complete k

/-! ## What a container is -/

theorem identity_allocate {previous : RequestState} (hrequest : l.lookup c = .ok request)
    (h : l.allocate now c container = (.ok previous, l')) :
    ∃ held, l'.held.get? container.id = some held ∧
      held.identity = container.identityFor request := by
  obtain ⟨entry, -, hentry, -, -, rfl⟩ := allocate_ok h
  have hsame : entry.request = request := by
    rw [lookup, hentry] at hrequest
    exact Except.ok.inj hrequest
  refine ⟨_, SortedMap.get?_insert_self .., ?_⟩
  rw [← hsame]
  rfl

/-- A container that is handed over while it is held stays what it is. -/
theorem identity_handed (hold : l.held.get? k = some old) (h : l.handed? op = some (k, c)) :
    ∃ new, (l.after op).held.get? k = some new ∧ new.identity = old.identity := by
  rcases handed_cases h with ⟨now, container, l', previous, rfl, rfl, hanswer⟩ |
    ⟨now, l', container, previous, rfl, hanswer⟩
  · -- what is granted was not held
    obtain ⟨entry, hnew, -⟩ := allocate_ok hanswer
    rw [hold] at hnew
    cases hnew
  · rw [after_assignIdle hanswer]
    obtain ⟨entry, held, -, -, hheld, -, -, -, rfl⟩ := assignIdle_ok hanswer
    rw [hold] at hheld
    cases hheld
    exact ⟨_, SortedMap.get?_insert_self .., rfl⟩

theorem Change.identity (h : l.Change k old new) : new.identity = old.identity := by
  rw [h.eq_of_assignment]
  rfl

/-- An operation leaves a container what it is, unless it completes it. -/
theorem identity_after (hold : l.held.get? k = some old) (hop : op ≠ .complete k) :
    ∃ new, (l.after op).held.get? k = some new ∧ new.identity = old.identity := by
  by_cases hhanded : ∃ c, l.handed? op = some (k, c)
  · obtain ⟨c, hhanded⟩ := hhanded
    exact identity_handed hold hhanded
  · obtain ⟨new, hnew, -⟩ := keeps_after hop old hold
    obtain ⟨old', hold', hchange⟩ := change_after (not_exists.mp hhanded) hnew
    rw [hold] at hold'
    cases hold'
    exact ⟨new, hnew, hchange.identity⟩

/-- Until its completion a held container stays what it is. -/
theorem identity_run (hold : l.held.get? k = some old) (hops : ∀ op ∈ ops, op ≠ .complete k) :
    ∃ new, (l.run ops).held.get? k = some new ∧ new.identity = old.identity := by
  induction ops generalizing l old with
  | nil => exact ⟨old, hold, rfl⟩
  | cons op ops ih =>
      obtain ⟨mid, hmid, hsame⟩ := identity_after hold (hops op List.mem_cons_self)
      obtain ⟨new, hnew, hsame'⟩ := ih hmid fun o ho => hops o (List.mem_cons_of_mem _ ho)
      exact ⟨new, hnew, hsame'.trans hsame⟩

theorem Granted.identity (h : l.Granted ops k container request since) :
    ∃ held, (l.run ops).held.get? k = some held ∧
      held.identity = container.identityFor request := by
  obtain ⟨earlier, now, c, l', previous, rfl, rfl, hrequest, hanswer, hsince⟩ := h
  obtain ⟨first, hfirst, hidentity⟩ := identity_allocate hrequest hanswer
  obtain ⟨held, hheld, hsame⟩ := identity_run hfirst hsince
  rw [run_append]
  refine ⟨held, ?_, hsame.trans hidentity⟩
  show (((l.run earlier).after (.allocate now c container)).run since).held.get? container.id = _
  rw [after_allocate hanswer, hheld]

/-- A container that is held now, and was not at first, was granted since. -/
theorem granted_or_held (hnew : (l.run ops).held.get? k = some new) :
    (∃ container request since, l.Granted ops k container request since) ∨
      (∃ old, l.held.get? k = some old) ∧ ∀ op ∈ ops, op ≠ .complete k := by
  induction ops generalizing l with
  | nil => exact .inr ⟨⟨new, hnew⟩, nofun⟩
  | cons op ops ih =>
      rcases ih hnew with
        ⟨container, request, since, earlier, now, c, l', previous, hops, hgrant⟩ |
        ⟨⟨mid, hmid⟩, hrest⟩
      · left
        exact ⟨container, request, since, op :: earlier, now, c, l', previous,
          by rw [hops, List.cons_append], hgrant⟩
      · cases hold : l.held.get? k with
        | some old =>
            right
            refine ⟨⟨old, rfl⟩, List.forall_mem_cons.mpr ⟨?_, hrest⟩⟩
            rintro rfl
            rw [get?_after_complete] at hmid
            cases hmid
        | none =>
            left
            -- only a grant brings in a container that was not held
            have hhanded : ∃ c, l.handed? op = some (k, c) := by
              refine Classical.byContradiction fun hnobody => ?_
              obtain ⟨old, hheld, -⟩ := change_after (not_exists.mp hnobody) hmid
              rw [hold] at hheld
              cases hheld
            obtain ⟨c, hhanded⟩ := hhanded
            rcases handed_cases hhanded with ⟨now, container, l', previous, rfl, hid, hanswer⟩ |
              ⟨now, l', container, previous, rfl, hanswer⟩
            · obtain ⟨entry, -, hentry, -⟩ := allocate_ok hanswer
              have hrequest : l.lookup c = .ok entry.request := by
                rw [lookup, hentry]
              exact ⟨container, entry.request, ops, [], now, c, l', previous, rfl, hid, hrequest,
                hanswer, hrest⟩
            · obtain ⟨entry, held, -, -, hheld, -⟩ := assignIdle_ok hanswer
              rw [hold] at hheld
              cases hheld

/-! ## Whose cookie it carries -/

/-- A container that is handed to a request carries its cookie. -/
theorem cookie_handed (h : l.handed? op = some (k, c)) :
    ∃ held, (l.after op).held.get? k = some held ∧ held.container.cookie = some c := by
  rcases handed_cases h with ⟨now, container, l', previous, rfl, rfl, hanswer⟩ |
    ⟨now, l', container, previous, rfl, hanswer⟩
  · rw [after_allocate hanswer]
    exact holding?_allocate hanswer
  · rw [after_assignIdle hanswer]
    obtain ⟨held, hheld, rfl, hcookie⟩ := holding?_assignIdle hanswer
    exact ⟨held, hheld, hcookie⟩

/-- As long as it is handed to nobody, a container carries the same cookie. -/
theorem Unhanded.cookie (h : l.Unhanded k ops) (hold : l.held.get? k = some old) :
    ∃ new, (l.run ops).held.get? k = some new ∧
      new.container.cookie = old.container.cookie := by
  induction ops generalizing l old with
  | nil => exact ⟨old, hold, rfl⟩
  | cons op ops ih =>
      obtain ⟨hop, hunhanded, hrest⟩ := h
      obtain ⟨mid, hmid, -⟩ := keeps_after hop old hold
      obtain ⟨old', hold', hchange⟩ := change_after hunhanded hmid
      rw [hold] at hold'
      cases hold'
      obtain ⟨new, hnew, hsame⟩ := ih hrest hmid
      refine ⟨new, hnew, ?_⟩
      rw [hsame, hchange.eq_of_assignment]

theorem LastHanded.cookie (h : l.LastHanded ops k c start since) :
    ∃ held, (l.run ops).held.get? k = some held ∧ held.container.cookie = some c := by
  obtain ⟨earlier, op, rfl, hhanded, rfl, hsince⟩ := h
  obtain ⟨first, hfirst, hcookie⟩ := cookie_handed hhanded
  obtain ⟨held, hheld, hsame⟩ := hsince.cookie hfirst
  rw [run_append]
  exact ⟨held, hheld, hsame.trans hcookie⟩

/-- A container in use carries the cookie of the request that owns it. -/
def Labelled (l : Ledger) : Prop :=
  ∀ k h c, l.held.get? k = some h → h.assignment.owner? = some c → h.container.cookie = some c

theorem labelled_empty : empty.Labelled := by
  intro k h c hk
  cases hk

theorem Labelled.after (hl : l.Labelled) (op : Operation) : (l.after op).Labelled := by
  intro k new c hnew howner
  by_cases hhanded : ∃ c', l.handed? op = some (k, c')
  · obtain ⟨c', hhanded⟩ := hhanded
    obtain ⟨held, request, hheld, hactive, -⟩ := handed_spec hhanded
    obtain ⟨held', hheld', hcookie⟩ := cookie_handed hhanded
    rw [hnew] at hheld hheld'
    cases hheld
    cases hheld'
    rw [hactive] at howner
    cases howner
    exact hcookie
  · obtain ⟨old, hold, hchange⟩ := change_after (not_exists.mp hhanded) hnew
    rcases hchange.owner with hsame | hnobody
    · rw [hchange.eq_of_assignment]
      exact hl k old c hold (hsame ▸ howner)
    · rw [hnobody] at howner
      cases howner

theorem Labelled.run (hl : l.Labelled) (ops : List Operation) : (l.run ops).Labelled := by
  induction ops generalizing l with
  | nil => exact hl
  | cons op ops ih => exact ih (hl.after op)

/-! ## Both together -/

/-- What a holding says about its container after a run: what it was when it was granted, and
who has it or had it last. -/
structure Identified (ops : List Operation) (k : ContainerId) (h : Holding) : Prop where
  granted : ∃ container request since, empty.Granted ops k container request since
  /-- The signature is the instance that the cluster reported or, if there was none, the
  instance of the request for which the container was granted. -/
  identity : ∀ container request since, empty.Granted ops k container request since →
    h.identity = container.identityFor request
  carried : h.container.signature = some h.signature
  cookie : ∃ c, h.container.cookie = some c
  lastHanded : ∀ c, h.container.cookie = some c ↔ ∃ start since, empty.LastHanded ops k c start since
  owner : ∀ c, h.assignment.owner? = some c → h.container.cookie = some c

theorem identified_run (hk : (empty.run ops).held.get? k = some new) : Identified ops k new := by
  have hgrants : ∃ container request since, empty.Granted ops k container request since := by
    rcases granted_or_held hk with hgranted | ⟨⟨old, hold⟩, -⟩
    · exact hgranted
    · cases hold
  have hlast : ∃ c start since, empty.LastHanded ops k c start since := by
    rcases lastHanded_or_unhanded hk with hlast | ⟨⟨old, hold⟩, -⟩
    · exact hlast
    · cases hold
  have hidentity : ∀ container request since, empty.Granted ops k container request since →
      new.identity = container.identityFor request := by
    intro container request since hgranted
    obtain ⟨held, hheld, hidentity⟩ := hgranted.identity
    rw [← hidentity, Option.some.inj (hheld.symm.trans hk)]
  have hcookie : ∀ c, (∃ start since, empty.LastHanded ops k c start since) →
      new.container.cookie = some c := by
    rintro c ⟨start, since, hlast⟩
    obtain ⟨held, hheld, hcookie⟩ := hlast.cookie
    rw [← hcookie, Option.some.inj (hheld.symm.trans hk)]
  refine ⟨hgrants, hidentity, ?_, ?_, fun c => ⟨fun hc => ?_, hcookie c⟩, fun c howner => ?_⟩
  · obtain ⟨container, request, since, hgranted⟩ := hgrants
    calc new.container.signature
        = new.identity.carried := rfl
      _ = some new.identity.signature := by rw [hidentity _ _ _ hgranted]; rfl
      _ = some new.signature := rfl
  · obtain ⟨c, hlast⟩ := hlast
    exact ⟨c, hcookie c hlast⟩
  · obtain ⟨c', hlast⟩ := hlast
    have hsame : c' = c := Option.some.inj ((hcookie c' hlast).symm.trans hc)
    exact hsame ▸ hlast
  · exact (labelled_empty.run ops) k new c hk howner

/-- Whatever is asked of a ledger, a container that is held was granted to a request and held
since, and it is what it was then; the cookie on it is the one of the request to which it was
handed last.  From any moment to any later one, a held container that does not complete in
between stays held and stays what it is. -/
theorem identity_kept (ops : List Operation) :
    (∀ k h, (empty.run ops).holding? k = some h → Identified ops k h) ∧
    ∀ earlier later k h, ops = earlier ++ later → (empty.run earlier).holding? k = some h →
      (∀ op ∈ later, op ≠ .complete k) →
      ∃ h', (empty.run ops).holding? k = some h' ∧ h'.identity = h.identity := by
  refine ⟨fun k h hk => identified_run hk, fun earlier later k h hops hk hlater => ?_⟩
  rw [hops, run_append]
  exact identity_run hk hlater

/-- Two requests use a container in turn, and then it is given back.  It was granted without a
signature and keeps the one of the first request, though the second has another instance of the
same content; the cookie that it carries is the second one. -/
theorem identity_kept_handover :
    let request (serial : Nat) : TaskRequest :=
      ⟨⟨7⟩, ⟨1024, 1⟩, ⟨5⟩, ⟨[], [], true⟩, ⟨serial, ⟨⟨1024, 1⟩, .empty, .empty⟩⟩⟩
    let container : Container := ⟨⟨"c_1"⟩, ⟨"host1", 8041⟩, none, ⟨1024, 1⟩, ⟨5⟩, none, none⟩
    let earlier : List Operation := [.add (request 0), .add (request 1),
      .allocate .epoch ⟨1⟩ container]
    let later : List Operation := [.remove .epoch ⟨1⟩, .assignIdle .epoch ⟨2⟩ ⟨"c_1"⟩,
      .beginRelease ⟨"c_1"⟩, .release ⟨"c_1"⟩]
    ∃ h h', (empty.run earlier).holding? ⟨"c_1"⟩ = some h ∧
      (empty.run (earlier ++ later)).holding? ⟨"c_1"⟩ = some h' ∧
      h.container.cookie = some ⟨1⟩ ∧ h'.container.cookie = some ⟨2⟩ ∧
      h'.identity = h.identity ∧ h'.signature = (request 0).signature ∧
      h'.container.signature = some h'.signature := by
  intro request container earlier later
  obtain ⟨h, hh⟩ : ∃ h, (empty.run earlier).holding? ⟨"c_1"⟩ = some h :=
    Option.isSome_iff_exists.mp (by decide)
  obtain ⟨hnow, hthroughout⟩ := identity_kept (earlier ++ later)
  obtain ⟨h', hh', hsame⟩ := hthroughout earlier later ⟨"c_1"⟩ h rfl hh (by simp [later])
  obtain ⟨-, hidentity, hcarried, -, hcookie, -⟩ := hnow ⟨"c_1"⟩ h' hh'
  have hgranted : empty.Granted (earlier ++ later) ⟨"c_1"⟩ container (request 0) later := by
    obtain ⟨previous, l', hanswer⟩ : ∃ previous l', (empty.run
        [.add (request 0), .add (request 1)]).allocate .epoch ⟨1⟩ container =
          (.ok previous, l') :=
      ok_of_causeOf (f := .allocated) (by decide)
    exact ⟨_, .epoch, ⟨1⟩, l', previous, rfl, rfl, rfl, hanswer, by simp [later]⟩
  have hlast : ∃ start since, empty.LastHanded (earlier ++ later) ⟨"c_1"⟩ ⟨2⟩ start since :=
    ⟨_, [.beginRelease ⟨"c_1"⟩, .release ⟨"c_1"⟩], earlier ++ [.remove .epoch ⟨1⟩],
      .assignIdle .epoch ⟨2⟩ ⟨"c_1"⟩, rfl, by decide, rfl, nofun, nofun, nofun, nofun, trivial⟩
  have hfirst : h.container.cookie = some ⟨1⟩ := by
    have hcookies : ((empty.run earlier).holding? ⟨"c_1"⟩).map (·.container.cookie) =
        some (some ⟨1⟩) := by decide
    rw [hh] at hcookies
    exact Option.some.inj hcookies
  have hsecond : h'.container.cookie = some ⟨2⟩ := (hcookie ⟨2⟩).mpr hlast
  have hsignature : h'.signature = (request 0).signature :=
    congrArg Identity.signature (hidentity container (request 0) later hgranted)
  exact ⟨h, h', hh, hh', hfirst, hsecond, hsame, hsignature, hcarried⟩

end Ledger

end TaskFleet
