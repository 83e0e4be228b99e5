import TaskFleet.Proofs.Ledger.Outstanding
import TaskFleet.Proofs.Preemption

/-!
# Containers taken back, one after another

A container that is taken back was idle and is then released, or it ran a less important
request and is then being released (`Ledger.Take`).  `Ledger.Takes` is any number of these,
one after another, each allowed by the ledger that the others before it left.

Such a chain turns containers round and nothing else: requests are found as before, the
same requests wait, what a container does not lose stays, and the allotments on their way
back grow by exactly what was taken.  A container that leaves does not yield, so none is
taken twice.
-/

namespace TaskFleet

/-- A container that is taken back, as it was held, and the waiting request that it is
taken for. -/
structure Taking where
  cookie : Cookie
  request : TaskRequest
  holding : Holding
deriving DecidableEq

namespace Taking

/-- The container. -/
def id (t : Taking) : ContainerId := t.holding.container.id

/-- What the container is in use for afterwards. -/
def turned (t : Taking) : Assignment :=
  match t.holding.assignment with
  | .active victim => .beingReleased victim
  | _ => .released none

/-- The holding afterwards. -/
def after (t : Taking) : Holding := { t.holding with assignment := t.turned }

theorem isLeaving_after (t : Taking) : t.after.isLeaving = true := by
  unfold after turned Holding.isLeaving
  cases t.holding.assignment <;> rfl

end Taking

namespace Ledger

variable {m : Matcher} {l l' l'' : Ledger} {t : Taking} {ts ts' : List Taking}

/-- A container that leaves does not yield. -/
theorem not_yields_of_isLeaving {request : TaskRequest} {h : Holding}
    (hleaving : h.isLeaving = true) : l.yields m request h = false := by
  unfold Holding.isLeaving at hleaving
  unfold yields runsLesser Holding.isIdle
  cases hassignment : h.assignment <;> simp_all [Assignment.isLeaving, Assignment.isIdle]

/-! ## One container -/

/-- One container is taken back. -/
inductive Take (m : Matcher) (l : Ledger) (t : Taking) : Ledger → Prop
  | idle {l' : Ledger} (hheld : l.held.get? t.id = some t.holding)
      (hidle : t.holding.isIdle = true) (hserves : m.serves t.holding t.request = true)
      (hledger : l.release t.id = (.ok none, l')) : Take m l t l'
  | running {l' : Ledger} {victim : Cookie} (hheld : l.held.get? t.id = some t.holding)
      (hactive : t.holding.assignment = .active victim)
      (hlesser : l.runsLesser t.request t.holding = true)
      (hserves : m.serves t.holding t.request = true)
      (hledger : l.beginRelease t.id = (.ok victim, l')) : Take m l t l'

namespace Take

theorem get?_before (h : Take m l t l') : l.held.get? t.id = some t.holding := by
  cases h <;> assumption

theorem yields (h : Take m l t l') : l.yields m t.request t.holding = true := by
  cases h with
  | idle hheld hidle hserves hledger => simp [Ledger.yields, hidle, hserves]
  | running hheld hactive hlesser hserves hledger => simp [Ledger.yields, hlesser, hserves]

theorem coherent (h : Take m l t l') (hl : l.Coherent) : l'.Coherent := by
  cases h with
  | idle hheld hidle hserves hledger => exact hl.release hledger
  | running hheld hactive hlesser hserves hledger => exact hl.beginRelease hledger

theorem held_eq (h : Take m l t l') : l'.held = l.held.insert t.id t.after := by
  cases h with
  | idle hheld hidle hserves hledger =>
      obtain ⟨held, hget, -, -, -, hafter, -⟩ := release_ok hledger
      rw [hheld] at hget
      cases hget
      have hturned : t.turned = .released none := by
        unfold Holding.isIdle at hidle
        unfold Taking.turned
        cases hassignment : t.holding.assignment <;> simp_all [Assignment.isIdle]
      rw [hafter, Taking.after, hturned]
  | running hheld hactive hlesser hserves hledger =>
      obtain ⟨held, hget, -, rfl⟩ := beginRelease_ok hledger
      rw [hheld] at hget
      cases hget
      simp [Taking.after, Taking.turned, hactive]

theorem get?_self (h : Take m l t l') : l'.held.get? t.id = some t.after := by
  rw [h.held_eq, SortedMap.get?_insert_self]

theorem get?_of_ne (h : Take m l t l') {k : ContainerId} (hk : k ≠ t.id) :
    l'.held.get? k = l.held.get? k := by
  rw [h.held_eq, SortedMap.get?_insert_ne _ _ hk]

/-- A request is found as before, and one that waits is left alone. -/
theorem entries (h : Take m l t l') (hl : l.Coherent) (c : Cookie) :
    l'.lookup c = l.lookup c ∧ ∀ entry, entry.phase.isOutstanding = true →
      (l'.entries.get? c = some entry ↔ l.entries.get? c = some entry) := by
  cases h with
  | idle hheld hidle hserves hledger =>
      obtain ⟨held, hget, -, htask, -, -, hentries⟩ := release_ok hledger
      have hfree : held.assignment.owner? = none := by
        cases howner : held.assignment.owner? with
        | none => rfl
        | some owner => simp [howner] at htask
      have hsame := hentries c
      rw [hfree, if_neg nofun] at hsame
      exact ⟨by rw [lookup, lookup, hsame], fun entry _ => by rw [hsame]⟩
  | @running victim hheld hactive hlesser hserves hledger =>
      obtain ⟨held, -, -, rfl⟩ := beginRelease_ok hledger
      by_cases hvictim : c = victim
      · subst hvictim
        -- the request that runs in the container is there, and it does not wait
        have hruns : l.phase? c = some (.allocated t.id) :=
          (hl.active c t.id).mpr (hactive ▸ assignment?_of_get? hheld)
        obtain ⟨entry, hentry, hphase⟩ := Option.map_eq_some_iff.mp hruns
        refine ⟨?_, fun waiting hwaiting => iff_of_false ?_ ?_⟩
        · simp [lookup, SortedMap.get?_modify, hentry]
        · simp only [SortedMap.get?_modify, hentry]
          rintro ⟨⟩
          cases hwaiting
        · rw [hentry]
          rintro ⟨⟩
          rw [hphase] at hwaiting
          cases hwaiting
      · have hsame : (l.entries.modify victim fun entry =>
            { entry with phase := .releasing t.id }).get? c = l.entries.get? c := by
          rw [SortedMap.get?_modify, if_neg hvictim]
        exact ⟨by simp only [lookup, hsame], fun entry _ => by simp only [hsame]⟩

theorem lookup (h : Take m l t l') (hl : l.Coherent) (c : Cookie) :
    l'.lookup c = l.lookup c :=
  (h.entries hl c).1

theorem outstanding (h : Take m l t l') (hl : l.Coherent) :
    l'.outstanding = l.outstanding := by
  refine outstanding_congr fun ⟨c, request⟩ => ?_
  rw [mem_outstanding_iff, mem_outstanding_iff]
  refine exists_congr fun phase => and_congr_left fun hwaiting => ?_
  exact (h.entries hl c).2 ⟨request, phase⟩ hwaiting

theorem yields_iff (h : Take m l t l') (hl : l.Coherent) (request : TaskRequest)
    (held : Holding) : l'.yields m request held = l.yields m request held := by
  simp only [Ledger.yields, runsLesser, h.lookup hl]

/-- The holdings are the same but for the one that turns round. -/
theorem holdings (h : Take m l t l') : ∃ before after,
    l.holdings = before ++ t.holding :: after ∧ l'.holdings = before ++ t.after :: after := by
  obtain ⟨before, after, hrows, hrows'⟩ := SortedMap.rows_insert_of_get? h.get?_before t.after
  refine ⟨before.map Prod.snd, after.map Prod.snd, ?_, ?_⟩
  · rw [Ledger.holdings, SortedMap.values, hrows, List.map_append, List.map_cons]
  · rw [Ledger.holdings, SortedMap.values, h.held_eq, hrows', List.map_append, List.map_cons]

theorem allotted (h : Take m l t l') (p : Resource.Part) :
    Resource.allotted p l'.holdings = Resource.allotted p l.holdings := by
  obtain ⟨before, after, hbefore, hafter⟩ := h.holdings
  simp [hbefore, hafter, Taking.after]

/-- What is taken joins what is on its way back. -/
theorem leaving (h : Take m l t l') (p : Resource.Part) :
    Resource.allotted p (l'.holdings.filter Holding.isLeaving) =
      Resource.allotted p (l.holdings.filter Holding.isLeaving) +
        t.holding.container.resource.amount p := by
  obtain ⟨before, after, hbefore, hafter⟩ := h.holdings
  have hstays : t.holding.isLeaving = false := by
    refine Bool.eq_false_iff.mpr fun hleaving => ?_
    have hyields := h.yields
    rw [not_yields_of_isLeaving hleaving] at hyields
    cases hyields
  have hsame : t.after.container = t.holding.container := rfl
  simp only [hbefore, hafter, List.filter_append, List.filter_cons, hstays, t.isLeaving_after,
    Resource.allotted_append, Resource.allotted_cons, hsame, if_true, Bool.false_eq_true,
    if_false]
  omega

end Take

/-! ## One after another -/

/-- Containers are taken back one after another. -/
inductive Takes (m : Matcher) : Ledger → List Taking → Ledger → Prop
  | nil (l : Ledger) : Takes m l [] l
  | cons {l l' l'' : Ledger} {t : Taking} {ts : List Taking} (first : Take m l t l')
      (rest : Takes m l' ts l'') : Takes m l (t :: ts) l''

namespace Takes

theorem append (h : Takes m l ts l') (h' : Takes m l' ts' l'') :
    Takes m l (ts ++ ts') l'' := by
  induction h with
  | nil => exact h'
  | cons first rest ih => exact .cons first (ih h')

theorem coherent (h : Takes m l ts l') (hl : l.Coherent) : l'.Coherent := by
  induction h with
  | nil => exact hl
  | cons first rest ih => exact ih (first.coherent hl)

theorem lookup (h : Takes m l ts l') (hl : l.Coherent) (c : Cookie) :
    l'.lookup c = l.lookup c := by
  induction h with
  | nil => rfl
  | cons first rest ih => rw [ih (first.coherent hl), first.lookup hl]

theorem waiting (h : Takes m l ts l') (hl : l.Coherent) (c : Cookie) {entry : Entry}
    (hwaiting : entry.phase.isOutstanding = true) :
    l'.entries.get? c = some entry ↔ l.entries.get? c = some entry := by
  induction h with
  | nil => rfl
  | cons first rest ih =>
      rw [ih (first.coherent hl), (first.entries hl c).2 entry hwaiting]

theorem outstanding (h : Takes m l ts l') (hl : l.Coherent) :
    l'.outstanding = l.outstanding := by
  induction h with
  | nil => rfl
  | cons first rest ih => rw [ih (first.coherent hl), first.outstanding hl]

theorem yields_iff (h : Takes m l ts l') (hl : l.Coherent) (request : TaskRequest)
    (held : Holding) : l'.yields m request held = l.yields m request held := by
  simp only [Ledger.yields, runsLesser, h.lookup hl]

theorem allotted (h : Takes m l ts l') (p : Resource.Part) :
    Resource.allotted p l'.holdings = Resource.allotted p l.holdings := by
  induction h with
  | nil => rfl
  | cons first rest ih => rw [ih, first.allotted]

theorem leaving (h : Takes m l ts l') (p : Resource.Part) :
    Resource.allotted p (l'.holdings.filter Holding.isLeaving) =
      Resource.allotted p (l.holdings.filter Holding.isLeaving) +
        Resource.allotted p (ts.map Taking.holding) := by
  induction h with
  | nil => rfl
  | cons first rest ih =>
      rw [ih, first.leaving, List.map_cons, Resource.allotted_cons]
      omega

theorem get?_of_notMem (h : Takes m l ts l') {k : ContainerId}
    (hk : k ∉ ts.map Taking.id) : l'.held.get? k = l.held.get? k := by
  induction h with
  | nil => rfl
  | cons first rest ih =>
      rw [List.map_cons, List.mem_cons, not_or] at hk
      rw [ih hk.2, first.get?_of_ne hk.1]

/-- Who leaves already is not taken. -/
theorem notMem_of_isLeaving (h : Takes m l ts l') {k : ContainerId} {held : Holding}
    (hheld : l.held.get? k = some held) (hleaving : held.isLeaving = true) :
    k ∉ ts.map Taking.id := by
  induction h with
  | nil => exact List.not_mem_nil
  | @cons l _ _ t _ first rest ih =>
      have hother : k ≠ t.id := by
        rintro rfl
        have hyields := first.yields
        rw [first.get?_before] at hheld
        cases hheld
        rw [not_yields_of_isLeaving hleaving] at hyields
        cases hyields
      rw [List.map_cons, List.mem_cons, not_or]
      exact ⟨hother, ih ((first.get?_of_ne hother).trans hheld)⟩

/-- No container is taken twice. -/
theorem nodup (h : Takes m l ts l') : (ts.map Taking.id).Nodup := by
  induction h with
  | nil => exact List.nodup_nil
  | @cons _ _ _ t _ first rest ih =>
      rw [List.map_cons, List.nodup_cons]
      exact ⟨rest.notMem_of_isLeaving first.get?_self t.isLeaving_after, ih⟩

/-- Each container was held and yielded before the first was taken, and is held and turned
round after the last. -/
theorem of_mem (h : Takes m l ts l') (hl : l.Coherent) (ht : t ∈ ts) :
    l.held.get? t.id = some t.holding ∧ l.yields m t.request t.holding = true ∧
      l'.held.get? t.id = some t.after := by
  induction h with
  | nil => cases ht
  | @cons _ _ _ first ts step rest ih =>
      rcases List.mem_cons.mp ht with rfl | ht
      · have hlater := rest.notMem_of_isLeaving step.get?_self t.isLeaving_after
        exact ⟨step.get?_before, step.yields, (rest.get?_of_notMem hlater).trans step.get?_self⟩
      · obtain ⟨hbefore, hyields, hafter⟩ := ih (step.coherent hl) ht
        have hother : t.id ≠ first.id := by
          intro heq
          have hlater := rest.notMem_of_isLeaving step.get?_self first.isLeaving_after
          exact hlater (heq ▸ List.mem_map_of_mem ht)
        rw [step.get?_of_ne hother] at hbefore
        rw [step.yields_iff hl] at hyields
        exact ⟨hbefore, hyields, hafter⟩

end Takes

end Ledger

end TaskFleet
