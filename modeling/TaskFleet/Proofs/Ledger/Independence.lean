import TaskFleet.Proofs.Ledger.Ownership

/-!
# Operations that do not meet may change places

An operation names a request, a container or both, and it may follow a link from what it
names into the other table and rewrite or drop what it finds there.  The rows that it may
reach so are its footprint: the names themselves, the container that the named request owns
and the owner of the named container (`cookiesOf`, `containersOf`).

Two things are shown of every operation that issues no cookie.  It leaves the rows outside of
its footprint alone (`agree_after`), and on ledgers that agree on its footprint it does the
same there and answers the same, be it a refusal (`Agree.perform`).  So an operation whose
footprint another one does not meet finds after it what it would have found before, and the
order of the two makes no difference (`independent_commute`).
-/

namespace TaskFleet.Ledger

variable {l l' : Ledger} {now : Instant} {cookie : Cookie} {id : ContainerId}
  {op op' : Operation}

/-! ## Footprints -/

/-- The request that an operation names. -/
def Operation.cookie? : Operation → Option Cookie
  | .markRequested cookie _ | .remove _ cookie | .allocate _ cookie _ |
    .assignIdle _ cookie _ => some cookie
  | _ => none

/-- The container that an operation names. -/
def Operation.container? : Operation → Option ContainerId
  | .allocate _ _ container => some container.id
  | .assignIdle _ _ id | .beginRelease id | .release id | .complete id => some id
  | _ => none

/-- The requests that an operation may touch: the one that it names and the owner of the
container that it names. -/
def cookiesOf (l : Ledger) (op : Operation) : List Cookie :=
  op.cookie?.toList ++ (op.container?.bind l.ownerOf?).toList

/-- The containers that an operation may touch: the one that it names and the one that the
request that it names owns. -/
def containersOf (l : Ledger) (op : Operation) : List ContainerId :=
  op.container?.toList ++ (op.cookie?.bind l.containerOf?).toList

/-- The footprints of two operations have nothing in common. -/
structure Apart (l : Ledger) (op op' : Operation) : Prop where
  cookies : ∀ c ∈ l.cookiesOf op, c ∉ l.cookiesOf op'
  containers : ∀ k ∈ l.containersOf op, k ∉ l.containersOf op'

theorem Apart.symm (h : l.Apart op op') : l.Apart op' op where
  cookies c hc hc' := h.cookies c hc' hc
  containers k hk hk' := h.containers k hk' hk

/-! ## Ledgers that agree in part -/

/-- Two ledgers have the same rows for the requests and containers in question. -/
structure Agree (cookies : Cookie → Prop) (containers : ContainerId → Prop)
    (l l' : Ledger) : Prop where
  entries : SortedMap.AgreeOn cookies l.entries l'.entries
  held : SortedMap.AgreeOn containers l.held l'.held

/-- The ledgers have the same rows in the footprint that the operation has in the first. -/
abbrev AgreeAt (l : Ledger) (op : Operation) : Ledger → Ledger → Prop :=
  Agree (· ∈ l.cookiesOf op) (· ∈ l.containersOf op)

theorem mem_cookiesOf (h : op.cookie? = some cookie) : cookie ∈ l.cookiesOf op := by
  simp [cookiesOf, h]

theorem mem_containersOf (h : op.container? = some id) : id ∈ l.containersOf op := by
  simp [containersOf, h]

theorem owner_mem_cookiesOf (h : op.container? = some id) (howner : l.ownerOf? id = some cookie) :
    cookie ∈ l.cookiesOf op := by
  simp [cookiesOf, h, howner]

theorem owned_mem_containersOf (h : op.cookie? = some cookie)
    (howned : l.containerOf? cookie = some id) : id ∈ l.containersOf op := by
  simp [containersOf, h, howned]

/-- Ledgers that agree on a footprint agree on what the footprint is. -/
theorem AgreeAt.footprint (h : l.AgreeAt op l l') :
    l'.cookiesOf op = l.cookiesOf op ∧ l'.containersOf op = l.containersOf op := by
  have howner : op.container?.bind l'.ownerOf? = op.container?.bind l.ownerOf? := by
    cases hk : op.container? with
    | none => rfl
    | some k => simp [ownerOf?, assignment?, h.held k (mem_containersOf hk)]
  have howned : op.cookie?.bind l'.containerOf? = op.cookie?.bind l.containerOf? := by
    cases hc : op.cookie? with
    | none => rfl
    | some c => simp [containerOf?, h.entries c (mem_cookiesOf hc)]
  rw [cookiesOf, cookiesOf, containersOf, containersOf, howner, howned]
  exact ⟨rfl, rfl⟩

/-! ## The same is done where ledgers agree -/

section

variable {P : Cookie → Prop} {Q : ContainerId → Prop}

/-- The answers are the same, refusals included, and the ledgers that are left agree. -/
def SameOutcome {α : Type} (P : Cookie → Prop) (Q : ContainerId → Prop)
    (r r' : Except LedgerError α × Ledger) : Prop :=
  r.1 = r'.1 ∧ Agree P Q r.2 r'.2

theorem SameOutcome.reply {α : Type} {f : α → Answer} {r r' : Except LedgerError α × Ledger}
    (h : SameOutcome P Q r r') : SameOutcome P Q (Ledger.reply f r) (Ledger.reply f r') :=
  ⟨congrArg (Except.map f) h.1, h.2⟩

theorem Agree.markRequested (h : Agree P Q l l') (hc : P cookie)
    (asked : List ContainerRequest) :
    SameOutcome P Q (l.markRequested cookie asked) (l'.markRequested cookie asked) := by
  unfold Ledger.markRequested
  rw [h.entries cookie hc]
  cases l'.entries.get? cookie with
  | none => exact ⟨rfl, h⟩
  | some entry =>
      dsimp only
      split
      · exact ⟨rfl, h.entries.insert _ _, h.held⟩
      · exact ⟨rfl, h⟩

theorem Agree.remove (h : Agree P Q l l') (hc : P cookie)
    (howned : ∀ k, l.containerOf? cookie = some k → Q k) (now : Instant) :
    SameOutcome P Q (l.remove now cookie) (l'.remove now cookie) := by
  unfold Ledger.remove
  rw [h.entries cookie hc]
  cases hentry : l'.entries.get? cookie with
  | none => exact ⟨rfl, h.entries.erase _, h.held⟩
  | some entry =>
      have hsame : (entry.phase.container?.bind fun id => (l.held.get? id).map fun h => (id, h)) =
          entry.phase.container?.bind fun id => (l'.held.get? id).map fun h => (id, h) := by
        cases hk : entry.phase.container? with
        | none => rfl
        | some k =>
            have hheld := h.held k (howned k (by
              rw [containerOf?, h.entries cookie hc, hentry]
              exact hk))
            simp [hheld]
      dsimp only
      rw [hsame]
      cases entry.phase.container?.bind fun id => (l'.held.get? id).map fun h => (id, h) with
      | none => exact ⟨rfl, h.entries.erase _, h.held⟩
      | some row => exact ⟨rfl, h.entries.erase _, h.held.insert _ _⟩

theorem Agree.allocate (h : Agree P Q l l') (hc : P cookie) {container : Container}
    (hk : Q container.id) (now : Instant) :
    SameOutcome P Q (l.allocate now cookie container) (l'.allocate now cookie container) := by
  unfold Ledger.allocate
  rw [SortedMap.contains, SortedMap.contains, h.held _ hk, h.entries cookie hc]
  split
  · exact ⟨rfl, h⟩
  · cases l'.entries.get? cookie with
    | none => exact ⟨rfl, h⟩
    | some entry =>
        dsimp only
        split
        · exact ⟨rfl, h⟩
        · split
          · exact ⟨rfl, h.entries.insert _ _, h.held.insert _ _⟩
          · exact ⟨rfl, h⟩

theorem Agree.assignIdle (h : Agree P Q l l') (hc : P cookie) (hk : Q id) (now : Instant) :
    SameOutcome P Q (l.assignIdle now cookie id) (l'.assignIdle now cookie id) := by
  unfold Ledger.assignIdle
  rw [h.held id hk, h.entries cookie hc]
  cases l'.held.get? id with
  | none => exact ⟨rfl, h⟩
  | some held =>
      dsimp only
      split
      · cases l'.entries.get? cookie with
        | none => exact ⟨rfl, h⟩
        | some entry =>
            dsimp only
            split
            · exact ⟨rfl, h⟩
            · exact ⟨rfl, h.entries.insert _ _, h.held.insert _ _⟩
      · exact ⟨rfl, h⟩

theorem Agree.beginRelease (h : Agree P Q l l') (hk : Q id) :
    SameOutcome P Q (l.beginRelease id) (l'.beginRelease id) := by
  unfold Ledger.beginRelease
  rw [h.held id hk]
  cases l'.held.get? id with
  | none => exact ⟨rfl, h⟩
  | some held =>
      dsimp only
      split
      · exact ⟨rfl, h.entries.modify _ _, h.held.insert _ _⟩
      · exact ⟨rfl, h⟩

theorem Agree.release (h : Agree P Q l l') (hk : Q id) :
    SameOutcome P Q (l.release id) (l'.release id) := by
  unfold Ledger.release
  rw [h.held id hk]
  cases l'.held.get? id with
  | none => exact ⟨rfl, h⟩
  | some held =>
      dsimp only
      split
      · exact ⟨rfl, h.entries.erase _, h.held.insert _ _⟩
      · exact ⟨rfl, h.entries.erase _, h.held.insert _ _⟩
      · exact ⟨rfl, h.entries, h.held.insert _ _⟩
      · exact ⟨rfl, h⟩

/-- Completion asks the owner which task it is, so the owner counts too. -/
theorem Agree.complete (h : Agree P Q l l') (hk : Q id)
    (howner : ∀ c, l.ownerOf? id = some c → P c) :
    SameOutcome P Q (l.complete id) (l'.complete id) := by
  unfold Ledger.complete
  rw [h.held id hk]
  cases hheld : l'.held.get? id with
  | none => exact ⟨rfl, h.entries, h.held.erase _⟩
  | some held =>
      have hasked : ∀ c, held.assignment.owner? = some c →
          l.entries.get? c = l'.entries.get? c := by
        intro c hc
        refine h.entries c (howner c ?_)
        rw [ownerOf?_of_get? ((h.held id hk).trans hheld), hc]
      dsimp only
      split
      case h_1 c hactive | h_2 c hactive =>
        rw [hasked c (by rw [hactive]; rfl)]
        exact ⟨rfl, h.entries.erase _, h.held.erase _⟩
      case h_3 task hreleased => exact ⟨rfl, h.entries, h.held.erase _⟩
      case h_4 since hidle => exact ⟨rfl, h.entries, h.held.erase _⟩

end

/-- Where the ledgers agree on its footprint, an operation does the same there and answers
the same. -/
theorem AgreeAt.perform (h : l.AgreeAt op l l') (hop : op.isAdd = false) :
    SameOutcome (· ∈ l.cookiesOf op) (· ∈ l.containersOf op) (l.perform op) (l'.perform op) := by
  cases op with
  | add request => cases hop
  | markRequested cookie asked => exact (Agree.markRequested h (mem_cookiesOf rfl) asked).reply
  | remove now cookie =>
      exact (Agree.remove h (mem_cookiesOf rfl) (fun _ => owned_mem_containersOf rfl) now).reply
  | allocate now cookie container =>
      exact (Agree.allocate h (mem_cookiesOf rfl) (mem_containersOf rfl) now).reply
  | assignIdle now cookie id =>
      exact (Agree.assignIdle h (mem_cookiesOf rfl) (mem_containersOf rfl) now).reply
  | beginRelease id => exact (Agree.beginRelease h (mem_containersOf rfl)).reply
  | release id => exact (Agree.release h (mem_containersOf rfl)).reply
  | complete id =>
      exact (Agree.complete h (mem_containersOf rfl) fun _ => owner_mem_cookiesOf rfl).reply

theorem AgreeAt.answer (h : l.AgreeAt op l l') (hop : op.isAdd = false) :
    l'.answer op = l.answer op :=
  (h.perform hop).1.symm

theorem AgreeAt.after (h : l.AgreeAt op l l') (hop : op.isAdd = false) :
    l.AgreeAt op (l.after op) (l'.after op) :=
  (h.perform hop).2

/-! ## Nothing is done elsewhere -/

/-- The ledgers have the same rows outside of the footprint that the operation has in the
first. -/
abbrev AgreeOff (l : Ledger) (op : Operation) : Ledger → Ledger → Prop :=
  Agree (· ∉ l.cookiesOf op) (· ∉ l.containersOf op)

theorem AgreeOff.refl (l : Ledger) (op : Operation) : l.AgreeOff op l l :=
  ⟨fun _ _ => rfl, fun _ _ => rfl⟩

/-- An operation leaves the rows outside of its footprint as they are. -/
theorem agree_after (hop : op.isAdd = false) : l.AgreeOff op (l.after op) l := by
  refine of_goes (P := fun l' => l.AgreeOff op l' l) (.refl l op) fun l' h => ?_
  cases h with
  | add request => cases hop
  | markRequested h =>
      obtain ⟨request, -, rfl⟩ := markRequested_ok h
      exact ⟨SortedMap.agreeOn_insert _ _ (not_not_intro (mem_cookiesOf rfl)), fun _ _ => rfl⟩
  | @remove now cookie _ _ h =>
      obtain ⟨entry, hentry, -, -, -, hentries, hheld⟩ := remove_ok h
      refine ⟨fun c hc => ?_, fun k hk => ?_⟩
      · have hne : c ≠ cookie := fun heq => hc (heq ▸ mem_cookiesOf rfl)
        rw [hentries, SortedMap.get?_erase, if_neg hne]
      · have hne : entry.phase.container? ≠ some k := fun howned =>
          hk (owned_mem_containersOf rfl (by rw [containerOf?, hentry]; exact howned))
        rw [hheld, if_neg hne]
  | allocate h =>
      obtain ⟨entry, -, -, -, -, rfl⟩ := allocate_ok h
      exact ⟨SortedMap.agreeOn_insert _ _ (not_not_intro (mem_cookiesOf rfl)),
        SortedMap.agreeOn_insert _ _ (not_not_intro (mem_containersOf rfl))⟩
  | assignIdle h =>
      obtain ⟨entry, held, -, -, -, -, -, -, rfl⟩ := assignIdle_ok h
      exact ⟨SortedMap.agreeOn_insert _ _ (not_not_intro (mem_cookiesOf rfl)),
        SortedMap.agreeOn_insert _ _ (not_not_intro (mem_containersOf rfl))⟩
  | @beginRelease id victim _ h =>
      obtain ⟨held, hheld, hactive, rfl⟩ := beginRelease_ok h
      have howner : l.ownerOf? id = some victim := by
        rw [ownerOf?_of_get? hheld, hactive]
        rfl
      exact ⟨SortedMap.agreeOn_modify _ _ (not_not_intro (owner_mem_cookiesOf rfl howner)),
        SortedMap.agreeOn_insert _ _ (not_not_intro (mem_containersOf rfl))⟩
  | release h =>
      obtain ⟨held, hheld, -, -, -, hinsert, hentries⟩ := release_ok h
      refine ⟨fun c hc => ?_, ?_⟩
      · have hne : held.assignment.owner? ≠ some c := fun howner =>
          hc (owner_mem_cookiesOf rfl ((ownerOf?_of_get? hheld).trans howner))
        rw [hentries, if_neg hne]
      · rw [hinsert]
        exact SortedMap.agreeOn_insert _ _ (not_not_intro (mem_containersOf rfl))
  | @complete id _ _ h =>
      obtain ⟨held, hheld, -, -, -, herase, hentries⟩ := complete_ok h
      refine ⟨fun c hc => ?_, fun k hk => ?_⟩
      · have hne : held.assignment.owner? ≠ some c := fun howner =>
          hc (owner_mem_cookiesOf rfl ((ownerOf?_of_get? hheld).trans howner))
        rw [hentries, if_neg hne]
      · have hne : k ≠ id := fun heq => hk (heq ▸ mem_containersOf rfl)
        rw [herase, SortedMap.get?_erase, if_neg hne]

/-! ## Either order -/

/-- What an operation finds it finds also after one that is apart from it. -/
theorem Apart.agreeAt (h : l.Apart op op') (hop' : op'.isAdd = false) :
    l.AgreeAt op l (l.after op') where
  entries c hc := ((agree_after hop').entries c (h.cookies c hc)).symm
  held k hk := ((agree_after hop').held k (h.containers k hk)).symm

/-- After an operation that is apart from it an operation leaves alone what it would leave
alone now. -/
theorem Apart.agreeOff (h : l.Apart op op') (hop : op.isAdd = false)
    (hop' : op'.isAdd = false) :
    l.AgreeOff op ((l.after op').after op) (l.after op') := by
  obtain ⟨hcookies, hcontainers⟩ := (h.agreeAt hop').footprint
  have hoff := agree_after (l := l.after op') hop
  rw [AgreeOff, hcookies, hcontainers] at hoff
  exact hoff

/-- Two operations whose footprints have nothing in common give the same answers in either
order and lead to the same ledger. -/
theorem independent_commute (l : Ledger) (op op' : Operation) (hop : op.isAdd = false)
    (hop' : op'.isAdd = false) (hapart : l.Apart op op') :
    (l.after op').answer op = l.answer op ∧ (l.after op).answer op' = l.answer op' ∧
      (l.after op).after op' = (l.after op').after op := by
  have hat := hapart.agreeAt hop'
  have hat' := hapart.symm.agreeAt hop
  refine ⟨hat.answer hop, hat'.answer hop', ?_⟩
  have hdone := hat.after hop
  have hdone' := hat'.after hop'
  have hoff := hapart.agreeOff hop hop'
  have hoff' := hapart.symm.agreeOff hop' hop
  have hentries := SortedMap.eq_of_agreeOn hapart.cookies (agree_after hop).entries
    (agree_after hop').entries hoff'.entries hoff.entries hdone.entries hdone'.entries
  have hheld := SortedMap.eq_of_agreeOn hapart.containers (agree_after hop).held
    (agree_after hop').held hoff'.held hoff.held hdone.held hdone'.held
  have hnext : ((l.after op).after op').nextCookie = ((l.after op').after op).nextCookie := by
    rw [nextCookie_after hop', nextCookie_after hop, nextCookie_after hop, nextCookie_after hop']
  rw [Ledger.mk.injEq]
  exact ⟨hnext, hentries, hheld⟩

/-- A request leaves its container while another container is given back.  Each of the two
operations follows a link, and none of them is refused. -/
theorem independent_commute_links :
    let request : TaskRequest := ⟨⟨7⟩, ⟨1024, 1⟩, ⟨5⟩, ⟨[], [], true⟩, ⟨0, ⟨⟨1024, 1⟩, .empty, .empty⟩⟩⟩
    let container (id : String) : Container :=
      ⟨⟨id⟩, ⟨"host1", 8041⟩, none, ⟨1024, 1⟩, ⟨5⟩, none, none⟩
    let l := empty.run [.add request, .add request, .allocate .epoch ⟨1⟩ (container "c_1"),
      .allocate .epoch ⟨2⟩ (container "c_2"), .beginRelease ⟨"c_2"⟩]
    let op : Operation := .remove .epoch ⟨1⟩
    let op' : Operation := .release ⟨"c_2"⟩
    l.Apart op op' ∧ (l.after op).after op' = (l.after op').after op ∧
      ((l.after op').answer op).toOption =
        some (.removed ⟨⟨1⟩, request, .allocated, some ⟨"c_1"⟩⟩) ∧
      ((l.after op).answer op').toOption = some (.released (some ⟨7⟩)) := by
  intro request container l op op'
  have hapart : l.Apart op op' := ⟨by decide, by decide⟩
  obtain ⟨hanswer, hanswer', hsame⟩ := independent_commute l op op' rfl rfl hapart
  rw [hanswer, hanswer']
  exact ⟨hapart, hsame, by decide, by decide⟩

end TaskFleet.Ledger
