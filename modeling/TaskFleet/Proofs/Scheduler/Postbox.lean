import Mathlib.Data.List.Induction
import TaskFleet.Proofs.Scheduler.Courier

/-!
# A box for reports

A notice that is refused leaves a report.  Reports are kept in the order in which they came and
offered again in that order until one of them is refused.  There is room for
`Scheduler.reportLimit` of them; then the oldest makes room for the next one.  Nothing is kept for
an application that is gone.

What becomes of the reports depends on nothing but what was said to the application and what it
answered (`Mail`).  So it is read off the mail alone, by a `Postbox` into which the mail is entered
message by message: the reports that are kept, and those before them, each with what has become of
it.  That nothing is lost in silence or out of order comes down to this: no report ever passes
another one.

* Whatever is entered, the settled reports and the kept ones together are the reports that ever
  came, in their order (`Postbox.held_after`).
* A report leaves the postbox at the front, or all of them leave at once, and each time for one of
  three reasons (`Postbox.settles_after`).
* Only the oldest report is ever offered (`Postbox.Orderly`), so what was accepted is what has been
  settled as delivered (`Postbox.delivered_after`).
-/

namespace TaskFleet

open Scheduler (reportLimit undelivered)

/-! ## Mail -/

/-- What was said to the application while effects were carried out, and what it answered. -/
inductive Mail where
  | told (notice : Notice) (answer : Except DispatchError Unit)
  | offered (report : String) (answer : Except DispatchError Unit)

namespace Mail

/-- The report that a refused notice leaves. -/
def held? : Mail → Option String
  | told notice (.error cause) =>
    if cause = .shutdown then none else some (undelivered notice cause)
  | _ => none

/-- The report that was accepted. -/
def accepted? : Mail → Option String
  | offered report (.ok ()) => some report
  | _ => none

end Mail

/-! ## The postbox -/

/-- What has become of a report that is kept no longer. -/
inductive Settlement where
  | delivered
  | crowdedOut
  | lost
deriving DecidableEq, Repr

/-- The reports that are kept, the oldest first, and what has become of those before them. -/
structure Postbox where
  settled : List (String × Settlement)
  kept : List String

namespace Postbox

/-- Something becomes of the oldest report. -/
def settleOldest (p : Postbox) (settlement : Settlement) : Postbox :=
  match p.kept with
  | [] => p
  | report :: rest => ⟨p.settled ++ [(report, settlement)], rest⟩

/-- Keep a report.  If there is no room, the oldest makes it. -/
def keep (p : Postbox) (report : String) : Postbox :=
  let p := if reportLimit ≤ p.kept.length then p.settleOldest .crowdedOut else p
  { p with kept := p.kept ++ [report] }

/-- The application has answered when the oldest report was offered. -/
def answer (p : Postbox) : Except DispatchError Unit → Postbox
  | .ok () => p.settleOldest .delivered
  | .error .shutdown => ⟨p.settled ++ p.kept.map fun report => (report, .lost), []⟩
  | .error _ => p

/-- Enter a message. -/
def enter (p : Postbox) : Mail → Postbox
  | .told notice answer => (Mail.told notice answer).held?.elim p p.keep
  | .offered _ answer => p.answer answer

/-- The postbox once the mail was entered. -/
def after (mail : List Mail) : Postbox :=
  mail.foldl enter ⟨[], []⟩

/-- The reports that ever came. -/
def held (p : Postbox) : List String :=
  p.settled.map Prod.fst ++ p.kept

/-- The reports that were delivered. -/
def delivered (p : Postbox) : List String :=
  (p.settled.filter fun row => row.2 = .delivered).map Prod.fst

variable {p : Postbox} {mail : List Mail} {m : Mail} {report : String}

@[simp] theorem after_append_singleton (mail : List Mail) (m : Mail) :
    after (mail ++ [m]) = (after mail).enter m := by
  rw [after, List.foldl_append]
  rfl

/-! ### Room -/

@[simp] theorem kept_settleOldest (p : Postbox) (settlement : Settlement) :
    (p.settleOldest settlement).kept = p.kept.drop 1 := by
  unfold settleOldest
  split
  · next h => simp [h]
  · next h => simp [h]

theorem kept_keep (p : Postbox) (report : String) : (p.keep report).kept =
    (if reportLimit ≤ p.kept.length then p.kept.drop 1 else p.kept) ++ [report] := by
  unfold keep
  split <;> simp

theorem length_kept_enter (hp : p.kept.length ≤ reportLimit) :
    (p.enter m).kept.length ≤ reportLimit := by
  have hroom : 0 < reportLimit := by decide
  cases m with
  | told notice answer =>
      cases hheld : (Mail.told notice answer).held? with
      | none =>
          rw [enter, hheld]
          exact hp
      | some report =>
          rw [enter, hheld, Option.elim_some, kept_keep, List.length_append,
            List.length_singleton]
          split
          · rw [List.length_drop]
            omega
          · omega
  | offered report answer =>
      rw [enter]
      unfold Postbox.answer
      split
      · rw [kept_settleOldest, List.length_drop]
        omega
      · exact Nat.zero_le _
      · exact hp

/-- There is never more than there is room for. -/
theorem length_kept_after (mail : List Mail) : (after mail).kept.length ≤ reportLimit := by
  induction mail using List.reverseRecOn with
  | nil => exact Nat.zero_le _
  | append_singleton mail m ih =>
      rw [after_append_singleton]
      exact length_kept_enter ih

/-! ### Order -/

@[simp] theorem held_settleOldest (p : Postbox) (settlement : Settlement) :
    (p.settleOldest settlement).held = p.held := by
  unfold settleOldest
  split
  · rfl
  · next report rest h => simp [held, h]

theorem held_keep (p : Postbox) (report : String) : (p.keep report).held = p.held ++ [report] := by
  have happend : ∀ q : Postbox, held { q with kept := q.kept ++ [report] } = q.held ++ [report] :=
    fun q => by rw [held, held, List.append_assoc]
  rw [keep, happend]
  split
  · rw [held_settleOldest]
  · rfl

@[simp] theorem held_answer (p : Postbox) (answer : Except DispatchError Unit) :
    (p.answer answer).held = p.held := by
  unfold Postbox.answer
  split
  · exact held_settleOldest p _
  · simp [held, Function.comp_def]
  · rfl

/-- Whatever becomes of a report, it stays before those that came later. -/
theorem held_enter (p : Postbox) (m : Mail) : (p.enter m).held = p.held ++ m.held?.toList := by
  cases m with
  | told notice answer =>
      cases hheld : (Mail.told notice answer).held? with
      | none => simp [enter, hheld]
      | some report => simp [enter, hheld, held_keep]
  | offered report answer => simp [enter, Mail.held?]

theorem held_after (mail : List Mail) : (after mail).held = mail.filterMap Mail.held? := by
  induction mail using List.reverseRecOn with
  | nil => rfl
  | append_singleton mail m ih =>
      rw [after_append_singleton, held_enter, ih, List.filterMap_append]
      cases hheld : m.held? <;> simp [hheld]

/-! ### Reasons -/

/-- Why the report that follows `early` is kept no longer: it was accepted when it was offered; it
was the oldest when another one came and there was no room; or it was there when the application
turned out to be gone. -/
inductive Settles (mail : List Mail) (early : List (String × Settlement)) (report : String) :
    Settlement → Prop
  | delivered {before later : List Mail} {rest : List String}
      (hmail : mail = before ++ .offered report (.ok ()) :: later)
      (hoffered : after before = ⟨early, report :: rest⟩) : Settles mail early report .delivered
  | crowdedOut {before later : List Mail} {m : Mail} {rest : List String}
      (hmail : mail = before ++ m :: later) (hheld : m.held? ≠ none)
      (holdest : after before = ⟨early, report :: rest⟩)
      (hfull : (report :: rest).length = reportLimit) : Settles mail early report .crowdedOut
  | lost {before later : List Mail} {oldest : String} {settled : List (String × Settlement)}
      {older newer : List String}
      (hmail : mail = before ++ .offered oldest (.error .shutdown) :: later)
      (hthere : after before = ⟨settled, older ++ report :: newer⟩)
      (hearly : early = settled ++ older.map fun report => (report, .lost)) :
      Settles mail early report .lost

theorem Settles.append {early : List (String × Settlement)} {settlement : Settlement}
    (h : Settles mail early report settlement) (more : List Mail) :
    Settles (mail ++ more) early report settlement := by
  cases h with
  | delivered hmail hoffered =>
      exact .delivered (by rw [hmail, List.append_assoc, List.cons_append]) hoffered
  | crowdedOut hmail hheld holdest hfull =>
      exact .crowdedOut (by rw [hmail, List.append_assoc, List.cons_append]) hheld holdest hfull
  | lost hmail hthere hearly =>
      exact .lost (by rw [hmail, List.append_assoc, List.cons_append]) hthere hearly

/-- Only the oldest report is offered. -/
def Orderly (mail : List Mail) : Prop :=
  ∀ before report answer later, mail = before ++ .offered report answer :: later →
    (after before).kept.head? = some report

theorem orderly_nil : Orderly [] := by
  intro before report answer later h
  simp at h

theorem Orderly.append_singleton (h : Orderly mail)
    (hm : ∀ report answer, m = .offered report answer →
      (after mail).kept.head? = some report) : Orderly (mail ++ [m]) := by
  intro before report answer later heq
  rcases append_singleton_eq_append_cons heq with ⟨mid, hold⟩ | ⟨rfl, hlast⟩
  · exact h before report answer mid hold
  · exact hm report answer hlast.symm

theorem Orderly.of_append {more : List Mail} (h : Orderly (mail ++ more)) : Orderly mail := by
  intro before report answer later heq
  exact h before report answer (later ++ more) (by rw [heq, List.append_assoc, List.cons_append])

theorem settleOldest_of_kept {rest : List String} (h : p.kept = report :: rest)
    (settlement : Settlement) :
    p.settleOldest settlement = ⟨p.settled ++ [(report, settlement)], rest⟩ := by
  rw [settleOldest, h]

theorem settled_keep (p : Postbox) (report : String) : (p.keep report).settled =
    (if reportLimit ≤ p.kept.length then p.settleOldest .crowdedOut else p).settled := rfl

/-- What a message settles is settled for a reason. -/
theorem settles_enter (hmail : Orderly (mail ++ [m])) :
    ∃ news, ((after mail).enter m).settled = (after mail).settled ++ news ∧
      ∀ early report settlement late, news = early ++ (report, settlement) :: late →
        Settles (mail ++ [m]) ((after mail).settled ++ early) report settlement := by
  have hnothing : ∀ q : Postbox, q.settled = (after mail).settled →
      ∃ news, q.settled = (after mail).settled ++ news ∧
        ∀ early report settlement late, news = early ++ (report, settlement) :: late →
          Settles (mail ++ [m]) ((after mail).settled ++ early) report settlement := by
    intro q hq
    refine ⟨[], by rw [hq, List.append_nil], fun early report settlement late h => ?_⟩
    simp at h
  have hoff : ∀ report rest, (after mail).kept = report :: rest →
      after mail = ⟨(after mail).settled ++ [], report :: rest⟩ := fun report rest hkept => by
    rw [List.append_nil, ← hkept]
  cases m with
  | told notice answer =>
      cases hheld : (Mail.told notice answer).held? with
      | none => exact hnothing _ (by rw [enter, hheld]; rfl)
      | some report =>
          rw [enter, hheld, Option.elim_some, settled_keep]
          split
          · next hfull =>
            have hroom := length_kept_after mail
            cases hkept : (after mail).kept with
            | nil => simp [hkept, reportLimit] at hfull
            | cons oldest rest =>
                refine ⟨[(oldest, .crowdedOut)], by rw [settleOldest_of_kept hkept], ?_⟩
                intro early report settlement late h
                obtain ⟨rfl, heq⟩ := eq_of_singleton_eq_append_cons h
                cases heq
                exact .crowdedOut rfl (by simp [hheld]) (hoff oldest rest hkept)
                  (hkept ▸ Nat.le_antisymm hroom hfull)
          · exact hnothing _ rfl
  | offered report answer =>
      have hoffered := hmail mail report answer [] rfl
      obtain ⟨rest, hkept⟩ := List.head?_eq_some_iff.mp hoffered
      rw [enter]
      unfold Postbox.answer
      split
      · refine ⟨[(report, .delivered)], by rw [settleOldest_of_kept hkept], ?_⟩
        intro early report' settlement late h
        obtain ⟨rfl, heq⟩ := eq_of_singleton_eq_append_cons h
        cases heq
        exact .delivered rfl (hoff report rest hkept)
      · refine ⟨_, rfl, fun early report' settlement late h => ?_⟩
        obtain ⟨older, newer, hall, rfl, hnewer⟩ := List.map_eq_append_iff.mp h
        obtain ⟨first, newer, rfl, heq, -⟩ := List.map_eq_cons_iff.mp hnewer
        cases heq
        exact .lost rfl (by rw [← hall]) rfl
      · exact hnothing _ rfl

/-- Every report that is kept no longer was settled for a reason. -/
theorem settles_after (hmail : Orderly mail) {early late : List (String × Settlement)}
    {settlement : Settlement}
    (h : (after mail).settled = early ++ (report, settlement) :: late) :
    Settles mail early report settlement := by
  induction mail using List.reverseRecOn generalizing late with
  | nil => simp [after] at h
  | append_singleton mail m ih =>
      obtain ⟨news, hnews, hsettles⟩ := settles_enter hmail
      rw [after_append_singleton, hnews] at h
      rcases append_eq_append_cons h with ⟨mid, hold, -⟩ | ⟨mid, rfl, hnew⟩
      · exact (ih hmail.of_append hold).append [m]
      · exact hsettles mid report settlement late hnew

/-! ### Deliveries -/

theorem delivered_append (settled news : List (String × Settlement)) (kept : List String) :
    delivered ⟨settled ++ news, kept⟩ = delivered ⟨settled, kept⟩ ++ delivered ⟨news, kept⟩ := by
  simp only [delivered, List.filter_append, List.map_append]

theorem delivered_keep (p : Postbox) (report : String) :
    (p.keep report).delivered = p.delivered := by
  rw [delivered, settled_keep]
  split
  · unfold settleOldest
    split
    · rfl
    · simp [delivered]
  · rfl

/-- An offer of the oldest report delivers it if it is accepted. -/
theorem delivered_answer (h : p.kept.head? = some report) (answer : Except DispatchError Unit) :
    (p.answer answer).delivered = p.delivered ++ (Mail.offered report answer).accepted?.toList := by
  obtain ⟨rest, hkept⟩ := List.head?_eq_some_iff.mp h
  unfold Postbox.answer
  split
  · rw [settleOldest_of_kept hkept, delivered_append]
    rfl
  · rw [delivered_append]
    simp [delivered, Mail.accepted?, List.filter_map, Function.comp_def]
  · simp [Mail.accepted?]

/-- What was accepted was delivered, in the order in which it had come. -/
theorem delivered_after (hmail : Orderly mail) :
    (after mail).delivered = mail.filterMap Mail.accepted? := by
  induction mail using List.reverseRecOn with
  | nil => rfl
  | append_singleton mail m ih =>
      have hlast : ((after mail).enter m).delivered =
          (after mail).delivered ++ m.accepted?.toList := by
        cases m with
        | told notice answer =>
            cases hheld : (Mail.told notice answer).held? with
            | none => simp [enter, hheld, Mail.accepted?]
            | some report => simp [enter, hheld, Mail.accepted?, delivered_keep]
        | offered report answer => exact delivered_answer (hmail mail report answer [] rfl) answer
      rw [after_append_singleton, hlast, ih hmail.of_append, List.filterMap_append]
      cases haccepted : m.accepted? <;> simp [haccepted]

/-- So the accepted reports are some of those that came, in their order. -/
theorem accepted_sublist (hmail : Orderly mail) :
    (mail.filterMap Mail.accepted?).Sublist (mail.filterMap Mail.held?) := by
  rw [← delivered_after hmail, ← held_after]
  exact (List.filter_sublist.map Prod.fst).trans (List.sublist_append_left ..)

/-! ### Passes -/

/-- Reports are offered, the oldest first, until one is refused; what is then still kept is that
one and all that came later, unless the application is gone. -/
inductive Pass : List String → List Mail → List String → Prop
  | done : Pass [] [] []
  | accepted {report : String} {rest : List String} {rows : List Mail} {kept : List String}
      (h : Pass rest rows kept) : Pass (report :: rest) (.offered report (.ok ()) :: rows) kept
  | gone {report : String} {rest : List String} :
      Pass (report :: rest) [.offered report (.error .shutdown)] []
  | refused {report : String} {rest : List String} {cause : DispatchError}
      (hcause : cause ≠ .shutdown) :
      Pass (report :: rest) [.offered report (.error cause)] (report :: rest)

theorem answer_of_ne {cause : DispatchError} (h : cause ≠ .shutdown) (p : Postbox) :
    p.answer (.error cause) = p := by
  unfold Postbox.answer
  split
  · next heq => cases heq
  · next heq =>
    cases heq
    exact absurd rfl h
  · rfl

theorem Orderly.offered (h : Orderly mail) {rest : List String}
    (hkept : (after mail).kept = report :: rest) (answer : Except DispatchError Unit) :
    Orderly (mail ++ [.offered report answer]) := by
  refine h.append_singleton fun report' answer' heq => ?_
  cases heq
  rw [hkept]
  rfl

/-- A pass over what is in the postbox leaves there what is still to be kept. -/
theorem Pass.after {reports kept : List String} {rows : List Mail} (h : Pass reports rows kept)
    (hmail : Orderly mail) (hreports : (Postbox.after mail).kept = reports) :
    Orderly (mail ++ rows) ∧ (Postbox.after (mail ++ rows)).kept = kept := by
  induction h generalizing mail with
  | done => exact ⟨by rwa [List.append_nil], by rw [List.append_nil, hreports]⟩
  | @accepted report rest rows kept _ ih =>
      have hrest : (Postbox.after (mail ++ [.offered report (.ok ())])).kept = rest := by
        rw [after_append_singleton, enter, answer, kept_settleOldest, hreports, List.drop_one,
          List.tail_cons]
      rw [List.append_cons]
      exact ih (hmail.offered hreports _) hrest
  | gone =>
      refine ⟨hmail.offered hreports _, ?_⟩
      rw [after_append_singleton, enter, answer]
  | refused hcause =>
      refine ⟨hmail.offered hreports _, ?_⟩
      rw [after_append_singleton, enter, answer_of_ne hcause, hreports]

end Postbox

end TaskFleet
