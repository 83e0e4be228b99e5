import TaskFleet.Proofs.Scheduler.Flush

/-!
# A flush ends and leaves nothing behind

To carry an effect out may add to what is pending, and a flush goes on until nothing is.  It
proceeds in batches: it takes what is pending and carries it out, and what has been added
meanwhile is the next batch.  `Drains` is this loop, without any bound on the number of its
rounds.

Only a refused notice adds to what is pending, and it adds at most the call that makes it
good (`Scheduler.pending_refused`).  So all that follows from a batch is calls, nothing
follows from calls, and the second batch is the last.  Each batch is carried out in its order
and each effect of it once, so the log of a flush is what was pending and then the calls that
make refusals good (`KeepsBooks.flush_drains`).

A flush is computed with a bound on the number of effects, and the bound plays no part: once
nothing is pending, more of it changes nothing (`applyPending_eq`).
-/

namespace TaskFleet

namespace Surroundings

variable {σ : Type} {b : Books σ} {here : Surroundings σ} {w w' : Scheduler × σ}

/-! ## The loop -/

/-- As long as something is pending, all of it is carried out, as one batch.  This ends after
so many batches. -/
inductive Drains (here : Surroundings σ) : Nat → Scheduler × σ → Scheduler × σ → Prop
  | done {w : Scheduler × σ} (hnone : w.1.pending = []) : Drains here 0 w w
  | batch {n : Nat} {w w' : Scheduler × σ} (hsome : w.1.pending ≠ [])
      (hrest : Drains here n (here.applyPending w.1.pending.length w) w') :
      Drains here (n + 1) w w'

theorem applyPending_of_done (hnone : w.1.pending = []) (fuel : Nat) :
    here.applyPending fuel w = w := by
  cases fuel with
  | zero => rfl
  | succ fuel =>
      rw [applyPending, Scheduler.takeUp?_eq_none_iff.mpr hnone]

theorem applyPending_add (first later : Nat) (w : Scheduler × σ) :
    here.applyPending (first + later) w =
      here.applyPending later (here.applyPending first w) := by
  induction first generalizing w with
  | zero =>
      rw [Nat.zero_add]
      rfl
  | succ first ih =>
      rw [Nat.succ_add, applyPending, applyPending]
      split
      · next h => rw [applyPending_of_done (Scheduler.takeUp?_eq_none_iff.mp h)]
      · exact ih _

/-- Where two bounds are enough they come to the same. -/
theorem applyPending_eq {fuel fuel' : Nat} (h : (here.applyPending fuel w).1.pending = [])
    (h' : (here.applyPending fuel' w).1.pending = []) :
    here.applyPending fuel w = here.applyPending fuel' w := by
  rcases Nat.le_total fuel fuel' with hle | hle
  · rw [← Nat.add_sub_cancel' hle, applyPending_add, applyPending_of_done h]
  · rw [← Nat.add_sub_cancel' hle, applyPending_add, applyPending_of_done h']

/-- Where nothing is pending and no report is kept, there is nothing to carry out. -/
theorem flush_of_nothing (hpending : w.1.pending = []) (hreports : w.1.reports = []) :
    here.flush w = w := by
  obtain ⟨⟨ledger, carriedOut, pending, trail, maxCapability, awaiting, reports, progress,
    registered, stopped, applying⟩, x⟩ := w
  cases hpending
  cases hreports
  cases applying with
  | true => rfl
  | false =>
      simp only [flush, redeliver, offerReports, Bool.false_eq_true, if_false, List.append_nil]
      rw [applyPending_of_done rfl]

/-- The loop ends when nothing is pending, and some bound would have been enough for it. -/
theorem Drains.applyPending {n : Nat} (h : here.Drains n w w') :
    w'.1.pending = [] ∧ ∃ fuel, here.applyPending fuel w = w' := by
  induction h with
  | done hnone => exact ⟨hnone, 0, rfl⟩
  | batch hsome hrest ih =>
      obtain ⟨hnone, fuel, hfuel⟩ := ih
      exact ⟨hnone, _, (applyPending_add _ fuel _).trans hfuel⟩

/-- The loop has one end only. -/
theorem Drains.unique {n m : Nat} {w'' : Scheduler × σ} (h : here.Drains n w w')
    (h' : here.Drains m w w'') : w' = w'' := by
  obtain ⟨hnone, fuel, rfl⟩ := h.applyPending
  obtain ⟨hnone', fuel', rfl⟩ := h'.applyPending
  exact applyPending_eq hnone hnone'

/-! ## A batch -/

/-- An effect is carried out once, and if it is a notice that is refused a call may follow. -/
theorem KeepsBooks.log_apply (hhere : here.KeepsBooks b) (e : Effect) (w : Scheduler × σ) :
    ∃ (attempt : Attempt) (calls : List ContainerCall), attempt.effect = e ∧
      calls.Sublist attempt.remedy?.toList ∧
      b.log (here.apply e w).2 = b.log w.2 ++ [attempt] ∧
      (here.apply e w).1.pending = w.1.pending ++ calls.map Effect.call := by
  obtain ⟨s, x⟩ := w
  have hquiet : s.pending = s.pending ++ ([] : List ContainerCall).map Effect.call :=
    (List.append_nil _).symm
  cases e with
  | call call =>
      exact ⟨.made call, [], rfl, List.nil_sublist _, (hhere.call call x).2, hquiet⟩
  | notify notice =>
      obtain ⟨answer, y, hdeliver, -, hlog⟩ := hhere.deliver notice s x
      rw [Surroundings.apply, hdeliver]
      cases answer with
      | ok done => exact ⟨.accepted notice, [], rfl, List.nil_sublist _, hlog, hquiet⟩
      | error cause =>
          obtain ⟨calls, hcalls, hpending⟩ := s.pending_refused (here.now y) notice cause
          exact ⟨.refused notice cause, calls, rfl, hcalls, hlog, hpending⟩

/-- What is pending first is carried out in its order, and what follows from it is put behind
the rest. -/
theorem KeepsBooks.log_batch (hhere : here.KeepsBooks b) {es rest : List Effect}
    (hpending : w.1.pending = es ++ rest) :
    ∃ (batch : List Attempt) (calls : List ContainerCall), batch.map Attempt.effect = es ∧
      calls.Sublist (batch.filterMap Attempt.remedy?) ∧
      b.log (here.applyPending es.length w).2 = b.log w.2 ++ batch ∧
      (here.applyPending es.length w).1.pending = rest ++ calls.map Effect.call := by
  induction es generalizing w rest with
  | nil =>
      refine ⟨[], [], rfl, .refl _, (List.append_nil _).symm, ?_⟩
      rw [List.map_nil, List.append_nil]
      exact hpending
  | cons e es ih =>
      obtain ⟨s, x⟩ := w
      have htake : s.takeUp? = some (e, { s with
          carriedOut := s.carriedOut ++ [e], pending := es ++ rest }) := by
        simp only [Scheduler.takeUp?, show s.pending = e :: (es ++ rest) from hpending]
      rw [List.length_cons, Surroundings.applyPending, htake]
      obtain ⟨attempt, calls, heffect, hcalls, hlog, hnext⟩ := hhere.log_apply e
        ({ s with carriedOut := s.carriedOut ++ [e], pending := es ++ rest }, x)
      obtain ⟨batch, calls', heffects, hcalls', hlog', hleft⟩ :=
        ih (hnext.trans (List.append_assoc ..))
      refine ⟨attempt :: batch, calls ++ calls', ?_, ?_, ?_, ?_⟩
      · rw [List.map_cons, heffect, heffects]
      · have hremedy : (attempt :: batch).filterMap Attempt.remedy? =
            attempt.remedy?.toList ++ batch.filterMap Attempt.remedy? := by
          cases h : attempt.remedy? <;> simp [h]
        rw [hremedy]
        exact hcalls.append hcalls'
      · rw [hlog', hlog, List.append_assoc, List.singleton_append]
      · rw [hleft, List.map_append, List.append_assoc]

/-- One batch carries out all that is pending, and then there is only what follows from it. -/
theorem KeepsBooks.log_all (hhere : here.KeepsBooks b) (w : Scheduler × σ) :
    ∃ (batch : List Attempt) (calls : List ContainerCall),
      batch.map Attempt.effect = w.1.pending ∧
      calls.Sublist (batch.filterMap Attempt.remedy?) ∧
      b.log (here.applyPending w.1.pending.length w).2 = b.log w.2 ++ batch ∧
      (here.applyPending w.1.pending.length w).1.pending = calls.map Effect.call := by
  have hall : w.1.pending = w.1.pending ++ [] := (List.append_nil _).symm
  exact hhere.log_batch hall

/-- Calls cannot be refused. -/
theorem eq_made_of_effect {batch : List Attempt} {calls : List ContainerCall}
    (h : batch.map Attempt.effect = calls.map Effect.call) : batch = calls.map .made := by
  induction calls generalizing batch with
  | nil => simpa using h
  | cons call calls ih =>
      cases batch with
      | nil => cases h
      | cons attempt batch =>
          rw [List.map_cons, List.map_cons, List.cons.injEq] at h
          rw [List.map_cons, ← ih h.2]
          cases attempt with
          | made call' =>
              cases h.1
              rfl
          | accepted notice => cases h.1
          | refused notice cause => cases h.1

/-- From calls nothing follows. -/
theorem KeepsBooks.log_calls (hhere : here.KeepsBooks b) {calls : List ContainerCall}
    (hpending : w.1.pending = calls.map Effect.call) :
    b.log (here.applyPending w.1.pending.length w).2 = b.log w.2 ++ calls.map .made ∧
      (here.applyPending w.1.pending.length w).1.pending = [] := by
  obtain ⟨batch, further, heffects, hfurther, hlog, hleft⟩ := hhere.log_all w
  have hmade := eq_made_of_effect (heffects.trans hpending)
  have hnone : (calls.map Attempt.made).filterMap Attempt.remedy? = [] := by
    rw [List.filterMap_map, List.filterMap_eq_nil_iff]
    intro call _
    rfl
  rw [hmade, hnone, List.sublist_nil] at hfurther
  rw [hlog, hmade, hleft, hfurther]
  exact ⟨rfl, rfl⟩

/-! ## A flush -/

/-- At most two batches are needed: what is pending, and the calls that make refusals good. -/
theorem KeepsBooks.drains (hhere : here.KeepsBooks b) (w : Scheduler × σ) :
    ∃ n w', n ≤ 2 ∧ here.Drains n w w' ∧
      ∃ (batch : List Attempt) (calls : List ContainerCall),
        batch.map Attempt.effect = w.1.pending ∧
        calls.Sublist (batch.filterMap Attempt.remedy?) ∧
        b.log w'.2 = b.log w.2 ++ batch ++ calls.map .made := by
  obtain ⟨batch, calls, heffects, hcalls, hlog, hleft⟩ := hhere.log_all w
  by_cases hnone : w.1.pending = []
  · exact ⟨0, w, Nat.zero_le _, .done hnone, [], [], hnone.symm, .refl _, by simp⟩
  · obtain ⟨hlog', hleft'⟩ := hhere.log_calls hleft
    by_cases hquiet : (here.applyPending w.1.pending.length w).1.pending = []
    · have hcalled : calls = [] := List.map_eq_nil_iff.mp (hleft.symm.trans hquiet)
      refine ⟨1, _, Nat.le_succ 1, .batch hnone (.done hquiet), batch, calls, heffects, hcalls, ?_⟩
      rw [hlog, hcalled, List.map_nil, List.append_nil]
    · refine ⟨2, _, Nat.le_refl 2, .batch hnone (.batch hquiet (.done hleft')), batch, calls,
        heffects, hcalls, ?_⟩
      rw [hlog', hlog]

/-- A flush that is not under way goes through its loop and ends.  Nothing is pending then.
What was pending was carried out, each effect once and in its order, and after it calls only,
each to make good a notice that was refused, and at most one for each. -/
theorem KeepsBooks.flush_drains (hhere : here.KeepsBooks b) (hidle : w.1.applying = false) :
    ∃ n w', n ≤ 2 ∧ here.Drains n (here.redeliver ({ w.1 with applying := true }, w.2)) w' ∧
      here.flush w = ({ w'.1 with applying := false }, w'.2) ∧
      (here.flush w).1.pending = [] ∧
      ∃ (batch : List Attempt) (calls : List ContainerCall),
        batch.map Attempt.effect = w.1.pending ∧
        calls.Sublist (batch.filterMap Attempt.remedy?) ∧
        b.log (here.flush w).2 = b.log w.2 ++ batch ++ calls.map .made := by
  obtain ⟨s, x⟩ := w
  obtain ⟨reports, y, hredeliver, -, hsame⟩ := hhere.redeliver { s with applying := true } x
  -- only the reports differ from what the flush began with
  obtain ⟨n, w', hn, hdrains, batch, calls, heffects, hcalls, hlog⟩ :=
    hhere.drains ({ s with applying := true, reports }, y)
  obtain ⟨hnone, fuel, hfuel⟩ := hdrains.applyPending
  have hbound := (hhere.applyPending _ ({ s with applying := true, reports }, y)
    (Scheduler.burden_le_flushBound _)).2
  have hflush : here.flush (s, x) = ({ w'.1 with applying := false }, w'.2) := by
    have hidle : s.applying = false := hidle
    simp only [Surroundings.flush, hidle, Bool.false_eq_true, if_false, hredeliver]
    rw [applyPending_eq hbound (hfuel ▸ hnone), hfuel]
  refine ⟨n, w', hn, hredeliver ▸ hdrains, hflush, hflush ▸ hnone, batch, calls, heffects,
    hcalls, ?_⟩
  rw [hflush, hlog, hsame]

end Surroundings

/-- Two containers are granted, and the application does not hear of the first: it goes back
after the notice of the second. -/
theorem flush_drains_unheard :
    let policy : Policy := ⟨.standard, .alwaysMatch⟩
    let request : TaskRequest :=
      ⟨⟨7⟩, ⟨1024, 1⟩, ⟨5⟩, ⟨[], [], true⟩, ⟨0, ⟨⟨1024, 1⟩, .empty, .empty⟩⟩⟩
    let granted (id : String) (cookie : UInt64) : Container :=
      ⟨⟨id⟩, ⟨"host1", 8041⟩, none, ⟨1024, 1⟩, ⟨5⟩, some ⟨cookie⟩, some request.signature⟩
    let asked := prompted.operate policy (.request request) (prompted.operate policy
      (.request request) (Prompter.start (.connect .zero) [.error .queueFull]))
    let w := (asked.1.after (prompted.context policy asked.2)
      (.hear (.allocated [granted "c_1" 1, granted "c_2" 2])), asked.2)
    w.1.applying = false ∧ (prompted.flush w).1.pending = [] ∧
      (prompted.flush w).2.log.drop w.2.log.length = [.made (.withdraw ⟨1⟩),
        .refused (.taskAllocated ⟨7⟩ ⟨1⟩ (granted "c_1" 1)) .queueFull, .made (.withdraw ⟨2⟩),
        .accepted (.taskAllocated ⟨7⟩ ⟨2⟩ (granted "c_2" 2)), .made (.giveBack ⟨"c_1"⟩)] := by
  intro policy request granted asked w
  have hidle : w.1.applying = false := by decide +kernel
  obtain ⟨-, -, -, -, -, hnone, -⟩ := Prompter.keepsBooks.flush_drains hidle
  exact ⟨hidle, hnone, by decide +kernel⟩

end TaskFleet
