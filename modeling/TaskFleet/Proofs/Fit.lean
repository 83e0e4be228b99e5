import Mathlib.Data.List.Nodup
import TaskFleet.Proofs.Identifier
import TaskFleet.Proofs.Matcher
import TaskFleet.Proofs.Resource
import TaskFleet.Proofs.Reuse

/-!
# The tightest fit

A request that picks an idle container looks at the held containers one after another and
remembers the best so far.  What it ends with is the least of those that could run it
(`Matcher.Tightest`): the one with the least memory to spare, then with the fewest cores to
spare, then with the first name.  Names are distinct, so there is only one, and it does not
matter in which order the containers are looked at (`pickIdle?_tightest`).

The running best is compared by `Fit.better`, a comparison of words and texts;
`Holding.Tighter` is the same order on numbers and bytes.
-/

namespace TaskFleet

/-! ## The order of fits -/

namespace Fit

variable {a b c : Fit}

theorem better_iff : a.better b = true ↔
    a.1.1 < b.1.1 ∨ a.1.1 = b.1.1 ∧ (a.1.2 < b.1.2 ∨ a.1.2 = b.1.2 ∧ a.2 < b.2) := by
  simp only [better, Bool.or_eq_true, Bool.and_eq_true, decide_eq_true_eq]

/-- What is to spare decides, and where it is the same the name. -/
theorem better_iff_lex : a.better b = true ↔
    Prod.Lex (· < ·) (· < ·) a.1 b.1 ∨ a.1 = b.1 ∧ a.2 < b.2 := by
  rw [better_iff, Prod.lex_def, Prod.ext_iff]
  constructor
  · rintro (hmemory | ⟨hmemory, hcores | ⟨hcores, hname⟩⟩)
    · exact .inl (.inl hmemory)
    · exact .inl (.inr ⟨hmemory, hcores⟩)
    · exact .inr ⟨⟨hmemory, hcores⟩, hname⟩
  · rintro ((hmemory | ⟨hmemory, hcores⟩) | ⟨⟨hmemory, hcores⟩, hname⟩)
    · exact .inl hmemory
    · exact .inr ⟨hmemory, .inl hcores⟩
    · exact .inr ⟨hmemory, .inr ⟨hcores, hname⟩⟩

theorem better_irrefl (a : Fit) : a.better a = false := by
  rw [← Bool.not_eq_true, better_iff]
  rintro (hlt | ⟨-, hlt | ⟨-, hlt⟩⟩)
  · exact UInt64.lt_irrefl _ hlt
  · exact UInt32.lt_irrefl _ hlt
  · exact Key.irrefl _ hlt

theorem better_trans (hab : a.better b = true) (hbc : b.better c = true) :
    a.better c = true := by
  rw [better_iff] at *
  have hnames : a.2 < b.2 → b.2 < c.2 → a.2 < c.2 := Key.trans
  grind

/-- Of two different fits one is better. -/
theorem eq_of_not_better (hab : a.better b = false) (hba : b.better a = false) : a = b := by
  rw [← Bool.not_eq_true, better_iff] at hab hba
  have hnames : ¬ a.2 < b.2 → ¬ b.2 < a.2 → a.2 = b.2 := Key.total
  grind

/-- What beats one of two fits in order beats the worse one. -/
theorem not_better_trans (hba : b.better a = false) (hcb : c.better b = false) :
    c.better a = false := by
  refine Bool.eq_false_iff.mpr fun hca => ?_
  cases hab : a.better b with
  | true => rw [better_trans hca hab] at hcb; cases hcb
  | false => rw [eq_of_not_better hab hba] at hca; rw [hca] at hcb; cases hcb

end Fit

namespace Holding

variable {capability : Resource} {a b : Holding}

/-- How much more of a part the container has than was asked for. -/
def spare (h : Holding) (capability : Resource) (p : Resource.Part) : Nat :=
  h.container.resource.amount p - capability.amount p

/-- `a` fits tighter than `b`: it has less memory to spare, or as much memory and fewer cores,
or as much of both and the bytes of its name come first. -/
def Tighter (capability : Resource) (a b : Holding) : Prop :=
  a.spare capability .memory < b.spare capability .memory ∨
  a.spare capability .memory = b.spare capability .memory ∧
    (a.spare capability .cores < b.spare capability .cores ∨
    a.spare capability .cores = b.spare capability .cores ∧
      a.container.id.bytes < b.container.id.bytes)

theorem tighter_iff : a.Tighter capability b ↔
    (Fit.of capability a).better (Fit.of capability b) = true := by
  have hmemory (h : Holding) : (Fit.of capability h).1.1.toNat = h.spare capability .memory :=
    Resource.toNat_slackOver_memory ..
  have hcores (h : Holding) : (Fit.of capability h).1.2.toNat = h.spare capability .cores :=
    Resource.toNat_slackOver_cores ..
  rw [Fit.better_iff, UInt64.lt_iff_toNat_lt, UInt32.lt_iff_toNat_lt, ← UInt64.toNat_inj,
    ← UInt32.toNat_inj, hmemory, hmemory, hcores, hcores, ContainerId.lt_iff_bytes]
  rfl

theorem not_tighter_of_tighter (hab : a.Tighter capability b) : ¬ b.Tighter capability a := by
  intro hba
  rw [tighter_iff] at hab hba
  have hself := Fit.better_trans hab hba
  rw [Fit.better_irrefl] at hself
  cases hself

/-- Of two containers with different names one fits tighter. -/
theorem tighter_of_not_better (hne : a.container.id ≠ b.container.id)
    (hba : (Fit.of capability b).better (Fit.of capability a) = false) :
    a.Tighter capability b := by
  rw [tighter_iff]
  refine Classical.byContradiction fun hab => hne ?_
  exact congrArg Prod.snd (Fit.eq_of_not_better (Bool.eq_false_iff.mpr hab) hba)

end Holding

/-! ## The running best -/

/-- A test that always answers keeps the members that pass. -/
theorem keepWhere_eq_filter {ε α : Type} {test : α → Except ε Bool} {passes : α → Bool}
    (htest : ∀ a, test a = .ok (passes a)) (as : List α) :
    keepWhere test as = .ok (as.filter passes) := by
  induction as with
  | nil => rfl
  | cons a as ih =>
      rw [keepWhere, htest, ih]
      cases hpasses : passes a <;> simp [hpasses, bind, Except.bind, pure, Except.pure]

/-- The better of two fits is beaten by neither. -/
theorem betterFit_spec (best : Option Fit) (fit : Fit) :
    ∃ better, betterFit best fit = some better ∧ fit.better better = false ∧
      ∀ old, best = some old → old.better better = false := by
  cases best with
  | none => exact ⟨fit, rfl, Fit.better_irrefl fit, nofun⟩
  | some old =>
      cases hbetter : fit.better old with
      | false =>
          refine ⟨old, by simp [betterFit, hbetter], hbetter, fun old' hold => ?_⟩
          cases hold
          exact Fit.better_irrefl old
      | true =>
          refine ⟨fit, by simp [betterFit, hbetter], Fit.better_irrefl fit, fun old' hold => ?_⟩
          cases hold
          refine Bool.eq_false_iff.mpr fun hworse => ?_
          have hself := Fit.better_trans hbetter hworse
          rw [Fit.better_irrefl] at hself
          cases hself

/-- Nothing that was looked at beats the best. -/
theorem foldl_betterFit_least {fits : List Fit} {best : Option Fit} {least : Fit}
    (hleast : fits.foldl betterFit best = some least) :
    (∀ fit ∈ fits, fit.better least = false) ∧
      ∀ old, best = some old → old.better least = false := by
  induction fits generalizing best with
  | nil =>
      refine ⟨fun fit hfit => absurd hfit List.not_mem_nil, fun old hold => ?_⟩
      cases hold.symm.trans hleast
      exact Fit.better_irrefl _
  | cons first rest ih =>
      obtain ⟨better, hbetter, hfirst, hbest⟩ := betterFit_spec best first
      obtain ⟨hrest, hlater⟩ := ih hleast
      have hsoFar := hlater better hbetter
      refine ⟨?_, fun old hold => Fit.not_better_trans hsoFar (hbest old hold)⟩
      intro fit hfit
      rcases List.mem_cons.mp hfit with rfl | hfit
      · exact Fit.not_better_trans hsoFar hfirst
      · exact hrest fit hfit

/-! ## The pick -/

namespace Matcher

variable {m : Matcher} {required : TaskRequest} {held held' : List Holding} {h best : Holding}

/-- The container is idle and could run the request. -/
def Reusable (m : Matcher) (required : TaskRequest) (h : Holding) : Prop :=
  h.isIdle = true ∧ m.CanRun h required

/-- Of the containers that could run the request, this one fits tighter than every other. -/
structure Tightest (m : Matcher) (required : TaskRequest) (held : List Holding)
    (best : Holding) : Prop where
  member : best ∈ held
  reusable : m.Reusable required best
  tighter : ∀ h ∈ held, m.Reusable required h → h ≠ best → best.Tighter required.capability h

theorem Tightest.unique {other : Holding} (hbest : m.Tightest required held best)
    (hother : m.Tightest required held other) : other = best := by
  refine Classical.byContradiction fun hne => ?_
  apply Holding.not_tighter_of_tighter (hbest.tighter other hother.member hother.reusable hne)
  exact hother.tighter best hbest.member hbest.reusable (Ne.symm hne)

/-- Which container fits best does not depend on the order of the containers. -/
theorem Tightest.perm (hperm : held'.Perm held) (hbest : m.Tightest required held best) :
    m.Tightest required held' best where
  member := hperm.mem_iff.mpr hbest.member
  reusable := hbest.reusable
  tighter h hh := hbest.tighter h (hperm.mem_iff.mp hh)

/-- The containers that could run the request. -/
def reusable (m : Matcher) (required : TaskRequest) (held : List Holding) : List Holding :=
  (held.filter fun h => h.isIdle && h.container.resource.covers required.capability).filter
    fun h => m.serves h required

theorem mem_reusable_iff :
    h ∈ m.reusable required held ↔ h ∈ held ∧ m.Reusable required h := by
  simp only [reusable, List.mem_filter, Bool.and_eq_true, Reusable, CanRun, serves_iff, and_assoc]

end Matcher

section

variable {m : Matcher} {required : TaskRequest}

theorem pickIdle?_eq (hm : m.Answers) (required : TaskRequest) (held : List Holding) :
    pickIdle? m required held = .ok ((((m.reusable required held).map
      (Fit.of required.capability)).foldl betterFit none).map Prod.snd) := by
  unfold pickIdle?
  dsimp only
  rw [keepWhere_eq_filter fun h => hm.superset h required]
  rfl

/-- A request picks nothing, and then nothing could run it, or it picks the tightest fit. -/
theorem pickIdle?_spec (hm : m.Answers) {held : List Holding}
    (hnames : (held.map fun h => h.container.id).Nodup) :
    (pickIdle? m required held = .ok none ∧ ∀ h ∈ held, ¬ m.Reusable required h) ∨
    ∃ best, m.Tightest required held best ∧
      pickIdle? m required held = .ok (some best.container.id) := by
  rw [pickIdle?_eq hm]
  cases hfold : ((m.reusable required held).map (Fit.of required.capability)).foldl
      betterFit none with
  | none =>
      refine .inl ⟨rfl, fun h hh hreusable => ?_⟩
      have hnone := List.map_eq_nil_iff.mp (foldl_betterFit_eq_none hfold).1
      have hmem := Matcher.mem_reusable_iff.mpr ⟨hh, hreusable⟩
      rw [hnone] at hmem
      cases hmem
  | some least =>
      obtain ⟨best, hbest, rfl⟩ : ∃ best ∈ m.reusable required held,
          Fit.of required.capability best = least := by
        rcases foldl_betterFit_mem hfold with hmem | hnone
        · exact List.mem_map.mp hmem
        · cases hnone
      obtain ⟨hheld, hreusable⟩ := Matcher.mem_reusable_iff.mp hbest
      refine .inr ⟨best, ⟨hheld, hreusable, fun h hh hcan hne => ?_⟩, rfl⟩
      apply Holding.tighter_of_not_better
      · intro hsame
        exact hne (List.inj_on_of_nodup_map hnames hh hheld hsame.symm)
      · apply (foldl_betterFit_least hfold).1
        exact List.mem_map_of_mem (Matcher.mem_reusable_iff.mpr ⟨hh, hcan⟩)

end

/-- A request picks no container if and only if none of the idle ones could run it.  Where
some could, one fits tighter than all others, there is no second one that does, and it is the
one that is picked.  In whatever order the containers are looked at, the answer is the same. -/
theorem pickIdle?_tightest (kind : MatcherKind) (required : TaskRequest) (held : List Holding)
    (hnames : (held.map fun h => h.container.id).Nodup) :
    (pickIdle? kind.matcher required held = .ok none ↔
      ∀ h ∈ held, ¬ kind.matcher.Reusable required h) ∧
    ((∃ h ∈ held, kind.matcher.Reusable required h) →
      ∃ best, kind.matcher.Tightest required held best ∧
        (∀ other, kind.matcher.Tightest required held other → other = best) ∧
        pickIdle? kind.matcher required held = .ok (some best.container.id)) ∧
    ∀ held', held'.Perm held →
      pickIdle? kind.matcher required held' = pickIdle? kind.matcher required held := by
  have hm := kind.answers
  refine ⟨⟨?_, fun hnone => ?_⟩, ?_, fun held' hperm => ?_⟩
  · rintro hpick h hh ⟨hidle, hrun⟩
    exact pickIdle?_complete hpick hh hidle hrun
  · rcases pickIdle?_spec hm hnames with ⟨hpick, -⟩ | ⟨best, hbest, -⟩
    · exact hpick
    · exact absurd hbest.reusable (hnone best hbest.member)
  · rintro ⟨h, hh, hcan⟩
    rcases pickIdle?_spec hm hnames with ⟨-, hnone⟩ | ⟨best, hbest, hpick⟩
    · exact absurd hcan (hnone h hh)
    · exact ⟨best, hbest, fun other hother => hbest.unique hother, hpick⟩
  · have hnames' : (held'.map fun h => h.container.id).Nodup :=
      (hperm.map _).nodup_iff.mpr hnames
    rcases pickIdle?_spec hm hnames with ⟨hpick, hnone⟩ | ⟨best, hbest, hpick⟩ <;>
      rcases pickIdle?_spec hm hnames' with ⟨hpick', hnone'⟩ | ⟨best', hbest', hpick'⟩
    · rw [hpick, hpick']
    · exact absurd hbest'.reusable (hnone best' (hperm.mem_iff.mp hbest'.member))
    · exact absurd hbest.reusable (hnone' best (hperm.mem_iff.mpr hbest.member))
    · rw [hpick, hpick', (hbest.perm hperm).unique hbest']

/-- Of two containers that leave as much to spare the one with the first name is picked, in
this order and in the other.  One that fits tighter was launched with another file, one runs a
request, one is too small, and one has as much memory to spare but more cores. -/
theorem pickIdle?_tightest_ties :
    let signature (version : String) : Signature :=
      ⟨0, ⟨⟨1024, 1⟩, .ofList [("app", version)], .empty⟩⟩
    let required : TaskRequest := ⟨⟨7⟩, ⟨1024, 1⟩, ⟨5⟩, ⟨[], [], true⟩, signature "v2"⟩
    let holding (name version : String) (resource : Resource) (assignment : Assignment) :
        Holding :=
      ⟨⟨⟨name⟩, ⟨"host1", 8041⟩, none, resource, ⟨5⟩, none, none⟩, signature version,
        assignment, .epoch, ⟨1⟩⟩
    let held := [holding "c_1" "v1" ⟨1024, 1⟩ (.idle .epoch),
      holding "c_2" "v2" ⟨1024, 1⟩ (.active ⟨1⟩), holding "c_3" "v2" ⟨512, 1⟩ (.idle .epoch),
      holding "c_4" "v2" ⟨2048, 4⟩ (.idle .epoch), holding "c_6" "v2" ⟨2048, 2⟩ (.idle .epoch),
      holding "c_5" "v2" ⟨2048, 2⟩ (.idle .epoch)]
    (held.map fun h => h.container.id).Nodup ∧
      (∃ best, MatcherKind.launchContext.matcher.Tightest required held best) ∧
      pickIdle? MatcherKind.launchContext.matcher required held = .ok (some ⟨"c_5"⟩) ∧
      pickIdle? MatcherKind.launchContext.matcher required held.reverse =
        .ok (some ⟨"c_5"⟩) := by
  intro signature required holding held
  have hnames : (held.map fun h => h.container.id).Nodup := by decide
  have hpick : pickIdle? MatcherKind.launchContext.matcher required held =
      .ok (some ⟨"c_5"⟩) := by
    decide +kernel
  obtain ⟨-, htightest, horder⟩ := pickIdle?_tightest .launchContext required held hnames
  obtain ⟨best, hbest, -, -⟩ := htightest
    ⟨holding "c_4" "v2" ⟨2048, 4⟩ (.idle .epoch), by decide, by decide, by decide, by decide⟩
  exact ⟨hnames, ⟨best, hbest⟩, hpick, (horder _ held.reverse_perm).trans hpick⟩

end TaskFleet
