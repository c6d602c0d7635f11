import Mathlib
import OnlineLearning.Proofs.Divisors
import OnlineLearning.Proofs.JournalReadings

/-!
# The progress journal of a run

A journal takes an entry when the number of counted calls reaches a power of two. Between two
entries the losses that scorers record add up apart, and an entry tells their average: in exact
arithmetic that average times the weight of the interval is the loss of the interval.

* `Workspace.successes` is the number of calls of a run that are counted;
* `Journal.Scheduled`: the entries are those of the powers of two up to that number;
* `Intervals` split what a run records at the entries of the journal;
* `Workspace.Apportioned`: the intervals fit entries and statistics;
* `Workspace.progress_journal`: schedule and intervals of the journal of every run.
-/

namespace OnlineLearning

variable {R W : Type}

/-! ## One example -/

namespace Journal

variable [Number W] {j : Journal R W} {s : Stats R W}

theorem observe_of_lt (h : s.exampleNumber < j.nextEntry) (label : Option R) (prediction : R)
    (features : ℕ) : j.observe s label prediction features = (.ok (), j, s) :=
  if_pos h

/-- An entry that is due is taken, if the file can be reached. -/
theorem observe_of_not_lt (hfile : j.file = .reachable) (h : ¬ s.exampleNumber < j.nextEntry)
    (label : Option R) (prediction : R) (features : ℕ) :
    j.observe s label prediction features =
      (.ok (), { j with
          nextEntry := s.exampleNumber * 2
          weightedAtLast := s.weightedLabeledExamples
          entries := j.entries ++ [j.entry s label prediction features] },
        { s with sumLossSinceLastDump := 0 }) := by
  unfold observe
  rw [if_neg h, hfile]

end Journal

/-! ## The schedule -/

namespace Journal

/-- The example numbers of the entries. -/
def numbers (j : Journal R W) : List ℕ := j.entries.map (·.exampleNumber.toNat)

/-- A journal of which the entries are those of the powers of two up to the number of calls, in
order, each of them once. -/
structure Scheduled (j : Journal R W) (calls : ℕ) : Prop where
  ascending : j.numbers.Pairwise (· < ·)
  mem_iff : ∀ n, n ∈ j.numbers ↔ n ≤ calls ∧ ∃ k, n = 2 ^ k

/-- A journal that took its entries in time: as many as the number of calls has binary digits. The
next one is due at the next power of two. -/
structure Due (j : Journal R W) (calls : ℕ) : Prop where
  file_eq : j.file = .reachable
  numbers_eq : j.numbers = (List.range calls.size).map (2 ^ ·)
  nextEntry_eq : j.nextEntry = .ofNat (2 ^ calls.size)

variable {j : Journal R W} {calls : ℕ}

theorem Due.scheduled (h : j.Due calls) : j.Scheduled calls where
  ascending := by
    rw [h.numbers_eq, List.pairwise_map]
    exact List.pairwise_lt_range.imp fun hlt => Nat.pow_lt_pow_right (by decide) hlt
  mem_iff n := by
    simp only [h.numbers_eq, List.mem_map, List.mem_range, Nat.lt_size]
    constructor
    · rintro ⟨k, hk, rfl⟩
      exact ⟨hk, k, rfl⟩
    · rintro ⟨hn, k, rfl⟩
      exact ⟨k, hn, rfl⟩

/-- A journal that took its entries in time sees one more call. After less than `2 ^ 63` calls the
counter holds the number that the next entry is due at. -/
theorem Due.observe [Number W] (h : j.Due calls) (hcalls : calls < 2 ^ 63) {s : Stats R W}
    (hnumber : s.exampleNumber = .ofNat (calls + 1)) (label : Option R) (prediction : R)
    (features : ℕ) :
    let seen := j.observe s label prediction features
    seen.2.1.Due (calls + 1) ∧ seen.2.2.exampleNumber = .ofNat (calls + 1) := by
  intro seen
  have hcounter : calls + 1 < UInt64.size := (Nat.succ_le_of_lt hcalls).trans_lt (by decide)
  have hpower : 2 ^ calls.size < UInt64.size :=
    (Nat.pow_le_pow_right (by decide) (Nat.size_le.mpr hcalls)).trans_lt (by decide : 2 ^ 63 < _)
  have hlt : s.exampleNumber < j.nextEntry ↔ calls + 1 < 2 ^ calls.size := by
    rw [hnumber, h.nextEntry_eq, UInt64.lt_iff_toNat_lt, UInt64.toNat_ofNat_of_lt' hcounter,
      UInt64.toNat_ofNat_of_lt' hpower]
  by_cases hdue : calls + 1 < 2 ^ calls.size
  · have hseen : seen = _ := observe_of_lt (hlt.mpr hdue) label prediction features
    have hsame : (calls + 1).size = calls.size :=
      (Nat.size_le.mpr hdue).antisymm (Nat.size_le_size (Nat.le_succ calls))
    rw [hseen]
    exact ⟨⟨h.file_eq, hsame ▸ h.numbers_eq, hsame ▸ h.nextEntry_eq⟩, hnumber⟩
  · have hseen : seen = _ :=
      observe_of_not_lt h.file_eq (hlt.not.mpr hdue) label prediction features
    have hreached : calls + 1 = 2 ^ calls.size := by
      have hbelow := calls.lt_size_self
      omega
    have hgrown : (calls + 1).size = calls.size + 1 := by rw [hreached, Nat.size_pow]
    rw [hseen]
    refine ⟨⟨h.file_eq, ?_, ?_⟩, hnumber⟩
    · have hentry : (j.entry s label prediction features).exampleNumber.toNat = 2 ^ calls.size := by
        rw [← hreached]
        change s.exampleNumber.toNat = _
        rw [hnumber, UInt64.toNat_ofNat_of_lt' hcounter]
      change (j.entries ++ [_]).map _ = _
      rw [List.map_append, hgrown, List.range_succ, List.map_append, ← h.numbers_eq]
      exact congrArg (j.numbers ++ [·]) hentry
    · change s.exampleNumber * 2 = _
      rw [hnumber, hgrown, hreached, Nat.pow_succ, UInt64.ofNat_mul]
      rfl

end Journal

namespace Workspace

variable [Scalar R] [Number W] [Widening R W] {w : Workspace R W} {calls : ℕ}

/-- The number of calls of a run that predict or learn, and succeed. -/
def successes (w : Workspace R W) : List (Step R) → ℕ
  | [] => 0
  | step :: rest => (w.counts step).toNat + (w.step step).successes rest

/-- A workspace with a journal that took its entries in time. -/
structure OnSchedule (w : Workspace R W) (calls : ℕ) : Prop where
  exampleNumber_eq : w.chain.context.stats.exampleNumber = .ofNat calls
  journal : ∃ j, w.journal = some j ∧ j.Due calls

theorem OnSchedule.step (h : w.OnSchedule calls) (step : Step R)
    (hcalls : calls + (w.counts step).toNat ≤ 2 ^ 63) :
    (w.step step).OnSchedule (calls + (w.counts step).toNat) := by
  obtain ⟨j, hj, hdue⟩ := h.journal
  have hstep : w.Enters (fun x => x.exampleNumber = .ofNat calls) (w.step step) (w.counts step) :=
    step_enters (fun _ _ _ _ hx => hx) (reachable_of_journal hj hdue.file_eq) h.exampleNumber_eq
      step
  generalize w.step step = left at hstep ⊢
  generalize w.counts step = counted at hstep hcalls ⊢
  cases hstep with
  | passed hreadings hsame => exact ⟨hreadings, j, hsame.trans hj, hdue⟩
  | counted context label prediction features hreadings htally =>
    have hnumber : (context.stats.recordExample features).exampleNumber = .ofNat (calls + 1) := by
      change context.stats.exampleNumber + 1 = _
      rw [show context.stats.exampleNumber = _ from hreadings]
      exact (UInt64.ofNat_add calls 1).symm
    obtain ⟨hnext, hkept⟩ :=
      hdue.observe (Nat.lt_of_succ_le hcalls) hnumber label prediction features
    obtain ⟨hstats, hseen⟩ := seen_of_tally (hj ▸ htally)
    exact ⟨hstats ▸ hkept, _, hseen, hnext⟩

theorem OnSchedule.after (h : w.OnSchedule calls) (past : List (Step R))
    (hcalls : calls + w.successes past ≤ 2 ^ 63) :
    (w.after past).OnSchedule (calls + w.successes past) := by
  induction past generalizing w calls with
  | nil => exact h
  | cons step rest ih =>
    unfold successes at hcalls ⊢
    rw [← Nat.add_assoc] at hcalls ⊢
    exact ih (h.step step (by omega)) hcalls

/-- A new workspace has a journal if its configuration names a file. -/
theorem exists_journal_of_new {c : Config R} (hlog : c.run.progressLog ≠ "")
    {w₀ : Workspace R W} (hnew : Workspace.new c = .ok w₀) :
    w₀.journal = some (.empty .reachable) ∧
      w₀.chain.context.stats = Stats.initial c.scorer.loss := by
  have hfresh := fresh_of_new hnew
  refine ⟨?_, Config.stats_of_initialContext hfresh.context_eq⟩
  rw [hfresh.journal_eq]
  exact if_neg (by rwa [String.isEmpty_iff])

theorem onSchedule_of_new {c : Config R} (hlog : c.run.progressLog ≠ "")
    {w₀ : Workspace R W} (hnew : Workspace.new c = .ok w₀) : w₀.OnSchedule 0 := by
  obtain ⟨hjournal, hstats⟩ := exists_journal_of_new hlog hnew
  exact ⟨hstats ▸ rfl, _, hjournal, rfl, rfl, rfl⟩

end Workspace

/-! ## The intervals -/

/-- What a run has recorded, split at the entries of the journal: what belongs to each entry, and
what was recorded since the last one. -/
structure Intervals (W : Type) where
  closed : List (LossSums W)
  current : LossSums W

namespace Workspace

def sums (w : Workspace R W) : LossSums W := w.chain.context.stats.learned

def entries (w : Workspace R W) : List (JournalEntry R W) :=
  (w.journal.map Journal.entries).getD []

end Workspace

variable {K : Type} [ExactNumber K]

namespace LossSums

/-- Sums `s` with what was recorded while other sums went from `before` to `now`. -/
def advance (s before now : LossSums K) : LossSums K :=
  s.add (now.loss - before.loss) (now.weight - before.weight)

@[simp] theorem advance_self (s now : LossSums K) : s.advance now now = s := by
  simp [advance, add]

theorem advance_add (s before now : LossSums K) (loss weight : K) :
    s.advance before (now.add loss weight) = (s.advance before now).add loss weight := by
  unfold advance add
  congr 1 <;> ring

theorem loss_advance {s before : LossSums K} {a : K} (h : before.loss = a + s.loss)
    (now : LossSums K) : now.loss = a + (s.advance before now).loss := by
  change _ = a + (s.loss + (now.loss - before.loss))
  rw [h]
  ring

theorem weight_advance {s before : LossSums K} {a : K} (h : before.weight = a + s.weight)
    (now : LossSums K) : now.weight = a + (s.advance before now).weight := by
  change _ = a + (s.weight + (now.weight - before.weight))
  rw [h]
  ring

/-- Sums of records of positive weight. Without weight there is no loss. -/
def Funded (s : LossSums K) : Prop := 0 < s.weight ∨ s.weight = 0 ∧ s.loss = 0

theorem Funded.add {s : LossSums K} (h : s.Funded) (loss : K) {weight : K} (hweight : 0 < weight) :
    (s.add loss weight).Funded := by
  have hnonneg : 0 ≤ s.weight := by
    rcases h with hpos | ⟨hzero, -⟩
    · exact hpos.le
    · exact hzero.ge
  exact .inl (add_pos_of_nonneg_of_pos hnonneg hweight)

end LossSums

namespace Intervals

/-- What a step records goes to the current interval, which ends with the step if that makes an
entry. -/
def extend (i : Intervals K) (w left : Workspace K K) : Intervals K :=
  let current := i.current.advance w.sums left.sums
  if w.entries.length < left.entries.length then ⟨i.closed ++ [current], ⟨0, 0⟩⟩
  else ⟨i.closed, current⟩

/-- What a run adds to intervals. -/
def along (i : Intervals K) (w : Workspace K K) : List (Step K) → Intervals K
  | [] => i
  | step :: rest => (i.extend w (w.step step)).along (w.step step) rest

end Intervals

/-- The intervals of a run from a new workspace. -/
def Workspace.intervals (w : Workspace K K) (past : List (Step K)) : Intervals K :=
  Intervals.along ⟨[], ⟨0, 0⟩⟩ w past

/-- The average loss of an interval times its weight is its loss. -/
theorem Journal.sinceLast_mul {j : Journal K K} {s : Stats K K} {x : LossSums K} (h : x.Funded)
    (hweight : s.weightedLabeledExamples = j.weightedAtLast + x.weight)
    (hloss : s.sumLossSinceLastDump = x.loss) (label : Option K) (prediction : K) (features : ℕ) :
    (j.entry s label prediction features).sinceLast * x.weight = x.loss := by
  have hsince : s.weightedLabeledExamples - j.weightedAtLast = x.weight := by
    rw [hweight, add_sub_cancel_left]
  unfold entry
  dsimp only
  rw [hsince, hloss, ExactNumber.ofNat_zero]
  rcases h with hpos | ⟨hzero, hnone⟩
  · rw [if_pos hpos, div_mul_cancel₀ _ hpos.ne']
  · rw [hzero, hnone, mul_zero]

namespace Workspace

/-- What a run has recorded belongs to its intervals: the closed ones fit their entries, and the
current one fits the statistics and what the journal noted last. -/
structure Apportioned (w : Workspace K K) (i : Intervals K) : Prop where
  journal : ∃ j, w.journal = some j ∧ j.file = .reachable ∧
    List.Forall₂ (fun e x => e.sinceLast * x.weight = x.loss) j.entries i.closed ∧
    w.sums.weight = j.weightedAtLast + i.current.weight
  loss : w.sums.loss = (i.closed.map LossSums.loss).sum + i.current.loss
  sinceEntry : w.chain.context.stats.sumLossSinceLastDump = i.current.loss
  funded : i.current.Funded

variable {w left : Workspace K K} {i : Intervals K}

/-- The readings while a step is under way: what was recorded since `w` belongs to the current
interval. -/
def Continues (w : Workspace K K) (i : Intervals K) (x : Readings K) : Prop :=
  let current := i.current.advance w.sums x.learned
  x.sinceEntry = current.loss ∧ current.Funded

theorem continues_lasts (w : Workspace K K) (i : Intervals K) :
    Readings.Lasts K (w.Continues i) := by
  intro x loss weight hweight ⟨hsince, hfunded⟩
  unfold Continues Readings.record
  dsimp only
  rw [LossSums.advance_add]
  exact ⟨congrArg (· + loss) hsince, hfunded.add loss (by rwa [ExactNumber.ofNat_zero] at hweight)⟩

theorem Apportioned.continues (h : w.Apportioned i) :
    w.Continues i w.chain.context.stats.readings := by
  have hsame : i.current.advance w.sums w.chain.context.stats.readings.learned = i.current :=
    LossSums.advance_self i.current w.sums
  unfold Continues
  dsimp only
  rw [hsame]
  exact ⟨h.sinceEntry, h.funded⟩

/-- Without a new entry the current interval goes on. -/
theorem Apportioned.goes_on (h : w.Apportioned i) (hjournal : left.journal = w.journal)
    (hreadings : w.Continues i left.chain.context.stats.readings) :
    left.Apportioned (i.extend w left) := by
  obtain ⟨j, hj, hfile, hclosed, hweight⟩ := h.journal
  have hextend : i.extend w left = ⟨i.closed, i.current.advance w.sums left.sums⟩ := by
    have hentries : left.entries = w.entries := by rw [entries, entries, hjournal]
    exact if_neg (by rw [hentries]; exact lt_irrefl _)
  rw [hextend]
  exact ⟨⟨j, hjournal.trans hj, hfile, hclosed, LossSums.weight_advance hweight _⟩,
    LossSums.loss_advance h.loss _, hreadings.1, hreadings.2⟩

/-- A new entry tells the average of the interval that it closes. -/
theorem Apportioned.closes (h : w.Apportioned i) {j : Journal K K} (hj : w.journal = some j)
    {s : Stats K K} (hreadings : w.Continues i s.readings) {number : UInt64} {label : Option K}
    {prediction : K} {features : ℕ}
    (hjournal : left.journal = some { j with
      nextEntry := number
      weightedAtLast := s.weightedLabeledExamples
      entries := j.entries ++ [j.entry s label prediction features] })
    (hsums : left.sums = s.learned) (hsince : left.chain.context.stats.sumLossSinceLastDump = 0) :
    left.Apportioned (i.extend w left) := by
  obtain ⟨_, hsome, hfile, hclosed, hweight⟩ := h.journal
  cases hj.symm.trans hsome
  have hextend : i.extend w left = ⟨i.closed ++ [i.current.advance w.sums s.learned], ⟨0, 0⟩⟩ := by
    have hgrown : w.entries.length < left.entries.length := by
      rw [entries, entries, hj, hjournal]
      simp
    rw [← hsums]
    exact if_pos hgrown
  have hentry := Journal.sinceLast_mul hreadings.2 (LossSums.weight_advance hweight s.learned)
    hreadings.1 label prediction features
  rw [hextend]
  refine ⟨⟨_, hjournal, hfile, List.rel_append hclosed (.cons hentry .nil), ?_⟩, ?_, hsince,
    .inr ⟨rfl, rfl⟩⟩
  · rw [hsums]
    exact (add_zero _).symm
  · rw [hsums, LossSums.loss_advance h.loss s.learned]
    simp

theorem Apportioned.step (h : w.Apportioned i) (step : Step K) :
    (w.step step).Apportioned (i.extend w (w.step step)) := by
  obtain ⟨j, hj, hfile, -⟩ := h.journal
  have hstep : w.Enters (w.Continues i) (w.step step) (w.counts step) :=
    step_enters (continues_lasts w i) (reachable_of_journal hj hfile) h.continues step
  generalize w.step step = left at hstep ⊢
  generalize w.counts step = counted at hstep
  cases hstep with
  | passed hreadings hsame => exact h.goes_on hsame hreadings
  | counted context label prediction features hreadings htally =>
    obtain ⟨hstats, hseen⟩ := seen_of_tally (hj ▸ htally)
    by_cases hdue : (context.stats.recordExample features).exampleNumber < j.nextEntry
    · rw [Journal.observe_of_lt hdue] at hstats hseen
      exact h.goes_on (hseen.trans hj.symm) (hstats ▸ hreadings)
    · rw [Journal.observe_of_not_lt hfile hdue] at hstats hseen
      have hsums : left.sums = (context.stats.recordExample features).learned := by
        rw [sums, hstats]
        rfl
      have hsince : left.chain.context.stats.sumLossSinceLastDump = 0 := by
        rw [hstats]
        exact ExactNumber.ofNat_zero
      exact h.closes hj (s := context.stats.recordExample features) hreadings hseen hsums hsince

theorem Apportioned.after (h : w.Apportioned i) (past : List (Step K)) :
    (w.after past).Apportioned (i.along w past) := by
  induction past generalizing w i with
  | nil => exact h
  | cons step rest ih => exact ih (h.step step)

theorem apportioned_of_new {c : Config K} (hlog : c.run.progressLog ≠ "") {w₀ : Workspace K K}
    (hnew : Workspace.new c = .ok w₀) : w₀.Apportioned ⟨[], ⟨0, 0⟩⟩ := by
  obtain ⟨hjournal, hstats⟩ := exists_journal_of_new hlog hnew
  have hzero : (@OfNat.ofNat K 0 (Number.instOfNat 0)) = 0 := ExactNumber.ofNat_zero
  refine ⟨⟨_, hjournal, rfl, .nil, ?_⟩, ?_, ?_, .inr ⟨rfl, rfl⟩⟩
  · rw [sums, hstats]
    exact (add_zero _).symm
  · rw [sums, hstats]
    exact hzero.trans (add_zero _).symm
  · rw [hstats]
    exact hzero

/-! ## Runs -/

/-- The progress journal of every run from a new workspace whose configuration names a file,
whatever was predicted and learned, failed calls and ends of passes included. Its entries are those
of the powers of two up to the number of calls that were counted, in order, each of them once; after
`2 ^ 63` calls the doubled counter overflows.

In exact arithmetic the average that an entry tells, times the weight recorded since the entry
before, is the loss recorded since then, and these losses and the current one add up to the loss of
the run. -/
theorem progress_journal :
    (∀ (R W : Type) [Scalar R] [Number W] [Widening R W] (c : Config R) (w₀ : Workspace R W),
      c.run.progressLog ≠ "" → Workspace.new c = .ok w₀ → ∀ past : List (Step R),
        w₀.successes past ≤ 2 ^ 63 → ∃ j, (w₀.after past).journal = some j ∧
          j.Scheduled (w₀.successes past)) ∧
    ∀ (K : Type) [ExactNumber K] (c : Config K) (w₀ : Workspace K K),
      c.run.progressLog ≠ "" → Workspace.new c = .ok w₀ → ∀ past : List (Step K),
        let i := w₀.intervals past
        let stats := (w₀.after past).chain.context.stats
        List.Forall₂ (fun e x => e.sinceLast * x.weight = x.loss) (w₀.after past).entries
            i.closed ∧
          stats.sumLossSinceLastDump = i.current.loss ∧
          (i.closed.map LossSums.loss).sum + stats.sumLossSinceLastDump = stats.sumLoss := by
  refine ⟨fun R W _ _ _ c w₀ hlog hnew past hcalls => ?_, fun K _ c w₀ hlog hnew past => ?_⟩
  · have hschedule := (onSchedule_of_new hlog hnew).after past (by rwa [Nat.zero_add])
    rw [Nat.zero_add] at hschedule
    obtain ⟨j, hj, hdue⟩ := hschedule.journal
    exact ⟨j, hj, hdue.scheduled⟩
  · intro i stats
    have hparts : (w₀.after past).Apportioned i := (apportioned_of_new hlog hnew).after past
    obtain ⟨j, hj, -, hclosed, -⟩ := hparts.journal
    refine ⟨?_, hparts.sinceEntry, ?_⟩
    · rw [entries, hj]
      exact hclosed
    · rw [hparts.sinceEntry]
      exact hparts.loss.symm

end Workspace

/-! ## A run with a journal -/

namespace Config

/-- A configuration with a journal. -/
def journaled (c : Config R) : Config R := { c with run := { c.run with progressLog := "journal" } }

def defaultJournaled : Config Float32 := (default : Config Float32).journaled

def journaledWorkspace : Workspace Float32 Float :=
  (Workspace.new defaultJournaled : Except _ (Workspace Float32 Float)).toOption.get
    (by decide +kernel)

theorem new_defaultJournaled : Workspace.new defaultJournaled = .ok journaledWorkspace :=
  Workspace.new_eq_get _

end Config

namespace Workspace

/-- Three examples are learned and one is predicted; a lesson from a label of the wrong form
fails. -/
theorem progress_journal_of_calls :
    let ec : Example Float32 := { Example.blank with label := .simple (some 1) }
    let past := [.call (.learn ec), .call (.predict ec), .call (.learn ec), .endPass,
      .call (.learn { ec with label := .bandit [] }), .call (.learn ec)]
    let w₀ := Config.journaledWorkspace
    (Config.defaultJournaled.run.progressLog ≠ "" ∧
      Workspace.new Config.defaultJournaled = .ok w₀ ∧ w₀.successes past = 4 ∧
      ∃ j, (w₀.after past).journal = some j ∧ j.Scheduled (w₀.successes past)) ∧
    ((Config.unsmoothed : Config ℝ).journaled.run.progressLog ≠ "" ∧ ∃ w₀ : Workspace ℝ ℝ,
      Workspace.new Config.unsmoothed.journaled = .ok w₀ ∧ ∀ past : List (Step ℝ),
        let i := w₀.intervals past
        let stats := (w₀.after past).chain.context.stats
        List.Forall₂ (fun e x => e.sinceLast * x.weight = x.loss) (w₀.after past).entries
            i.closed ∧
          stats.sumLossSinceLastDump = i.current.loss ∧
          (i.closed.map LossSums.loss).sum + stats.sumLossSinceLastDump = stats.sumLoss) := by
  intro ec past w₀
  have hlog : Config.defaultJournaled.run.progressLog ≠ "" := by decide
  have hcalls : w₀.successes past = 4 := by decide +kernel
  have hexact : (Config.unsmoothed : Config ℝ).journaled.run.progressLog ≠ "" :=
    by simp [Config.journaled]
  obtain ⟨exact₀, hnew⟩ := Config.exists_new (W := ℝ)
    (c := (Config.unsmoothed : Config ℝ).journaled) Config.validate_unsmoothed nofun
  exact ⟨⟨hlog, Config.new_defaultJournaled, hcalls,
      progress_journal.1 _ _ _ _ hlog Config.new_defaultJournaled past (by rw [hcalls]; decide)⟩,
    hexact, exact₀, hnew, progress_journal.2 _ _ _ hexact hnew⟩

end Workspace

end OnlineLearning
