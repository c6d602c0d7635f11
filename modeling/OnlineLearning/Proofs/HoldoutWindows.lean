import OnlineLearning.Proofs.HeldOut
import OnlineLearning.Proofs.Order
import OnlineLearning.Proofs.Patience

/-!
# Holdout windows

The losses of held out examples are summed up from the end of one pass to that of the next. The end
of a pass holds the average of its window against the least one so far, counts the passes since
that one, and opens a new window; sums over all held out examples go on.

* `PassEvent` are recordings of losses and ends of passes, `windows` parts the recordings of a run
  at the ends of its passes, and `passLosses` are the averages of the windows that were closed;
* `FirstLeast` is the first of the least losses of a list, with its place;
* `Workspace.Observed` is what is known of a workspace after such a run;
* `Workspace.holdout_windows`: after the end of a pass the best loss is the first of the least
  ones, the counter counts the passes since, and no recording counts in two windows.
-/

namespace OnlineLearning

/-! ## Runs of recordings and passes -/

/-- A loss with what it is recorded with. -/
structure Recording (R : Type) where
  holdout : Bool
  loss : R
  weight : R
  label : R

inductive PassEvent (R : Type) where
  | record (r : Recording R)
  | endPass

/-- The recordings of closed passes, pass by pass, and those since. -/
structure Windows (R : Type) where
  closed : List (List (Recording R))
  current : List (Recording R)

section

variable {R W : Type}

namespace PassEvent

/-- What an event records. -/
def recording? : PassEvent R → Option (Recording R)
  | record r => some r
  | endPass => none

end PassEvent

/-- All recordings of a run. -/
def recordings (events : List (PassEvent R)) : List (Recording R) :=
  events.filterMap PassEvent.recording?

namespace Windows

def next (ws : Windows R) : PassEvent R → Windows R
  | .record r => { ws with current := ws.current ++ [r] }
  | .endPass => ⟨ws.closed ++ [ws.current], []⟩

end Windows

/-- The recordings of a run, parted at the ends of passes. -/
def windows (events : List (PassEvent R)) : Windows R := events.foldl Windows.next ⟨[], []⟩

theorem windows_concat (events : List (PassEvent R)) (event : PassEvent R) :
    windows (events ++ [event]) = (windows events).next event := List.foldl_concat _ _ _ _

/-- Every recording is in one window. -/
theorem flatten_windows (events : List (PassEvent R)) :
    (windows events).closed.flatten ++ (windows events).current = recordings events := by
  induction events using List.reverseRecOn with
  | nil => rfl
  | append_singleton events event ih =>
    unfold recordings at ih ⊢
    rw [windows_concat, List.filterMap_append, ← ih]
    cases event with
    | record r => simp [Windows.next, PassEvent.recording?]
    | endPass => simp [Windows.next, PassEvent.recording?]

variable [Number W] [Widening R W]

/-- Adds a recording of a held out example. -/
def LossSums.book (s : LossSums W) (r : Recording R) : LossSums W :=
  if r.holdout then s.add (Widening.widen r.loss) (Widening.widen r.weight) else s

/-- The sums over the held out examples among recordings. -/
def holdoutSums (rs : List (Recording R)) : LossSums W := rs.foldl LossSums.book ⟨0, 0⟩

theorem holdoutSums_concat (rs : List (Recording R)) (r : Recording R) :
    (holdoutSums (rs ++ [r]) : LossSums W) = (holdoutSums rs).book r := List.foldl_concat _ _ _ _

variable [Scalar R]

/-- The losses of the passes that a run closes. -/
def passLosses (W : Type) [Number W] [Widening R W] (events : List (PassEvent R)) : List R :=
  (windows events).closed.map fun rs => (holdoutSums rs : LossSums W).average

theorem passLosses_record (events : List (PassEvent R)) (r : Recording R) :
    passLosses W (events ++ [.record r]) = passLosses W events := by
  rw [passLosses, windows_concat]
  rfl

theorem passLosses_endPass (events : List (PassEvent R)) :
    passLosses W (events ++ [.endPass]) =
      passLosses W events ++ [(holdoutSums (windows events).current : LossSums W).average] := by
  rw [passLosses, windows_concat, Windows.next, List.map_append]
  rfl

namespace Workspace

/-- Records a loss, or closes a pass. -/
def passStep (w : Workspace R W) : PassEvent R → Workspace R W
  | .record r =>
    let context := w.chain.context
    let stats := context.stats.recordLoss r.holdout r.loss r.weight r.label
    { w with chain := { w.chain with context := { context with stats } } }
  | .endPass => w.endPass

def passRun (w : Workspace R W) (events : List (PassEvent R)) : Workspace R W :=
  events.foldl passStep w

end Workspace

end

/-! ## The first of the least losses -/

/-- The first of the least entries of a list, and its place. -/
structure FirstLeast (losses : List Float32) (i : ℕ) (least : Float32) : Prop where
  at_place : losses[i]? = some least
  le_all : ∀ loss ∈ losses, least ≤ loss
  lt_before : ∀ j < i, ∀ loss, losses[j]? = some loss → least < loss

namespace FirstLeast

variable {losses : List Float32} {i : ℕ} {least loss : Float32}

theorem singleton (h : ¬ IsNaN loss) : FirstLeast [loss] 0 loss where
  at_place := rfl
  le_all other hother := by
    rw [List.mem_singleton.mp hother]
    exact le_self h
  lt_before j hj := absurd hj (Nat.not_lt_zero j)

theorem place_lt (h : FirstLeast losses i least) : i < losses.length :=
  (List.getElem?_eq_some_iff.mp h.at_place).1

theorem le_self_of_least (h : FirstLeast losses i least) : least ≤ least :=
  h.le_all least (List.mem_of_getElem? h.at_place)

/-- A loss below the least one is the first of the least ones. -/
theorem concat_of_less (h : FirstLeast losses i least) (hless : loss < least) :
    FirstLeast (losses ++ [loss]) losses.length loss where
  at_place := List.getElem?_concat_length
  le_all other hother := by
    rcases List.mem_append.mp hother with hmem | hmem
    · exact le_of_less (less_of_less_of_le hless (h.le_all other hmem))
    · rw [List.mem_singleton.mp hmem]
      exact le_self (lt_iff_place.mp hless).1
  lt_before j hj other hother := by
    rw [List.getElem?_append_left hj] at hother
    exact less_of_less_of_le hless (h.le_all other (List.mem_of_getElem? hother))

/-- Any other loss leaves the first of the least ones. -/
theorem concat_of_not_less (h : FirstLeast losses i least) (hnumber : ¬ IsNaN loss)
    (hless : ¬ loss < least) : FirstLeast (losses ++ [loss]) i least where
  at_place := by rw [List.getElem?_append_left h.place_lt, h.at_place]
  le_all other hother := by
    rcases List.mem_append.mp hother with hmem | hmem
    · exact h.le_all other hmem
    · rw [List.mem_singleton.mp hmem]
      exact le_of_not_less hnumber (not_isNaN_of_le h.le_self_of_least).1 hless
  lt_before j hj other hother := by
    rw [List.getElem?_append_left (hj.trans h.place_lt)] at hother
    exact h.lt_before j hj other hother

end FirstLeast

/-! ## What is known after a run -/

variable {w : Workspace Float32 Float} {events : List (PassEvent Float32)}

/-- The best loss and its pass, and the counter of the passes since. -/
def Standing (losses : List Float32) (best : Float32) (pass : UInt64) (stalls : UInt32) : Prop :=
  ∃ i, FirstLeast losses i best ∧ pass = .ofNat (i + 1) ∧
    stalls = .ofNat (losses.length - (i + 1))

/-- The end of a pass leaves the standing with its loss among the others. -/
theorem Standing.closed {losses : List Float32} {s : Stats Float32 Float} {stalls : UInt32}
    (hnone : losses = [] → s.holdoutBestLoss = Scalar.largest)
    (hsome : losses ≠ [] → Standing losses s.holdoutBestLoss s.holdoutBestPass stalls)
    (hloss : s.passLoss < (Scalar.largest : Float32)) :
    let closed := s.closeHoldoutWindow (.ofNat (losses.length + 1)) stalls
    Standing (losses ++ [s.passLoss]) closed.2.2.holdoutBestLoss closed.2.2.holdoutBestPass
      closed.2.1 := by
  have hnumber : ¬ IsNaN s.passLoss := (lt_iff_place.mp hloss).1
  unfold Stats.closeHoldoutWindow
  dsimp only
  by_cases hgain : s.passLoss < s.holdoutBestLoss
  · rw [if_pos hgain]
    refine ⟨losses.length, ?_, rfl, ?_⟩
    · by_cases hempty : losses = []
      · rw [hempty]
        exact .singleton hnumber
      · obtain ⟨i, hleast, -⟩ := hsome hempty
        exact hleast.concat_of_less hgain
    · rw [List.length_append, List.length_singleton, Nat.sub_self]
      rfl
  -- the first pass is always a gain
  · have hnonempty : losses ≠ [] := fun hempty => hgain (hnone hempty ▸ hloss)
    obtain ⟨i, hleast, hpass, hstalls⟩ := hsome hnonempty
    have hlargest : (s.passLoss != (Scalar.largest : Float32)) = true := by
      rw [bne, Bool.not_eq_true', Bool.eq_false_iff]
      intro heq
      have hlt := (Packed.lt_iff _ _).mp hloss
      rw [(Packed.beq_iff _ _).mp heq] at hlt
      cases hlt
    rw [if_neg hgain, hlargest, Bool.true_or, if_pos rfl]
    refine ⟨i, hleast.concat_of_not_less hnumber hgain, hpass, ?_⟩
    have hplace := hleast.place_lt
    have hlater : (losses ++ [s.passLoss]).length - (i + 1) = losses.length - (i + 1) + 1 := by
      rw [List.length_append, List.length_singleton]
      omega
    rw [hlater, hstalls]
    exact (UInt32.ofNat_add _ 1).symm

/-- What is known of a workspace after a run in which all passes had a loss below the largest
number. -/
structure Workspace.Observed (events : List (PassEvent Float32)) (w : Workspace Float32 Float) :
    Prop where
  holdoutOff_eq : w.chain.context.holdoutOff = false
  pass_eq : w.chain.context.currentPass = .ofNat (passLosses Float events).length
  held_eq : w.chain.context.stats.held = holdoutSums (recordings events)
  window_eq : w.chain.context.stats.window = holdoutSums (windows events).current
  unset : passLosses Float events = [] → w.chain.context.stats.holdoutBestLoss = Scalar.largest
  standing : passLosses Float events ≠ [] →
    Standing (passLosses Float events) w.chain.context.stats.holdoutBestLoss
      w.chain.context.stats.holdoutBestPass w.chain.optimizer.stalls

namespace Workspace.Observed

/-- A recording adds to the sums if it is of a held out example. -/
theorem record (h : w.Observed events) (r : Recording Float32) :
    (w.passStep (.record r)).Observed (events ++ [.record r]) := by
  have hoptimizer : (w.passStep (.record r)).chain.optimizer = w.chain.optimizer := by
    obtain ⟨config, ⟨l | t, state, context, hasher⟩, journal⟩ := w <;> rfl
  have hcontext : (w.passStep (.record r)).chain.context = { w.chain.context with
      stats := w.chain.context.stats.recordLoss r.holdout r.loss r.weight r.label } := rfl
  have hbooked (s : Stats Float32 Float) :
      (s.recordLoss r.holdout r.loss r.weight r.label).held = s.held.book r ∧
        (s.recordLoss r.holdout r.loss r.weight r.label).window = s.window.book r ∧
        (s.recordLoss r.holdout r.loss r.weight r.label).holdoutBestLoss = s.holdoutBestLoss ∧
        (s.recordLoss r.holdout r.loss r.weight r.label).holdoutBestPass = s.holdoutBestPass := by
    obtain ⟨holdout, loss, weight, label⟩ := r
    cases holdout <;> exact ⟨rfl, rfl, rfl, rfl⟩
  obtain ⟨hheld, hwindow, hbest, hpass⟩ := hbooked w.chain.context.stats
  have hrecordings : recordings (events ++ [.record r]) = recordings events ++ [r] :=
    List.filterMap_append
  have hcurrent : (windows (events ++ [.record r])).current = (windows events).current ++ [r] := by
    rw [windows_concat]
    rfl
  constructor
  case holdoutOff_eq => exact h.holdoutOff_eq
  case pass_eq => rw [passLosses_record]; exact h.pass_eq
  case held_eq => rw [hcontext, hheld, h.held_eq, hrecordings, holdoutSums_concat]
  case window_eq => rw [hcontext, hwindow, h.window_eq, hcurrent, holdoutSums_concat]
  case unset => rw [passLosses_record, hcontext, hbest]; exact h.unset
  case standing => rw [passLosses_record, hcontext, hbest, hpass, hoptimizer]; exact h.standing

/-- The end of a pass closes the window. -/
theorem endPass (h : w.Observed events)
    (hloss : ∀ loss ∈ passLosses Float (events ++ [.endPass]), loss < Scalar.largest) :
    (w.passStep .endPass).Observed (events ++ [.endPass]) := by
  obtain ⟨hoptimizer, hcontext⟩ := Chain.endPass_of_on h.holdoutOff_eq
  have hlast : w.chain.context.stats.passLoss =
      (holdoutSums (windows events).current : LossSums Float).average :=
    congrArg LossSums.average h.window_eq
  have hpass : w.chain.context.currentPass + 1 = .ofNat ((passLosses Float events).length + 1) := by
    rw [h.pass_eq]
    exact (UInt64.ofNat_add _ 1).symm
  have hrecordings : recordings (events ++ [.endPass]) = recordings events := by
    rw [recordings, List.filterMap_append]
    exact List.append_nil _
  have hclosed (s : Stats Float32 Float) (pass : UInt64) (stalls : UInt32) :
      (s.closeHoldoutWindow pass stalls).2.2.held = s.held ∧
        (s.closeHoldoutWindow pass stalls).2.2.window = ⟨0, 0⟩ := by
    rw [s.closed_closeHoldoutWindow pass stalls]
    exact ⟨rfl, rfl⟩
  obtain ⟨hheld, hwindow⟩ := hclosed w.chain.context.stats (w.chain.context.currentPass + 1)
    w.chain.optimizer.stalls
  have hstanding := Standing.closed h.unset h.standing
    (hloss _ (by rw [passLosses_endPass, hlast]; exact List.mem_concat_self))
  rw [← hpass, hlast] at hstanding
  have hleft : (w.passStep .endPass).chain = w.chain.endPass := rfl
  have hcurrent : (windows (events ++ [.endPass])).current = [] := by
    rw [windows_concat]
    rfl
  constructor
  case holdoutOff_eq => rw [hleft, hcontext]; exact h.holdoutOff_eq
  case pass_eq =>
    rw [hleft, hcontext, hpass, passLosses_endPass, List.length_append, List.length_singleton]
  case held_eq => rw [hleft, hcontext, hrecordings, ← h.held_eq]; exact hheld
  case window_eq => rw [hleft, hcontext, hcurrent]; exact hwindow
  case unset =>
    rw [passLosses_endPass]
    exact fun hnil => absurd hnil (List.concat_ne_nil _ _)
  case standing =>
    rw [hleft, hoptimizer, hcontext, passLosses_endPass]
    exact fun _ => hstanding

/-- Every run is observed. -/
theorem of_initial {f : LossFunction} (hon : w.chain.context.holdoutOff = false)
    (hpass : w.chain.context.currentPass = 0) (hstats : w.chain.context.stats = .initial f)
    (hloss : ∀ loss ∈ passLosses Float events, loss < Scalar.largest) :
    (w.passRun events).Observed events := by
  induction events using List.reverseRecOn with
  | nil =>
    exact ⟨hon, hpass, hstats ▸ rfl, hstats ▸ rfl, fun _ => hstats ▸ rfl, fun h => absurd rfl h⟩
  | append_singleton events event ih =>
    have hrun : w.passRun (events ++ [event]) = (w.passRun events).passStep event :=
      List.foldl_concat _ _ _ _
    rw [hrun]
    cases event with
    | record r =>
      rw [passLosses_record] at hloss
      exact (ih hloss).record r
    | endPass =>
      refine (ih fun loss hmem => hloss loss ?_).endPass hloss
      rw [passLosses_endPass]
      exact List.mem_append_left _ hmem

end Workspace.Observed

/-- Where holdout is on, and the losses of all passes are below the largest number, after the end of
every pass the best loss is the first of the least ones, with its pass, and the counter tells the
passes since, as a counter of 32 bits does. Nothing is left in the window of the pass, every
recording was in one window only, and the sums over all held out examples were never reset. -/
theorem Workspace.holdout_windows {f : LossFunction} (hon : w.chain.context.holdoutOff = false)
    (hpass : w.chain.context.currentPass = 0) (hstats : w.chain.context.stats = .initial f)
    (events : List (PassEvent Float32)) :
    let run := events ++ [.endPass]
    let losses := passLosses Float run
    let left := w.passRun run
    let stats := left.chain.context.stats
    (∀ loss ∈ losses, loss < Scalar.largest) →
      (∃ i, FirstLeast losses i stats.holdoutBestLoss ∧ stats.holdoutBestPass = .ofNat (i + 1) ∧
        left.chain.optimizer.stalls = .ofNat (losses.length - (i + 1))) ∧
      stats.window = ⟨0, 0⟩ ∧ (windows run).closed.flatten = recordings events ∧
      stats.held = holdoutSums (recordings events) := by
  intro run losses left stats hlosses
  have hobserved : left.Observed run := .of_initial hon hpass hstats hlosses
  have hcurrent : (windows run).current = [] := by
    rw [windows_concat]
    rfl
  have hrecordings : recordings run = recordings events := by
    rw [recordings, List.filterMap_append]
    exact List.append_nil _
  have hparted := flatten_windows run
  rw [hcurrent, List.append_nil, hrecordings] at hparted
  refine ⟨hobserved.standing ?_, hobserved.window_eq.trans (hcurrent ▸ rfl), hparted,
    hobserved.held_eq.trans (hrecordings ▸ rfl)⟩
  rw [passLosses_endPass]
  exact List.concat_ne_nil _ _

namespace Workspace

theorem context_of_new {c : Config Float32} {w₀ : Workspace Float32 Float}
    (hnew : Workspace.new c = .ok w₀) :
    w₀.chain.context.holdoutOff = c.run.holdoutOff ∧ w₀.chain.context.currentPass = 0 ∧
      w₀.chain.context.stats = .initial c.scorer.loss := by
  rw [Config.eq_of_initialContext (fresh_of_new hnew).context_eq]
  exact ⟨rfl, rfl, rfl⟩

/-- A pass with a loss, a better one, one without held out examples and one that equals the best. -/
theorem holdout_windows_of_passes :
    let events : List (PassEvent Float32) :=
      [.record ⟨true, 1, 1, 0⟩, .endPass, .record ⟨true, 1, 2, 0⟩, .record ⟨false, 3, 1, 0⟩,
        .endPass, .record ⟨false, 1, 1, 0⟩, .endPass, .record ⟨true, 2, 4, 0⟩]
    let run := events ++ [.endPass]
    let losses := passLosses Float run
    let left := Config.patientWorkspace.passRun run
    let stats := left.chain.context.stats
    (Config.patientWorkspace.chain.context.holdoutOff = false ∧
      Config.patientWorkspace.chain.context.currentPass = 0 ∧
      Config.patientWorkspace.chain.context.stats = .initial .squared ∧
      ∀ loss ∈ losses, loss < Scalar.largest) ∧
    (∃ i, FirstLeast losses i stats.holdoutBestLoss ∧ stats.holdoutBestPass = .ofNat (i + 1) ∧
      left.chain.optimizer.stalls = .ofNat (losses.length - (i + 1))) ∧
    stats.window = ⟨0, 0⟩ ∧ (windows run).closed.flatten = recordings events ∧
    stats.held = holdoutSums (recordings events) := by
  intro events run losses left stats
  obtain ⟨hon, hpass, hstats⟩ := context_of_new Config.new_defaultPatient
  have hlosses : ∀ loss ∈ losses, loss < Scalar.largest := by decide +kernel
  exact ⟨⟨hon, hpass, hstats, hlosses⟩, holdout_windows hon hpass hstats events hlosses⟩

end Workspace

end OnlineLearning
