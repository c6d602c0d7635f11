import Mathlib
import OnlineLearning.Proofs.DisjointLessons
import OnlineLearning.Proofs.Divisors
import OnlineLearning.Proofs.ScaleFree

/-!
# Bets and stored parameters

Coin betting stores the bet on a feature divided by the average norm, so that a prediction is a dot
product. The average moves with every lesson, and a parameter is divided anew only when a lesson
writes its group. So a stored parameter gives back its bet at the average of that lesson, and not at
the one of today.

* `Optimizer.after`: what lessons leave; `Optimizer.lastAverage?`: the average norm at the last
  lesson that wrote a group;
* `Optimizer.Settled`: every parameter times its average is the bet; `Optimizer.Settled.taught` says
  that a lesson keeps it so;
* `Optimizer.taught_bettor` and `Optimizer.group_stepped`: a lesson on features that were never seen,
  in numbers;
* `Optimizer.stored_bets`: what a dot product of stored parameters is in terms of bets;
  `Optimizer.not_stored_bets`: it is not the sum of bets over the average of today.
-/

namespace OnlineLearning

/-- A call to learn: the context that it is made in and the example. -/
structure Lesson (R W : Type) where
  context : Context R W
  ec : Example R

/-- A parameter is stored as the next bet over the average norm. -/
theorem Coin.param_update_mul {K : Type} [ExactNumber K] (p : Params K) {average : K}
    (haverage : average ≠ 0) (w : Coin K) (x update : K) :
    let next := w.update p average x update
    next.param * average = bet p next next.maxAbsX := div_mul_cancel₀ _ haverage

/-- The bet on a feature that is no larger than those before. -/
theorem Coin.raw_of_le {K : Type} [ExactNumber K] (p : Params K) {w : Coin K} {x : K}
    (hx : |x| ≤ w.maxAbsX) : raw p w x = bet p w w.maxAbsX * x := by
  have hwidened : w.widened x = w.maxAbsX := by
    unfold widened
    rw [ExactNumber.maxNum_eq, ExactNumber.abs_eq, max_eq_left hx]
  unfold raw
  rw [hwidened]

namespace Optimizer

/-! ## Runs of lessons -/

section

variable {R W : Type} [Scalar R] [Number W] [Widening R W]

/-- What lessons leave of the optimizer. -/
def after (o : Optimizer R W) (lessons : List (Lesson R W)) : Optimizer R W :=
  lessons.foldl (fun o l => taught l.context o l.ec) o

instance (mask : UInt64) (terms : List Term) (ec : Example R) (i : UInt64) :
    Decidable (ec.Reaches mask terms i) := inferInstanceAs (Decidable (∃ f ∈ _, _))

instance (context : Context R W) (o : Optimizer R W) (ec : Example R) (i : UInt64) :
    Decidable (Writes context o ec i) := inferInstanceAs (Decidable (_ ∧ _))

theorem taught_of_label {context : Context R W} {o : Optimizer R W} {ec : Example R} {label : R}
    (hlabel : ec.target? = some label) :
    taught context o ec =
      let visits := ec.visits context.interactions
      let seen := o.learningPrediction ec.weight visits
      seen.1.step (context.derivativeOf (publish context seen.2 ec).scalar label * ec.weight)
        visits := by
  unfold taught
  rw [runOn_learn]
  dsimp only
  rw [hlabel]

/-- The average norm after the last lesson that wrote the group of an index, if there was one. -/
def lastAverage? (i : UInt64) : Optimizer R W → List (Lesson R W) → Option R
  | _, [] => none
  | o, l :: rest =>
    let next := taught l.context o l.ec
    (lastAverage? i next rest).or
      (if Writes l.context o l.ec (i &&& o.weights.mask) then some next.averageSquaredNorm
      else none)

omit [Number W] [Widening R W] in
/-- Where there is a coin, coins are bet. -/
theorem exists_of_coin? {o : Optimizer R W} {i : UInt64} {w : Coin R} (h : o.coin? i = some w) :
    ∃ p t stalls patience size total norms average,
      o = ⟨.coinBetting, p, t, stalls, patience, size, total, norms, average⟩ := by
  obtain ⟨mode, _⟩ := o
  cases mode with
  | proximal | pistol => cases h
  | coinBetting => exact ⟨_, _, _, _, _, _, _, _, rfl⟩

theorem params_taught (context : Context R W) (o : Optimizer R W) (ec : Example R) :
    (taught context o ec).params = o.params := by
  obtain ⟨_, _, _, _, heq, -⟩ := taught_wroteTo context o ec
  rw [heq]

theorem params_after (o : Optimizer R W) (lessons : List (Lesson R W)) :
    (o.after lessons).params = o.params := by
  refine List.foldlRecOn (motive := fun left : Optimizer R W => left.params = o.params)
    lessons _ rfl ?_
  intro left hleft l _
  rw [params_taught, hleft]

end

variable {K : Type} [ExactNumber K]

/-! ## Parameters and bets -/

/-- Every parameter times an average norm is the bet under the magnitude estimate of its group. -/
structure Settled (o : Optimizer K K) (average : UInt64 → K) : Prop where
  norm : 0 ≤ o.normalizedSumNorm
  coins (i : UInt64) : ∃ w, o.coin? i = some w ∧
    w.param * average i = Coin.bet o.params w w.maxAbsX

variable {o : Optimizer K K} {average : UInt64 → K}

theorem settled_new (p : Params K) (bits : Nat) (layout : Layout) (patience : UInt32)
    (average : UInt64 → K) :
    (Optimizer.new .coinBetting p bits layout patience).Settled average := by
  refine ⟨ExactNumber.ofNat_zero.ge, fun i => ⟨_, rfl, ?_⟩⟩
  change (Coin.load ((WeightTable.empty bits layout).group i)).param * average i =
    Coin.bet p (Coin.load ((WeightTable.empty bits layout).group i)) _
  rw [WeightTable.group_empty]
  simp [Coin.load, Coin.bet, WeightTable.zeroGroup, ExactNumber.ofNat_zero]

/-- To count an example moves no coin. -/
theorem Settled.learningPrediction (h : o.Settled average) {weight : K} (hweight : 0 < weight)
    (visits : List (Feature K)) :
    (o.learningPrediction weight visits).1.Settled average ∧
      0 < (o.learningPrediction weight visits).1.averageSquaredNorm := by
  obtain ⟨_, hcoin, -⟩ := h.coins 0
  obtain ⟨p, t, stalls, patience, size, total, norms, a, rfl⟩ := exists_of_coin? hcoin
  have hnorm : 0 ≤ norms + weight * Coin.normSum t visits :=
    add_nonneg h.norm (mul_nonneg hweight.le (Coin.normSum_nonneg t visits))
  exact ⟨⟨hnorm, h.coins⟩, refreshAverage_pos hnorm⟩

/-- A step divides the parameter of the feature that it visits by the average norm. -/
theorem Settled.step_singleton (h : o.Settled average) (haverage : 0 < o.averageSquaredNorm)
    (update : K) (f : Feature K) :
    (o.step update [f]).Settled fun i =>
      if f.index &&& o.weights.mask = i &&& o.weights.mask then o.averageSquaredNorm
      else average i := by
  refine ⟨h.norm, fun i => ?_⟩
  obtain ⟨w, hcoin, hbet⟩ := h.coins i
  obtain ⟨p, t, stalls, patience, size, total, norms, a, rfl⟩ := exists_of_coin? hcoin
  let write := Mode.coinBetting.updateGroup p a f.value update
  have hgroup := WeightTable.group_modify t f.index i write
  refine ⟨Coin.load ((t.modify f.index write).group i), rfl, ?_⟩
  rw [hgroup]
  dsimp only
  split
  · exact Coin.param_update_mul p haverage.ne' (Coin.load (t.group f.index)) f.value update
  · cases hcoin
    exact hbet

theorem averageSquaredNorm_step (o : Optimizer K K) (update : K) (visits : List (Feature K)) :
    (o.step update visits).averageSquaredNorm = o.averageSquaredNorm := rfl

/-- Steps divide the parameters of the features that they visit by the average norm. -/
theorem Settled.step (h : o.Settled average) (haverage : 0 < o.averageSquaredNorm) (update : K)
    (visits : List (Feature K)) :
    (o.step update visits).Settled fun i =>
      if ∃ f ∈ visits, f.index &&& o.weights.mask = i &&& o.weights.mask then o.averageSquaredNorm
      else average i := by
  induction visits generalizing o average with
  | nil =>
    change o.Settled _
    simpa using h
  | cons f rest ih =>
    have hrest : (o.step update (f :: rest)).Settled _ :=
      ih (h.step_singleton haverage update f) haverage
    refine ⟨hrest.norm, fun i => ?_⟩
    obtain ⟨w, hcoin, hbet⟩ := hrest.coins i
    refine ⟨w, hcoin, hbet ▸ congrArg (w.param * ·) ?_⟩
    have hmask := (step_wroteTo o update [f]).mask_eq
    -- Whichever of the features was the last one in the group, the average norm is the same.
    rw [averageSquaredNorm_step, hmask, ← ite_or]
    simp [or_comm]

theorem Settled.mode_eq (h : o.Settled average) : o.mode = .coinBetting := by
  obtain ⟨_, hcoin, -⟩ := h.coins 0
  obtain ⟨_, _, _, _, _, _, _, _, rfl⟩ := exists_of_coin? hcoin
  rfl

/-- A lesson leaves every parameter settled, at the average norm after it where it wrote a group. -/
theorem Settled.taught (h : o.Settled average) (context : Context K K) {ec : Example K}
    (hweight : 0 < ec.weight) :
    (taught context o ec).Settled fun i =>
      if Writes context o ec (i &&& o.weights.mask) then (taught context o ec).averageSquaredNorm
      else average i := by
  obtain ⟨hseen, haverage⟩ := h.learningPrediction hweight (ec.visits context.interactions)
  have hmask := (learningPrediction_wroteTo o ec.weight (ec.visits context.interactions)).mask_eq
  unfold Optimizer.taught
  rw [runOn_learn]
  dsimp only
  split
  · rename_i htarget
    simpa [Writes, h.mode_eq, htarget] using hseen
  · rename_i label htarget
    have hstep := hseen.step haverage (context.derivativeOf (publish context
      (o.learningPrediction ec.weight (ec.visits context.interactions)).2 ec).scalar label *
        ec.weight) (ec.visits context.interactions)
    rw [hmask] at hstep
    simpa [Writes, Example.Reaches, htarget, averageSquaredNorm_step] using hstep

/-- Every parameter times the average norm at the last lesson that wrote its group is the bet. -/
theorem Settled.after (h : o.Settled average) {lessons : List (Lesson K K)}
    (hweight : ∀ l ∈ lessons, 0 < l.ec.weight) :
    (o.after lessons).Settled fun i => (o.lastAverage? i lessons).getD (average i) := by
  induction lessons generalizing o average with
  | nil => exact h
  | cons l rest ih =>
    obtain ⟨hl, hrest⟩ := List.forall_mem_cons.mp hweight
    have hafter := ih (h.taught l.context hl) hrest
    refine ⟨hafter.norm, fun i => ?_⟩
    obtain ⟨w, hcoin, hbet⟩ := hafter.coins i
    refine ⟨w, hcoin, hbet ▸ congrArg (w.param * ·) ?_⟩
    -- A later lesson that wrote the group hides this one.
    rw [lastAverage?]
    cases lastAverage? i (Optimizer.taught l.context o l.ec) rest with
    | some a => rfl
    | none => exact apply_ite (Option.getD · (average i)) _ _ _

/-! ## Predictions -/

/-- A loop that adds up terms from zero on. -/
theorem foldl_add_eq_sum {α : Type} (term : α → K) (xs : List α) :
    xs.foldl (fun sum x => sum + term x) (@OfNat.ofNat K 0 (Number.instOfNat 0)) =
      (xs.map term).sum := by
  rw [List.sum_eq_foldl, List.foldl_map, ExactNumber.ofNat_zero]

variable {coin : UInt64 → Coin K}

/-- The fast prediction of coin betting. -/
theorem dot_eq_sum (hcoin : ∀ i, o.coin? i = some (coin i)) (visits : List (Feature K)) :
    o.weights.dot visits = (visits.map fun f => f.value * (coin f.index).param).sum := by
  obtain ⟨p, t, stalls, patience, size, total, norms, a, rfl⟩ := exists_of_coin? (hcoin 0)
  refine (foldl_add_eq_sum _ visits).trans (congrArg List.sum (List.map_congr_left ?_))
  intro f _
  rw [WeightTable.param_eq, Option.some.inj (hcoin f.index)]

/-- The prediction that learning starts from adds up bets, and divides them by the average norm that
counts the example in. -/
theorem learningPrediction_eq (hcoin : ∀ i, o.coin? i = some (coin i)) (weight : K)
    (visits : List (Feature K)) :
    (o.learningPrediction weight visits).2 =
      (visits.map fun f => Coin.raw o.params (coin f.index) f.value).sum /
        (o.learningPrediction weight visits).1.averageSquaredNorm := by
  obtain ⟨p, t, stalls, patience, size, total, norms, a, rfl⟩ := exists_of_coin? (hcoin 0)
  have hsum : Coin.rawSum p t visits =
      (visits.map fun f => Coin.raw p (coin f.index) f.value).sum := by
    refine (foldl_add_eq_sum _ visits).trans (congrArg List.sum (List.map_congr_left ?_))
    intro f _
    rw [Option.some.inj (hcoin f.index)]
  exact congrArg (· / _) hsum

/-- Where no feature is larger than those before, every parameter times the average norm that it was
divided by contributes a bet. -/
theorem Settled.sum_eq (h : o.Settled average) (hcoin : ∀ i, o.coin? i = some (coin i))
    {visits : List (Feature K)} (hsize : ∀ f ∈ visits, |f.value| ≤ (coin f.index).maxAbsX) :
    (visits.map fun f => f.value * (coin f.index).param * average f.index).sum =
      (visits.map fun f => Coin.raw o.params (coin f.index) f.value).sum := by
  refine congrArg List.sum (List.map_congr_left fun f hf => ?_)
  obtain ⟨w, hw, hbet⟩ := h.coins f.index
  obtain rfl : coin f.index = w := Option.some.inj ((hcoin f.index).symm.trans hw)
  rw [Coin.raw_of_le o.params (hsize f hf), ← hbet]
  ring

end Optimizer

/-! ## Lessons in numbers -/

section

variable {K : Type} [ExactNumber K]

/-- An example with features of value one. -/
def Example.ones (indices : List UInt64) : Example K :=
  { (.blank : Example K) with
    namespaces := (∅ : Namespaces K).append 0 (indices.map fun i => ⟨i, 1⟩) }

theorem Example.visits_ones (indices : List UInt64) :
    (ones indices : Example K).visits [] = indices.map fun i => ⟨i, 1⟩ := by
  have hlist : ((∅ : Namespaces K).append 0 (indices.map fun i => ⟨i, 1⟩)).toList =
      indices.map fun i => ⟨i, 1⟩ := by
    change ([] ++ indices.map _) ++ [] = _
    simp
  change (((∅ : Namespaces K).append 0 _).toList ++ []).map (Feature.shift 0) = _
  rw [hlist]
  simp [Feature.shift]

/-- A lesson of label one, which the bounds cover, on features of value one. -/
def Lesson.ones (indices : List UInt64) : Lesson K K :=
  ⟨(Context.initial .squared).coverLabel 1, { Example.ones indices with label := .simple (some 1) }⟩

namespace Lesson

theorem weight_ones (indices : List UInt64) : (ones indices : Lesson K K).ec.weight = 1 :=
  ExactNumber.ofNat_one

theorem weight_pos_ones (lists : List (List UInt64)) :
    ∀ l ∈ lists.map (ones : List UInt64 → Lesson K K), 0 < l.ec.weight := by
  intro l hl
  obtain ⟨indices, -, rfl⟩ := List.mem_map.mp hl
  exact zero_lt_one.trans_eq (weight_ones indices).symm

/-- The derivative of the loss where zero is predicted. -/
theorem derivativeOf_ones (indices : List UInt64) :
    let l : Lesson K K := ones indices
    l.context.derivativeOf (Optimizer.publish l.context 0 l.ec).scalar 1 = -2 := by
  intro l
  have hmin : l.context.stats.minLabel = 0 := by
    simp [l, ones, Context.coverLabel, Context.initial, Stats.initial,
      LossFunction.initialBounds, LossFunction.tracksLabelRange, ExactNumber.ofNat_zero]
  have hmax : l.context.stats.maxLabel = 1 := by
    simp [l, ones, Context.coverLabel, Context.initial, Stats.initial,
      LossFunction.initialBounds, LossFunction.tracksLabelRange, ExactNumber.ofNat_zero]
  have hscalar : (Optimizer.publish l.context 0 l.ec).scalar = 0 := by
    change l.context.bound 0 = 0
    simp [Context.bound, hmin, hmax, ExactNumber.maxNum_eq, ExactNumber.minNum_eq]
  have hloss : l.context.loss = .squared := rfl
  rw [hscalar]
  simp [Context.derivativeOf, LossFunction.derivative, hloss, hmin, hmax, ExactNumber.maxNum_eq,
    ExactNumber.minNum_eq]

end Lesson

namespace Coin

theorem load_zeroGroup : load (WeightTable.zeroGroup : Vector K 6) = ⟨0, 0, 0, 0, 0, 0⟩ := by
  simp [load, WeightTable.zeroGroup, ExactNumber.ofNat_zero]

/-- A coin after one lesson of label one on a feature of value one, under an average norm. -/
def tossed (average : K) : Coin K := ⟨1 / average, 2, 2, 1, 0, 2⟩

theorem update_zeroGroup (average : K) :
    update ⟨4, 1, 0, 0⟩ average (load WeightTable.zeroGroup) 1 (-2) = tossed average := by
  rw [load_zeroGroup]
  simp only [update, widen, widened, bet, ExactNumber.maxNum_eq, ExactNumber.abs_eq,
    ExactNumber.ofNat_zero, tossed]
  norm_num

theorem abs_one_le_tossed (average : K) : |1| ≤ (tossed average).maxAbsX := by simp [tossed]

theorem raw_tossed (average : K) : raw ⟨4, 1, 0, 0⟩ (tossed average) 1 = 1 := by
  simp only [raw, bet, widened, tossed, ExactNumber.maxNum_eq, ExactNumber.abs_eq,
    ExactNumber.ofNat_zero]
  norm_num

end Coin

end

namespace Optimizer

variable {K : Type} [ExactNumber K]

/-- Coin betting with its default rates. -/
def bettor (t : WeightTable K 6) (totalWeight normalizedSumNorm average : K) : Optimizer K K :=
  ⟨.coinBetting, ⟨4, 1, 0, 0⟩, t, 0, 0, 6, totalWeight, normalizedSumNorm, average⟩

/-- The table after a step of coin betting with its default rates. -/
def stepped (average update : K) (t : WeightTable K 6) (visits : List (Feature K)) :
    WeightTable K 6 :=
  visits.foldl (fun t f => t.modify f.index fun g =>
    (Coin.update ⟨4, 1, 0, 0⟩ average (Coin.load g) f.value update).channels) t

/-- Features that were never seen count with their number, and there are no bets on them. -/
theorem learningPrediction_bettor {t : WeightTable K 6} {total : K} (htotal : 0 ≤ total)
    (norms average : K) {indices : List UInt64}
    (hunseen : ∀ i ∈ indices, t.group i = WeightTable.zeroGroup) :
    let next := (norms + indices.length + 1 / 1000000) / (total + 1)
    (bettor t total norms average).learningPrediction 1 (indices.map fun i => ⟨i, 1⟩) =
      (bettor t (total + 1) (norms + indices.length) next, 0) := by
  intro next
  let visits : List (Feature K) := indices.map fun i => ⟨i, 1⟩
  have hnorm : Coin.normSum t visits = indices.length := by
    have hone : ∀ i ∈ indices, Coin.normalizedSq (Coin.load (t.group i)) 1 = 1 := by
      intro i hi
      rw [hunseen i hi, Coin.load_zeroGroup]
      simp [Coin.normalizedSq, Coin.widened, ExactNumber.maxNum_eq, ExactNumber.abs_eq,
        ExactNumber.ofNat_zero]
    refine (foldl_add_eq_sum _ visits).trans ?_
    rw [List.map_map]
    exact (congrArg List.sum (List.map_congr_left hone)).trans (by simp)
  have hraw : Coin.rawSum ⟨4, 1, 0, 0⟩ t visits = 0 := by
    refine (foldl_add_eq_sum _ visits).trans (List.sum_eq_zero fun y hy => ?_)
    rw [List.map_map] at hy
    obtain ⟨i, hi, rfl⟩ := List.mem_map.mp hy
    simp [hunseen i hi, Coin.load_zeroGroup, Coin.raw, Coin.bet, ExactNumber.ofNat_zero]
  have hcount : (bettor t total norms average).countNorm 1 indices.length =
      bettor t (total + 1) (norms + indices.length) next := by
    have hpos : 0 < total + 1 := by positivity
    simp [bettor, countNorm, refreshAverage, normEpsilon, Widening.widen, Widening.narrow,
      ExactNumber.ofNat_zero, ExactNumber.ofNat_one, hpos, next]
  calc (bettor t total norms average).learningPrediction 1 visits
      = ((bettor t total norms average).countNorm 1 (Coin.normSum t visits),
          Coin.rawSum ⟨4, 1, 0, 0⟩ t visits / _) := rfl
    _ = _ := by rw [hnorm, hraw, zero_div, hcount]

/-- A lesson on features that were never seen. -/
theorem taught_bettor {t : WeightTable K 6} {total : K} (htotal : 0 ≤ total) (norms average : K)
    {indices : List UInt64} (hunseen : ∀ i ∈ indices, t.group i = WeightTable.zeroGroup) :
    let next := (norms + indices.length + 1 / 1000000) / (total + 1)
    taught (Lesson.ones indices).context (bettor t total norms average) (Lesson.ones indices).ec =
      bettor (stepped next (-2) t (indices.map fun i => ⟨i, 1⟩)) (total + 1)
        (norms + indices.length) next := by
  intro next
  let l : Lesson K K := .ones indices
  have hlabel : l.ec.target? = some 1 := rfl
  have hvisits : l.ec.visits l.context.interactions = indices.map fun i => ⟨i, 1⟩ :=
    Example.visits_ones indices
  have hweight : l.ec.weight = 1 := Lesson.weight_ones indices
  have hderivative : l.context.derivativeOf (publish l.context 0 l.ec).scalar 1 = -2 :=
    Lesson.derivativeOf_ones indices
  have hseen := learningPrediction_bettor htotal norms average hunseen
  change taught l.context _ l.ec = _
  rw [taught_of_label hlabel, hweight, hvisits]
  dsimp only at hseen ⊢
  rw [hseen, hderivative, mul_one]
  rfl

/-- A step writes the groups of its features only. -/
theorem group_stepped_of_apart {t : WeightTable K 6} (average : K) (indices : List UInt64)
    {i : UInt64} (hapart : ∀ j ∈ indices, j &&& t.mask ≠ i &&& t.mask) :
    (stepped average (-2) t (indices.map fun i => ⟨i, 1⟩)).group i = t.group i := by
  refine (WeightTable.wroteTo_foldl id (fun _ _ => ⟨_, rfl⟩) _ _).group_eq ?_
  rintro ⟨f, hf, heq⟩
  obtain ⟨j, hj, rfl⟩ := List.mem_map.mp hf
  exact hapart j hj heq

/-- A step tosses the coins of features that were never seen, each of which has a group of its own. -/
theorem group_stepped {t : WeightTable K 6} (average : K) (indices : List UInt64)
    (hapart : indices.Pairwise fun j i => j &&& t.mask ≠ i &&& t.mask)
    (hunseen : ∀ i ∈ indices, t.group i = WeightTable.zeroGroup) {i : UInt64} (hi : i ∈ indices) :
    (stepped average (-2) t (indices.map fun i => ⟨i, 1⟩)).group i =
      (Coin.tossed average).channels := by
  induction indices generalizing t with
  | nil => cases hi
  | cons j rest ih =>
    let write (g : Vector K 6) := (Coin.update ⟨4, 1, 0, 0⟩ average (Coin.load g) 1 (-2)).channels
    obtain ⟨hj, hrest⟩ := List.pairwise_cons.mp hapart
    change (stepped average (-2) (t.modify j write) (rest.map fun i => ⟨i, 1⟩)).group i = _
    rcases List.mem_cons.mp hi with rfl | hi
    · have hwritten : (t.modify i write).group i = (Coin.tossed average).channels := by
        rw [WeightTable.group_modify, if_pos rfl, hunseen i (List.mem_cons_self ..)]
        exact congrArg Coin.channels (Coin.update_zeroGroup average)
      -- The features after this one are apart from it.
      have hkept := group_stepped_of_apart (t := t.modify i write) average rest fun k hk =>
        (hj k hk).symm
      exact hkept.trans hwritten
    · refine ih hrest (fun k hk => ?_) hi
      rw [WeightTable.group_modify, if_neg (hj k hk)]
      exact hunseen k (List.mem_cons_of_mem _ hk)

/-- The table after a lesson on index 1. -/
def tossedTable : WeightTable K 6 :=
  (WeightTable.empty 4 .sparse).setGroup 1 (Coin.tossed (1 + 1 / 1000000)).channels

/-- The group of index 1 is no other than that of index 2, or of index 3. -/
theorem group_tossedTable {i : UInt64} (hi : i ∈ [2, 3]) :
    1 &&& indexMask 4 ≠ i &&& indexMask 4 ∧
      (tossedTable : WeightTable K 6).group i = WeightTable.zeroGroup := by
  have hapart : 1 &&& indexMask 4 ≠ i &&& indexMask 4 := by
    rcases List.mem_pair.mp hi with rfl | rfl <;> decide
  exact ⟨hapart, (WeightTable.group_setGroup _ _ _ _).trans (if_neg hapart)⟩

theorem after_one :
    (new .coinBetting ⟨4, 1, 0, 0⟩ 4 .sparse 0 : Optimizer K K).after [.ones [1]] =
      bettor tossedTable 1 1 (1 + 1 / 1000000) := by
  let t : WeightTable K 6 := .empty 4 .sparse
  have hnew : (new .coinBetting ⟨4, 1, 0, 0⟩ 4 .sparse 0 : Optimizer K K) = bettor t 0 0 1 := by
    simp [new, bettor, ExactNumber.ofNat_zero, ExactNumber.ofNat_one, t]
    rfl
  have hunseen : ∀ i ∈ [1], t.group i = WeightTable.zeroGroup := by simp [t]
  have hlesson := taught_bettor le_rfl 0 1 hunseen
  have hnext : (0 + ([1] : List UInt64).length + 1 / 1000000) / (0 + 1) =
      (1 + 1 / 1000000 : K) := by
    norm_num
  have htable : stepped (1 + 1 / 1000000) (-2) t [⟨1, 1⟩] = tossedTable := by
    refine congrArg (fun w : Coin K => t.setGroup 1 w.channels) ?_
    rw [WeightTable.group_empty]
    exact Coin.update_zeroGroup _
  dsimp only at hlesson
  rw [hnext, List.map_singleton, htable] at hlesson
  change taught _ (new .coinBetting ⟨4, 1, 0, 0⟩ 4 .sparse 0) _ = _
  rw [hnew]
  refine hlesson.trans ?_
  simp

theorem after_two :
    (new .coinBetting ⟨4, 1, 0, 0⟩ 4 .sparse 0 : Optimizer K K).after [.ones [1], .ones [2, 3]] =
      bettor (stepped ((3 + 1 / 1000000) / 2) (-2) tossedTable [⟨2, 1⟩, ⟨3, 1⟩]) 2 3
        ((3 + 1 / 1000000) / 2) := by
  have hunseen : ∀ i ∈ [2, 3], (tossedTable : WeightTable K 6).group i = WeightTable.zeroGroup :=
    fun i hi => (group_tossedTable hi).2
  have hlesson := taught_bettor zero_le_one 1 (1 + 1 / 1000000) hunseen
  have hnext : (1 + ([2, 3] : List UInt64).length + 1 / 1000000) / (1 + 1) =
      ((3 + 1 / 1000000) / 2 : K) := by
    norm_num
  have hone := after_one (K := K)
  dsimp only at hlesson
  rw [hnext] at hlesson
  change taught _ ((new .coinBetting ⟨4, 1, 0, 0⟩ 4 .sparse 0).after [.ones [1]]) _ = _
  rw [hone]
  refine hlesson.trans ?_
  norm_num

/-- A lesson on indices 2 and 3 leaves the coin at index 1 as it was. -/
theorem coin?_one_after_two :
    ((new .coinBetting ⟨4, 1, 0, 0⟩ 4 .sparse 0 : Optimizer K K).after
      [.ones [1], .ones [2, 3]]).coin? 1 = some (.tossed (1 + 1 / 1000000)) := by
  have hkept := group_stepped_of_apart (t := tossedTable) ((3 + 1 / 1000000) / 2 : K) [2, 3]
    fun j hj => (group_tossedTable (K := K) hj).1.symm
  have hfirst : (tossedTable : WeightTable K 6).group 1 = _ :=
    (WeightTable.group_setGroup _ _ _ _).trans (if_pos rfl)
  rw [after_two]
  exact congrArg (fun g => some (Coin.load g)) (hkept.trans hfirst)

theorem coin?_after_two {i : UInt64} (hi : i ∈ [2, 3]) :
    ((new .coinBetting ⟨4, 1, 0, 0⟩ 4 .sparse 0 : Optimizer K K).after
      [.ones [1], .ones [2, 3]]).coin? i = some (.tossed ((3 + 1 / 1000000) / 2)) := by
  have hapart : [2, 3].Pairwise fun j i => j &&& indexMask 4 ≠ i &&& indexMask 4 := by decide
  rw [after_two]
  exact congrArg (fun g => some (Coin.load g))
    (group_stepped (t := tossedTable) _ [2, 3] hapart (fun j hj => (group_tossedTable hj).2) hi)

theorem averageSquaredNorm_after_two :
    ((new .coinBetting ⟨4, 1, 0, 0⟩ 4 .sparse 0 : Optimizer K K).after
      [.ones [1], .ones [2, 3]]).averageSquaredNorm = (3 + 1 / 1000000) / 2 :=
  congrArg averageSquaredNorm after_two

theorem writes_ones (o : Optimizer K K) (indices : List UInt64) (i : UInt64) :
    let l : Lesson K K := .ones indices
    Writes l.context o l.ec i ↔ ∃ j ∈ indices, j &&& o.weights.mask = i := by
  intro l
  have hvisits : l.ec.visits l.context.interactions = indices.map fun i => ⟨i, 1⟩ :=
    Example.visits_ones indices
  have hlabel : l.ec.target?.isSome := rfl
  unfold Writes Example.Reaches
  rw [hvisits]
  simp [hlabel]

/-- The group of index 1 was written by the first lesson only, those of 2 and 3 by the second. -/
theorem lastAverage?_two :
    let start : Optimizer K K := .new .coinBetting ⟨4, 1, 0, 0⟩ 4 .sparse 0
    let lessons := [.ones [1], .ones [2, 3]]
    start.lastAverage? 1 lessons = some (1 + 1 / 1000000) ∧
      ∀ i ∈ [2, 3], start.lastAverage? i lessons = some (start.after lessons).averageSquaredNorm := by
  intro start lessons
  let o := start.after [.ones [1]]
  have hone : o = bettor tossedTable 1 1 (1 + 1 / 1000000) := after_one
  have hmask : o.weights.mask = indexMask 4 := by rw [hone]; rfl
  have haverage : o.averageSquaredNorm = 1 + 1 / 1000000 := congrArg averageSquaredNorm hone
  refine ⟨?_, fun i hi => ?_⟩
  · have hwrote := (writes_ones start [1] (1 &&& start.weights.mask)).mpr
      ⟨1, List.mem_singleton_self _, rfl⟩
    have hspared : ¬ Writes _ o _ (1 &&& o.weights.mask) := fun hwrites => by
      obtain ⟨j, hj, heq⟩ := (writes_ones o [2, 3] _).mp hwrites
      rw [hmask] at heq
      exact (group_tossedTable (K := K) hj).1 heq.symm
    calc start.lastAverage? 1 lessons
        = (none.or (if Writes _ o _ (1 &&& o.weights.mask) then _ else none)).or
            (if Writes _ start _ (1 &&& start.weights.mask) then some o.averageSquaredNorm
              else none) := rfl
      _ = some (1 + 1 / 1000000) := by rw [if_neg hspared, if_pos hwrote, haverage]; rfl
  · have hwrote := (writes_ones o [2, 3] (i &&& o.weights.mask)).mpr ⟨i, hi, rfl⟩
    calc start.lastAverage? i lessons
        = (none.or (if Writes _ o _ (i &&& o.weights.mask) then
            some (start.after lessons).averageSquaredNorm else none)).or _ := rfl
      _ = some (start.after lessons).averageSquaredNorm := by rw [if_pos hwrote]; rfl

/-! ## Predictions by stored parameters -/

/-- In exact arithmetic, coin betting predicts the dot product of the features with the parameters
that lessons left. On an example without a feature larger than those before, the terms of this
product, each times the average norm at the last lesson that wrote its group, add up to the sum of
bets that learning starts from; so does the product times the average norm of today where all the
groups were written under that one. -/
theorem stored_bets (p : Params K) (bits : Nat) (layout : Layout) (patience : UInt32)
    {lessons : List (Lesson K K)} (hweight : ∀ l ∈ lessons, 0 < l.ec.weight) :
    let start : Optimizer K K := .new .coinBetting p bits layout patience
    let o := start.after lessons
    let average i := (start.lastAverage? i lessons).getD o.averageSquaredNorm
    ∃ coin : UInt64 → Coin K, (∀ i, o.coin? i = some (coin i)) ∧
      ∀ (context : Context K K) (ec : Example K),
        let visits := ec.visits context.interactions
        let raw := (visits.map fun f => Coin.raw p (coin f.index) f.value).sum
        let predicted := ((predict : NodeM K K _ _ Unit).runOn ⟨o, context, ec⟩).2.input
        let learned := ((learn : NodeM K K _ _ Unit).runOn ⟨o, context, ec⟩).2
        predicted.partialPrediction = (visits.map fun f => f.value * (coin f.index).param).sum ∧
        learned.input.partialPrediction = raw / learned.node.averageSquaredNorm ∧
        ((∀ f ∈ visits, |f.value| ≤ (coin f.index).maxAbsX) →
          (visits.map fun f => f.value * (coin f.index).param * average f.index).sum = raw ∧
          ((∀ f ∈ visits, average f.index = o.averageSquaredNorm) →
            predicted.partialPrediction * o.averageSquaredNorm = raw)) := by
  intro start o average
  have hsettled : o.Settled average := (settled_new p bits layout patience _).after hweight
  have hparams : o.params = p := params_after start lessons
  choose coin hcoin _ using hsettled.coins
  refine ⟨coin, hcoin, fun context ec => ?_⟩
  intro visits raw predicted learned
  have hpredicted : predicted.partialPrediction = (visits.map fun f =>
      f.value * (coin f.index).param).sum := dot_eq_sum hcoin visits
  have hlearned : learned.input.partialPrediction = raw / learned.node.averageSquaredNorm := by
    have hprediction := learningPrediction_eq hcoin ec.weight visits
    rw [hparams] at hprediction
    unfold learned
    rw [runOn_learn]
    dsimp only
    split
    · exact hprediction
    · exact hprediction
  refine ⟨hpredicted, hlearned, fun hsize => ?_⟩
  have hsum := hsettled.sum_eq hcoin hsize
  rw [hparams] at hsum
  refine ⟨hsum, fun htoday => ?_⟩
  rw [hpredicted, ← List.sum_map_mul_right]
  refine .trans ?_ hsum
  refine congrArg List.sum (List.map_congr_left fun f hf => ?_)
  rw [htoday f hf]

/-- After two lessons the parameter at index 1 is stale: it gives back its bet at the average norm of
the first lesson, which is not the one of today. At indices 2 and 3 it does so at the one of today. -/
theorem stored_bets_two :
    let p : Params ℝ := ⟨4, 1, 0, 0⟩
    let start : Optimizer ℝ ℝ := .new .coinBetting p 4 .sparse 0
    let lessons : List (Lesson ℝ ℝ) := [.ones [1], .ones [2, 3]]
    let o := start.after lessons
    let context : Context ℝ ℝ := .initial .squared
    let predicted (ec : Example ℝ) : ℝ :=
      ((predict : NodeM ℝ ℝ _ _ Unit).runOn ⟨o, context, ec⟩).2.input.partialPrediction
    ((∀ l ∈ lessons, 0 < l.ec.weight) ∧
      start.lastAverage? 1 lessons = some (1 + 1 / 1000000) ∧
      o.averageSquaredNorm = (3 + 1 / 1000000) / 2 ∧
      ∀ i ∈ [2, 3], start.lastAverage? i lessons = some o.averageSquaredNorm) ∧
      ∃ coin : UInt64 → Coin ℝ, (∀ i, o.coin? i = some (coin i)) ∧
        (∀ i ∈ [1, 2, 3], |1| ≤ (coin i).maxAbsX) ∧
        predicted (.ones [1]) * (1 + 1 / 1000000) = Coin.raw p (coin 1) 1 ∧
        predicted (.ones [2, 3]) * o.averageSquaredNorm =
          Coin.raw p (coin 2) 1 + Coin.raw p (coin 3) 1 := by
  intro p start lessons o context predicted
  have hweight : ∀ l ∈ lessons, 0 < l.ec.weight := Lesson.weight_pos_ones [[1], [2, 3]]
  obtain ⟨hstale, hfresh⟩ := lastAverage?_two (K := ℝ)
  obtain ⟨coin, hcoin, hcalls⟩ := stored_bets p 4 .sparse 0 hweight
  have hone : coin 1 = .tossed _ := Option.some.inj ((hcoin 1).symm.trans coin?_one_after_two)
  have hrest (i : UInt64) (hi : i ∈ [2, 3]) : coin i = .tossed _ :=
    Option.some.inj ((hcoin i).symm.trans (coin?_after_two hi))
  have hsize : ∀ i ∈ [1, 2, 3], |1| ≤ (coin i).maxAbsX := by
    intro i hi
    rcases List.mem_cons.mp hi with rfl | hi
    · exact hone ▸ Coin.abs_one_le_tossed _
    · exact hrest i hi ▸ Coin.abs_one_le_tossed _
  have hvisits (indices : List UInt64) : (Example.ones indices).visits context.interactions =
      indices.map fun i => ⟨i, (1 : ℝ)⟩ := Example.visits_ones indices
  refine ⟨⟨hweight, hstale, averageSquaredNorm_after_two, hfresh⟩, coin, hcoin, hsize, ?_, ?_⟩
  · obtain ⟨hpredicted, -, hbets⟩ := hcalls context (.ones [1])
    rw [hvisits] at hpredicted hbets
    have hsum := (hbets (by simpa using hsize 1 (by decide))).1
    simp only [List.map_cons, List.map_nil, List.sum_singleton] at hpredicted hsum
    rw [hstale] at hsum
    exact (congrArg (· * _) hpredicted).trans hsum
  · obtain ⟨-, -, hbets⟩ := hcalls context (.ones [2, 3])
    rw [hvisits] at hbets
    have htoday := (hbets fun f hf => ?_).2 fun f hf => ?_
    · simpa using htoday
    · obtain ⟨i, hi, rfl⟩ := List.mem_map.mp hf
      exact hsize i (List.mem_cons_of_mem _ hi)
    · obtain ⟨i, hi, rfl⟩ := List.mem_map.mp hf
      exact congrArg (Option.getD · _) (hfresh i hi)

/-- A second lesson, on other features, moves the average norm from 1.000001 to 1.5000005, and the
parameter of the first feature stays as it was. -/
theorem not_stored_bets :
    let p : Params ℝ := ⟨4, 1, 0, 0⟩
    let lessons : List (Lesson ℝ ℝ) := [.ones [1], .ones [2, 3]]
    let o := (new .coinBetting p 4 .sparse 0 : Optimizer ℝ ℝ).after lessons
    let context : Context ℝ ℝ := .initial .squared
    let predicted := ((predict : NodeM ℝ ℝ _ _ Unit).runOn ⟨o, context, .ones [1]⟩).2.input
    (∀ l ∈ lessons, 0 < l.ec.weight) ∧
      (Example.ones [1]).visits context.interactions = [⟨1, (1 : ℝ)⟩] ∧
      ∃ w, o.coin? 1 = some w ∧ |1| ≤ w.maxAbsX ∧
        predicted.partialPrediction * o.averageSquaredNorm ≠ Coin.raw p w 1 := by
  intro p lessons o context predicted
  have hweight : ∀ l ∈ lessons, 0 < l.ec.weight := Lesson.weight_pos_ones [[1], [2, 3]]
  have hsettled : o.Settled _ := (settled_new p 4 .sparse 0 fun _ => 1).after hweight
  choose coin hcoin _ using hsettled.coins
  have htossed : coin 1 = .tossed _ := Option.some.inj ((hcoin 1).symm.trans coin?_one_after_two)
  have hvisits : (Example.ones [1]).visits context.interactions = [⟨1, (1 : ℝ)⟩] :=
    Example.visits_ones [1]
  have hpredicted : predicted.partialPrediction = 1 / (1 + 1 / 1000000) := by
    refine (dot_eq_sum hcoin ((Example.ones [1]).visits context.interactions)).trans ?_
    rw [hvisits]
    simp [htossed, Coin.tossed]
  have haverage : o.averageSquaredNorm = (3 + 1 / 1000000) / 2 := averageSquaredNorm_after_two
  refine ⟨hweight, hvisits, .tossed _, coin?_one_after_two, Coin.abs_one_le_tossed _, ?_⟩
  rw [hpredicted, haverage, Coin.raw_tossed]
  norm_num

end Optimizer

end OnlineLearning
