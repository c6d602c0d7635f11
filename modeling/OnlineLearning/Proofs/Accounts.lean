import Mathlib
import OnlineLearning.Proofs.Bookings
import OnlineLearning.Proofs.Divisors

/-!
# Accounts of grounded workspaces

Whatever a grounded workspace is asked to predict and to learn, its statistics, its counters and its
optimizer agree with the receipts of the batches that it has learned. Numbers are exact here, as
sums of rounded ones depend on their order.

* `Balanced` are accounts that agree with a list of receipts; `Balanced.booked` adds a receipt;
* `Request.receipt?` reads the receipt of a call off its answer, `Request.ledger` those of a run;
* `Request.Regular` are the calls that are accounted for;
* `Workspace.answer_accounted` is about one call, `Workspace.answers_accounted` about a run;
* `Workspace.answers_balanced`: the accounts of every run from a new workspace.
-/

namespace OnlineLearning

variable {R W : Type} [Scalar R] [Number W] [Widening R W]

/-! ## Accounts -/

variable {K : Type} [ExactNumber K] {s : GroundedSettings K} {calls : ℕ}
  {receipts : List (Receipt K)}

/-- The accounts of a grounded workspace after `calls` calls, with the receipts of all batches that
were learned. -/
structure Balanced (s : GroundedSettings K) (calls : ℕ) (receipts : List (Receipt K))
    (o : Optimizer K K) (state : GroundedState K K) (context : Context K K) : Prop where
  weight : context.stats.weightedLabeledExamples = (receipts.map Receipt.weight).sum
  loss : context.stats.sumLoss = (receipts.map Receipt.loss).sum
  decoderWeight : state.decoderContext.stats.weightedLabeledExamples =
    (receipts.map (Receipt.decoderWeight s)).sum
  totalWeight : o.totalWeight = context.stats.weightedLabeledExamples +
    state.decoderContext.stats.weightedLabeledExamples
  exampleNumber : context.stats.exampleNumber = UInt64.ofNat calls
  decoderExamples : state.counters.decoderExamples = UInt64.ofNat (receipts.map Receipt.lines).sum
  batchesLearned : state.counters.batchesLearned = UInt64.ofNat receipts.length
  extremeBatches : ∃ n ≤ receipts.length, state.counters.extremeBatches = UInt64.ofNat n

namespace Balanced

variable {o : Optimizer K K} {state : GroundedState K K} {context : Context K K}

/-- To count a batch is to count a call. -/
theorem recordExample (h : Balanced s calls receipts o state context) (features : ℕ) :
    Balanced s (calls + 1) receipts o state
      { context with stats := context.stats.recordExample features } :=
  { h with
    exampleNumber := by
      change context.stats.exampleNumber + 1 = _
      rw [h.exampleNumber, UInt64.ofNat_add]
      rfl }

/-- A batch that was learned is booked by its receipt. -/
theorem booked {f left : Frame K K (GroundedState K K × Example K × Optimizer K K) (Batch K)}
    (h : Balanced s calls receipts f.node.2.2 f.node.1 f.context) {r : Receipt K}
    (hr : Grounded.Booked s r f left) :
    Balanced s calls (receipts ++ [r]) left.node.2.2 left.node.1 left.context := by
  have hweight : left.context.stats.weightedLabeledExamples =
      f.context.stats.weightedLabeledExamples + r.weight := congrArg LossSums.weight hr.learned
  have hloss : left.context.stats.sumLoss = f.context.stats.sumLoss + r.loss :=
    congrArg LossSums.loss hr.learned
  obtain ⟨extremes, hextremes, hcounters⟩ := hr.counters
  obtain ⟨n, hn, hbatches⟩ := h.extremeBatches
  -- Every sum over the receipts grows by what the new one says.
  have hsum {M : Type} [AddMonoid M] (f : Receipt K → M) :
      ((receipts ++ [r]).map f).sum = (receipts.map f).sum + f r := by simp
  constructor
  · rw [hweight, h.weight, hsum]
  · rw [hloss, h.loss, hsum]
  · rw [hr.decoderWeight, h.decoderWeight, hsum]
  · rw [hr.totalWeight, h.totalWeight, hweight, hr.decoderWeight]
    ring
  · rw [hr.exampleNumber, h.exampleNumber]
  · rw [hcounters, hsum, UInt64.ofNat_add, h.decoderExamples]
  · rw [hcounters, List.length_append, UInt64.ofNat_add, h.batchesLearned]
    rfl
  · refine ⟨n + extremes, ?_, ?_⟩
    · rw [List.length_append, List.length_singleton]
      omega
    · rw [hcounters, hbatches, UInt64.ofNat_add]

end Balanced

/-! ## Requests -/

namespace Request

omit [Number W] [Widening R W] in
/-- The receipt of a call: there is one if the call may learn and a line was chosen. -/
def receipt? : Request R → Answer R → Option (Receipt R)
  | .learnBatch batch, .batch _ left =>
    (Bandit.chosen? batch).map fun (i, line, observed) =>
      ⟨line, observed, (left.getD i Example.blank).loss, batch.countP (·.role != .feedback)⟩
  | _, _ => none

omit [Number W] [Widening R W] in
theorem receipt?_predictBatch (batch : Batch R) (answer : Answer R) :
    (predictBatch batch).receipt? answer = none := by
  cases answer <;> rfl

omit [Number W] [Widening R W] in
theorem receipt?_learnBatch (batch : Batch R) (outcome : Except LearnerError Unit)
    (left : Batch R) :
    (learnBatch batch).receipt? (.batch outcome left) =
      (Bandit.chosen? batch).map fun (i, line, observed) =>
        ⟨line, observed, (left.getD i Example.blank).loss, batch.countP (·.role != .feedback)⟩ :=
  rfl

/-- The receipts of calls made one after another. -/
def ledger (requests : List (Request R)) (answers : List (Answer R)) : List (Receipt R) :=
  (requests.zip answers).filterMap fun (request, answer) => request.receipt? answer

omit [Number W] [Widening R W] in
theorem ledger_cons (request : Request R) (requests : List (Request R)) (answer : Answer R)
    (answers : List (Answer R)) :
    ledger (request :: requests) (answer :: answers) =
      (request.receipt? answer).toList ++ ledger requests answers := by
  unfold ledger
  rw [List.zip_cons_cons, List.filterMap_cons]
  dsimp only
  cases request.receipt? answer <;> rfl

omit [Number W] [Widening R W] in
/-- A call has one receipt at most. -/
theorem length_ledger_le (requests : List (Request R)) (answers : List (Answer R)) :
    (ledger requests answers).length ≤ requests.length := by
  have hzip : (requests.zip answers).length ≤ requests.length := by
    rw [List.length_zip]
    exact Nat.min_le_left _ _
  exact (List.length_filterMap_le _ _).trans hzip

/-- Calls with batches that are not empty. In what is to be learned nothing is held out, only
actions have observed costs, and the chosen line has positive weight. -/
inductive Regular : Request K → Prop
  | predictBatch {batch : Batch K} (hne : batch ≠ []) : Regular (.predictBatch batch)
  | learnBatch {batch : Batch K} (hne : batch ≠ []) (hheld : ∀ line ∈ batch, line.holdout = false)
    (haction : ∀ line ∈ batch, line.hasObservedCost = true → Bandit.isAction line = true)
    (hweight : ∀ i line observed, Bandit.chosen? batch = some (i, line, observed) →
      0 < line.weight / observed.probability) : Regular (.learnBatch batch)

end Request

/-- Settings by which every line has weight for the decoder and rewritten costs count as known. -/
structure Grounded.Proper (s : GroundedSettings K) : Prop where
  positive : 0 < s.positiveImportance
  negative : 0 < s.negativeImportance
  known : ∀ negative, ∀ cost ∈ costs s negative, (cost != Scalar.largest) = true

namespace Workspace

/-- A call that goes well is counted. -/
theorem runOn_callBatch_ok (config : Config R) {t : Tower R} {state : t.State W}
    {context : Context R W} (hasher : FeatureHasher) {learning : Bool} {batch : Batch R}
    (h : ((t.learner.call (learns context batch learning)).runOn ⟨state, context, batch⟩).1 =
      .ok ()) :
    let left := ((t.learner.call (learns context batch learning)).runOn ⟨state, context, batch⟩).2
    ∃ features,
      (callBatch learning).runOn ⟨config, ⟨.tower t, state, context, hasher⟩, none⟩ batch =
        (.ok (), ⟨config, ⟨.tower t, left.node,
          { left.context with stats := left.context.stats.recordExample features }, hasher⟩, none⟩,
          left.input) := by
  rw [runOn_callBatch]
  generalize (t.learner.call (learns context batch learning)).runOn ⟨state, context, batch⟩ = run
    at h ⊢
  obtain ⟨outcome, left⟩ := run
  cases h
  exact ⟨_, rfl⟩

/-- A grounded tower by coin betting, with one scorer in its decoder and one below its bandit
node. -/
def bettingTower (s : GroundedSettings R) (link : LinkFunction) : Tower R :=
  .grounded s 1 ⟨.coinBetting, [.logistic]⟩ (.bandit ⟨.coinBetting, [link]⟩)

/-- Grounded workspaces without a journal, of which the accounts are balanced. -/
inductive Accounted (s : GroundedSettings K) (link : LinkFunction) (calls : ℕ)
    (receipts : List (Receipt K)) : Workspace K K → Prop
  | intro (config : Config K) {state : GroundedState K K} (scratch : Example K)
    {o : Optimizer K K} {context : Context K K} (hasher : FeatureHasher)
    (hmode : o.mode = .coinBetting) (h : Balanced s calls receipts o state context) :
    Accounted s link calls receipts
      ⟨config, ⟨.tower (bettingTower s link), (state, scratch, o), context, hasher⟩, none⟩

variable (link : LinkFunction) (config : Config K) (hasher : FeatureHasher) (scratch : Example K)
  {state : GroundedState K K} {o : Optimizer K K} {context : Context K K}
  {batch : Batch K}

/-- A call that only predicts books nothing. -/
theorem accounted_of_predict (learning : Bool) (hmode : o.mode = .coinBetting)
    (h : Balanced s calls receipts o state context) (hne : batch ≠ [])
    (hcall : ((bettingTower s link).learner.call (learns context batch learning)).runOn
        ⟨(state, scratch, o), context, batch⟩ =
      (bettingTower s link).learner.predict.runOn ⟨(state, scratch, o), context, batch⟩) :
    let run := (callBatch learning).runOn
      ⟨config, ⟨.tower (bettingTower s link), (state, scratch, o), context, hasher⟩, none⟩ batch
    run.1 = .ok () ∧ Accounted s link (calls + 1) receipts run.2.1 := by
  have hout := (bettingTower s link).learner_takes.predict
    ⟨(state, scratch, o), context, batch⟩ hne
  obtain ⟨hnode, hcontext⟩ := (bettingTower s link).predict_untouched
    ⟨(state, scratch, o), context, batch⟩
  rw [← hcall] at hout hnode hcontext
  obtain ⟨features, hrun⟩ := runOn_callBatch_ok config hasher hout
  intro run
  have hrun : run = _ := hrun
  generalize ((bettingTower s link).learner.call (learns context batch learning)).runOn
    ⟨(state, scratch, o), context, batch⟩ = called at hnode hcontext hrun
  obtain ⟨_, ⟨⟨state', scratch', o'⟩, context', input⟩⟩ := called
  obtain ⟨hstate, ho⟩ := hnode
  cases hstate
  cases ho
  cases hcontext
  rw [hrun]
  exact ⟨rfl, .intro config scratch' hasher hmode (h.recordExample features)⟩

/-- A batch with a chosen line is booked by its receipt. -/
theorem accounted_of_learn (hs : Grounded.Proper s) (hmode : o.mode = .coinBetting)
    (h : Balanced s calls receipts o state context) (hheld : ∀ line ∈ batch, line.holdout = false)
    (haction : ∀ line ∈ batch, line.hasObservedCost = true → Bandit.isAction line = true)
    {i : ℕ} {line : Example K} {observed : LoggedCost K}
    (hchosen : Bandit.chosen? batch = some (i, line, observed))
    (hweight : 0 < line.weight / observed.probability) :
    let run := (callBatch true).runOn
      ⟨config, ⟨.tower (bettingTower s link), (state, scratch, o), context, hasher⟩, none⟩ batch
    run.1 = .ok () ∧ Accounted s link (calls + 1)
      (receipts ++ [⟨line, observed, (run.2.2.getD i Example.blank).loss,
        batch.countP (·.role != .feedback)⟩]) run.2.1 := by
  have hmem := List.mem_of_getElem? (Bandit.getElem?_of_chosen? hchosen)
  have hlearns : learns context batch true = true := by
    apply learns_of_not_held
    simpa using hheld
  obtain ⟨hout, hbooked⟩ := Grounded.learn_booked 1
    (f := ⟨(state, scratch, o), context, batch⟩) hs.positive hs.negative .logistic link hmode
    haction hchosen hweight (hheld line hmem) (hs.known _)
  have hcall : ((bettingTower s link).learner.call (learns context batch true)).runOn
      ⟨(state, scratch, o), context, batch⟩ =
        (Grounded.learn s 1 (Bandit.learner (⟨.coinBetting, [link]⟩ : Line).learner)
          (Grounded.decoderLearner ⟨.coinBetting, [.logistic]⟩ ⟨.coinBetting, [link]⟩)).runOn
            ⟨(state, scratch, o), context, batch⟩ := by
    rw [hlearns]
    rfl
  rw [← hcall] at hout hbooked
  obtain ⟨features, hrun⟩ := runOn_callBatch_ok config hasher hout
  intro run
  have hrun : run = _ := hrun
  generalize ((bettingTower s link).learner.call (learns context batch true)).runOn
    ⟨(state, scratch, o), context, batch⟩ = called at hbooked hrun
  obtain ⟨_, ⟨⟨state', scratch', o'⟩, context', input⟩⟩ := called
  rw [hrun]
  exact ⟨rfl,
    .intro config scratch' hasher hbooked.mode ((h.booked hbooked).recordExample features)⟩

variable {link}

/-- A call answers and keeps the accounts balanced. -/
theorem answer_accounted (hs : Grounded.Proper s) {w : Workspace K K}
    (h : Accounted s link calls receipts w) {request : Request K} (hregular : request.Regular) :
    (∃ left, (w.answer request).1 = .batch (.ok ()) left) ∧
      Accounted s link (calls + 1) (receipts ++ (request.receipt? (w.answer request).1).toList)
        (w.answer request).2 := by
  obtain @⟨config, state, scratch, o, context, hasher, hmode, h⟩ := h
  cases hregular with
  | predictBatch hne =>
    obtain ⟨hout, hleft⟩ :=
      accounted_of_predict link config hasher scratch false hmode h hne rfl
    refine ⟨⟨_, congrArg (Answer.batch · _) hout⟩, ?_⟩
    rw [Request.receipt?_predictBatch, Option.toList_none, List.append_nil]
    exact hleft
  | @learnBatch batch hne hheld haction hweight =>
    unfold answer
    dsimp only
    rw [Request.receipt?_learnBatch]
    cases hchosen : Bandit.chosen? batch with
    | none =>
      have hnone := Grounded.chosen?_eq_none_of_bandit haction hchosen
      have hheld : batch.any (·.holdout) = false := by simpa using hheld
      have hcall : ((bettingTower s link).learner.call (learns context batch true)).runOn
          ⟨(state, scratch, o), context, batch⟩ =
            (bettingTower s link).learner.predict.runOn ⟨(state, scratch, o), context, batch⟩ := by
        rw [learns_of_not_held _ hheld]
        exact Grounded.runOn_learn_of_none s 1 _ _ _ _ hne hnone
      obtain ⟨hout, hleft⟩ :=
        accounted_of_predict link config hasher scratch true hmode h hne hcall
      refine ⟨⟨_, congrArg (Answer.batch · _) hout⟩, ?_⟩
      rw [Option.map_none, Option.toList_none, List.append_nil]
      exact hleft
    | some chosen =>
      obtain ⟨i, line, observed⟩ := chosen
      obtain ⟨hout, hleft⟩ := accounted_of_learn link config hasher scratch hs hmode h hheld
        haction hchosen (hweight i line observed hchosen)
      exact ⟨⟨_, congrArg (Answer.batch · _) hout⟩, hleft⟩

/-- A run of calls answers and keeps the accounts balanced. -/
theorem answers_accounted (hs : Grounded.Proper s) {w : Workspace K K}
    (h : Accounted s link calls receipts w) {requests : List (Request K)}
    (hregular : ∀ request ∈ requests, request.Regular) :
    (∀ answer ∈ (w.answers requests).1, ∃ left, answer = .batch (.ok ()) left) ∧
      Accounted s link (calls + requests.length)
        (receipts ++ Request.ledger requests (w.answers requests).1) (w.answers requests).2 := by
  induction requests generalizing w calls receipts with
  | nil =>
    refine ⟨fun answer hmem => absurd hmem List.not_mem_nil, ?_⟩
    rw [List.length_nil, Nat.add_zero, Request.ledger, List.zip_nil_left, List.filterMap_nil,
      List.append_nil]
    exact h
  | cons request rest ih =>
    obtain ⟨hanswer, hleft⟩ := answer_accounted hs h (hregular request List.mem_cons_self)
    obtain ⟨hanswers, hrest⟩ := ih hleft fun later hmem =>
      hregular later (List.mem_cons_of_mem _ hmem)
    unfold answers
    dsimp only
    constructor
    · intro answer hmem
      rcases List.mem_cons.mp hmem with rfl | hmem
      · exact hanswer
      · exact hanswers answer hmem
    · rw [Request.ledger_cons, ← List.append_assoc, List.length_cons, Nat.add_comm rest.length,
        ← Nat.add_assoc]
      exact hrest

end Workspace

/-! ## New workspaces -/

/-- The importances of a valid configuration with a grounded node are positive. -/
theorem Config.Parts.importances_pos {c : Config K} (p : c.Parts K)
    (h : c.grounded.enabled = true) :
    0 < c.grounded.positiveImportance ∧ 0 < c.grounded.negativeImportance := by
  obtain ⟨-, -, hpositive, hnegative, -⟩ := p.checked.grounded h
  rw [ExactNumber.ofNat_eq, Nat.cast_zero, not_le] at hpositive hnegative
  exact ⟨hpositive, hnegative⟩

namespace Workspace

omit [Widening R W] in
theorem stacked_of_new {c : Config R} {w : Workspace R W} (h : Workspace.new c = .ok w) :
    ∃ mode, c.optimizer.mode = .ok mode ∧
      Blueprint.Stacked c mode c.stages w.chain.stack ∧
      (.grounded ∈ c.stages → c.Grounds) := by
  obtain ⟨chain, hchain, hw⟩ := bind_eq_ok.mp h
  cases hw
  obtain ⟨_, hvalid, -⟩ := bind_eq_ok.mp hchain
  obtain ⟨mode, _, hmode, -⟩ := Config.exists_params_of_validate hvalid
  obtain ⟨s, hs, -, indices, hstack⟩ := Blueprint.stack_of_build hchain
  have hstacked := Blueprint.Stacked.of_stack (p := ⟨c, none, none⟩) rfl hmode hs
  refine ⟨mode, hmode, ?_, ?_⟩
  · dsimp only
    rw [hstack]
    exact hstacked.setNegativeFeedback indices
  · exact ((Blueprint.exists_stack_iff (p := ⟨c, none, none⟩) rfl hmode).mp ⟨s, hs⟩).2

/-- On new parts nothing is booked. -/
theorem balanced_parts {c : Config K} (p : c.Parts K) {decoderContext : Context K K}
    (hcontext : c.decoder.initialContext = .ok decoderContext) :
    Balanced (Config.Parts.settings c) 0 [] p.optimizer ⟨decoderContext, default, Example.blank⟩
      p.context := by
  have hstats : p.context.stats = .initial c.scorer.loss :=
    Config.stats_of_initialContext p.context_eq
  have hdecoderStats : decoderContext.stats = .initial c.decoder.scorer.loss :=
    Config.stats_of_initialContext hcontext
  constructor
  · rw [hstats]
    exact Nat.cast_zero
  · rw [hstats]
    exact Nat.cast_zero
  · rw [hdecoderStats]
    exact Nat.cast_zero
  · rw [hstats, hdecoderStats]
    change ((0 : ℕ) : K) = (0 : ℕ) + (0 : ℕ)
    rw [Nat.cast_zero, add_zero]
  · rw [hstats]
    rfl
  · rfl
  · rfl
  · exact ⟨0, le_rfl, rfl⟩

/-- The accounts of a new workspace with a grounded node are empty. -/
theorem accounted_of_new {c : Config K} {w : Workspace K K} (hnew : Workspace.new c = .ok w)
    (hc : c.grounded.enabled = true) (hlog : c.run.progressLog = "") :
    ∃ link, Accounted (Config.Parts.settings c) link 0 [] w := by
  obtain ⟨mode, hmode, hstacked, hgrounds⟩ := stacked_of_new hnew
  have hjournal := (fresh_of_new hnew).journal_eq_none hlog
  have hcoin := (hgrounds (by simp [Config.stages, hc])).mode
  cases fresh_of_new hnew with
  | line p h => simp [Config.hasBandit, hc] at h
  | bandit p _ h => simp [hc] at h
  | grounded p _ base decoderContext hloss hcontext =>
    have hdecoders : [base.push .logistic] = _ := hstacked.decoders
    have hdecoder : base.push .logistic = ⟨.coinBetting, [.logistic]⟩ := by
      apply List.eq_of_mem_replicate
      rw [← hdecoders]
      exact List.mem_singleton_self _
    have hbet : p.mode = .coinBetting := Except.ok.inj (p.mode_eq.symm.trans hcoin)
    have hprimary : p.line = ⟨.coinBetting, [c.scorer.link]⟩ := by
      unfold Config.Parts.line
      rw [hbet]
    dsimp only at hjournal
    rw [hjournal, hdecoder, hprimary]
    exact ⟨c.scorer.link, .intro c Example.blank _ hbet (balanced_parts p hcontext)⟩

end Workspace

/-! ## Real numbers -/

/-- The inverse of a binary fraction is not the largest number, which is no power of two. -/
theorem one_div_ne_largest {x : ℝ} (h : ∃ m n : ℕ, x = m / 2 ^ n) :
    1 / x ≠ (Scalar.largest : ℝ) := by
  obtain ⟨m, n, rfl⟩ := h
  have hlargest : (Scalar.largest : ℝ) = 3 * 5592405 * 2 ^ 104 := by
    change (2 ^ 128 - 2 ^ 104 : ℝ) = _
    norm_num
  rw [hlargest, one_div_div]
  intro heq
  have hm : (m : ℝ) ≠ 0 := by
    intro hm
    rw [hm, div_zero] at heq
    norm_num at heq
  have hpower : 2 ^ n = 3 * 5592405 * 2 ^ 104 * m := by
    rw [div_eq_iff hm] at heq
    exact_mod_cast heq
  have hthree : 3 ∣ 2 ^ n := ⟨5592405 * 2 ^ 104 * m, by rw [hpower]; ring⟩
  have htwo := Nat.prime_three.dvd_of_dvd_pow hthree
  omega

/-- If the prior is a binary fraction, as all numbers of configurations are, no cost that is written
stands for an unknown one. -/
theorem Grounded.known_of_mem_costs {s : GroundedSettings ℝ}
    (hprior : ∃ m n : ℕ, s.unlabeledPrior = m / 2 ^ n) (negative : Bool) :
    ∀ cost ∈ costs s negative, (cost != Scalar.largest) = true := by
  have hpositive : (0 : ℝ) < Scalar.largest := by
    change (0 : ℝ) < 2 ^ 128 - 2 ^ 104
    norm_num
  have hinverse := one_div_ne_largest hprior
  intro cost hcost
  rw [bne_iff_ne]
  rcases List.mem_pair.mp hcost with rfl | rfl
  · rw [ExactNumber.ofNat_eq, Nat.cast_zero]
    exact hpositive.ne
  · unfold extremeCost
    simp only [ExactNumber.ofNat_eq, Nat.cast_zero, Nat.cast_one]
    cases negative with
    | false =>
      have hgain : (-1 + 0 * (1 + 1 / s.unlabeledPrior) : ℝ) = -1 := by ring
      simp only [Bool.false_eq_true, if_false, hgain]
      linarith
    | true =>
      have hloss : (-1 + 1 * (1 + 1 / s.unlabeledPrior) : ℝ) = 1 / s.unlabeledPrior := by ring
      simp only [if_true, hloss]
      exact hinverse

namespace Workspace

/-- The accounts of a grounded workspace are balanced after every run of calls with batches, if
there is no journal. All calls are answered. What the statistics of the policy sum up are the
weights of the chosen lines and the losses that are left on them; what those of the decoder sum up
are the weights of all lines; and the optimizer has counted both. The prior is a binary fraction, as
every float is: so no new cost is the number that stands for an unknown one. -/
theorem answers_balanced {c : Config ℝ} {w : Workspace ℝ ℝ} (hnew : Workspace.new c = .ok w)
    (hc : c.grounded.enabled = true) (hlog : c.run.progressLog = "")
    (hprior : ∃ m n : ℕ, c.grounded.unlabeledPrior = m / 2 ^ n) (requests : List (Request ℝ))
    (hregular : ∀ request ∈ requests, request.Regular) :
    let run := w.answers requests
    (∀ answer ∈ run.1, ∃ left, answer = .batch (.ok ()) left) ∧
    ∃ state, run.2.chain.grounded? = some state ∧
      Balanced (Config.Parts.settings c) requests.length (Request.ledger requests run.1)
        run.2.chain.optimizer state run.2.chain.context ∧
      (requests.length < 2 ^ 64 →
        state.counters.extremeBatches ≤ state.counters.batchesLearned) := by
  intro run
  obtain ⟨p, -⟩ := (fresh_of_new hnew).related
  obtain ⟨hpositive, hnegative⟩ := p.importances_pos hc
  obtain ⟨link, hstart⟩ := accounted_of_new hnew hc hlog
  obtain ⟨hanswers, hleft⟩ := answers_accounted
    ⟨hpositive, hnegative, Grounded.known_of_mem_costs hprior⟩ hstart hregular
  refine ⟨hanswers, ?_⟩
  rw [Nat.zero_add, List.nil_append] at hleft
  change Accounted _ _ _ (Request.ledger requests run.1) run.2 at hleft
  have hlength := Request.length_ledger_le requests run.1
  generalize Request.ledger requests run.1 = receipts at hlength hleft ⊢
  generalize run.2 = left at hleft ⊢
  obtain ⟨config, scratch, hasher, -, h⟩ := hleft
  refine ⟨_, rfl, h, fun hcalls => ?_⟩
  obtain ⟨n, hn, hextremes⟩ := h.extremeBatches
  have hsize : UInt64.size = 2 ^ 64 := rfl
  rw [hextremes, h.batchesLearned, UInt64.le_iff_toNat_le, UInt64.toNat_ofNat_of_lt' (by omega),
    UInt64.toNat_ofNat_of_lt' (by omega)]
  exact hn

end Workspace

/-! ## A run -/

namespace Config

/-- The default configuration with a grounded node, in exact numbers. -/
def exactGrounded : Config K :=
  { (Config.default : Config K) with
    grounded := { (Config.default : Config K).grounded with enabled := true } }

theorem grounds_exactGrounded : (exactGrounded : Config K).Grounds where
  mode := rfl
  loss := rfl
  link := rfl
  valid := validate_default

theorem validate_exactGrounded : (exactGrounded : Config K).validate = .ok () := by
  have hhalf : ((0 : ℕ) : K) < (1 : ℕ) / (2 : ℕ) := by norm_num
  have hone : ((1 : ℕ) : K) / (2 : ℕ) ≤ (1 : ℕ) := by norm_num
  have hpositive : ¬ ((1 : ℕ) : K) ≤ (0 : ℕ) := by norm_num
  have hnegative : ¬ ((1 : ℕ) : K) / (2 : ℕ) ≤ (0 : ℕ) := by norm_num
  exact validate_iff_checked.mpr { checked_default with
    grounded := fun _ => ⟨rfl, ⟨hhalf, hone⟩, hpositive, hnegative, [], rfl⟩ }

end Config

namespace Workspace

/-- An action that was chosen with probability one half, another action and feedback. -/
noncomputable def tossBatch : Batch ℝ :=
  [{ (Example.blank : Example ℝ) with label := .bandit [⟨1, 1, 1 / 2⟩] },
    { (Example.blank : Example ℝ) with role := .action },
    { (Example.blank : Example ℝ) with role := .feedback }]

theorem chosen?_tossBatch : Bandit.chosen? tossBatch =
    some (0, { (Example.blank : Example ℝ) with label := .bandit [⟨1, 1, 1 / 2⟩] },
      ⟨1, 1, 1 / 2⟩) := by
  have hlargest : (1 : ℝ) ≠ Scalar.largest := by
    change (1 : ℝ) ≠ 2 ^ 128 - 2 ^ 104
    norm_num
  have hpositive : ((0 : ℕ) : ℝ) < 1 / 2 := by norm_num
  have hseen : (⟨1, 1, 1 / 2⟩ : LoggedCost ℝ).isObserved = true :=
    Bool.and_eq_true_iff.mpr ⟨bne_iff_ne.mpr hlargest, decide_eq_true hpositive⟩
  have hobserved : ({ (Example.blank : Example ℝ) with
      label := .bandit [⟨1, 1, 1 / 2⟩] }).observed? = some ⟨1, 1, 1 / 2⟩ :=
    List.find?_cons_of_pos hseen
  have hbefore : ∀ ec ∈ ([] : Batch ℝ), Bandit.isAction ec = true → ec.observed? = none := by simp
  exact Bandit.chosen?_append hbefore rfl hobserved

theorem regular_tossBatch : (Request.learnBatch tossBatch).Regular := by
  refine .learnBatch (List.cons_ne_nil _ _) ?_ ?_ ?_
  · simp [tossBatch, Example.blank]
  · simp [tossBatch, Example.blank, Bandit.isAction, Example.hasObservedCost, Example.observed?]
  · intro i line observed hchosen
    cases chosen?_tossBatch.symm.trans hchosen
    change (0 : ℝ) < (1 : ℕ) / (1 / 2)
    norm_num

/-- A prediction of the batch, and then a lesson from it. -/
theorem answers_balanced_of_toss :
    let requests : List (Request ℝ) := [.predictBatch tossBatch, .learnBatch tossBatch]
    let c : Config ℝ := Config.exactGrounded
    (c.grounded.enabled = true ∧ c.run.progressLog = "" ∧
      (∃ m n : ℕ, c.grounded.unlabeledPrior = m / 2 ^ n) ∧
      ∀ request ∈ requests, request.Regular) ∧
    ∃ w : Workspace ℝ ℝ, Workspace.new c = .ok w ∧
      let run := w.answers requests
      ∃ state, run.2.chain.grounded? = some state ∧
        run.2.chain.context.stats.weightedLabeledExamples = 2 ∧
        state.decoderContext.stats.weightedLabeledExamples = 3 / 2 ∧
        run.2.chain.optimizer.totalWeight = 7 / 2 ∧
        run.2.chain.context.stats.exampleNumber = 2 ∧
        state.counters.decoderExamples = 2 ∧ state.counters.batchesLearned = 1 := by
  intro requests c
  have hprior : ∃ m n : ℕ, c.grounded.unlabeledPrior = m / 2 ^ n := by
    refine ⟨1, 1, ?_⟩
    change ((1 : ℕ) : ℝ) / (2 : ℕ) = _
    norm_num
  have hregular : ∀ request ∈ requests, request.Regular := by
    intro request hmem
    rcases List.mem_pair.mp hmem with rfl | rfl
    · exact .predictBatch (List.cons_ne_nil _ _)
    · exact regular_tossBatch
  obtain ⟨w, hw⟩ := Config.exists_new (W := ℝ) (c := c) Config.validate_exactGrounded fun _ =>
    Config.grounds_exactGrounded
  obtain ⟨hanswers, state, hstate, h, -⟩ := answers_balanced hw rfl rfl hprior requests hregular
  refine ⟨⟨rfl, rfl, hprior, hregular⟩, w, hw, state, hstate, ?_⟩
  obtain ⟨left, hleft⟩ := hanswers ((w.answer (.predictBatch tossBatch)).2.answer
    (.learnBatch tossBatch)).1 (List.mem_cons_of_mem _ (List.mem_singleton_self _))
  have hledger : Request.ledger requests (w.answers requests).1 =
      [⟨{ (Example.blank : Example ℝ) with label := .bandit [⟨1, 1, 1 / 2⟩] }, ⟨1, 1, 1 / 2⟩,
        (left.getD 0 Example.blank).loss, 2⟩] := by
    change Request.ledger [_, _] [_, ((w.answer (.predictBatch tossBatch)).2.answer
      (.learnBatch tossBatch)).1] = _
    rw [Request.ledger_cons, Request.ledger_cons, Request.receipt?_predictBatch, hleft,
      Request.receipt?_learnBatch, chosen?_tossBatch]
    rfl
  rw [hledger] at h
  have hweight : (w.answers requests).2.chain.context.stats.weightedLabeledExamples = 2 := by
    rw [h.weight]
    change ((1 : ℕ) : ℝ) / (1 / 2) + 0 = 2
    norm_num
  have hdecoder : state.decoderContext.stats.weightedLabeledExamples = 3 / 2 := by
    rw [h.decoderWeight]
    change ((1 : ℕ) : ℝ) + ((2 : ℕ) - 1) * ((1 : ℕ) / (2 : ℕ)) + 0 = 3 / 2
    norm_num
  refine ⟨hweight, hdecoder, ?_, h.exampleNumber, h.decoderExamples, h.batchesLearned⟩
  rw [h.totalWeight, hweight, hdecoder]
  norm_num

end Workspace

end OnlineLearning
