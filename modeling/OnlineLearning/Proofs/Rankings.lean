import Mathlib.Data.List.Basic
import OnlineLearning.Proofs.Predictions
import OnlineLearning.Proofs.Refusals

/-!
# Rankings

A bandit node numbers the actions of a batch, scores each by itself and writes the scores in
ascending order into the first line.

* `Bandit.score` is the score of an action, `Bandit.scored` the line with its score;
* `Bandit.runOn_scoreLines`: the lines are scored one by one, in one state of the base;
* `Bandit.exists_ranking`: numbered scores are sorted, and where scores tie the numbers are;
* `Bandit.predict_ranks`: a prediction ranks all actions, and writes scores and ranking only.
-/

namespace OnlineLearning.Bandit

variable {R W σ : Type} [Scalar R]

/-! ## Scores -/

/-- Of the shared line only the features matter. -/
theorem merged_congr {shared shared' : Option (Example R)}
    (h : shared'.map (·.namespaces) = shared.map (·.namespaces)) (action : Example R) :
    merged shared' action = merged shared action := by
  cases shared with
  | none =>
    obtain rfl := Option.map_eq_none_iff.mp h
    rfl
  | some s =>
    obtain ⟨s', rfl, hs⟩ := Option.map_eq_some_iff.mp h
    unfold merged
    dsimp only
    rw [hs]

/-- What the base predicts of the unlabeled example of an action. -/
def score (base : LineLearner R W σ) (node : σ) (context : Context R W)
    (shared : Option (Example R)) (action : Example R) : R :=
  (base.predict.runOn ⟨node, context, merged shared action⟩).2.input.scalar

/-- A line with the score that it gets, if it is an action. -/
def scored (base : LineLearner R W σ) (node : σ) (context : Context R W)
    (shared : Option (Example R)) (ec : Example R) : Example R :=
  if isAction ec then { ec with partialPrediction := score base node context shared ec } else ec

/-- A score with the number of its action. -/
def numbered (e : R × ℕ) : ActionScore R := ⟨UInt32.ofNat e.2, e.1⟩

section

variable {base : LineLearner R W σ} (hobserves : base.Observes) (haccepts : base.Accepts)
include hobserves haccepts

/-- The first of the lines from a position on is scored, and the base is left as it was. -/
theorem runOn_scoreLines_action (scratch : Example R) (node : σ) (context : Context R W)
    (shared : Option (Example R)) (action : ℕ) (before rest : Batch R) {ec : Example R}
    (haction : isAction ec = true) :
    ∃ scratch',
      let later := (scoreLines base shared (action + 1) (before.length + 1) rest).runOn
        ⟨(scratch', node), context, before ++ scored base node context shared ec :: rest⟩
      (scoreLines base shared action before.length (ec :: rest)).runOn
          ⟨(scratch, node), context, before ++ ec :: rest⟩ =
        (later.1.map (numbered (score base node context shared ec, action) :: ·), later.2) := by
  obtain ⟨hnode, hcontext⟩ := hobserves ⟨node, context, merged shared ec⟩ rfl
  have hout := (haccepts.predict ⟨node, context, merged shared ec⟩ none rfl).1
  rw [runOn_scoreLines_cons, if_pos haction, scored, if_pos haction, score]
  dsimp only
  generalize base.predict.runOn ⟨node, context, merged shared ec⟩ = below at hnode hcontext hout ⊢
  obtain ⟨outcome, left⟩ := below
  cases hout
  dsimp only at hnode hcontext ⊢
  rw [hnode, hcontext, Grounded.modify_at_length]
  exact ⟨left.input, rfl⟩

/-- The lines from a position on are scored one by one, in one state of the base. -/
theorem runOn_scoreLines (scratch : Example R) (node : σ) (context : Context R W)
    (shared : Option (Example R)) (action : ℕ) (before lines : Batch R) :
    let run := (scoreLines base shared action before.length lines).runOn
      ⟨(scratch, node), context, before ++ lines⟩
    run.1 = .ok ((((lines.filter isAction).map (score base node context shared)).zipIdx action).map
        numbered) ∧
      run.2.input = before ++ lines.map (scored base node context shared) := by
  induction lines generalizing scratch action before with
  | nil => exact ⟨rfl, rfl⟩
  | cons ec rest ih =>
    intro run
    -- The line is put at the end of the front, scored or as it is.
    have hrest (scratch : Example R) (action : ℕ) (line : Example R) :=
      ih scratch action (before ++ [line])
    simp only [List.length_append, List.length_singleton, List.append_assoc,
      List.singleton_append] at hrest
    by_cases haction : isAction ec = true
    · obtain ⟨scratch', hrun⟩ := runOn_scoreLines_action hobserves haccepts scratch node context
        shared action before rest haction
      obtain ⟨hscores, hlines⟩ := hrest scratch' (action + 1) (scored base node context shared ec)
      change run = _ at hrun
      rw [hrun]
      dsimp only
      rw [hscores, List.filter_cons_of_pos haction]
      exact ⟨rfl, hlines⟩
    · have hrun : run = _ := runOn_scoreLines_cons base shared action before.length ec rest _
      obtain ⟨hscores, hlines⟩ := hrest scratch action ec
      rw [if_neg haction] at hrun
      rw [hrun, List.filter_cons_of_neg haction, List.map_cons, scored, if_neg haction]
      exact ⟨hscores, hlines⟩

/-- A prediction writes scores and a ranking of the numbered scores, and nothing else. -/
theorem runOn_predict_cons (scratch : Example R) (node : σ) (context : Context R W)
    (first : Example R) (rest : Batch R) :
    let batch := first :: rest
    let shared := shared? batch
    let run := (predict base).runOn ⟨(scratch, node), context, batch⟩
    run.1 = .ok () ∧
      run.2.input = { scored base node context shared first with
          prediction := .ranking (rank ((((batch.filter isAction).map
            (score base node context shared)).zipIdx).map numbered)) } ::
        rest.map (scored base node context shared) := by
  intro batch shared run
  obtain ⟨hscores, hlines⟩ :=
    runOn_scoreLines hobserves haccepts scratch node context shared 0 [] batch
  have hrun : run = _ := runOn_predict base ⟨(scratch, node), context, batch⟩
  rw [if_neg (by simp [batch])] at hrun
  dsimp only [List.length_nil, List.nil_append] at hrun hscores hlines
  generalize (scoreLines base shared 0 0 batch).runOn ⟨(scratch, node), context, batch⟩ = scoring
    at hrun hscores hlines
  obtain ⟨outcome, left⟩ := scoring
  dsimp only at hscores hlines
  subst hscores
  rw [hrun]
  dsimp only
  rw [hlines]
  exact ⟨rfl, rfl⟩

theorem map_partialPrediction_predict (scratch : Example R) (node : σ) (context : Context R W)
    (batch : Batch R) :
    let run := (predict base).runOn ⟨(scratch, node), context, batch⟩
    run.2.input.map Example.partialPrediction =
      batch.map fun ec => (scored base node context (shared? batch) ec).partialPrediction := by
  intro run
  cases batch with
  | nil =>
    have hrun : run = _ := runOn_predict_nil base (scratch, node) context
    rw [hrun]
    rfl
  | cons first rest =>
    obtain ⟨-, hlines⟩ :=
      runOn_predict_cons hobserves haccepts scratch node context first rest
    change run.2.input = _ at hlines
    rw [hlines, List.map_cons, List.map_map]
    rfl

end

/-! ## Rankings -/

/-- The order of a ranking: the lower score first, and of equal scores the lower number. -/
def Precedes (a b : Float32 × ℕ) : Prop :=
  Scalar.totalLe a.1 b.1 = true ∧ (Scalar.totalLe b.1 a.1 = true → a.2 < b.2)

instance (a b : Float32 × ℕ) : Decidable (Precedes a b) :=
  inferInstanceAs (Decidable (_ ∧ (_ → _)))

/-- A negative zero comes before a positive one. -/
example : [(-1 / 0, 4), (-1, 3), (-0, 1), (0, 0), (0, 2), (1 / 0, 5)].Pairwise Precedes := by
  decide +kernel

theorem totalLe_trans (a b c : Float32) (h : Scalar.totalLe a b = true)
    (h' : Scalar.totalLe b c = true) : Scalar.totalLe a c = true := by
  have hab : totalKey a ≤ totalKey b := of_decide_eq_true h
  have hbc : totalKey b ≤ totalKey c := of_decide_eq_true h'
  exact decide_eq_true (UInt32.le_trans hab hbc)

theorem totalLe_total (a b : Float32) : (Scalar.totalLe a b || Scalar.totalLe b a) = true := by
  rcases UInt32.le_total (totalKey a) (totalKey b) with h | h
  · exact Bool.or_eq_true_iff.mpr (Or.inl (decide_eq_true h))
  · exact Bool.or_eq_true_iff.mpr (Or.inr (decide_eq_true h))

theorem precedes_of_zipIdxLE {a b : Float32 × ℕ} (h : List.zipIdxLE Scalar.totalLe a b = true)
    (hne : a.2 ≠ b.2) : Precedes a b := by
  unfold List.zipIdxLE at h
  split at h
  · rename_i hle
    refine ⟨hle, fun htie => ?_⟩
    rw [if_pos htie] at h
    exact lt_of_le_of_ne (of_decide_eq_true h) hne
  · cases h

/-- Sorted scores are the scores with their numbers, and where scores tie the numbers are sorted. -/
theorem exists_ranking (scores : List Float32) :
    ∃ ranking : List (Float32 × ℕ), ranking.Perm scores.zipIdx ∧ ranking.Pairwise Precedes ∧
      rank (scores.zipIdx.map numbered) = ranking.map numbered := by
  let ranking := scores.zipIdx.mergeSort (List.zipIdxLE Scalar.totalLe)
  have hperm : ranking.Perm scores.zipIdx := List.mergeSort_perm _ _
  have hsorted := List.pairwise_mergeSort (List.zipIdxLE_trans totalLe_trans)
    (List.zipIdxLE_total totalLe_total) scores.zipIdx
  have hnumbers : (ranking.map Prod.snd).Nodup := by
    rw [(hperm.map Prod.snd).nodup_iff, List.zipIdx_map_snd]
    exact List.nodup_range'
  refine ⟨ranking, hperm, ?_, ?_⟩
  · exact hsorted.imp₂ (fun _ _ => precedes_of_zipIdxLE) (List.pairwise_map.mp hnumbers)
  · -- The numbers of the actions are their places, by which a stable sort decides.
    let placed (e : Float32 × ℕ) : ActionScore Float32 × ℕ := (numbered e, e.2)
    have hplaced : (scores.zipIdx.map numbered).zipIdx = scores.zipIdx.map placed := by
      refine List.ext_getElem (by simp) fun i _ _ => ?_
      simp [placed]
    have hmap : ranking.map placed = (scores.zipIdx.map placed).mergeSort
        (List.zipIdxLE fun a b => Scalar.totalLe a.score b.score) :=
      List.map_mergeSort fun _ _ _ _ => rfl
    rw [rank, ← List.mergeSort_zipIdx, hplaced, ← hmap, List.map_map]
    rfl

/-! ## Predictions -/

/-- A prediction of a batch that is not empty writes into the first line the numbered scores of all
actions, the lowest first and of equal ones the one with the lowest number, and into each action its
score. The rest of the batch is left alone. A score is what the base predicts of the action's and
the first shared line's features; the other lines do not matter, and neither does what is left of
former examples. -/
theorem predict_ranks (l : Line) (scratch : Example Float32) (o : Optimizer Float32 Float)
    (context : Context Float32 Float) (first : Example Float32) (rest : Batch Float32) :
    let batch := first :: rest
    let shared := shared? batch
    let run := (predict l.learner).runOn ⟨(scratch, o), context, batch⟩
    run.1 = .ok () ∧
      (∃ ranking : List (Float32 × ℕ),
        ranking.Perm ((batch.filter isAction).map (score l.learner o context shared)).zipIdx ∧
        ranking.Pairwise Precedes ∧
        run.2.input = { scored l.learner o context shared first with
            prediction := .ranking (ranking.map numbered) } ::
          rest.map (scored l.learner o context shared)) ∧
      ∀ (scratch' : Example Float32) (batch' : Batch Float32),
        (shared? batch').map (·.namespaces) = shared.map (·.namespaces) →
        let run' := (predict l.learner).runOn ⟨(scratch', o), context, batch'⟩
        ∀ i j : ℕ, batch'[j]? = batch[i]? → run'.2.input[j]?.map Example.partialPrediction =
          run.2.input[i]?.map Example.partialPrediction := by
  intro batch shared run
  obtain ⟨hout, hinput⟩ :=
    runOn_predict_cons l.learner_observes l.learner_accepts scratch o context first rest
  obtain ⟨ranking, hperm, hsorted, hrank⟩ :=
    exists_ranking ((batch.filter isAction).map (score l.learner o context shared))
  refine ⟨hout, ⟨ranking, hperm, hsorted, ?_⟩, ?_⟩
  · rw [← hrank]
    exact hinput
  · intro scratch' batch' hshared run' i j hline
    have hscored (ec : Example Float32) : scored l.learner o context (shared? batch') ec =
        scored l.learner o context shared ec := by
      unfold scored score
      rw [merged_congr hshared]
    have hleft := map_partialPrediction_predict l.learner_observes l.learner_accepts scratch o
      context batch
    have hleft' := map_partialPrediction_predict l.learner_observes l.learner_accepts scratch' o
      context batch'
    simp only [hscored] at hleft'
    rw [← List.getElem?_map, ← List.getElem?_map, hleft, hleft', List.getElem?_map,
      List.getElem?_map, hline]

end OnlineLearning.Bandit
