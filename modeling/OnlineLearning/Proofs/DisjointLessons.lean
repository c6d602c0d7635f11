import OnlineLearning.Proofs.Groups

/-!
# Lessons that have no group in common

* `WeightTable.WroteTo`: what a table may hold after writes to a set of groups;
  `Optimizer.taught_wroteTo` says that a lesson writes to groups that its example reaches, in every
  mode;
* `Optimizer.taught_agree`: what a lesson does depends on these groups only;
* `Optimizer.taught_comm`: where no norms are counted, lessons that have no group in common can be
  exchanged;
* `Optimizer.learnEach` is a run of lessons; `Optimizer.learn_disjoint` says that their order does
  not matter, neither to what is left nor to any prediction.
-/

namespace OnlineLearning

/-! ## Tables after writes -/

namespace WeightTable

variable {R : Type} {width : Nat} {K K' : UInt64 → Prop} {t t' t'' : WeightTable R width}

/-- What a table may have become by writes to the groups in `K`, all of which it holds then. -/
structure WroteTo (K : UInt64 → Prop) (t t' : WeightTable R width) : Prop where
  layout_eq : t'.layout = t.layout
  mask_eq : t'.mask = t.mask
  outside : ∀ i, ¬ K i → t'.groups[i]? = t.groups[i]?
  inside : ∀ i, K i → i ∈ t'.groups

theorem WroteTo.refl (t : WeightTable R width) : WroteTo (fun _ => False) t t :=
  ⟨rfl, rfl, fun _ _ => rfl, fun _ h => h.elim⟩

theorem WroteTo.trans (h : WroteTo K t t') (h' : WroteTo K' t' t'') :
    WroteTo (fun i => K i ∨ K' i) t t'' where
  layout_eq := h'.layout_eq.trans h.layout_eq
  mask_eq := h'.mask_eq.trans h.mask_eq
  outside := by
    intro i hi
    rw [h'.outside i fun hK => hi (Or.inr hK), h.outside i fun hK => hi (Or.inl hK)]
  inside := by
    intro i hi
    by_cases hK' : K' i
    · exact h'.inside i hK'
    · have hmem := h.inside i (hi.resolve_right hK')
      rw [Std.ExtTreeMap.mem_iff_isSome_getElem?] at hmem ⊢
      rwa [h'.outside i hK']

theorem WroteTo.congr (h : WroteTo K t t') (hK : ∀ i, K' i ↔ K i) : WroteTo K' t t' :=
  (funext fun i => propext (hK i) : K' = K) ▸ h

theorem wroteTo_setGroup (t : WeightTable R width) (j : UInt64) (g : Vector R width) :
    WroteTo (fun i => j &&& t.mask = i) t (t.setGroup j g) where
  layout_eq := rfl
  mask_eq := rfl
  outside := by
    intro i hi
    simp [setGroup, Std.ExtTreeMap.getElem?_insert, hi]
  inside := by
    intro i hi
    simp [setGroup, hi]

/-- A loop over features, each of which writes its group. -/
theorem wroteTo_foldl {α : Type} (table : α → WeightTable R width) {step : α → Feature R → α}
    (hstep : ∀ a f, ∃ g, table (step a f) = (table a).setGroup f.index g)
    (visits : List (Feature R)) (a : α) :
    WroteTo (fun i => ∃ f ∈ visits, f.index &&& (table a).mask = i) (table a)
      (table (visits.foldl step a)) := by
  induction visits generalizing a with
  | nil => exact (WroteTo.refl _).congr (by simp)
  | cons f rest ih =>
    obtain ⟨g, hg⟩ := hstep a f
    have hfirst := wroteTo_setGroup (table a) f.index g
    rw [← hg] at hfirst
    refine (hfirst.trans (ih (step a f))).congr fun i => ?_
    rw [hfirst.mask_eq]
    simp

theorem eq_of_getElem? (hlayout : t'.layout = t.layout) (hmask : t'.mask = t.mask)
    (h : ∀ i : UInt64, t'.groups[i]? = t.groups[i]?) : t' = t := by
  obtain ⟨layout, mask, groups, hmasked⟩ := t
  obtain ⟨layout', mask', groups', hmasked'⟩ := t'
  have hgroups : groups' = groups := by
    apply Std.ExtTreeMap.ext_getElem?
    intro i
    exact h i
  cases hlayout
  cases hmask
  cases hgroups
  rfl

variable [Scalar R]

theorem getElem?_eq_some_group {i : UInt64} (hi : i ∈ t.groups) :
    t.groups[i]? = some (t.group i) := by
  rw [group, t.masked i hi, Std.ExtTreeMap.getD_eq_getD_getElem?]
  obtain ⟨g, hg⟩ := Option.isSome_iff_exists.mp (Std.ExtTreeMap.mem_iff_isSome_getElem?.mp hi)
  rw [hg]
  rfl

theorem WroteTo.group_eq (h : WroteTo K t t') {i : UInt64} (hi : ¬ K (i &&& t.mask)) :
    t'.group i = t.group i := by
  rw [group, group, Std.ExtTreeMap.getD_eq_getD_getElem?, Std.ExtTreeMap.getD_eq_getD_getElem?,
    h.mask_eq, h.outside _ hi]

theorem WroteTo.group?_eq (h : WroteTo K t t') {i : UInt64} (hi : ¬ K (i &&& t.mask)) :
    t'.group? i = t.group? i := by
  rw [group?, group?, h.layout_eq, h.group_eq hi, h.mask_eq, h.outside _ hi]

/-- Writes to `K` and `K'` in both orders. What was written to `K'` does not depend on `K`, so that
outside of `K` the same is held in the end. -/
theorem getElem?_eq_of_wroteTo {t₁ t₂ : WeightTable R width} (h : WroteTo K t t')
    (h' : WroteTo K' t t'') (h₁ : WroteTo K t'' t₁) (h₂ : WroteTo K' t' t₂)
    (hagree : AgreeOn (fun i => ¬ K i) t'' t₂) {i : UInt64} (hi : ¬ K i) :
    t₁.groups[i]? = t₂.groups[i]? := by
  rw [h₁.outside i hi]
  by_cases hK' : K' i
  · have hmem := h'.inside i hK'
    rw [getElem?_eq_some_group hmem, getElem?_eq_some_group (h₂.inside i hK')]
    have hmasked : i &&& t''.mask = i := t''.masked i hmem
    rw [hagree.group i (by rwa [hmasked])]
  · rw [h₂.outside i hK', h.outside i hi, h'.outside i hK']

theorem eq_of_wroteTo {t₁ t₂ : WeightTable R width} (h : WroteTo K t t') (h' : WroteTo K' t t'')
    (h₁ : WroteTo K t'' t₁) (h₂ : WroteTo K' t' t₂)
    (hagree : AgreeOn (fun i => ¬ K i) t'' t₂) (hagree' : AgreeOn (fun i => ¬ K' i) t' t₁)
    (hapart : ∀ i, K i → ¬ K' i) : t₁ = t₂ := by
  apply eq_of_getElem?
  · rw [h₁.layout_eq, h'.layout_eq, h₂.layout_eq, h.layout_eq]
  · rw [h₁.mask_eq, h'.mask_eq, h₂.mask_eq, h.mask_eq]
  · intro i
    by_cases hi : K i
    · exact (getElem?_eq_of_wroteTo h' h h₂ h₁ hagree' (hapart i hi)).symm
    · exact getElem?_eq_of_wroteTo h h' h₁ h₂ hagree hi

end WeightTable

variable {R W : Type} [Scalar R] [Number W] [Widening R W]

/-- Whether an example gets to an index under a mask. -/
def Example.Reaches (mask : UInt64) (terms : List Term) (ec : Example R) (i : UInt64) : Prop :=
  ∃ f ∈ ec.visits terms, f.index &&& mask = i

/-- Examples that get to no index in common. -/
def Example.Apart (mask : UInt64) (terms : List Term) (ec ec' : Example R) : Prop :=
  ∀ i, ec.Reaches mask terms i → ¬ ec'.Reaches mask terms i

theorem Example.Apart.symm {mask : UInt64} {terms : List Term} {ec ec' : Example R}
    (h : ec.Apart mask terms ec') : ec'.Apart mask terms ec := fun i hi hi' => h i hi' hi

theorem Example.apart_iff {mask : UInt64} {terms : List Term} {ec ec' : Example R} :
    ec.Apart mask terms ec' ↔ ∀ f ∈ ec.visits terms, ∀ f' ∈ ec'.visits terms,
      f.index &&& mask ≠ f'.index &&& mask := by
  constructor
  · intro h f hf f' hf' heq
    exact h _ ⟨f, hf, rfl⟩ ⟨f', hf', heq.symm⟩
  · rintro h i ⟨f, hf, rfl⟩ ⟨f', hf', heq⟩
    exact h f hf f' hf' heq.symm

instance {mask : UInt64} {terms : List Term} {ec ec' : Example R} :
    Decidable (ec.Apart mask terms ec') := decidable_of_iff _ Example.apart_iff.symm

namespace Optimizer

open WeightTable

variable {K K' : UInt64 → Prop} {context : Context R W} {o o' : Optimizer R W} {ec ec' : Example R}

/-! ## One lesson -/

/-- What a lesson leaves of the optimizer. -/
def taught (context : Context R W) (o : Optimizer R W) (ec : Example R) : Optimizer R W :=
  ((learn : NodeM R W _ _ Unit).runOn ⟨o, context, ec⟩).2.node

/-- The outcome of a lesson, with what it makes of the example. -/
def outcome (context : Context R W) (o : Optimizer R W) (ec : Example R) :
    Except LearnerError Unit × Example R :=
  let (result, frame) := (learn : NodeM R W _ _ Unit).runOn ⟨o, context, ec⟩
  (result, frame.input)

/-- The groups that a lesson writes to: those that the example reaches, unless nothing is learned
and no parameter is refreshed. -/
def Writes (context : Context R W) (o : Optimizer R W) (ec : Example R) (i : UInt64) : Prop :=
  (o.mode = .pistol ∨ ec.target?.isSome) ∧ ec.Reaches o.weights.mask context.interactions i

/-- What an optimizer may have become by writes to the groups in `K`; its totals may be others. -/
def WroteTo (K : UInt64 → Prop) (o o' : Optimizer R W) : Prop :=
  ∃ (t : WeightTable R o.mode.width) (totalWeight normalizedSumNorm : W) (averageSquaredNorm : R),
    o' = { o with weights := t, totalWeight, normalizedSumNorm, averageSquaredNorm } ∧
      o.weights.WroteTo K t

theorem preview_wroteTo (m : Mode) (p : Params R) (t : WeightTable R m.width)
    (visits : List (Feature R)) :
    t.WroteTo (fun i => m = .pistol ∧ ∃ f ∈ visits, f.index &&& t.mask = i)
      (m.preview p t visits).weights := by
  cases m with
  | proximal | coinBetting => exact (WeightTable.WroteTo.refl t).congr (by simp)
  | pistol =>
    refine (wroteTo_foldl Prod.fst ?_ visits (t, (0 : R))).congr (by simp)
    rintro ⟨u, sum⟩ f
    exact ⟨_, rfl⟩

theorem learningPrediction_wroteTo (o : Optimizer R W) (weight : R) (visits : List (Feature R)) :
    WroteTo (fun i => o.mode = .pistol ∧ ∃ f ∈ visits, f.index &&& o.weights.mask = i) o
      (o.learningPrediction weight visits).1 := by
  have hlook := preview_wroteTo o.mode o.params o.weights visits
  unfold learningPrediction
  dsimp only
  split
  · exact ⟨_, _, _, _, rfl, hlook⟩
  · exact ⟨_, _, _, _, rfl, hlook⟩

omit [Number W] [Widening R W] in
theorem step_wroteTo (o : Optimizer R W) (update : R) (visits : List (Feature R)) :
    WroteTo (fun i => ∃ f ∈ visits, f.index &&& o.weights.mask = i) o (o.step update visits) :=
  ⟨_, _, _, _, rfl, wroteTo_foldl id (fun _ _ => ⟨_, rfl⟩) visits o.weights⟩

omit [Scalar R] [Number W] [Widening R W] in
theorem WroteTo.trans {o'' : Optimizer R W} (h : WroteTo K o o') (h' : WroteTo K' o' o'') :
    WroteTo (fun i => K i ∨ K' i) o o'' := by
  obtain ⟨t, _, _, _, rfl, ht⟩ := h
  obtain ⟨t', _, _, _, rfl, ht'⟩ := h'
  exact ⟨t', _, _, _, rfl, ht.trans ht'⟩

omit [Scalar R] [Number W] [Widening R W] in
theorem WroteTo.congr (h : WroteTo K o o') (hK : ∀ i, K' i ↔ K i) : WroteTo K' o o' :=
  (funext fun i => propext (hK i) : K' = K) ▸ h

omit [Scalar R] [Number W] [Widening R W] in
theorem WroteTo.mask_eq (h : WroteTo K o o') : o'.weights.mask = o.weights.mask := by
  obtain ⟨t, _, _, _, rfl, ht⟩ := h
  exact ht.mask_eq

theorem taught_wroteTo (context : Context R W) (o : Optimizer R W) (ec : Example R) :
    WroteTo (Writes context o ec) o (taught context o ec) := by
  have hseen := learningPrediction_wroteTo o ec.weight (ec.visits context.interactions)
  unfold taught
  rw [runOn_learn]
  dsimp only
  split
  · rename_i htarget
    refine hseen.congr fun i => ?_
    simp [Writes, Example.Reaches, htarget]
  · rename_i label htarget
    refine (hseen.trans (step_wroteTo _ _ _)).congr fun i => ?_
    rw [hseen.mask_eq]
    simp only [Writes, Example.Reaches, htarget, Option.isSome_some, or_true, true_and]
    exact ⟨Or.inr, fun h => h.elim And.right id⟩

/-- A lesson does not depend on the groups that its example does not reach. -/
theorem taught_agree {S : UInt64 → Prop} (h : AgreeOn S o o')
    (hS : ∀ i, ec.Reaches o.weights.mask context.interactions i → S i) :
    AgreeOn S (taught context o ec) (taught context o' ec) ∧
      outcome context o' ec = outcome context o ec := by
  have hvisits : o.weights.Visits S (ec.visits context.interactions) :=
    fun f hf => hS _ ⟨f, hf, rfl⟩
  obtain ⟨hseen, hraw⟩ := learningPrediction_agree h ec.weight hvisits
  have hmask := (learningPrediction_wroteTo o ec.weight (ec.visits context.interactions)).mask_eq
  have hname : (o'.learningPrediction ec.weight (ec.visits context.interactions)).1.name =
      (o.learningPrediction ec.weight (ec.visits context.interactions)).1.name := by
    obtain ⟨t, stalls, heq, -⟩ := hseen
    rw [heq]
    rfl
  unfold taught outcome
  rw [runOn_learn, runOn_learn]
  dsimp only
  rw [hraw, hname]
  split
  · exact ⟨hseen, rfl⟩
  · exact ⟨step_agree hseen _ fun f hf => hmask ▸ hvisits f hf, rfl⟩

/-- Where no norms are counted, a lesson leaves all but the groups that its example reaches. -/
theorem agreeOn_taught (hmode : o.mode ≠ .coinBetting) (context : Context R W) (ec : Example R) :
    AgreeOn (fun i => ¬ Writes context o ec i) o (taught context o ec) := by
  have hnorm : (o.mode.preview o.params o.weights (ec.visits context.interactions)).norm? = none := by
    obtain ⟨mode, params, t, _, _, _, _, _, _⟩ := o
    cases mode with
    | proximal | pistol => rfl
    | coinBetting => exact absurd rfl hmode
  have htotals : (taught context o ec).totalWeight = o.totalWeight ∧
      (taught context o ec).normalizedSumNorm = o.normalizedSumNorm ∧
      (taught context o ec).averageSquaredNorm = o.averageSquaredNorm := by
    unfold taught
    rw [runOn_learn]
    unfold learningPrediction
    dsimp only
    rw [hnorm]
    split <;> exact ⟨rfl, rfl, rfl⟩
  obtain ⟨t, _, _, _, heq, ht⟩ := taught_wroteTo context o ec
  rw [heq] at htotals ⊢
  obtain ⟨rfl, rfl, rfl⟩ := htotals
  exact ⟨t, o.stalls, rfl, ht.mask_eq, fun i hi => ht.group_eq hi⟩

/-! ## Two lessons -/

omit [Number W] [Widening R W] in
theorem eq_of_wroteTo {a b o₁ o₂ : Optimizer R W} (ha : WroteTo K o a) (hb : WroteTo K' o b)
    (h₁ : WroteTo K b o₁) (h₂ : WroteTo K' a o₂) (hkept : AgreeOn (fun i => ¬ K i) o a)
    (hkept' : AgreeOn (fun i => ¬ K' i) o b) (hagree : AgreeOn (fun i => ¬ K i) b o₂)
    (hagree' : AgreeOn (fun i => ¬ K' i) a o₁) (hapart : ∀ i, K i → ¬ K' i) : o₁ = o₂ := by
  obtain ⟨ta, _, _, _, rfl, hta⟩ := ha
  obtain ⟨tb, _, _, _, rfl, htb⟩ := hb
  obtain ⟨t₁, _, _, _, rfl, ht₁⟩ := h₁
  obtain ⟨t₂, _, _, _, rfl, ht₂⟩ := h₂
  obtain ⟨_, _, heq, -⟩ := hkept
  cases heq
  obtain ⟨_, _, heq, -⟩ := hkept'
  cases heq
  obtain ⟨_, _, heq, hagree⟩ := hagree
  cases heq
  obtain ⟨_, _, heq, hagree'⟩ := hagree'
  cases heq
  rw [WeightTable.eq_of_wroteTo hta htb ht₁ ht₂ hagree hagree' hapart]

omit [Number W] [Widening R W] in
theorem writes_eq_of_wroteTo (h : WroteTo K o o') : Writes context o' ec = Writes context o ec := by
  funext i
  obtain ⟨t, _, _, _, rfl, ht⟩ := h
  unfold Writes
  rw [ht.mask_eq]

/-- Lessons that have no group in common can be exchanged where no norms are counted. -/
theorem taught_comm (hmode : o.mode ≠ .coinBetting)
    (hapart : ec.Apart o.weights.mask context.interactions ec') :
    taught context (taught context o ec') ec = taught context (taught context o ec) ec' := by
  have ha := taught_wroteTo context o ec
  have hb := taught_wroteTo context o ec'
  have h₁ := taught_wroteTo context (taught context o ec') ec
  have h₂ := taught_wroteTo context (taught context o ec) ec'
  rw [writes_eq_of_wroteTo hb] at h₁
  rw [writes_eq_of_wroteTo ha] at h₂
  have hkept := agreeOn_taught hmode context ec
  have hkept' := agreeOn_taught hmode context ec'
  refine eq_of_wroteTo ha hb h₁ h₂ hkept hkept' ?_ ?_ ?_
  · exact (taught_agree hkept fun i hi hwrites => hapart i hwrites.2 hi).1
  · exact (taught_agree hkept' fun i hi hwrites => hapart i hi hwrites.2).1
  · intro i hi hi'
    exact hapart i hi.2 hi'.2

/-! ## Runs of lessons -/

/-- A run of lessons. Lists the outcomes with what became of the examples, and returns what is
left. -/
def learnEach : Optimizer R W → Context R W → List (Example R) →
    List (Except LearnerError Unit × Example R) × Optimizer R W × Context R W
  | o, context, [] => ([], o, context)
  | o, context, ec :: rest =>
    let (result, left) := (learn : NodeM R W _ _ Unit).runOn ⟨o, context, ec⟩
    let (outcomes, last) := learnEach left.node left.context rest
    ((result, left.input) :: outcomes, last)

theorem learnEach_cons (o : Optimizer R W) (context : Context R W) (ec : Example R)
    (rest : List (Example R)) :
    learnEach o context (ec :: rest) =
      (outcome context o ec :: (learnEach (taught context o ec) context rest).1,
        (learnEach (taught context o ec) context rest).2) := by
  have hcontext : ((learn : NodeM R W _ _ Unit).runOn ⟨o, context, ec⟩).2.context = context := by
    rw [runOn_learn]
    dsimp only
    split <;> rfl
  unfold outcome taught
  rw [learnEach]
  generalize (learn : NodeM R W _ _ Unit).runOn ⟨o, context, ec⟩ = run at hcontext
  obtain ⟨result, left⟩ := run
  cases hcontext
  rfl

theorem learnEach_last (o : Optimizer R W) (context : Context R W) (lessons : List (Example R)) :
    (learnEach o context lessons).2 = (lessons.foldl (taught context) o, context) := by
  induction lessons generalizing o with
  | nil => rfl
  | cons ec rest ih => rw [learnEach_cons, ih, List.foldl_cons]

theorem mode_taught (context : Context R W) (o : Optimizer R W) (ec : Example R) :
    (taught context o ec).mode = o.mode := by
  obtain ⟨_, _, _, _, heq, -⟩ := taught_wroteTo context o ec
  rw [heq]

theorem mask_taught (context : Context R W) (o : Optimizer R W) (ec : Example R) :
    (taught context o ec).weights.mask = o.weights.mask := (taught_wroteTo context o ec).mask_eq

/-- Among lessons with no group in common, each goes as it would go as the first. -/
theorem learnEach_outcomes (hmode : o.mode ≠ .coinBetting) {lessons : List (Example R)}
    (hapart : lessons.Pairwise (Example.Apart o.weights.mask context.interactions)) :
    (learnEach o context lessons).1 = lessons.map (outcome context o) := by
  induction lessons generalizing o with
  | nil => rfl
  | cons ec rest ih =>
    obtain ⟨hfirst, hrest⟩ := List.pairwise_cons.mp hapart
    have hrest' := ih (o := taught context o ec) (by rwa [mode_taught]) (by rwa [mask_taught])
    rw [learnEach_cons, hrest', List.map_cons]
    refine congrArg (List.cons _) (List.map_congr_left ?_)
    intro ec' hec'
    have hkept := agreeOn_taught hmode context ec
    exact (taught_agree hkept fun i hi hwrites => hfirst ec' hec' i hwrites.2 hi).2

theorem foldl_taught_perm (hmode : o.mode ≠ .coinBetting) {lessons reordered : List (Example R)}
    (hapart : lessons.Pairwise (Example.Apart o.weights.mask context.interactions))
    (hperm : lessons.Perm reordered) :
    reordered.foldl (taught context) o = lessons.foldl (taught context) o := by
  induction hperm generalizing o with
  | nil => rfl
  | cons ec _ ih =>
    obtain ⟨-, hrest⟩ := List.pairwise_cons.mp hapart
    exact ih (by rwa [mode_taught]) (by rwa [mask_taught])
  | swap ec ec' rest =>
    obtain ⟨hfirst, -⟩ := List.pairwise_cons.mp hapart
    simp only [List.foldl_cons]
    rw [taught_comm hmode (hfirst ec List.mem_cons_self)]
  | trans h _ ih ih' =>
    rw [ih' hmode ((h.pairwise_iff Example.Apart.symm).mp hapart), ih hmode hapart]

theorem outcome_of_label (hlabel : ec.target?.isSome) :
    outcome context o ec = (.ok (),
      publish context (o.learningPrediction ec.weight (ec.visits context.interactions)).2 ec) := by
  obtain ⟨label, hlabel⟩ := Option.isSome_iff_exists.mp hlabel
  unfold outcome
  rw [runOn_learn]
  dsimp only
  rw [hlabel]

omit [Widening R W] in
/-- What the table answers for an index: the channels, if it holds a group there. -/
def held? (o : Optimizer R W) (i : UInt64) : Option (List R) :=
  (o.weights.group? i).map Vector.toList

/-- Labeled examples that have no group in common can be learned in any order by a mode that counts
no norms: the same optimizer is left, with the same channels in every group and the same groups
held, and every example is predicted as if it were the first. A lesson, in any mode, leaves all
groups alone that its example does not reach. -/
theorem learn_disjoint (o : Optimizer R W) (context : Context R W) :
    (o.mode = .proximal ∨ o.mode = .pistol → ∀ lessons reordered : List (Example R),
      (∀ ec ∈ lessons, ec.target?.isSome) →
      lessons.Pairwise (Example.Apart o.weights.mask context.interactions) →
      lessons.Perm reordered →
        (learnEach o context reordered).2 = (learnEach o context lessons).2 ∧
        ∀ order, order = lessons ∨ order = reordered →
          (learnEach o context order).1 = order.map fun ec => (.ok (), publish context
            (o.learningPrediction ec.weight (ec.visits context.interactions)).2 ec)) ∧
    ∀ (ec : Example R) (i : UInt64),
      ¬ ec.Reaches o.weights.mask context.interactions (i &&& o.weights.mask) →
        (taught context o ec).channels i = o.channels i ∧
        (taught context o ec).held? i = o.held? i := by
  constructor
  · intro hmode lessons reordered hlabel hapart hperm
    have hmode : o.mode ≠ .coinBetting := by
      rcases hmode with h | h <;> simp [h]
    refine ⟨?_, ?_⟩
    · rw [learnEach_last, learnEach_last, foldl_taught_perm hmode hapart hperm]
    · intro order horder
      have horder : lessons.Perm order := by
        rcases horder with rfl | rfl
        · exact .refl _
        · exact hperm
      rw [learnEach_outcomes hmode ((horder.pairwise_iff Example.Apart.symm).mp hapart)]
      apply List.map_congr_left
      intro ec hec
      exact outcome_of_label (hlabel ec (horder.mem_iff.mpr hec))
  · intro ec i hi
    obtain ⟨t, _, _, _, heq, ht⟩ := taught_wroteTo context o ec
    have hwrites : ¬ Writes context o ec (i &&& o.weights.mask) := fun h => hi h.2
    rw [heq]
    refine ⟨congrArg Vector.toList (ht.group_eq hwrites), ?_⟩
    exact congrArg (Option.map Vector.toList) (ht.group?_eq hwrites)

/-- A labeled example with one feature. -/
def oneFeature (index : UInt64) (value : Float32) : Example Float32 :=
  { (Example.blank : Example Float32) with
    namespaces := Namespaces.push ∅ 0 ⟨index, value⟩
    label := .simple (some 1) }

/-- Two examples on a sparse table of sixteen groups, in both orders. -/
theorem learn_disjoint_two_features :
    let o : Optimizer Float32 Float := .new .proximal ⟨1, 1, 0, 0⟩ 4 .sparse 3
    let context : Context Float32 Float := .initial .squared
    (learnEach o context [oneFeature 17 2, oneFeature 2 1]).2 =
      (learnEach o context [oneFeature 2 1, oneFeature 17 2]).2 ∧
    (taught context o (oneFeature 2 1)).held? 17 = o.held? 17 := by
  intro o context
  refine ⟨((learn_disjoint o context).1 (Or.inl rfl) [oneFeature 2 1, oneFeature 17 2] _
    (by decide) (by decide +kernel) (.swap _ _ _)).1, ?_⟩
  have happart : Example.Apart o.weights.mask context.interactions (oneFeature 2 1)
      (oneFeature 17 2) := by decide +kernel
  refine ((learn_disjoint o context).2 _ 17 fun h => happart _ h ?_).2
  exact ⟨⟨17, 2⟩, List.mem_singleton.mpr rfl, rfl⟩

end Optimizer

end OnlineLearning
