import OnlineLearning.Optimizer.Basic
import OnlineLearning.Proofs.Alike

/-!
# The groups that an optimizer gets to

A call of an optimizer reads and writes the groups of the features that it visits, products among
them, and no other one.

* `Region.Holds.visits`: the visited features of an example of a problem get to its groups;
* `Optimizer.AgreeOn`: optimizers that differ in the groups outside of a set only;
  `Optimizer.learner_alike` says that calls do not tell them apart on the examples of a problem;
* `Optimizer.Touched`: what an optimizer may have become by calls that keep to a set of groups;
  `Optimizer.learner_kept` says that calls keep to the groups of the problem.
-/

namespace OnlineLearning

variable {R W : Type} [Scalar R] [Number W] [Widening R W] {mask : UInt64}

/-! ## Visited features -/

namespace Interaction

omit [Scalar R] in
theorem mem_pairs [Mul R] {same : Bool} {first second : List (Feature R)} {f : Feature R}
    (h : f ∈ pairs same first second) : ∃ a ∈ first, ∃ b ∈ second, f = a.mul b := by
  obtain ⟨⟨a, i⟩, ha, hf⟩ := List.mem_flatMap.mp h
  obtain ⟨b, hb, rfl⟩ := List.mem_map.mp hf
  have ha := List.mk_mem_zipIdx_iff_getElem?.mp ha
  exact ⟨a, List.mem_of_getElem? ha, b, List.mem_of_mem_drop hb, rfl⟩

omit [Scalar R] in
theorem mem_triples [Mul R] {sameFirst sameLast : Bool} {first second third : List (Feature R)}
    {f : Feature R} (h : f ∈ triples sameFirst sameLast first second third) :
    ∃ a ∈ first, ∃ b ∈ second, ∃ c ∈ third, f = (a.mul b).mul c := by
  obtain ⟨⟨a, i⟩, ha, hf⟩ := List.mem_flatMap.mp h
  obtain ⟨⟨b, j⟩, hb, hf⟩ := List.mem_flatMap.mp hf
  obtain ⟨c, hc, rfl⟩ := List.mem_map.mp hf
  have ha := List.mk_mem_zipIdx_iff_getElem?.mp ha
  have hb := List.mk_mem_zipIdx_iff_getElem?.mp (List.mem_of_mem_drop hb)
  exact ⟨a, List.mem_of_getElem? ha, b, List.mem_of_getElem? hb, c, List.mem_of_mem_drop hc, rfl⟩

omit [Scalar R] in
theorem mem_of_features? {n : Namespaces R} {name : UInt8} {fs : List (Feature R)}
    (h : n.features? name = some fs) {f : Feature R} (hf : f ∈ fs) : f ∈ n.toList := by
  obtain ⟨before, after, hentries, -⟩ := List.lookup_eq_some_iff.mp h
  exact List.mem_flatMap.mpr ⟨(name, fs), by simp [hentries], hf⟩

/-- Products of features of a problem are features of the problem. -/
theorem feature_expand {r : Region mask} {n : Namespaces R}
    (h : ∀ f ∈ n.toList, r.feature f.index) (term : Term) :
    ∀ f ∈ expand n term, r.feature f.index := by
  intro f hf
  unfold expand at hf
  split at hf
  · split at hf
    · rename_i first second hfirst hsecond
      obtain ⟨a, ha, b, hb, rfl⟩ := mem_pairs hf
      exact r.feature_mul (h a (mem_of_features? hfirst ha)) (h b (mem_of_features? hsecond hb))
    · exact absurd hf List.not_mem_nil
  · split at hf
    · rename_i first second third hfirst hsecond hthird
      obtain ⟨a, ha, b, hb, c, hc, rfl⟩ := mem_triples hf
      have hab := r.feature_mul (h a (mem_of_features? hfirst ha))
        (h b (mem_of_features? hsecond hb))
      exact r.feature_mul hab (h c (mem_of_features? hthird hc))
    · exact absurd hf List.not_mem_nil
  · exact absurd hf List.not_mem_nil

end Interaction

/-- The visited features of an example of a problem get to groups of the problem. -/
theorem Region.Holds.visits {r : Region mask} {ec : Example R} (h : r.Holds ec)
    (terms : List Term) : ∀ f ∈ ec.visits terms, r.group (f.index &&& mask) := by
  intro f hf
  obtain ⟨g, hg, rfl⟩ := List.mem_map.mp hf
  refine r.group_of ?_ h.offset
  rcases List.mem_append.mp hg with hg | hg
  · exact h.feature g hg
  · obtain ⟨term, -, hterm⟩ := List.mem_flatMap.mp hg
    exact Interaction.feature_expand h.feature term g hterm

/-! ## Tables that agree on groups -/

namespace WeightTable

variable {width : Nat} {S : UInt64 → Prop}

/-- Two tables of one mask with the same groups at the indices in `S`. -/
structure AgreeOn (S : UInt64 → Prop) (t t' : WeightTable R width) : Prop where
  mask : t'.mask = t.mask
  group : ∀ i, S (i &&& t.mask) → t'.group i = t.group i

theorem AgreeOn.refl (t : WeightTable R width) : AgreeOn S t t := ⟨rfl, fun _ _ => rfl⟩

theorem AgreeOn.trans {t t' t'' : WeightTable R width} (h : AgreeOn S t t')
    (h' : AgreeOn S t' t'') : AgreeOn S t t'' :=
  ⟨h'.mask.trans h.mask, fun i hi => (h'.group i (h.mask ▸ hi)).trans (h.group i hi)⟩

/-- One group written into both tables. -/
theorem AgreeOn.setGroup {t t' : WeightTable R width} (h : AgreeOn S t t') (i : UInt64)
    (g : Vector R width) : AgreeOn S (t.setGroup i g) (t'.setGroup i g) := by
  refine ⟨h.mask, fun j hj => ?_⟩
  rw [group_setGroup, group_setGroup, h.mask, h.group j hj]

theorem AgreeOn.modify {t t' : WeightTable R width} (h : AgreeOn S t t') {i : UInt64}
    (hi : S (i &&& t.mask)) (f : Vector R width → Vector R width) :
    AgreeOn S (t.modify i f) (t'.modify i f) := by
  unfold WeightTable.modify
  rw [h.group i hi]
  exact h.setGroup i _

/-- A group written outside of the set. -/
theorem agreeOn_setGroup (t : WeightTable R width) {i : UInt64} (hi : ¬ S (i &&& t.mask))
    (g : Vector R width) : AgreeOn S t (t.setGroup i g) := by
  refine ⟨rfl, fun j hj => ?_⟩
  rw [group_setGroup]
  split
  · rename_i heq
    exact absurd (heq ▸ hj) hi
  · rfl

theorem AgreeOn.param {t t' : WeightTable R width} (h : AgreeOn S t t') {i : UInt64}
    (hi : S (i &&& t.mask)) : t'.param i = t.param i := by
  rw [WeightTable.param, WeightTable.param, h.group i hi]

/-- Whether all features of a list get to groups in `S`. -/
def Visits (S : UInt64 → Prop) (t : WeightTable R width) (visits : List (Feature R)) : Prop :=
  ∀ f ∈ visits, S (f.index &&& t.mask)

theorem AgreeOn.dot {t t' : WeightTable R width} (h : AgreeOn S t t') {visits : List (Feature R)}
    (hv : t.Visits S visits) : t'.dot visits = t.dot visits := by
  refine List.foldl_rel (r := Eq) rfl fun f hf sum _ heq => ?_
  rw [heq, h.param (hv f hf)]

end WeightTable

open WeightTable

theorem Coin.rawSum_eq {S : UInt64 → Prop} {t t' : WeightTable R 6} (h : AgreeOn S t t')
    {visits : List (Feature R)} (hv : t.Visits S visits) (p : Params R) :
    Coin.rawSum p t' visits = Coin.rawSum p t visits := by
  refine List.foldl_rel (r := Eq) rfl fun f hf sum _ heq => ?_
  rw [heq, h.group _ (hv f hf)]

theorem Coin.normSum_eq {S : UInt64 → Prop} {t t' : WeightTable R 6} (h : AgreeOn S t t')
    {visits : List (Feature R)} (hv : t.Visits S visits) :
    Coin.normSum t' visits = Coin.normSum t visits := by
  refine List.foldl_rel (r := Eq) rfl fun f hf sum _ heq => ?_
  rw [heq, h.group _ (hv f hf)]

theorem Pistol.refreshAll_agree {S : UInt64 → Prop} {t t' : WeightTable R 4} (h : AgreeOn S t t')
    {visits : List (Feature R)} (hv : t.Visits S visits) (p : Params R) :
    AgreeOn S (Pistol.refreshAll p t visits).1 (Pistol.refreshAll p t' visits).1 ∧
      (Pistol.refreshAll p t' visits).2 = (Pistol.refreshAll p t visits).2 := by
  have key : (AgreeOn S (Pistol.refreshAll p t visits).1 (Pistol.refreshAll p t' visits).1 ∧
      (Pistol.refreshAll p t' visits).2 = (Pistol.refreshAll p t visits).2) ∧
      (Pistol.refreshAll p t visits).1.mask = t.mask := by
    refine List.foldl_rel (r := fun a b : WeightTable R 4 × R =>
      (AgreeOn S a.1 b.1 ∧ b.2 = a.2) ∧ a.1.mask = t.mask) ⟨⟨h, rfl⟩, rfl⟩ ?_
    rintro f hf ⟨u, sum⟩ ⟨u', sum'⟩ ⟨⟨hu, hsum⟩, hmask⟩
    have hgroup := hu.group f.index (by rw [hmask]; exact hv f hf)
    dsimp only at hu hsum hgroup hmask ⊢
    rw [hgroup, hsum]
    exact ⟨⟨hu.setGroup _ _, rfl⟩, hmask⟩
  exact key.1

/-! ## Previews -/

namespace Mode

theorem preview_agree {S : UInt64 → Prop} (m : Mode) (p : Params R) {t t' : WeightTable R m.width}
    (h : AgreeOn S t t') {visits : List (Feature R)} (hv : t.Visits S visits) :
    AgreeOn S (m.preview p t visits).weights (m.preview p t' visits).weights ∧
      (m.preview p t' visits).sum = (m.preview p t visits).sum ∧
      (m.preview p t' visits).norm? = (m.preview p t visits).norm? := by
  cases m with
  | proximal => exact ⟨h, h.dot hv, rfl⟩
  | pistol =>
    obtain ⟨ht, hsum⟩ := Pistol.refreshAll_agree h hv p
    exact ⟨ht, hsum, rfl⟩
  | coinBetting => exact ⟨h, Coin.rawSum_eq h hv p, congrArg some (Coin.normSum_eq h hv)⟩

/-- Only the visited groups may be others after a preview. -/
theorem preview_touches {S : UInt64 → Prop} (m : Mode) (p : Params R) (t : WeightTable R m.width)
    {visits : List (Feature R)} (hv : t.Visits S visits) :
    t.AgreeOn (fun i => ¬ S i) (m.preview p t visits).weights := by
  cases m with
  | proximal => exact .refl t
  | pistol =>
    refine List.foldl_rel (l := visits) (a := (t, (0 : R))) (b := ()) (g := fun u _ => u)
      (r := fun a _ => t.AgreeOn (fun i => ¬ S i) a.1) (.refl t) ?_
    rintro f hf ⟨u, sum⟩ - hu
    refine hu.trans (agreeOn_setGroup u ?_ _)
    rw [hu.mask]
    exact fun hi => hi (hv f hf)
  | coinBetting => exact .refl t

end Mode

namespace Optimizer

variable {S : UInt64 → Prop} {r : Region mask} {C : ContextRel R W}

/-- The channels at an index. -/
def channels (o : Optimizer R W) (i : UInt64) : List R := (o.weights.group i).toList

/-! ## What a call changes -/

/-- What an optimizer may become by calls that keep to the groups in `S`: its totals and these
groups may be others. -/
def Touched (S : UInt64 → Prop) (o o' : Optimizer R W) : Prop :=
  ∃ (t : WeightTable R o.mode.width) (totalWeight normalizedSumNorm : W) (averageSquaredNorm : R),
    o' = { o with weights := t, totalWeight, normalizedSumNorm, averageSquaredNorm } ∧
      o.weights.AgreeOn (fun i => ¬ S i) t

omit [Number W] [Widening R W] in
theorem Touched.refl (o : Optimizer R W) : Touched S o o :=
  ⟨_, _, _, _, rfl, WeightTable.AgreeOn.refl _⟩

omit [Number W] [Widening R W] in
theorem Touched.mask_eq {o o' : Optimizer R W} (h : Touched S o o') :
    o'.weights.mask = o.weights.mask := by
  obtain ⟨t, _, _, _, rfl, ht⟩ := h
  exact ht.mask

omit [Number W] [Widening R W] in
theorem Touched.trans {o o' o'' : Optimizer R W} (h : Touched S o o') (h' : Touched S o' o'') :
    Touched S o o'' := by
  obtain ⟨t, _, _, _, rfl, ht⟩ := h
  obtain ⟨t', _, _, _, rfl, ht'⟩ := h'
  exact ⟨t', _, _, _, rfl, ht.trans ht'⟩

theorem learningPrediction_touches (o : Optimizer R W) (weight : R) {visits : List (Feature R)}
    (hv : o.weights.Visits S visits) :
    Touched S o (o.learningPrediction weight visits).1 := by
  have hlook := Mode.preview_touches o.mode o.params o.weights hv
  unfold learningPrediction
  dsimp only
  split
  · exact ⟨_, _, _, _, rfl, hlook⟩
  · exact ⟨_, _, _, _, rfl, hlook⟩

omit [Number W] [Widening R W] in
theorem step_touches (o : Optimizer R W) (update : R) {visits : List (Feature R)}
    (hv : o.weights.Visits S visits) : Touched S o (o.step update visits) := by
  refine ⟨_, _, _, _, rfl, ?_⟩
  refine List.foldl_rel (l := visits) (b := ()) (g := fun u _ => u)
    (r := fun (u : WeightTable R o.mode.width) _ => o.weights.AgreeOn (fun i => ¬ S i) u)
    (.refl _) ?_
  intro f hf u _ hu
  refine hu.trans (WeightTable.agreeOn_setGroup u ?_ _)
  rw [hu.mask]
  exact fun hi => hi (hv f hf)

/-- What is kept of an optimizer `o` by calls that keep to the groups of a problem. -/
structure Kept (r : Region mask) (o o' : Optimizer R W) : Prop where
  mask : o'.weights.mask = mask
  touched : Touched r.group o o'

omit [Number W] [Widening R W] in
theorem Kept.step {o o' o'' : Optimizer R W} (h : Kept r o o') (h' : Touched r.group o' o'') :
    Kept r o o'' :=
  ⟨h'.mask_eq.trans h.mask, h.touched.trans h'⟩

omit [Number W] [Widening R W] in
theorem visits_of_holds {o : Optimizer R W} (hmask : o.weights.mask = mask) {ec : Example R}
    (h : r.Holds ec) (terms : List Term) : o.weights.Visits r.group (ec.visits terms) := by
  subst hmask
  exact h.visits terms

/-- A call predicts as its mode asks for, and then steps if there is a label. -/
theorem runOn_learn (f : Frame R W (Optimizer R W) (Example R)) :
    (learn : NodeM R W _ _ Unit).runOn f =
      let visits := f.input.visits f.context.interactions
      let seen := f.node.learningPrediction f.input.weight visits
      let ec := publish f.context seen.2 f.input
      match f.input.target? with
      | none => (.error (.labelMismatch seen.1.name "simple"), ⟨seen.1, f.context, ec⟩)
      | some label =>
        let update := f.context.derivativeOf ec.scalar label * f.input.weight
        (.ok (), ⟨seen.1.step update visits, f.context, ec⟩) := by
  unfold learn update
  rw [NodeM.runOn_bind, NodeM.runOn_modify]
  dsimp only
  rw [NodeM.runOn_bind, NodeM.runOn_get]
  dsimp only
  change NodeM.runOn (match f.input.target? with | none => _ | some label => _) _ = _
  cases f.input.target? <;> rfl

theorem publish_eq {c c' : Context R W} (h : C.rel c c') (raw : R) (ec : Example R) :
    publish c' raw ec = publish c raw ec := by
  rw [publish, publish, C.interactions h, C.bound_eq h]

/-- Predictions with the same dot products. -/
theorem predict_alike {N : Optimizer R W → Optimizer R W → Prop}
    (hdot : ∀ {o o' ec}, N o o' → r.Holds ec → ∀ terms,
      o'.weights.dot (ec.visits terms) = o.weights.dot (ec.visits terms)) (M : Marks) :
    NodeM.Alike (Agree N C (Example.Marked M r)) (Agree N C (Example.Marked M r))
      (predict : NodeM R W _ _ Unit) predict := by
  refine NodeM.Alike.of_modify fun f f' h => ⟨h.node, h.context, ?_⟩
  obtain ⟨⟨mark, -, hinput⟩, hec⟩ := h.input
  have hvisits : f'.input.visits f'.context.interactions =
      f.input.visits f.context.interactions := by
    rw [hinput, C.interactions h.context]
    rfl
  dsimp only
  rw [hvisits, hdot h.node hec, publish_eq h.context]
  exact h.input.write fun ec => ⟨_, .scalar (f.context.bound _), _,
    (ec.products f.context.interactions).length, fun _ => rfl⟩

/-- What the parts of a call keep, the call keeps. -/
theorem learner_keeps {Inv : Optimizer R W → Prop} {p : R → Prop}
    (hC : ∀ c c', C.rel c c' → c' = c) (hmask : ∀ o, Inv o → o.weights.mask = mask)
    (hpredict : ∀ o weight visits, Inv o → p weight → o.weights.Visits r.group visits →
      Inv (o.learningPrediction weight visits).1)
    (hstep : ∀ o update visits, Inv o → o.weights.Visits r.group visits →
      Inv (o.step update visits)) :
    (learner : LineLearner R W _).Alike (Same Inv) C r p learner := by
  refine ⟨predict_alike fun h _ _ => by rw [h.eq],
    NodeM.Alike.of_keeps (p := fun ec : Example R => p ec.weight) hC (fun _ _ hec => hec.eq)
      fun f hinv hcontext hinput hp => ?_, ?_⟩
  · have hholds := hinput.holds
    have hvisits := visits_of_holds (hmask _ hinv) hholds f.context.interactions
    have hseen := hpredict _ f.input.weight _ hinv hp hvisits
    have hrun := runOn_learn f
    change learner.learn.runOn f = _ at hrun
    rw [hrun]
    dsimp only
    split
    · exact ⟨hseen, hcontext, .refl ⟨hholds.feature, hholds.offset⟩⟩
    · exact ⟨hstep _ _ _ hseen (visits_of_holds (hmask _ hseen) hholds _), hcontext,
        .refl ⟨hholds.feature, hholds.offset⟩⟩
  · rintro M n n' c c' ec ec' ⟨rfl, -⟩ hc ⟨⟨mark, -, rfl⟩, -⟩
    rw [hC _ _ hc]
    rfl

/-- What is kept as long as no group outside of a problem is touched, the calls keep. -/
theorem learner_keeps_touched {Inv : Optimizer R W → Prop} {p : R → Prop}
    (hC : ∀ c c', C.rel c c' → c' = c) (hmask : ∀ o, Inv o → o.weights.mask = mask)
    (h : ∀ {o o'}, Inv o → Touched r.group o o' → Inv o') :
    (learner : LineLearner R W _).Alike (Same Inv) C r p learner :=
  learner_keeps hC hmask (fun _ weight _ ho _ hv => h ho (learningPrediction_touches _ weight hv))
    fun _ update _ ho hv => h ho (step_touches _ update hv)

/-- One optimizer in contexts that measure labels alike stays one optimizer, with one mask. -/
theorem learner_keepsMask {p : R → Prop} (mask : UInt64) :
    (learner : LineLearner R W _).Alike (Same fun o : Optimizer R W => o.weights.mask = mask) C
      (Region.whole mask) p learner := by
  refine ⟨predict_alike fun h _ _ => by rw [h.eq], ?_, ?_⟩
  · rintro ⟨_, c, ec⟩ ⟨o, c', _⟩ ⟨⟨⟨rfl, hmask⟩, hc, hec⟩, -⟩
    cases hec.eq
    have hvisits := visits_of_holds hmask hec.holds c.interactions
    have hseen := (learningPrediction_touches o ec.weight hvisits).mask_eq.trans hmask
    change (learn.runOn _).1 = (learn.runOn _).1 ∧ Agree _ _ _ (learn.runOn _).2 (learn.runOn _).2
    rw [runOn_learn, runOn_learn]
    dsimp only
    rw [C.interactions hc, publish_eq hc]
    split
    · exact ⟨rfl, ⟨rfl, hseen⟩, hc, .refl (Region.holds_whole _)⟩
    · rw [C.derivativeOf_eq hc]
      have hvisits := visits_of_holds hseen (r := Region.whole mask) (Region.holds_whole ec)
        c.interactions
      exact ⟨rfl, ⟨rfl, (step_touches _ _ hvisits).mask_eq.trans hseen⟩, hc,
        .refl (Region.holds_whole _)⟩
  · rintro M _ o c c' ec _ ⟨rfl, -⟩ hc ⟨⟨mark, -, rfl⟩, -⟩
    change sensitivity o c' _ = sensitivity o c ec
    unfold sensitivity
    rw [C.interactions hc]
    rfl

/-- On the examples of a problem the optimizer keeps to the groups of the problem. -/
theorem learner_kept {p : R → Prop} (o : Optimizer R W) :
    (learner : LineLearner R W _).Alike (Same (Kept r o)) .eq r p learner :=
  learner_keeps_touched (fun _ _ h => h.symm) (fun _ h => h.mask) fun h h' => h.step h'

/-! ## Optimizers that agree on groups -/

/-- Optimizers that differ in nothing that a call reads but groups outside of `S`. -/
def AgreeOn (S : UInt64 → Prop) (o o' : Optimizer R W) : Prop :=
  ∃ (t : WeightTable R o.mode.width) (stalls : UInt32),
    o' = { o with weights := t, stalls } ∧ o.weights.AgreeOn S t

theorem learningPrediction_agree {o o' : Optimizer R W} (h : AgreeOn S o o') (weight : R)
    {visits : List (Feature R)} (hv : o.weights.Visits S visits) :
    AgreeOn S (o.learningPrediction weight visits).1 (o'.learningPrediction weight visits).1 ∧
      (o'.learningPrediction weight visits).2 = (o.learningPrediction weight visits).2 := by
  obtain ⟨t, stalls, rfl, ht⟩ := h
  obtain ⟨hlook, hsum, hnorm⟩ := Mode.preview_agree o.mode o.params ht hv
  unfold learningPrediction
  dsimp only
  rw [hnorm]
  cases (o.mode.preview o.params o.weights visits).norm? with
  | none => exact ⟨⟨_, stalls, rfl, hlook⟩, hsum⟩
  | some norm => exact ⟨⟨_, stalls, rfl, hlook⟩, by rw [hsum]; rfl⟩

omit [Number W] [Widening R W] in
theorem step_agree {o o' : Optimizer R W} (h : AgreeOn S o o') (update : R)
    {visits : List (Feature R)} (hv : o.weights.Visits S visits) :
    AgreeOn S (o.step update visits) (o'.step update visits) := by
  obtain ⟨t, stalls, rfl, ht⟩ := h
  refine ⟨_, stalls, rfl, ?_⟩
  refine (List.foldl_rel (l := visits) (r := fun u u' : WeightTable R o.mode.width =>
    u.AgreeOn S u' ∧ u.mask = o.weights.mask) ⟨ht, rfl⟩ ?_).1
  rintro f hf u u' ⟨hu, hmask⟩
  exact ⟨hu.modify (by rw [hmask]; exact hv f hf) _, hmask⟩

/-- Optimizers over a table of mask `mask` that agree on the groups of a problem. -/
structure Twins (r : Region mask) (o o' : Optimizer R W) : Prop where
  mask : o.weights.mask = mask
  agree : AgreeOn r.group o o'

/-- Learning from the prediction that the example holds. -/
theorem update_alike :
    NodeM.Alike (Agree (Twins r) C (Example.Marked .same r))
      (Agree (Twins r) C (Example.Marked .same r)) (update : NodeM R W _ _ Unit) update := by
  refine NodeM.Alike.get_bind fun f f' h => ?_
  have hvisits := visits_of_holds h.node.mask h.input.holds f.context.interactions
  have hname : f'.node.name = f.node.name := by
    obtain ⟨t, stalls, heq, -⟩ := h.node.agree
    rw [heq]
    rfl
  rw [h.input.eq, hname]
  dsimp only
  split
  · refine NodeM.Alike.of_throw _ ?_
    rintro _ _ ⟨rfl, rfl⟩
    exact h
  · rename_i label _
    refine NodeM.Alike.of_modify fun _ _ _ => ?_
    rw [C.derivativeOf_eq h.context, C.interactions h.context]
    refine ⟨⟨?_, step_agree h.node.agree _ hvisits⟩, h.context, .refl h.input.holds⟩
    exact (step_touches f.node _ hvisits).mask_eq.trans h.node.mask

theorem learn_alike :
    NodeM.Alike (Agree (Twins r) C (Example.Marked .same r))
      (Agree (Twins r) C (Example.Marked .same r)) (learn : NodeM R W _ _ Unit) learn := by
  refine NodeM.Alike.bind (NodeM.Alike.of_modify fun f f' h => ?_) fun _ => update_alike
  have hholds := h.input.holds
  have hvisits := visits_of_holds h.node.mask hholds f.context.interactions
  obtain ⟨hnode, hraw⟩ := learningPrediction_agree h.node.agree f.input.weight hvisits
  dsimp only
  rw [h.input.eq, C.interactions h.context, hraw, publish_eq h.context]
  have hmask := (learningPrediction_touches f.node f.input.weight hvisits).mask_eq.trans h.node.mask
  exact ⟨⟨hmask, hnode⟩, h.context, .refl ⟨hholds.feature, hholds.offset⟩⟩

omit [Number W] [Widening R W] in
theorem dot_eq {o o' : Optimizer R W} {ec : Example R} (h : Twins r o o') (hec : r.Holds ec)
    (terms : List Term) : o'.weights.dot (ec.visits terms) = o.weights.dot (ec.visits terms) := by
  have hvisits := visits_of_holds h.mask hec terms
  obtain ⟨t, stalls, rfl, ht⟩ := h.agree
  exact ht.dot hvisits

theorem sensitivity_eq {o o' : Optimizer R W} (h : Twins r o o') {c c' : Context R W}
    (hc : C.rel c c') {M : Marks} {ec ec' : Example R} (hec : Example.Marked M r ec ec') :
    o'.sensitivity c' ec' = o.sensitivity c ec := by
  obtain ⟨⟨mark, -, rfl⟩, hholds⟩ := hec
  have hvisits := visits_of_holds h.mask hholds c.interactions
  obtain ⟨t, stalls, rfl, ht⟩ := h.agree
  unfold sensitivity
  rw [C.interactions hc]
  refine List.foldl_rel (r := Eq) rfl fun f hf sum _ heq => ?_
  rw [heq, ht.group _ (hvisits f hf)]

/-- Optimizers that agree on the groups of a problem are not told apart on its examples. -/
theorem learner_alike {p : R → Prop} :
    (learner : LineLearner R W _).Alike (Twins r) C r p learner :=
  ⟨predict_alike fun h hec => dot_eq h hec, learn_alike.weaken (fun _ _ h => h.1) fun _ _ h => h,
    fun hn hc hec => sensitivity_eq hn hc hec⟩

end Optimizer

end OnlineLearning
