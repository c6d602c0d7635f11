import OnlineLearning.Config.Document
import OnlineLearning.Proofs.DocumentTexts

/-!
# Documents of configurations

The statements of the document of a configuration build the table of that configuration, and what is
read from this table is the configuration again: every member is written, but for options that are
absent, and absent options are absent by default.

* `Entries.alter_last` and `Draft.foldlM_pairs`: pairs are added to the table that the last header
  has opened;
* `Config.entries` is the table of a configuration;
* `Config.isPlain_statements`: the text of the document of a configuration is read back;
* `Config.ofStatements?_statements` and `Config.ofEntries?_entries`: the two ways of the table.
-/

namespace OnlineLearning

open Toml

/-! ## Tables that statements build -/

namespace Toml

theorem lookup_append_new {front : Entries} {key : String} (h : front.lookup key = none)
    (value : Value) : (front ++ [(key, value)]).lookup key = some value := by
  rw [List.lookup_append, h]
  simp

theorem lookup_none {es : Entries} {names : List String}
    (h : (es.map Prod.fst ++ names).Nodup) {name : String} (hname : name ∈ names) :
    es.lookup name = none := by
  rw [List.lookup_eq_none_iff]
  intro e he
  exact bne_iff_ne.mpr ((List.nodup_append.mp h).2.2 _ (List.mem_map_of_mem he) _ hname).symm

theorem put_append_new {front : Entries} {key : String} (h : front.lookup key = none)
    (old value : Value) :
    Entries.put (front ++ [(key, old)]) key value = front ++ [(key, value)] := by
  have hfront : front.map (fun e => if e.1 == key then (key, value) else e) = front := by
    refine (List.map_congr_left fun e he => ?_).trans (List.map_id front)
    have hne : key ≠ e.1 := bne_iff_ne.mp (List.lookup_eq_none_iff.mp h e he)
    exact if_neg fun heq => hne (beq_iff_eq.mp heq).symm
  unfold Entries.put
  rw [List.map_append, hfront]
  simp

/-- The way to the last entry of a table leads into the table that this entry holds. -/
theorem alter_last {front : Entries} {step : String} (h : front.lookup step = none)
    (f : TableKind → Entries → Option Entries) (path : List String) (kind : TableKind)
    (inner : Entries) :
    Entries.alter false f (step :: path) kind (front ++ [(step, .table .header inner)]) =
      (Entries.alter false f path .header inner).map
        fun inner => front ++ [(step, .table .header inner)] := by
  rw [Entries.alter, lookup_append_new h]
  dsimp only
  rw [Bool.false_and, if_neg Bool.false_ne_true]
  generalize Entries.alter false f path .header inner = altered
  cases altered with
  | none => rfl
  | some inner' => exact congrArg some (put_append_new h _ _)

/-- A document whose open table is at a path: `fill` puts a table there. -/
def Opens (path : List String) (fill : Entries → Entries) : Prop :=
  ∀ (f : TableKind → Entries → Option Entries) (es : Entries),
    Entries.alter false f path .header (fill es) = (f .header es).map fill

theorem insertPair_top {es : Entries} {name : String} (h : es.lookup name = none) (value : Value) :
    Entries.insertPair ⟨[], name⟩ value .header es = some (es ++ [(name, value)]) := by
  unfold Entries.insertPair
  rw [Entries.alter]
  dsimp only
  rw [h]
  rfl

/-- Pairs with new names are put into the open table. -/
theorem foldlM_pairs {path : List String} {fill : Entries → Entries} (hopens : Opens path fill)
    (added es : Entries) (hnew : ((es ++ added).map Prod.fst).Nodup) :
    (added.map fun e => Config.pair e.1 e.2).foldlM Draft.add ⟨fill es, path⟩ =
      some ⟨fill (es ++ added), path⟩ := by
  induction added generalizing es with
  | nil => simp
  | cons e rest ih =>
    have hfresh : es.lookup e.1 = none := by
      rw [List.map_append] at hnew
      exact lookup_none hnew List.mem_cons_self
    have hadd : Draft.add ⟨fill es, path⟩ (Config.pair e.1 e.2) =
        some ⟨fill (es ++ [(e.1, e.2)]), path⟩ := by
      have halter : Entries.alter false (Entries.insertPair ⟨[], e.1⟩ e.2) path .header (fill es) =
          some (fill (es ++ [(e.1, e.2)])) := by
        rw [hopens, insertPair_top hfresh]
        rfl
      unfold Config.pair Draft.add
      dsimp only
      rw [halter]
      rfl
    rw [List.map_cons, List.foldlM_cons, hadd]
    change List.foldlM _ _ _ = _
    rw [ih]
    · simp
    · simpa using hnew

theorem opens_last {front : Entries} {name : String} (h : front.lookup name = none) :
    Opens [name] fun es => front ++ [(name, .table .header es)] := fun f es => by
  rw [alter_last h, Entries.alter]

theorem opens_inside {front inner : Entries} {parent name : String}
    (h : front.lookup parent = none) (h' : inner.lookup name = none) :
    Opens [parent, name] fun es =>
      front ++ [(parent, .table .header (inner ++ [(name, .table .header es)]))] := fun f es => by
  rw [alter_last h, opens_last h', Option.map_map]
  rfl

/-- A header with a new name opens a table, and pairs with different names fill it. -/
theorem foldlM_section {root : Entries} {name : String} (h : root.lookup name = none)
    {es : Entries} (hnew : (es.map Prod.fst).Nodup) (path : List String) :
    (Statement.header ⟨[], name⟩ :: es.map fun e => Config.pair e.1 e.2).foldlM Draft.add
        ⟨root, path⟩ =
      some ⟨root ++ [(name, .table .header es)], [name]⟩ := by
  have hopen : Entries.openTable ⟨[], name⟩ root = some (root ++ [(name, .table .header [])]) := by
    unfold Entries.openTable
    rw [Entries.alter]
    dsimp only
    rw [h]
  have hheader : Draft.add ⟨root, path⟩ (.header ⟨[], name⟩) =
      some ⟨root ++ [(name, .table .header [])], [name]⟩ := by
    unfold Draft.add
    dsimp only
    rw [hopen]
    rfl
  have hpairs := foldlM_pairs (opens_last h) es [] hnew
  rw [List.foldlM_cons, hheader]
  exact hpairs

/-- The same for a header with the name of a table behind that of the last table. -/
theorem foldlM_inside {front inner : Entries} {parent name : String}
    (h : front.lookup parent = none) (h' : inner.lookup name = none) {es : Entries}
    (hnew : (es.map Prod.fst).Nodup) (path : List String) :
    (Statement.header ⟨[parent], name⟩ :: es.map fun e => Config.pair e.1 e.2).foldlM Draft.add
        ⟨front ++ [(parent, .table .header inner)], path⟩ =
      some ⟨front ++ [(parent, .table .header (inner ++ [(name, .table .header es)]))],
        [parent, name]⟩ := by
  have hopen : Entries.openTable ⟨[parent], name⟩ (front ++ [(parent, .table .header inner)]) =
      some (front ++ [(parent, .table .header (inner ++ [(name, .table .header [])]))]) := by
    unfold Entries.openTable
    rw [opens_last h]
    dsimp only
    rw [h']
    rfl
  have hheader : Draft.add ⟨front ++ [(parent, .table .header inner)], path⟩
      (.header ⟨[parent], name⟩) =
      some ⟨front ++ [(parent, .table .header (inner ++ [(name, .table .header [])]))],
        [parent, name]⟩ := by
    unfold Draft.add
    dsimp only
    rw [hopen]
    rfl
  have hpairs := foldlM_pairs (opens_inside h h') es [] hnew
  rw [List.foldlM_cons, hheader]
  exact hpairs

theorem forall_mem_intercalate {p : Statement → Prop} {sections : List (List Statement)}
    (h : ∀ lines ∈ sections, ∀ s ∈ lines, p s) {between : Statement} (hbetween : p between) :
    ∀ s ∈ [between].intercalate sections, p s := by
  cases sections with
  | nil => exact nofun
  | cons first rest =>
    obtain ⟨hfirst, hrest⟩ := List.forall_mem_cons.mp h
    rw [intercalate_cons, List.forall_mem_append, List.forall_mem_flatMap]
    exact ⟨hfirst, fun lines hlines => List.forall_mem_cons.mpr ⟨hbetween, hrest lines hlines⟩⟩

/-- Blank lines between sections are of no effect. -/
theorem foldlM_intercalate (sections : List (List Statement)) (d : Draft) :
    ([Statement.blank].intercalate sections).foldlM Draft.add d =
      sections.flatten.foldlM Draft.add d := by
  induction sections generalizing d with
  | nil => rfl
  | cons first rest ih =>
    cases rest with
    | nil => simp [List.intercalate]
    | cons next rest =>
      have hsplit : [Statement.blank].intercalate (first :: next :: rest) =
          first ++ .blank :: [Statement.blank].intercalate (next :: rest) := by
        simp [List.intercalate]
      rw [hsplit, List.flatten_cons, List.foldlM_append, List.foldlM_append]
      refine congrArg _ (funext fun left => ?_)
      rw [← ih]
      rfl

/-- Sections with new names, one after another. -/
theorem foldlM_sections (sections : List (String × Entries)) (root : Entries) (path : List String)
    (hnew : (root.map Prod.fst ++ sections.map Prod.fst).Nodup)
    (hsections : ∀ s ∈ sections, (s.2.map Prod.fst).Nodup) :
    ∃ path', (sections.map fun s =>
        Statement.header ⟨[], s.1⟩ :: s.2.map fun e => Config.pair e.1 e.2).flatten.foldlM Draft.add
          ⟨root, path⟩ =
      some ⟨root ++ sections.map fun s => (s.1, .table .header s.2), path'⟩ := by
  induction sections generalizing root path with
  | nil => exact ⟨path, by simp⟩
  | cons s rest ih =>
    have hfresh : root.lookup s.1 = none := lookup_none hnew List.mem_cons_self
    obtain ⟨path', hrest⟩ := ih (root ++ [(s.1, .table .header s.2)]) [s.1] (by simpa using hnew)
      fun s hs => hsections s (List.mem_cons_of_mem _ hs)
    refine ⟨path', ?_⟩
    rw [List.map_cons, List.flatten_cons, List.foldlM_append,
      foldlM_section hfresh (hsections s List.mem_cons_self)]
    change List.foldlM _ _ _ = _
    rw [hrest]
    simp

end Toml

/-! ## The table of a configuration -/

namespace Config

/-- The pair of an option, none if it is absent. -/
def optional {α : Type} (name : String) (f : α → Value) (x : Option α) : Entries :=
  x.toList.map fun x => (name, f x)

def optimizerEntries (c : OptimizerConfig Float32) : Entries :=
  [("ftrl", ofFlag c.ftrl), ("pistol", ofFlag c.pistol), ("coin", ofFlag c.coin)] ++
    optional "ftrl_alpha" ofSingle c.alpha ++ optional "ftrl_beta" ofSingle c.beta ++
    [("l1_lambda", ofSingle c.l1), ("l2_lambda", ofSingle c.l2)]

def weightsEntries (c : WeightsConfig) : Entries :=
  [("bits", ofNat c.bits.toNat), ("sparse", ofFlag c.sparse)]

def scorerEntries (c : ScorerConfig) : Entries :=
  [("link", .string c.link.name), ("loss_function", .string c.loss.name)]

def featuresEntries (c : FeaturesConfig) : Entries := [("interactions", ofTexts c.interactions)]

def runEntries (c : RunConfig) : Entries :=
  [("quiet", ofFlag c.quiet), ("save_resume", ofFlag c.saveResume),
    ("holdout_off", ofFlag c.holdoutOff), ("early_terminate", ofNat c.earlyTerminate.toNat),
    ("check_holdout_every_n_passes", ofNat c.checkHoldoutEvery.toNat),
    ("progress_log", .string c.progressLog)]

def banditEntries (c : BanditConfig) : Entries := [("enabled", ofFlag c.enabled)]

def groundedEntries (c : GroundedConfig Float32) : Entries :=
  [("experimental_igl", ofFlag c.enabled), ("feedback_namespace", .string c.feedbackNamespace),
    ("p_unlabeled_prior", ofSingle c.unlabeledPrior),
    ("positive_importance", ofSingle c.positiveImportance),
    ("negative_importance", ofSingle c.negativeImportance),
    ("negative_feedback", ofTexts c.negativeFeedback)]

def decoderEntries (c : DecoderConfig) : Entries :=
  [("link", .string c.link.name), ("loss_function", .string c.loss.name)] ++
    optional "interactions" ofTexts c.interactions

/-- The sections before the one that has another section inside of it. -/
def topSections (c : Config Float32) : List (String × Entries) :=
  [("optimizer", optimizerEntries c.optimizer), ("weights", weightsEntries c.weights),
    ("scorer", scorerEntries c.scorer), ("features", featuresEntries c.features),
    ("run", runEntries c.run), ("cb", banditEntries c.bandit)]

/-- The table that the document of a configuration describes. -/
def entries (c : Config Float32) : Entries :=
  (c.topSections.map fun s => (s.1, .table .header s.2)) ++
    [("igl", .table .header (groundedEntries c.grounded ++
      [("decoder", .table .header (decoderEntries c.grounded.decoder))]))]

variable (c : Config Float32)

theorem map_pair_optional {α : Type} (name : String) (f : α → Value) (x : Option α) :
    (optional name f x).map (fun e => pair e.1 e.2) = ofOption name f x := by
  cases x <;> rfl

theorem statements_eq : c.statements = [Statement.blank].intercalate
    (((c.topSections ++ [("igl", groundedEntries c.grounded)]).map fun s =>
      Statement.header ⟨[], s.1⟩ :: s.2.map fun e => pair e.1 e.2) ++
    [.header ⟨["igl"], "decoder"⟩ ::
      (decoderEntries c.grounded.decoder).map fun e => pair e.1 e.2]) := by
  have hoptimizer : (optimizerEntries c.optimizer).map (fun e => pair e.1 e.2) =
      [pair "ftrl" (ofFlag c.optimizer.ftrl), pair "pistol" (ofFlag c.optimizer.pistol),
        pair "coin" (ofFlag c.optimizer.coin)] ++
      ofOption "ftrl_alpha" ofSingle c.optimizer.alpha ++
      ofOption "ftrl_beta" ofSingle c.optimizer.beta ++
      [pair "l1_lambda" (ofSingle c.optimizer.l1), pair "l2_lambda" (ofSingle c.optimizer.l2)] := by
    unfold optimizerEntries
    rw [List.map_append, List.map_append, List.map_append, map_pair_optional, map_pair_optional]
    rfl
  have hdecoder : (decoderEntries c.grounded.decoder).map (fun e => pair e.1 e.2) =
      [pair "link" (.string c.grounded.decoder.link.name),
        pair "loss_function" (.string c.grounded.decoder.loss.name)] ++
      ofOption "interactions" ofTexts c.grounded.decoder.interactions := by
    unfold decoderEntries
    rw [List.map_append, map_pair_optional]
    rfl
  unfold statements sections topSections
  dsimp only
  rw [← hoptimizer, ← hdecoder]
  rfl

theorem nodup_sections : ∀ s ∈ c.topSections ++ [("igl", groundedEntries c.grounded)],
    (s.2.map Prod.fst).Nodup := by
  have hoptimizer : ((optimizerEntries c.optimizer).map Prod.fst).Nodup := by
    cases halpha : c.optimizer.alpha <;> cases hbeta : c.optimizer.beta <;>
      simp [optimizerEntries, optional, halpha, hbeta]
  intro s hs
  simp only [topSections, List.cons_append, List.nil_append, List.mem_cons, List.not_mem_nil,
    or_false] at hs
  obtain rfl | rfl | rfl | rfl | rfl | rfl | rfl := hs
  · exact hoptimizer
  all_goals
    simp [weightsEntries, scorerEntries, featuresEntries, runEntries, banditEntries,
      groundedEntries]

theorem nodup_decoder (d : DecoderConfig) : ((decoderEntries d).map Prod.fst).Nodup := by
  cases h : d.interactions <;> simp [decoderEntries, optional, h]

/-- The statements of a document build the table of the configuration. -/
theorem ofStatements?_statements : Toml.ofStatements? c.statements = some c.entries := by
  have hnames : ((c.topSections ++ [("igl", groundedEntries c.grounded)]).map Prod.fst).Nodup := by
    simp [topSections]
  have hfront : (c.topSections.map fun s => (s.1, Value.table .header s.2)).lookup "igl" = none := by
    dsimp only [topSections, List.map_cons, List.map_nil]
    rfl
  have hinside : (groundedEntries c.grounded).lookup "decoder" = none := rfl
  obtain ⟨path, hsections⟩ := foldlM_sections
    (c.topSections ++ [("igl", groundedEntries c.grounded)]) [] [] hnames c.nodup_sections
  have hroot : ([] : Entries) ++ (c.topSections ++ [("igl", groundedEntries c.grounded)]).map
        (fun s => (s.1, Value.table .header s.2)) =
      (c.topSections.map fun s => (s.1, Value.table .header s.2)) ++
        [("igl", .table .header (groundedEntries c.grounded))] := by
    rw [List.nil_append, List.map_append]
    rfl
  rw [hroot] at hsections
  unfold Toml.ofStatements?
  rw [statements_eq, foldlM_intercalate, List.flatten_append, List.foldlM_append, hsections,
    List.flatten_singleton]
  change Option.map _ (List.foldlM _ _ _) = _
  rw [foldlM_inside hfront hinside (nodup_decoder c.grounded.decoder)]
  rfl

/-! ## The text of a configuration -/

/-- A member whose pair is read back. -/
def IsPlainEntry (e : String × Value) : Prop := isBare e.1 = true ∧ e.2.IsReadBack

variable {c} {name : String}

theorem isPlainEntry_flag (hname : isBare name = true) (b : Bool) :
    IsPlainEntry (name, ofFlag b) := ⟨hname, isReadBack_boolean b⟩

theorem isPlainEntry_single (hname : isBare name = true) (x : Float32) :
    IsPlainEntry (name, ofSingle x) := ⟨hname, isReadBack_float _⟩

theorem isPlainEntry_string (hname : isBare name = true) (s : String) :
    IsPlainEntry (name, .string s) := ⟨hname, isReadBack_string s⟩

theorem isPlainEntry_texts (hname : isBare name = true) (xs : List String) :
    IsPlainEntry (name, ofTexts xs) := ⟨hname, isReadBack_texts xs⟩

theorem isPlainEntry_word32 (hname : isBare name = true) (n : UInt32) :
    IsPlainEntry (name, ofNat n.toNat) := by
  refine ⟨hname, isReadBack_natural ?_⟩
  have hless := n.toNat_lt
  have hmin : Int64.minValue.toInt = -2 ^ 63 := rfl
  have hmax : Int64.maxValue.toInt = 2 ^ 63 - 1 := rfl
  unfold isInteger
  rw [hmin, hmax, Bool.and_eq_true, decide_eq_true_eq, decide_eq_true_eq]
  omega

theorem isPlainEntry_optional {α : Type} {f : α → Value} (h : ∀ x, IsPlainEntry (name, f x))
    (x : Option α) : ∀ e ∈ optional name f x, IsPlainEntry e := by
  cases x with
  | none => exact nofun
  | some x => exact List.forall_mem_singleton.mpr (h x)

/-- All members of a configuration with a counter that can be written. -/
theorem isPlainEntry_sections (hcounter : isInteger c.run.checkHoldoutEvery.toNat = true) :
    ∀ s ∈ c.topSections ++ [("igl", groundedEntries c.grounded)],
      isBare s.1 = true ∧ ∀ e ∈ s.2, IsPlainEntry e := by
  have hoptimizer : ∀ e ∈ optimizerEntries c.optimizer, IsPlainEntry e := by
    unfold optimizerEntries
    simp only [List.forall_mem_append]
    refine ⟨⟨⟨?_, isPlainEntry_optional (isPlainEntry_single (by decide)) _⟩,
      isPlainEntry_optional (isPlainEntry_single (by decide)) _⟩, ?_⟩
    · simp +decide [isPlainEntry_flag]
    · simp +decide [isPlainEntry_single]
  have hevery : IsPlainEntry ("check_holdout_every_n_passes", ofNat c.run.checkHoldoutEvery.toNat) :=
    have hname : isBare "check_holdout_every_n_passes" = true := by decide
    ⟨hname, isReadBack_natural hcounter⟩
  have hnames : ∀ name ∈ ["optimizer", "weights", "scorer", "features", "run", "cb", "igl"],
      isBare name = true := by decide
  intro s hs
  simp only [topSections, List.cons_append, List.nil_append, List.mem_cons, List.not_mem_nil,
    or_false] at hs
  obtain rfl | rfl | rfl | rfl | rfl | rfl | rfl := hs
  · exact ⟨hnames _ (by simp), hoptimizer⟩
  all_goals
    refine ⟨hnames _ (by simp), ?_⟩
    simp +decide [weightsEntries, scorerEntries, featuresEntries, runEntries, banditEntries,
      groundedEntries, isPlainEntry_flag, isPlainEntry_single, isPlainEntry_string,
      isPlainEntry_texts, isPlainEntry_word32, hevery]

theorem isPlainEntry_decoder (d : DecoderConfig) : ∀ e ∈ decoderEntries d, IsPlainEntry e := by
  unfold decoderEntries
  rw [List.forall_mem_append]
  refine ⟨?_, isPlainEntry_optional (isPlainEntry_texts (by decide)) _⟩
  simp +decide [isPlainEntry_string]

theorem isPlain_key (hname : isBare name = true) : Key.IsPlain ⟨[], name⟩ :=
  ⟨List.forall_mem_singleton.mpr hname, (by decide : 0 + 1 < depthLimit)⟩

theorem isPlain_section {key : Key} (hkey : key.IsPlain) {es : Entries}
    (hes : ∀ e ∈ es, IsPlainEntry e) :
    ∀ s ∈ Statement.header key :: es.map fun e => pair e.1 e.2, s.IsPlain := by
  rw [List.forall_mem_cons, List.forall_mem_map]
  exact ⟨.header hkey, fun e he => .pair (isPlain_key (hes e he).1) (hes e he).2⟩

/-- The lines of the document of a configuration are read back. -/
theorem isPlain_statements (hcounter : isInteger c.run.checkHoldoutEvery.toNat = true) :
    ∀ s ∈ c.statements, s.IsPlain := by
  have hinside : Key.IsPlain ⟨["igl"], "decoder"⟩ :=
    ⟨(by decide : ∀ name ∈ ["igl", "decoder"], isBare name = true),
      (by decide : 1 + 1 < depthLimit)⟩
  have hsections : ∀ lines ∈ (c.topSections ++ [("igl", groundedEntries c.grounded)]).map (fun s =>
      Statement.header ⟨[], s.1⟩ :: s.2.map fun e => pair e.1 e.2) ++
        [.header ⟨["igl"], "decoder"⟩ ::
          (decoderEntries c.grounded.decoder).map fun e => pair e.1 e.2],
      ∀ s ∈ lines, s.IsPlain := by
    rw [List.forall_mem_append, List.forall_mem_map, List.forall_mem_singleton]
    refine ⟨fun s hs => ?_, isPlain_section hinside (isPlainEntry_decoder _)⟩
    obtain ⟨hname, hes⟩ := isPlainEntry_sections hcounter s hs
    exact isPlain_section (isPlain_key hname) hes
  rw [statements_eq]
  exact forall_mem_intercalate hsections .blank

variable (c)

/-! ## Reading the table -/

namespace Reading

@[simp]
theorem flag_ofFlag (b : Bool) : flag (ofFlag b) = some b := rfl

@[simp]
theorem text_string (s : String) : text (.string s) = some s := rfl

theorem natural_ofNat {bound n : Nat} (h : n < bound) : natural bound (ofNat n) = some n := by
  have hrange : (0 : Int) ≤ n ∧ (n : Int) < bound := by omega
  unfold natural ofNat
  dsimp only
  rw [if_pos hrange, Int.toNat_natCast]

@[simp]
theorem word32_ofNat (n : UInt32) : word32 (ofNat n.toNat) = some n := by
  unfold word32
  rw [natural_ofNat n.toNat_lt]
  exact congrArg some n.ofNat_toNat

@[simp]
theorem word64_ofNat (n : UInt64) : word64 (ofNat n.toNat) = some n := by
  unfold word64
  rw [natural_ofNat n.toNat_lt]
  exact congrArg some n.ofNat_toNat

@[simp]
theorem single_ofSingle (x : Float32) : single (ofSingle x) = some x :=
  congrArg some (narrow_widen x)

@[simp]
theorem texts_ofTexts (xs : List String) : texts (ofTexts xs) = some xs := by
  unfold texts ofTexts
  dsimp only
  induction xs with
  | nil => rfl
  | cons x xs ih => simp [ih]

@[simp]
theorem link_name (l : LinkFunction) : link (.string l.name) = some l := by
  cases l <;> rfl

@[simp]
theorem loss_name (l : LossFunction) : loss (.string l.name) = some l := by
  cases l <;> rfl

end Reading

@[simp]
theorem members_table (kind : TableKind) (es : Entries) :
    members (.table kind es) = some fun _ name => es.lookup name := rfl

@[simp]
theorem member_eq {α : Type} (get : Nat → String → Option Value) (position : Nat) (name : String)
    (r : Reading α) (fallback : α) :
    member get position name r fallback = (get position name).elim (some fallback) r := by
  unfold member
  cases get position name <;> rfl

@[simp]
theorem lookup_cons (name key : String) (v : Value) (es : Entries) :
    List.lookup name ((key, v) :: es) = if name = key then some v else es.lookup name := by
  rw [List.lookup]
  by_cases h : name = key
  · rw [if_pos h, beq_iff_eq.mpr h]
  · rw [if_neg h, beq_eq_false_iff_ne.mpr h]

/- The steps of `simp` are explicit proofs below: checked by unfolding, they would make the kernel
count up to the bounds of the integers. -/

theorem readOptimizer_entries (c d : OptimizerConfig Float32) (halpha : d.alpha = none)
    (hbeta : d.beta = none) :
    readOptimizer d (.table .header (optimizerEntries c)) = some c := by
  obtain ⟨ftrl, pistol, coin, alpha, beta, l1, l2⟩ := c
  cases alpha <;> cases beta <;>
    simp -implicitDefEqProofs [readOptimizer, optimizerEntries, optional, Reading.option, halpha,
      hbeta]

theorem readWeights_entries (c d : WeightsConfig) :
    readWeights d (.table .header (weightsEntries c)) = some c := by
  simp -implicitDefEqProofs [readWeights, weightsEntries]

theorem readScorer_entries (c d : ScorerConfig) :
    readScorer d (.table .header (scorerEntries c)) = some c := by
  simp -implicitDefEqProofs [readScorer, scorerEntries]

theorem readFeatures_entries (c d : FeaturesConfig) :
    readFeatures d (.table .header (featuresEntries c)) = some c := by
  simp -implicitDefEqProofs [readFeatures, featuresEntries]

theorem readRun_entries (c d : RunConfig) :
    readRun d (.table .header (runEntries c)) = some c := by
  simp -implicitDefEqProofs [readRun, runEntries]

theorem readBandit_entries (c d : BanditConfig) :
    readBandit d (.table .header (banditEntries c)) = some c := by
  simp -implicitDefEqProofs [readBandit, banditEntries]

theorem readDecoder_entries (c d : DecoderConfig) (h : d.interactions = none) :
    readDecoder d (.table .header (decoderEntries c)) = some c := by
  obtain ⟨link, loss, interactions⟩ := c
  cases interactions <;>
    simp -implicitDefEqProofs [readDecoder, decoderEntries, optional, Reading.option, h]

theorem readGrounded_entries (c d : GroundedConfig Float32) (h : d.decoder.interactions = none) :
    readGrounded d (.table .header
      (groundedEntries c ++ [("decoder", .table .header (decoderEntries c.decoder))])) =
      some c := by
  simp -implicitDefEqProofs [readGrounded, groundedEntries, readDecoder_entries, h]

/-- What is read from the table of a configuration is this configuration. -/
theorem ofEntries?_entries (c : Config Float32) : ofEntries? c.entries = some c := by
  have halpha : (default : Config Float32).optimizer.alpha = none := rfl
  have hbeta : (default : Config Float32).optimizer.beta = none := rfl
  have hdecoder : (default : Config Float32).grounded.decoder.interactions = none := rfl
  simp -implicitDefEqProofs [ofEntries?, entries, topSections, readOptimizer_entries, halpha, hbeta,
    readWeights_entries, readScorer_entries, readFeatures_entries, readRun_entries,
    readBandit_entries, readGrounded_entries, hdecoder]

/-- A configuration that is valid is read back from its document. -/
theorem read_write {c : Config Float32} (hvalid : c.validate = .ok ())
    {document : String} (hwrite : c.write = .ok document) : Config.read document = .ok c := by
  have hdocument : Toml.isInteger c.run.checkHoldoutEvery.toNat = true ∧
      Toml.render c.statements = document := by
    unfold write at hwrite
    split at hwrite
    · exact ⟨‹_›, Except.ok.inj hwrite⟩
    · cases hwrite
  obtain ⟨hcounter, rfl⟩ := hdocument
  unfold Config.read
  rw [Toml.parse?_render (isPlain_statements hcounter), ofStatements?_statements]
  dsimp only
  rw [ofEntries?_entries]
  dsimp only
  rw [hvalid]
  rfl

end Config

end OnlineLearning
