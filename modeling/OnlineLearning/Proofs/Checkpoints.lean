import OnlineLearning.Checkpoint
import OnlineLearning.Proofs.Configured
import OnlineLearning.Proofs.Documents

/-!
# Checkpoints

A checkpoint file is taken back to the configuration and the model that it was written of, whatever
the workspace has gone through. A file without a version, or with another one, is turned down.

* `Checkpoint.run_version`: the four bytes that every file begins with;
* `Checkpoint.payload_save`: a file holds the document and the model that it was written of;
* `Workspace.load_model`: the new workspace of a configuration takes the model of every workspace of
  this configuration, and then has this model itself;
* `Checkpoint.restore_save`: what comes of it for files;
* `Checkpoint.restore_faithful`: which files are taken back, and which are turned down.
-/

namespace OnlineLearning

/-! ## Files -/

namespace Checkpoint

theorem restore_payload {bytes : List UInt8} {e : CheckpointError} (h : payload bytes = .error e) :
    restore (some bytes) = .error e := by
  unfold restore
  dsimp only
  rw [h]
  rfl

/-- Four bytes are read as a version. -/
theorem run_version (bytes : List UInt8) :
    (Persistent.decoder : Decoder UInt32).run bytes =
      if 4 ≤ bytes.length then
        .ok (UInt32.ofNat (ofLittleEndian (bytes.take 4)), bytes.drop 4)
      else .error .outOfBytes := by
  have htake : (Decoder.take 4).run bytes =
      if 4 ≤ bytes.length then .ok (bytes.take 4, bytes.drop 4) else .error .outOfBytes := by
    change (if (bytes.take 4).length = 4 then _ else _) = _
    rw [List.length_take]
    exact if_congr (by omega) rfl rfl
  change (UInt32.ofNat <$> ofLittleEndian <$> Decoder.take 4).run bytes = _
  rw [StateT.run_map, StateT.run_map, htake]
  split <;> rfl

/-- A file that ends before its version does is no checkpoint. -/
theorem restore_short {bytes : List UInt8} (h : bytes.length < 4) :
    restore (some bytes) = .error (.serialization .outOfBytes) := by
  refine restore_payload ?_
  unfold payload
  rw [run_version, if_neg (Nat.not_le_of_lt h)]

theorem ofLittleEndian_lt (bytes : List UInt8) :
    ofLittleEndian bytes < 256 ^ bytes.length := by
  induction bytes with
  | nil => decide
  | cons byte rest ih =>
    have hbyte := byte.toNat_lt
    rw [ofLittleEndian, List.length_cons, Nat.pow_succ]
    omega

theorem littleEndian_ofLittleEndian (bytes : List UInt8) :
    littleEndian bytes.length (ofLittleEndian bytes) = bytes := by
  induction bytes with
  | nil => rfl
  | cons byte rest ih =>
    have hbyte := byte.toNat_lt
    have hmod : (byte.toNat + 256 * ofLittleEndian rest) % 256 = byte.toNat := by omega
    have hdiv : (byte.toNat + 256 * ofLittleEndian rest) / 256 = ofLittleEndian rest := by omega
    rw [ofLittleEndian, List.length_cons, littleEndian, hmod, hdiv, ih, UInt8.ofNat_toNat]

theorem version_ne {bytes : List UInt8} (hlength : 4 ≤ bytes.length)
    (h : bytes.take 4 ≠ [1, 0, 0, 0]) :
    UInt32.ofNat (ofLittleEndian (bytes.take 4)) ≠ version := fun hequal => by
  have hlt := ofLittleEndian_lt (bytes.take 4)
  have hbytes := littleEndian_ofLittleEndian (bytes.take 4)
  rw [List.length_take_of_le hlength] at hlt hbytes
  have hnumber : ofLittleEndian (bytes.take 4) = version.toNat := by
    rw [← hequal]
    exact (UInt32.toNat_ofNat_of_lt' hlt).symm
  rw [hnumber] at hbytes
  exact h hbytes.symm

/-- A file whose version is another one is turned down, whatever follows its version. -/
theorem restore_otherVersion {bytes : List UInt8} (hlength : 4 ≤ bytes.length)
    (h : bytes.take 4 ≠ [1, 0, 0, 0]) :
    restore (some bytes) = .error
      (.versionMismatch version (UInt32.ofNat (ofLittleEndian (bytes.take 4)))) := by
  refine restore_payload ?_
  unfold payload
  rw [run_version, if_pos hlength]
  dsimp only
  rw [if_pos (version_ne hlength h)]

/-- What a file holds. -/
theorem payload_save {w : Workspace Float32 Float} {file : List UInt8} (hsave : save w = .ok file)
    (hsize : file.length < 2 ^ 64) :
    ∃ document, w.config.write = .ok document ∧ payload file = .ok (document, w.model) := by
  unfold save at hsave
  split at hsave
  · cases hsave
  · rename_i document hwrite
    cases hsave
    refine ⟨document, hwrite, ?_⟩
    have htext : document.toUTF8.size < 2 ^ 64 ∧ w.model.length < 2 ^ 64 := by
      have hlength : document.toUTF8.toList.length = document.toUTF8.size := by
        rw [toList_data]
        rfl
      simp only [FieldValue.encodeAll, FieldValue.encode, List.length_append, hlength] at hsize
      omega
    have hversion : ∀ rest, (Persistent.decoder : Decoder UInt32).run
        (littleEndian 4 version.toNat ++ rest) = .ok (version, rest) := fun rest => by
      change (UInt32.ofNat <$> Decoder.number 4).run _ = _
      rw [StateT.run_map, Decoder.run_number (by decide)]
      rfl
    have hparts : (do pure (← Decoder.text, ← Decoder.block) : Decoder _).run
        (FieldValue.encodeAll [.text document, .bytes w.model]) = .ok ((document, w.model), []) := by
      have hdocument : ∀ rest, Decoder.text.run ((FieldValue.text document).encode ++ rest) =
          .ok (document, rest) := Persistent.decodes_text htext.1
      rw [FieldValue.encodeAll, Decoder.run_bind_ok (hdocument _), FieldValue.encodeAll,
        FieldValue.encode, Decoder.run_bind_ok (Decoder.run_block htext.2 _)]
      rfl
    rw [FieldValue.encodeAll, FieldValue.encode]
    unfold payload
    rw [hversion]
    dsimp only
    rw [if_neg (not_not_intro rfl), hparts]

end Checkpoint

/-! ## Models -/

namespace Workspace

variable {c : Config Float32} {w₀ : Workspace Float32 Float}

/-- The new workspace of a configuration takes the model of every workspace that comes from it, and
then has this model itself. -/
theorem load_model (hnew : Workspace.new c = .ok w₀) (hresume : c.run.saveResume = true)
    (events : List Event) :
    let model := (w₀.echoes events).2.model
    ∃ left, w₀.load .binary model = (.ok (), left) ∧ left.config = c ∧ left.model = model := by
  obtain ⟨p, hasher, -, hreached⟩ := configured hnew
  obtain ⟨-, hw⟩ := hreached events
  obtain ⟨hconfig, hw₀⟩ := hreached []
  have hresume' : p.context.saveResume = true :=
    (Config.saveResume_of_initialContext p.context_eq).trans hresume
  obtain ⟨left, (hload : w₀.chain.load .binary _ = _), -, hfields⟩ := hw.load_saved p.mask_lt
    (fun _ _ _ hc => hc.withStats _) hw₀
  refine ⟨{ w₀ with chain := left }, ?_, hconfig, ?_⟩
  · unfold load model
    rw [hload]
  · unfold model Chain.save
    dsimp only
    rw [hfields (hw.context.2.saveResume.trans hresume') (hw₀.context.2.saveResume.trans hresume')]

end Workspace

namespace Checkpoint

variable {c : Config Float32} {w₀ : Workspace Float32 Float}

/-- The file of a workspace is taken back to its configuration and its model. -/
theorem restore_save (hnew : Workspace.new c = .ok w₀) (hresume : c.run.saveResume = true)
    (events : List Workspace.Event) {file : List UInt8} (hsave : save (w₀.echoes events).2 = .ok file)
    (hsize : file.length < 2 ^ 64) :
    ∃ w, restore (some file) = .ok w ∧ w.config = (w₀.echoes events).2.config ∧
      w.model = (w₀.echoes events).2.model := by
  obtain ⟨p, hasher, -, hreached⟩ := Workspace.configured hnew
  have hconfig := (hreached events).1
  obtain ⟨left, hload, hleft, hmodel⟩ := Workspace.load_model hnew hresume events
  obtain ⟨document, hwrite, hpayload⟩ := payload_save hsave hsize
  rw [hconfig] at hwrite
  have hread := Config.read_write p.valid hwrite
  have hbuilt : (do Workspace.new (← Config.read document) : Except ConfigError (Workspace _ _)) =
      .ok w₀ := bind_eq_ok.mpr ⟨c, hread, hnew⟩
  refine ⟨left, ?_, hleft.trans hconfig.symm, hmodel⟩
  refine bind_eq_ok.mpr ⟨_, hpayload, ?_⟩
  dsimp only
  rw [hbuilt]
  dsimp only
  rw [hload]
  rfl

/-- The files of workspaces that keep their statistics are taken back; lengths are written with 64
bits, and a file is no longer than that. Other files are turned down by their first four bytes
already, if these are not there or are not the version. -/
theorem restore_faithful :
    (∀ (c : Config Float32) (w₀ : Workspace Float32 Float), Workspace.new c = .ok w₀ →
      c.run.saveResume = true → ∀ (events : List Workspace.Event) (file : List UInt8),
        save (w₀.echoes events).2 = .ok file → file.length < 2 ^ 64 →
        ∃ w, restore (some file) = .ok w ∧ w.config = (w₀.echoes events).2.config ∧
          w.model = (w₀.echoes events).2.model) ∧
    (∀ bytes : List UInt8, bytes.length < 4 →
      restore (some bytes) = .error (.serialization .outOfBytes)) ∧
    ∀ bytes : List UInt8, 4 ≤ bytes.length → bytes.take 4 ≠ [1, 0, 0, 0] →
      ∃ found, found ≠ version ∧ restore (some bytes) = .error (.versionMismatch version found) := by
  refine ⟨fun c w₀ hnew hresume events file hsave hsize => ?_, fun bytes h => restore_short h,
    fun bytes hlength hother => ?_⟩
  · exact restore_save hnew hresume events hsave hsize
  · exact ⟨_, version_ne hlength hother, restore_otherVersion hlength hother⟩

/-- A workspace that has learned from a batch and closed a pass: its file holds the group of the
feature, the statistics of the line and the bounds that its cost has widened. -/
theorem restore_faithful_default :
    let w₀ := Config.banditWorkspace
    let hasher := w₀.chain.hasher
    let w := (w₀.echoes [.call (.learnBatch (Workspace.clickBatch hasher)), .endPass]).2
    let stats := w.chain.context.stats
    Workspace.new Config.defaultBandit = .ok w₀ ∧ Config.defaultBandit.run.saveResume = true ∧
      w.chain.optimizer.weights.nonZeroIndices = [hasher.hash "a" "x"] ∧
      0 < stats.weightedLabeledExamples ∧ stats.maxLabel = 1 ∧
      ∃ file, save w = .ok file ∧ file.length < 2 ^ 64 ∧
        (∃ restored, restore (some file) = .ok restored ∧ restored.config = w.config ∧
          restored.model = w.model) ∧
        restore (some [1, 0, 0]) = .error (.serialization .outOfBytes) ∧
        ∃ found, found ≠ version ∧
          restore (some [2, 0, 0, 0]) = .error (.versionMismatch version found) := by
  intro w₀ hasher w stats
  have hfile : (match save w with
      | .ok file => decide (file.length < 2 ^ 64)
      | .error _ => false) = true := by decide +kernel
  obtain ⟨hrestored, hshort, hother⟩ := restore_faithful
  refine ⟨Config.new_defaultBandit, rfl, by decide +kernel, by decide +kernel, by decide +kernel, ?_⟩
  cases hsave : save w with
  | error e =>
    rw [hsave] at hfile
    cases hfile
  | ok file =>
    rw [hsave] at hfile
    have hsize := of_decide_eq_true hfile
    exact ⟨file, rfl, hsize, hrestored _ _ Config.new_defaultBandit rfl _ file hsave hsize,
      hshort _ (by decide), hother _ (by decide) (by decide)⟩

end Checkpoint

end OnlineLearning
